import ScionInt.DataPlane.Equiv.Switch

/-!
# Where a frame goes

`L2Switch` sees the Ethernet header and the ingress port of a frame only, and the INT controls do not
move a copy to another port.  `digests_ingress` gives the messages that a frame causes, `copyPorts` are
the ports on which its copies leave, apart from the clones for the controller, and `copyPorts_flood` and
`copyPorts_forward` say which ports these are.
-/

namespace ScionInt

open Wire

/-! ### The Ethernet header -/

theorem ParseOutcome.ethernet {frame : List Byte} {r : ParsedPacket} (h : ParseOutcome frame r) :
    frame.length < 14 ∧ r.hdr.ethernet = none ∨
    ∃ (eth : EthernetH) (rest : List Byte), frame = emit eth ++ rest ∧ r.hdr.ethernet = some eth := by
  cases h with
  | noEthernet bs hlen => exact .inl ⟨hlen, rfl⟩
  | notIpv4 ethernet rest => exact .inr ⟨ethernet, _, rfl, rfl⟩
  | noIpv4 ethernet rest => exact .inr ⟨ethernet, _, rfl, rfl⟩
  | notUdp ethernet => exact .inr ⟨ethernet, _, rfl, rfl⟩
  | noUdp ethernet => exact .inr ⟨ethernet, _, rfl, rfl⟩
  | noUdpScion ethernet => exact .inr ⟨ethernet, _, rfl, rfl⟩
  | noInt q | noShim q | notMd q | noMd q | emptyStack q | badStack q | badPayload q | payload q =>
    exact .inr ⟨q.ethernet, _, List.append_assoc _ _ _, rfl⟩

/-- A frame is too short or starts with the Ethernet header that the parser extracts. -/
theorem parse_ethernet_cases (frame : List Byte) :
    frame.length < 14 ∧ (parse frame).hdr.ethernet = none ∨
    ∃ (eth : EthernetH) (rest : List Byte), frame = emit eth ++ rest ∧
      (parse frame).hdr.ethernet = some eth :=
  (IntSwitchParser.start_outcome frame).ethernet

theorem parse_ethernet (eth : EthernetH) (rest : List Byte) :
    (parse (emit eth ++ rest)).hdr.ethernet = some eth := by
  rcases parse_ethernet_cases (emit eth ++ rest) with ⟨hlen, -⟩ | ⟨eth', rest', hframe, heth⟩
  · rw [List.length_append, length_emit, EthernetH.size_eq] at hlen
    omega
  · rw [heth, (emit_append_inj hframe).1]

/-! ### The ingress control -/

/-- Of the packet the verification changes `checksum_error` only. -/
theorem MyVerifyChecksum_checksumError (p : Packet) :
    ∃ e : BitVec 1, MyVerifyChecksum p = { p with stdMeta.checksumError := e } := by
  unfold MyVerifyChecksum
  dsimp only
  split_ifs
  · exact ⟨1, rfl⟩
  · exact ⟨p.stdMeta.checksumError, rfl⟩

/-- The INT control does not touch the standard metadata. -/
theorem INTSwitchIngress.stdMeta_apply (t : INTSwitchIngress.ScionIntTable) (p : Packet) :
    (INTSwitchIngress.apply t p).1.stdMeta = p.stdMeta := by
  unfold INTSwitchIngress.apply
  dsimp only
  split_ifs
  · unfold scionInt
    dsimp only
    split
    · rfl
    · rfl
    · rfl
    · rfl
  · rfl

namespace Switch

variable {sw : Switch} {a : Arrival} {eth : EthernetH} {rest : List Byte}

/-- The learning switch runs on the Ethernet header and the ingress port of the frame. -/
theorem ingress_l2 (sw : Switch) (a : Arrival) :
    ∃ p : Packet, p.hdr.ethernet = (parse a.frame).hdr.ethernet ∧
      p.stdMeta.ingressPort = a.ingressPort ∧ p.stdMeta.mcastGrp = 0 ∧
      (sw.ingress a).packet.stdMeta = (L2Switch.apply sw.l2 p).1.stdMeta ∧
      (sw.ingress a).digests = (L2Switch.apply sw.l2 p).2 := by
  obtain ⟨e, hverify⟩ := MyVerifyChecksum_checksumError (receive a)
  refine ⟨MyVerifyChecksum (receive a), ?_, ?_, ?_, INTSwitchIngress.stdMeta_apply _ _, rfl⟩
  · rw [hverify]
    rfl
  · rw [hverify]
    rfl
  · rw [hverify]
    rfl

/-- A frame is reported unless its source address is in `learn_table`. -/
theorem digests_ingress (sw : Switch) (hframe : a.frame = emit eth ++ rest) :
    (sw.ingress a).digests =
      if sw.l2.learnTable.lookup eth.srcAddr = some .no_action then []
      else [⟨eth.srcAddr, a.ingressPort⟩] := by
  obtain ⟨p, heth, hport, -, -, hdigests⟩ := sw.ingress_l2 a
  rw [hframe, parse_ethernet] at heth
  rw [hdigests, L2Switch.apply, heth, Option.isSome_some, if_pos rfl]
  unfold L2Switch.learn L2Switch.learnSource
  rw [heth, hport, Option.getD_some]
  cases hlookup : sw.l2.learnTable.lookup eth.srcAddr with
  | none => rw [if_neg (by simp)]
  | some action =>
    cases action with
    | no_action => rw [if_pos rfl]
    | learn_source => rw [if_neg (by simp)]

/-- A message names the source address and the port of the frame. -/
theorem mem_digests_ingress {m : MacLearnMsgT} (hm : m ∈ (sw.ingress a).digests) :
    m.ingressPort = a.ingressPort ∧ sw.l2.learnTable.lookup m.srcAddr ≠ some .no_action ∧
    ∃ (eth : EthernetH) (rest : List Byte), a.frame = emit eth ++ rest ∧ eth.srcAddr = m.srcAddr := by
  rcases parse_ethernet_cases a.frame with ⟨-, hnone⟩ | ⟨eth, rest, hframe, -⟩
  · obtain ⟨p, heth, -, -, -, hdigests⟩ := sw.ingress_l2 a
    rw [hnone] at heth
    rw [hdigests, L2Switch.apply, heth, Option.isSome_none, if_neg Bool.false_ne_true] at hm
    cases hm
  · rw [sw.digests_ingress hframe] at hm
    split_ifs at hm with hlookup
    · cases hm
    · rw [List.mem_singleton] at hm
      subst hm
      exact ⟨rfl, hlookup, eth, rest, hframe, rfl⟩

/-- `flood` runs on a frame whose destination address is not in `forward_table`. -/
theorem mcastGrp_flood (hframe : a.frame = emit eth ++ rest)
    (hdst : sw.l2.forwardTable.lookup eth.dstAddr = none) :
    (sw.ingress a).packet.stdMeta.mcastGrp = (a.ingressPort + 1).setWidth 16 := by
  obtain ⟨p, heth, hport, -, hstdMeta, -⟩ := sw.ingress_l2 a
  rw [hframe, parse_ethernet] at heth
  rw [hstdMeta, L2Switch.apply, heth, Option.isSome_some, if_pos rfl]
  unfold L2Switch.forwardOrFlood
  rw [heth, Option.getD_some, hdst, ← hport]
  rfl

/-- `forward` runs on a frame whose destination address is in `forward_table`. -/
theorem egressSpec_forward (hframe : a.frame = emit eth ++ rest) {q : BitVec 9}
    (hdst : sw.l2.forwardTable.lookup eth.dstAddr = some (.forward q)) :
    (sw.ingress a).packet.stdMeta.mcastGrp = 0 ∧ (sw.ingress a).packet.stdMeta.egressSpec = q := by
  obtain ⟨p, heth, -, hgroup, hstdMeta, -⟩ := sw.ingress_l2 a
  rw [hframe, parse_ethernet] at heth
  rw [hstdMeta, L2Switch.apply, heth, Option.isSome_some, if_pos rfl]
  unfold L2Switch.forwardOrFlood
  rw [heth, Option.getD_some, hdst]
  exact ⟨hgroup, rfl⟩

end Switch

/-! ### The egress control -/

/-- Of the standard metadata of a copy of the frame itself the egress control changes the packet length
only. -/
theorem INTSwitchEgress.stdMeta_apply (t : INTSwitchEgress.Tables) {p : Packet}
    (horig : p.stdMeta.instanceType ≠ INGRESS_CLONE) :
    ∃ n : BitVec 32, (INTSwitchEgress.apply t p).stdMeta = { p.stdMeta with packetLength := n } := by
  have hout := apply_outcome t p
  generalize INTSwitchEgress.apply t p = c at hout
  cases hout with
  | alone => exact ⟨p.stdMeta.packetLength, rfl⟩
  | insert => exact stdMeta_insertStack t p
  | drop hclone => exact absurd hclone horig
  | insertDrop _ hclone => exact absurd hclone horig
  | handle =>
    rw [handleCloneInstances_original horig]
    exact ⟨p.stdMeta.packetLength - (subLen (p.hdr.intShim.getD default)).setWidth 32, rfl⟩

namespace Switch

variable {sw : Switch} {a : Arrival} {eth : EthernetH} {rest : List Byte}

/-- The ports on which the copies of a frame leave, apart from the clones for the controller. -/
def copyPorts (sw : Switch) (a : Arrival) : List (BitVec 9) :=
  ((sw.process a).filter fun c => ¬ c.isClone).map fun c => c.stdMeta.egressPort

/-- A clone stays a clone. -/
theorem filter_clones (sw : Switch) (a : Arrival) :
    (((sw.clones a).filterMap sw.myEgress).filter fun c => ¬ c.isClone) = [] := by
  rw [List.filter_eq_nil_iff]
  intro c hc
  obtain ⟨p, hp, hout⟩ := List.mem_filterMap.mp hc
  obtain ⟨r, rfl, -⟩ := mem_clones hp
  unfold myEgress at hout
  dsimp only at hout
  split_ifs at hout
  have hclone : c.isClone := by
    rw [← Option.some.inj hout]
    exact INTSwitchEgress.instanceType_apply _ _
  simp [hclone]

/-- No copy of the frame itself is dropped or moved in the egress control. -/
theorem myEgress_original {p : Packet} (hp : p ∈ sw.originals a) :
    ∃ c : Packet, sw.myEgress p = some c ∧ ¬ c.isClone ∧
      c.stdMeta.egressPort = p.stdMeta.egressPort := by
  obtain ⟨r, instanceType, hinst, rfl⟩ := mem_originals hp
  obtain ⟨n, hn⟩ := INTSwitchEgress.stdMeta_apply sw.egress
    (p := toEgress a (sw.ingress a).packet instanceType r) hinst
  refine ⟨INTSwitchEgress.apply sw.egress (toEgress a (sw.ingress a).packet instanceType r),
    ?_, ?_, ?_⟩
  · unfold myEgress
    dsimp only
    rw [hn]
    exact if_neg (show (0 : BitVec 9) ≠ DROP_PORT by decide)
  · unfold Packet.isClone
    rw [hn]
    exact hinst
  · rw [hn]

theorem copyPorts_eq (sw : Switch) (a : Arrival) :
    sw.copyPorts a = (sw.originals a).map fun p => p.stdMeta.egressPort := by
  have hports : ∀ l : List Packet, (∀ p ∈ l, p ∈ sw.originals a) →
      ((l.filterMap sw.myEgress).filter fun c => ¬ c.isClone).map (fun c => c.stdMeta.egressPort) =
        l.map fun p => p.stdMeta.egressPort := by
    intro l hl
    induction l with
    | nil => rfl
    | cons p l ih =>
      obtain ⟨c, hemit, horig, hport⟩ := myEgress_original (hl p List.mem_cons_self)
      have hrest := ih fun p' hp' => hl p' (List.mem_cons_of_mem p hp')
      rw [List.filterMap_cons, hemit]
      dsimp only
      rw [List.filter_cons, if_pos (decide_eq_true horig), List.map_cons, List.map_cons, hrest, hport]
  unfold copyPorts process
  rw [List.filterMap_append, List.filter_append, filter_clones, List.nil_append]
  exact hports (sw.originals a) fun _ hp => hp

/-- A flooded frame leaves on the ports of its group. -/
theorem copyPorts_flood (hframe : a.frame = emit eth ++ rest)
    (hdst : sw.l2.forwardTable.lookup eth.dstAddr = none) {replicas : List Replica}
    (hne : (a.ingressPort + 1).setWidth 16 ≠ 0)
    (hgroup : sw.mcastGroups.lookup ((a.ingressPort + 1).setWidth 16) = some replicas) :
    sw.copyPorts a = replicas.map fun r => r.egressPort := by
  have hmcastGrp := mcastGrp_flood hframe hdst
  rw [copyPorts_eq, originals, hmcastGrp, if_pos hne, hgroup, Option.getD_some, List.map_map]
  rfl

/-- A forwarded frame leaves on the port of the entry, unless that is the drop port. -/
theorem copyPorts_forward (hframe : a.frame = emit eth ++ rest) {q : BitVec 9}
    (hdst : sw.l2.forwardTable.lookup eth.dstAddr = some (.forward q)) :
    sw.copyPorts a = if q = DROP_PORT then [] else [q] := by
  obtain ⟨hmcastGrp, hegressSpec⟩ := egressSpec_forward hframe hdst
  rw [copyPorts_eq, originals, hmcastGrp, hegressSpec, if_neg (fun h => h rfl)]
  by_cases hq : q = DROP_PORT
  · rw [if_pos hq, if_neg (fun h => h hq), List.map_nil]
  · rw [if_neg hq, if_pos hq]
    rfl

end Switch

end ScionInt
