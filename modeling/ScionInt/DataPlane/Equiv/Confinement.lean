import ScionInt.DataPlane.Equiv.Checksum

/-!
# Where INT data goes

The egress control decides from `intState`, the instance type and the validity of `int_shim` what
becomes of a copy, and `intState` is zero both for an ingress clone, whose metadata is fresh, and for a
frame on which `clone_int` ran.  `ingress_clone` and `egress_…` below list the cases.

Main result: `confined`.  The copies for the controller go to the CPU port only, one for each frame with
INT headers on which `clone_int` ran; no other copy carries `int_cpu` or has lost its outer headers, and
the INT headers of the others are removed where `clone_int` ran and untouched where neither action did.
-/

namespace ScionInt

open Wire

/-! ### The ingress control -/

namespace INTSwitchIngress

/-- `clone_int` runs on a packet with these headers. -/
def RunsClone (t : ScionIntTable) (hdr : HeadersT) : Prop :=
  hdr.ethernet.isSome ∧ hdr.udpScion.isSome ∧ t.lookup hdr.scionDst = some .clone_int

/-- `insert_int` runs on a packet with these headers. -/
def RunsInsert (t : ScionIntTable) (hdr : HeadersT) : Prop :=
  hdr.ethernet.isSome ∧ hdr.udpScion.isSome ∧ ∃ instructionBits domainBits : BitVec 16,
    t.lookup hdr.scionDst = some (.insert_int instructionBits domainBits)

variable {t : ScionIntTable} {p : Packet}

theorem apply_of_runsClone (h : RunsClone t p.hdr) :
    apply t p = ({ p with metadata.intState := 0, metadata.addLen := 0 },
      some { session := 1, index := 1 }) := by
  obtain ⟨hethernet, hudpScion, hentry⟩ := h
  unfold HeadersT.scionDst at hentry
  simp only [apply, if_pos (And.intro hethernet hudpScion), scionInt, hentry, cloneInt]

theorem apply_of_runsInsert (h : RunsInsert t p.hdr) :
    ∃ instructionBits domainBits : BitVec 16, apply t p = (insertInt instructionBits domainBits
      { p with metadata.intState := 2, metadata.addLen := 0 }, none) := by
  obtain ⟨hethernet, hudpScion, instructionBits, domainBits, hentry⟩ := h
  unfold HeadersT.scionDst at hentry
  refine ⟨instructionBits, domainBits, ?_⟩
  simp only [apply, if_pos (And.intro hethernet hudpScion), scionInt, hentry]

theorem apply_of_not_runs (hclone : ¬ RunsClone t p.hdr) (hinsert : ¬ RunsInsert t p.hdr) :
    apply t p = ({ p with metadata.intState := 2, metadata.addLen := 0 }, none) := by
  rw [apply]
  split_ifs with hvalid
  · rw [scionInt]
    simp only
    split
    · rename_i instructionBits domainBits hentry
      exact absurd ⟨hvalid.1, hvalid.2, instructionBits, domainBits, hentry⟩ hinsert
    · rename_i hentry
      exact absurd ⟨hvalid.1, hvalid.2, hentry⟩ hclone
    · rfl
    · rfl
  · rfl

/-- Only `clone_int` requests a clone. -/
theorem clone_apply_of_not_runsClone (h : ¬ RunsClone t p.hdr) : (apply t p).2 = none := by
  by_cases hinsert : RunsInsert t p.hdr
  · obtain ⟨instructionBits, domainBits, happly⟩ := apply_of_runsInsert hinsert
    rw [happly]
  · rw [apply_of_not_runs h hinsert]

end INTSwitchIngress

namespace Switch

/-- `clone_int` runs on a received frame. -/
def RunsClone (sw : Switch) (a : Arrival) : Prop :=
  INTSwitchIngress.RunsClone sw.scionInt (parse a.frame).hdr

/-- `insert_int` runs on a received frame. -/
def RunsInsert (sw : Switch) (a : Arrival) : Prop :=
  INTSwitchIngress.RunsInsert sw.scionInt (parse a.frame).hdr

instance (sw : Switch) (a : Arrival) : Decidable (sw.RunsClone a) :=
  inferInstanceAs (Decidable (_ ∧ _ ∧ _))

variable {sw : Switch} {a : Arrival}

/-- The ingress control runs on a packet with the headers of the frame. -/
theorem ingress_apply (sw : Switch) (a : Arrival) :
    ∃ p : Packet, p.hdr = (parse a.frame).hdr ∧ p.rest = (parse a.frame).rest ∧
      (sw.ingress a).packet = (INTSwitchIngress.apply sw.scionInt p).1 ∧
      (sw.ingress a).clone = (INTSwitchIngress.apply sw.scionInt p).2 := by
  obtain ⟨s, -, hpacket, hclone⟩ := sw.ingress_eq a
  exact ⟨_, rfl, rfl, hpacket, hclone⟩

theorem ingress_clone (h : sw.RunsClone a) :
    (sw.ingress a).clone = some { session := 1, index := 1 } := by
  obtain ⟨p, hhdr, -, -, hclone⟩ := sw.ingress_apply a
  rw [RunsClone, ← hhdr] at h
  rw [hclone, INTSwitchIngress.apply_of_runsClone h]

theorem ingress_noClone (h : ¬ sw.RunsClone a) : (sw.ingress a).clone = none := by
  obtain ⟨p, hhdr, -, -, hclone⟩ := sw.ingress_apply a
  rw [RunsClone, ← hhdr] at h
  rw [hclone, INTSwitchIngress.clone_apply_of_not_runsClone h]

/-- Where `clone_int` ran the headers are those of the frame and `intState` is zero. -/
theorem ingress_packet_clone (h : sw.RunsClone a) :
    (sw.ingress a).packet.hdr = (parse a.frame).hdr ∧
    (sw.ingress a).packet.rest = (parse a.frame).rest ∧
    (sw.ingress a).packet.metadata.intState = 0 := by
  obtain ⟨p, hhdr, hrest, hpacket, -⟩ := sw.ingress_apply a
  rw [RunsClone, ← hhdr] at h
  rw [hpacket, INTSwitchIngress.apply_of_runsClone h]
  exact ⟨hhdr, hrest, rfl⟩

/-- Where neither action ran the headers are those of the frame and `intState` is 2. -/
theorem ingress_packet_none (hclone : ¬ sw.RunsClone a) (hinsert : ¬ sw.RunsInsert a) :
    (sw.ingress a).packet.hdr = (parse a.frame).hdr ∧
    (sw.ingress a).packet.metadata.intState = 2 := by
  obtain ⟨p, hhdr, -, hpacket, -⟩ := sw.ingress_apply a
  rw [RunsClone, ← hhdr] at hclone
  rw [RunsInsert, ← hhdr] at hinsert
  rw [hpacket, INTSwitchIngress.apply_of_not_runs hclone hinsert]
  exact ⟨hhdr, rfl⟩

end Switch

/-! ### The egress control -/

namespace INTSwitchEgress

variable (t : Tables) {p : Packet}

/-- A packet that is to lose its INT headers but has none: a clone is dropped. -/
theorem apply_noShim (hethernet : p.hdr.ethernet.isSome) (hudpScion : p.hdr.udpScion.isSome)
    (hshim : p.hdr.intShim = none) (hstate : p.metadata.intState = 0) :
    apply t p = if p.stdMeta.instanceType = INGRESS_CLONE then markToDrop p else p := by
  have hinsert : ¬ (p.hdr.udpScion.isSome ∧ p.metadata.intState = 1) := by
    rw [hstate]
    simp
  simp only [apply, if_pos hethernet, if_neg hinsert]
  rw [if_pos ⟨hudpScion, hstate⟩, hshim, if_neg (by simp)]
  rfl

/-- A packet that the INT controls leave alone. -/
theorem apply_alone (hstate : p.metadata.intState = 2)
    (horig : p.stdMeta.instanceType ≠ INGRESS_CLONE) : apply t p = p := by
  have hinsert : ¬ (p.hdr.udpScion.isSome ∧ p.metadata.intState = 1) := by
    rw [hstate]
    simp
  have hdelete : ¬ (p.hdr.udpScion.isSome ∧ p.metadata.intState = 0) := by
    rw [hstate]
    simp
  have horig' : ¬ p.stdMeta.instanceType = 1 := horig
  simp only [apply, if_neg hinsert, if_neg hdelete, if_neg horig']
  exact ite_self p

end INTSwitchEgress

/-- A frame without `int_shim` has no INT headers at all. -/
theorem parse_noShim {frame : List Byte} (h : (parse frame).hdr.intShim = none) :
    (parse frame).hdr.intMd = none ∧ (parse frame).hdr.intStack.preIntStack = none := by
  have hout := parse_outcome frame
  generalize parse frame = r at hout h
  cases hout with
  | noEthernet | notIpv4 | noIpv4 | notUdp | noUdp | noUdpScion | noInt | noShim => exact ⟨rfl, rfl⟩
  | notMd | noMd | emptyStack | badStack | badPayload | payload => cases h

theorem intCpu_parse (frame : List Byte) : (parse frame).hdr.intCpu = none := by
  have hout := parse_outcome frame
  generalize parse frame = r at hout
  cases hout with
  | noEthernet | notIpv4 | noIpv4 | notUdp | noUdp | noUdpScion | noInt | noShim | notMd | noMd
  | emptyStack | badStack | badPayload | payload => rfl

/-! ### The copies -/

namespace Switch

variable {sw : Switch} {a : Arrival} {c : Packet}

/-- The copy of a frame for a replica of the clone session, in front of the egress control. -/
def clonePacket (sw : Switch) (a : Arrival) (r : Replica) : Packet :=
  toEgress a { receive a with
    metadata.cpuHdrLen := (sw.ingress a).packet.metadata.cpuHdrLen } INGRESS_CLONE r

theorem instanceType_clonePacket (sw : Switch) (a : Arrival) (r : Replica) :
    (sw.clonePacket a r).stdMeta.instanceType = INGRESS_CLONE := rfl

/-- What the egress control makes of a clone. -/
theorem myEgress_clonePacket (h : sw.RunsClone a) (r : Replica) :
    sw.myEgress (sw.clonePacket a r) =
      if (parse a.frame).hdr.intShim.isSome then
        some (INTSwitchEgress.keepIntCpu (sw.clonePacket a r))
      else none := by
  have hstate : (sw.clonePacket a r).metadata.intState = 0 := intState_parse h.2.1
  by_cases hshim : (parse a.frame).hdr.intShim.isSome
  · rw [if_pos hshim, myEgress, INTSwitchEgress.apply_clone sw.egress h.1 h.2.1 hshim hstate,
      INTSwitchEgress.handleCloneInstances_clone rfl]
    exact if_neg (show (0 : BitVec 9) ≠ DROP_PORT by decide)
  · rw [if_neg hshim, myEgress, INTSwitchEgress.apply_noShim sw.egress h.1 h.2.1
      (Option.not_isSome_iff_eq_none.mp hshim) hstate, if_pos (sw.instanceType_clonePacket a r)]
    exact if_pos rfl

/-- The clones that leave the switch: one for each replica of the clone session, if the frame has INT
headers and `clone_int` ran. -/
theorem egress_clones {replicas : List Replica} (hsession : sw.cloneSessions.lookup 1 = some replicas) :
    (sw.clones a).filterMap sw.myEgress =
      if sw.RunsClone a ∧ (parse a.frame).hdr.intShim.isSome then
        replicas.map fun r => INTSwitchEgress.keepIntCpu (sw.clonePacket a r)
      else [] := by
  by_cases hrun : sw.RunsClone a
  · -- `clone_int` ran: one copy for each replica, equal up to its port
    have hclones : sw.clones a = replicas.map (sw.clonePacket a) := by
      unfold clones
      simp only [ingress_clone hrun, hsession, Option.getD_some]
      rfl
    rw [hclones, List.filterMap_map]
    by_cases hshim : (parse a.frame).hdr.intShim.isSome
    · rw [if_pos ⟨hrun, hshim⟩, ← List.filterMap_eq_map]
      refine List.filterMap_congr fun r _ => ?_
      rw [Function.comp_apply, myEgress_clonePacket hrun, if_pos hshim]
      rfl
    · rw [if_neg fun h => hshim h.2, List.filterMap_eq_nil_iff]
      intro r _
      rw [Function.comp_apply, myEgress_clonePacket hrun, if_neg hshim]
  · unfold clones
    rw [if_neg fun h => hrun h.1, ingress_noClone hrun]
    rfl

/-- The other copies that leave the switch are not clones. -/
theorem not_isClone_of_mem_originals (hc : c ∈ (sw.originals a).filterMap sw.myEgress) :
    ¬ c.isClone := by
  obtain ⟨p, hp, hout⟩ := List.mem_filterMap.mp hc
  obtain ⟨r, instanceType, hinst, rfl⟩ := mem_originals hp
  rw [myEgress] at hout
  split_ifs at hout
  obtain rfl := Option.some.inj hout
  rw [Packet.isClone, INTSwitchEgress.instanceType_apply]
  exact hinst

/-- A copy, clones apart, of a frame on which `clone_int` ran: INT headers are deleted, if there are
any. -/
theorem mem_process_delete (h : sw.RunsClone a) (hc : c ∈ sw.process a) (horig : ¬ c.isClone) :
    ∃ p : Packet, p.hdr = (parse a.frame).hdr ∧ p.rest = (parse a.frame).rest ∧
      c = if (parse a.frame).hdr.intShim.isSome then INTSwitchEgress.deleteInt p else p := by
  obtain ⟨r, instanceType, hinst, rfl⟩ := mem_process_original hc horig
  obtain ⟨hhdr, hrest, hstate⟩ := ingress_packet_clone h
  -- only the headers, the rest and the state of the copy matter
  generalize hp : toEgress a (sw.ingress a).packet instanceType r = p
  have hphdr : p.hdr = (parse a.frame).hdr := by
    rw [← hp]
    exact hhdr
  have hpstate : p.metadata.intState = 0 := by
    rw [← hp]
    exact hstate
  have hpinst : p.stdMeta.instanceType ≠ INGRESS_CLONE := by
    rw [← hp]
    exact hinst
  have hethernet : p.hdr.ethernet.isSome := by
    rw [hphdr]
    exact h.1
  have hudpScion : p.hdr.udpScion.isSome := by
    rw [hphdr]
    exact h.2.1
  refine ⟨p, hphdr, by rw [← hp]; exact hrest, ?_⟩
  rw [← hphdr]
  split_ifs with hshim
  · rw [INTSwitchEgress.apply_clone sw.egress hethernet hudpScion hshim hpstate,
      INTSwitchEgress.handleCloneInstances_original hpinst]
  · rw [INTSwitchEgress.apply_noShim sw.egress hethernet hudpScion
      (Option.not_isSome_iff_eq_none.mp hshim) hpstate, if_neg hpinst]

/-- Where neither action ran there are no clones, and the other copies keep their headers. -/
theorem hdr_process_alone (hclone : ¬ sw.RunsClone a) (hinsert : ¬ sw.RunsInsert a)
    (hc : c ∈ sw.process a) : c.hdr = (parse a.frame).hdr := by
  by_cases hisClone : c.isClone
  · obtain ⟨r, -, hsome⟩ := mem_process_clone hc hisClone
    rw [ingress_noClone hclone] at hsome
    cases hsome
  · obtain ⟨r, instanceType, hinst, rfl⟩ := mem_process_original hc hisClone
    obtain ⟨hhdr, hstate⟩ := ingress_packet_none hclone hinsert
    rw [INTSwitchEgress.apply_alone sw.egress (p := toEgress a (sw.ingress a).packet instanceType r)
      hstate hinst]
    exact hhdr

/-- INT data and the copies for the controller stay where they belong; `cpu` is the replica of the clone
session. -/
structure Confined (sw : Switch) (a : Arrival) (cpu : Replica) : Prop where
  clones : (sw.process a).countP (fun c => c.isClone) =
    if sw.RunsClone a ∧ (parse a.frame).hdr.intShim.isSome then 1 else 0
  cpuPort : ∀ c ∈ sw.process a, c.isClone → c.stdMeta.egressPort = cpu.egressPort
  outer : ∀ c ∈ sw.process a, ¬ c.isClone → c.hdr.intCpu = none ∧
    c.hdr.ethernet = (parse a.frame).hdr.ethernet ∧
    c.hdr.ipv4.isSome = (parse a.frame).hdr.ipv4.isSome ∧
    c.hdr.udp.isSome = (parse a.frame).hdr.udp.isSome
  deleted : sw.RunsClone a → ∀ c ∈ sw.process a, ¬ c.isClone →
    c.hdr.intShim = none ∧ c.hdr.intMd = none ∧ c.hdr.intStack.preIntStack = none
  untouched : ¬ sw.RunsClone a → ¬ sw.RunsInsert a → ∀ c ∈ sw.process a,
    c.hdr.intShim = (parse a.frame).hdr.intShim ∧ c.hdr.intMd = (parse a.frame).hdr.intMd ∧
    c.hdr.intStack = (parse a.frame).hdr.intStack

/-- Whatever `scion_int`, the tables of the learning switch and the multicast groups contain, INT data
and the copies for the controller are confined. -/
theorem confined {cpu : Replica} (a : Arrival) (hsession : sw.cloneSessions.lookup 1 = some [cpu]) :
    Confined sw a cpu := by
  have hclones := egress_clones (a := a) hsession
  have hsplit : sw.process a =
      (sw.clones a).filterMap sw.myEgress ++ (sw.originals a).filterMap sw.myEgress :=
    List.filterMap_append
  constructor
  · -- the originals do not count
    have horig : ((sw.originals a).filterMap sw.myEgress).countP (fun c => c.isClone) = 0 := by
      rw [List.countP_eq_zero]
      intro c hc
      rw [decide_eq_true_iff]
      exact not_isClone_of_mem_originals hc
    rw [hsplit, List.countP_append, horig, hclones]
    split_ifs
    · rw [List.map_singleton, List.countP_singleton, Nat.add_zero]
      exact if_pos (decide_eq_true (sw.instanceType_clonePacket a cpu))
    · rfl
  · intro c hc hisClone
    rw [hsplit, List.mem_append] at hc
    rcases hc with hc | hc
    · rw [hclones] at hc
      split_ifs at hc
      · rw [List.map_singleton, List.mem_singleton] at hc
        rw [hc]
        rfl
      · cases hc
    · exact absurd hisClone (not_isClone_of_mem_originals hc)
  · intro c hc hisClone
    have hsame := sameOuter_process hc hisClone
    refine ⟨hsame.intCpu.trans (intCpu_parse a.frame), hsame.ethernet, ?_, ?_⟩
    · rw [← Option.isSome_map, hsame.protocol, Option.isSome_map]
    · rw [← Option.isSome_map, hsame.checksum, Option.isSome_map]
  · intro hrun c hc hisClone
    obtain ⟨p, hhdr, -, rfl⟩ := mem_process_delete hrun hc hisClone
    split_ifs with hshim
    · exact ⟨rfl, rfl, rfl⟩
    · rw [hhdr]
      have hnone := Option.not_isSome_iff_eq_none.mp hshim
      exact ⟨hnone, parse_noShim hnone⟩
  · intro hclone hinsert c hc
    rw [hdr_process_alone hclone hinsert hc]
    exact ⟨rfl, rfl, rfl⟩

theorem confined_sample : Confined (sampleSwitch .clone_int) (sampleArrival sampleSent.wire)
    { egressPort := 128 } :=
  confined _ rfl

end Switch

end ScionInt
