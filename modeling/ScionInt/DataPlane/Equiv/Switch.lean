import ScionInt.DataPlane.Equiv.Frame
import ScionInt.DataPlane.Switch

/-!
# The copies that a switch emits

`mem_process` splits the copies into ingress clones and copies of the frame itself and gives for each
the packet on which the egress control ran.  For a UDP-over-SCION frame `process_insert` and
`process_delete` then compute the copies of a switch whose entry for the destination is `insert_int`
or `clone_int`.
-/

namespace ScionInt

open Wire

/-! ### What the controls leave alone -/

theorem L2Switch.apply_eq (t : L2Switch.Tables) (p : Packet) :
    ∃ s : StandardMetadataT, s.ingressGlobalTimestamp = p.stdMeta.ingressGlobalTimestamp ∧
      (L2Switch.apply t p).1 = { p with stdMeta := s } := by
  rw [L2Switch.apply]
  split_ifs
  · rw [forwardOrFlood]
    split
    · exact ⟨_, by rfl, rfl⟩
    · exact ⟨_, by rfl, rfl⟩
    · exact ⟨_, by rfl, rfl⟩
  · exact ⟨_, by rfl, rfl⟩

theorem MyVerifyChecksum_eq (p : Packet) :
    ∃ s : StandardMetadataT, s.ingressGlobalTimestamp = p.stdMeta.ingressGlobalTimestamp ∧
      MyVerifyChecksum p = { p with stdMeta := s } := by
  rw [MyVerifyChecksum]
  split_ifs
  · exact ⟨_, by rfl, rfl⟩
  · exact ⟨_, by rfl, rfl⟩

namespace Switch

/-- The ingress control sees the parsed frame; only the standard metadata has changed. -/
theorem ingress_eq (sw : Switch) (a : Arrival) :
    ∃ s : StandardMetadataT, s.ingressGlobalTimestamp = a.ingressTimestamp ∧
      (sw.ingress a).packet = (INTSwitchIngress.apply sw.scionInt { receive a with stdMeta := s }).1 ∧
      (sw.ingress a).clone = (INTSwitchIngress.apply sw.scionInt { receive a with stdMeta := s }).2 := by
  obtain ⟨s1, hs1, h1⟩ := MyVerifyChecksum_eq (receive a)
  obtain ⟨s2, hs2, h2⟩ := L2Switch.apply_eq sw.l2 { receive a with stdMeta := s1 }
  refine ⟨s2, hs2.trans hs1, ?_, ?_⟩
  · rw [ingress, myIngress, h1, h2]
  · rw [ingress, myIngress, h1, h2]

end Switch

/-- Of the standard metadata the egress tables change the packet length only. -/
theorem INTSwitchEgress.stdMeta_insertStack (t : INTSwitchEgress.Tables) (p : Packet) :
    ∃ n : BitVec 32, (INTSwitchEgress.insertStack t p).stdMeta =
      { p.stdMeta with packetLength := n } := by
  rw [insertStack, intNodeIdTable_eq, intIgTimestampTable_eq t, intEgTimestampTable_eq t,
    intEgIfUtilTable_eq, sciAsAddrTable_eq, scionIntLength]
  split_ifs
  · exact ⟨_, rfl⟩
  · exact ⟨_, rfl⟩

theorem INTSwitchEgress.instanceType_insertStack (t : INTSwitchEgress.Tables) (p : Packet) :
    (INTSwitchEgress.insertStack t p).stdMeta.instanceType = p.stdMeta.instanceType := by
  obtain ⟨n, h⟩ := stdMeta_insertStack t p
  rw [h]

theorem INTSwitchEgress.egressPort_insertStack (t : INTSwitchEgress.Tables) (p : Packet) :
    (INTSwitchEgress.insertStack t p).stdMeta.egressPort = p.stdMeta.egressPort := by
  obtain ⟨n, h⟩ := stdMeta_insertStack t p
  rw [h]

theorem INTSwitchEgress.intState_insertStack (t : INTSwitchEgress.Tables) (p : Packet) :
    (INTSwitchEgress.insertStack t p).metadata.intState = p.metadata.intState := by
  rw [insertStack, intNodeIdTable_eq, intIgTimestampTable_eq t, intEgTimestampTable_eq t,
    intEgIfUtilTable_eq, sciAsAddrTable_eq, scionIntLength]
  split_ifs
  · rfl
  · rfl

/-- What the egress control does with a packet: nothing, or it drops a clone, adds the fields of this hop,
or leaves a packet with INT headers to `handle_clone_instances`. -/
inductive INTSwitchEgress.ApplyOutcome (t : INTSwitchEgress.Tables) (p : Packet) : Packet → Prop
  | alone : ApplyOutcome t p p
  | drop (hclone : p.stdMeta.instanceType = INGRESS_CLONE) : ApplyOutcome t p (markToDrop p)
  | insert (hinsert : p.hdr.udpScion.isSome ∧ p.metadata.intState = 1) :
    ApplyOutcome t p (insertStack t p)
  | insertDrop (hinsert : p.hdr.udpScion.isSome ∧ p.metadata.intState = 1)
      (hclone : p.stdMeta.instanceType = INGRESS_CLONE) :
    ApplyOutcome t p (markToDrop (insertStack t p))
  | handle (hstate : p.hdr.udpScion.isSome ∧ p.metadata.intState = 0) (hshim : p.hdr.intShim.isSome) :
    ApplyOutcome t p (handleCloneInstances p)

theorem INTSwitchEgress.apply_outcome (t : INTSwitchEgress.Tables) (p : Packet) :
    ApplyOutcome t p (INTSwitchEgress.apply t p) := by
  unfold INTSwitchEgress.apply
  dsimp only
  by_cases hethernet : p.hdr.ethernet.isSome
  · rw [if_pos hethernet]
    by_cases hinsert : p.hdr.udpScion.isSome ∧ p.metadata.intState = 1
    · -- `insertStack` keeps `intState`, so that the block for `clone_int` is not for this packet
      have hstate : (insertStack t p).metadata.intState ≠ 0 := by
        rw [intState_insertStack, hinsert.2]
        decide
      rw [if_pos hinsert, if_neg fun h => hstate h.2]
      split_ifs with hclone
      · rw [instanceType_insertStack] at hclone
        exact .insertDrop hinsert hclone
      · exact .insert hinsert
    · rw [if_neg hinsert]
      split_ifs with hstate hshim hclone hclone
      · exact .handle hstate hshim
      · exact .drop hclone
      · exact .alone
      · exact .drop hclone
      · exact .alone
  · rw [if_neg hethernet]
    exact .alone

/-- The egress control does not change the instance type. -/
theorem INTSwitchEgress.instanceType_apply (t : INTSwitchEgress.Tables) (p : Packet) :
    (INTSwitchEgress.apply t p).stdMeta.instanceType = p.stdMeta.instanceType := by
  have hout := apply_outcome t p
  generalize INTSwitchEgress.apply t p = c at hout
  cases hout with
  | alone | drop => rfl
  | insert | insertDrop => exact instanceType_insertStack t p
  | handle =>
    unfold handleCloneInstances
    split_ifs
    · rfl
    · rfl

/-- The egress control on a packet that `insert_int` has prepared. -/
theorem INTSwitchEgress.apply_insert (t : INTSwitchEgress.Tables) {p : Packet}
    (hethernet : p.hdr.ethernet.isSome) (hudpScion : p.hdr.udpScion.isSome)
    (hstate : p.metadata.intState = 1) (horig : p.stdMeta.instanceType ≠ INGRESS_CLONE) :
    INTSwitchEgress.apply t p = insertStack t p := by
  have hstate' : (insertStack t p).metadata.intState ≠ 0 := by
    rw [intState_insertStack, hstate]; decide
  have horig' : (insertStack t p).stdMeta.instanceType ≠ 1 := by
    rw [instanceType_insertStack]; exact horig
  have hinsert : p.hdr.udpScion.isSome ∧ p.metadata.intState = 1 := ⟨hudpScion, hstate⟩
  simp only [INTSwitchEgress.apply, if_pos hethernet, if_pos hinsert]
  rw [if_neg (fun h => hstate' h.2), if_neg horig']

/-- The egress control on a packet with INT for which `clone_int` ran. -/
theorem INTSwitchEgress.apply_clone (t : INTSwitchEgress.Tables) {p : Packet}
    (hethernet : p.hdr.ethernet.isSome) (hudpScion : p.hdr.udpScion.isSome)
    (hintShim : p.hdr.intShim.isSome) (hstate : p.metadata.intState = 0) :
    INTSwitchEgress.apply t p = handleCloneInstances p := by
  have hinsert : ¬ (p.hdr.udpScion.isSome ∧ p.metadata.intState = 1) := by
    rw [hstate]; simp
  simp only [INTSwitchEgress.apply, if_pos hethernet, if_neg hinsert]
  rw [if_pos ⟨hudpScion, hstate⟩, if_pos hintShim]

theorem INTSwitchEgress.handleCloneInstances_original {p : Packet}
    (horig : p.stdMeta.instanceType ≠ INGRESS_CLONE) : handleCloneInstances p = deleteInt p :=
  if_neg horig

theorem INTSwitchEgress.handleCloneInstances_clone {p : Packet}
    (hclone : p.stdMeta.instanceType = INGRESS_CLONE) : handleCloneInstances p = keepIntCpu p :=
  if_pos hclone

namespace Switch

/-! ### The copies -/

/-- Every emitted copy is the egress control's result for a clone or for a copy of the frame. -/
theorem mem_process {sw : Switch} {a : Arrival} {c : Packet} (hc : c ∈ sw.process a) :
    ∃ p ∈ sw.clones a ++ sw.originals a, c = INTSwitchEgress.apply sw.egress p := by
  obtain ⟨p, hp, hout⟩ := List.mem_filterMap.mp hc
  refine ⟨p, hp, ?_⟩
  rw [myEgress] at hout
  split_ifs at hout
  exact (Option.some.inj hout).symm

theorem mem_clones {sw : Switch} {a : Arrival} {p : Packet} (hp : p ∈ sw.clones a) :
    ∃ r : Replica, p = toEgress a { receive a with
      metadata.cpuHdrLen := (sw.ingress a).packet.metadata.cpuHdrLen } INGRESS_CLONE r ∧
      (sw.ingress a).clone.isSome := by
  unfold clones at hp
  cases hclone : (sw.ingress a).clone with
  | none => simp [hclone] at hp
  | some spec =>
    rw [hclone] at hp
    obtain ⟨r, -, rfl⟩ := List.mem_map.mp hp
    exact ⟨r, rfl, rfl⟩

theorem mem_originals {sw : Switch} {a : Arrival} {p : Packet} (hp : p ∈ sw.originals a) :
    ∃ (r : Replica) (instanceType : BitVec 32), instanceType ≠ INGRESS_CLONE ∧
      p = toEgress a (sw.ingress a).packet instanceType r := by
  rw [originals] at hp
  split_ifs at hp
  · obtain ⟨r, -, rfl⟩ := List.mem_map.mp hp
    exact ⟨r, REPLICATION, by decide, rfl⟩
  · rw [List.mem_singleton] at hp
    exact ⟨_, 0, by decide, hp⟩
  · simp at hp

/-- A copy that is not an ingress clone comes from the packet that left the ingress control. -/
theorem mem_process_original {sw : Switch} {a : Arrival} {c : Packet} (hc : c ∈ sw.process a)
    (horig : ¬ c.isClone) :
    ∃ (r : Replica) (instanceType : BitVec 32), instanceType ≠ INGRESS_CLONE ∧
      c = INTSwitchEgress.apply sw.egress
        (toEgress a (sw.ingress a).packet instanceType r) := by
  obtain ⟨p, hp, rfl⟩ := mem_process hc
  rcases List.mem_append.mp hp with hp | hp
  · obtain ⟨r, rfl, -⟩ := mem_clones hp
    exact absurd (INTSwitchEgress.instanceType_apply _ _) horig
  · obtain ⟨r, instanceType, hinst, rfl⟩ := mem_originals hp
    exact ⟨r, instanceType, hinst, rfl⟩

/-- An ingress clone comes from the received frame, parsed again. -/
theorem mem_process_clone {sw : Switch} {a : Arrival} {c : Packet} (hc : c ∈ sw.process a)
    (hclone : c.isClone) :
    ∃ r : Replica, c = INTSwitchEgress.apply sw.egress (toEgress a { receive a with
      metadata.cpuHdrLen := (sw.ingress a).packet.metadata.cpuHdrLen } INGRESS_CLONE r) ∧
      (sw.ingress a).clone.isSome := by
  obtain ⟨p, hp, rfl⟩ := mem_process hc
  rcases List.mem_append.mp hp with hp | hp
  · obtain ⟨r, rfl, hsome⟩ := mem_clones hp
    exact ⟨r, rfl, hsome⟩
  · obtain ⟨r, instanceType, hinst, rfl⟩ := mem_originals hp
    exact absurd ((INTSwitchEgress.instanceType_apply _ _).symm.trans hclone) hinst

end Switch

/-! ### `insert_int` and `delete_int` on a UDP-over-SCION frame -/

/-- The key of `scion_int` for a frame. -/
def ScionFrame.dst (q : ScionFrame) : BitVec 16 × BitVec 48 :=
  ((q.scionAddr.common.getD default).dstISD, (q.scionAddr.common.getD default).dstAS)

namespace Switch

/-- The metadata with which a packet leaves `insert_int`. -/
def insertMetadata (m : MetadataT) (instructionBits domainBits : BitVec 16) : MetadataT :=
  (INTSwitchIngress.insertInt instructionBits domainBits
    { metadata := { m with intState := 2, addLen := 0 } }).metadata

end Switch

namespace INTSwitchIngress

variable {p : Packet} {q : ScionFrame} {x : IntHeadersT} {payload : Option PayloadH}

/-- The ingress control on a frame with an `insert_int` entry. -/
theorem apply_insert (t : ScionIntTable) {instructionBits domainBits : BitVec 16}
    (hp : p.hdr = q.withInt x payload)
    (hentry : t.lookup q.dst = some (.insert_int instructionBits domainBits)) :
    apply t p = (insertInt instructionBits domainBits
      { p with metadata.intState := 2, metadata.addLen := 0 }, none) := by
  have hvalid : p.hdr.ethernet.isSome ∧ p.hdr.udpScion.isSome := by rw [hp]; exact ⟨rfl, rfl⟩
  have hkey : ((p.hdr.scionAddr.common.getD default).dstISD,
      (p.hdr.scionAddr.common.getD default).dstAS) = q.dst := by rw [hp]; rfl
  simp only [apply, if_pos hvalid, scionInt, hkey, hentry]

/-- The ingress control on a frame with a `clone_int` entry. -/
theorem apply_clone (t : ScionIntTable) (hp : p.hdr = q.withInt x payload)
    (hentry : t.lookup q.dst = some .clone_int) :
    apply t p = ({ p with metadata.intState := 0, metadata.addLen := 0 },
      some { session := 1, index := 1 }) := by
  have hvalid : p.hdr.ethernet.isSome ∧ p.hdr.udpScion.isSome := by rw [hp]; exact ⟨rfl, rfl⟩
  have hkey : ((p.hdr.scionAddr.common.getD default).dstISD,
      (p.hdr.scionAddr.common.getD default).dstAS) = q.dst := by rw [hp]; rfl
  simp only [apply, if_pos hvalid, scionInt, hkey, hentry, cloneInt]

end INTSwitchIngress

namespace Switch

/-- The copies of a switch that inserts INT: the egress tables have run on the prepared frame. -/
theorem process_insert {sw : Switch} {a : Arrival} {c : Packet} {q : ScionFrame}
    {x : IntHeadersT} {payload : Option PayloadH} {instructionBits domainBits : BitVec 16}
    (hparse : (parse a.frame).hdr = q.withInt x payload)
    (hentry : sw.scionInt.lookup q.dst = some (.insert_int instructionBits domainBits))
    (hc : c ∈ sw.process a) :
    ∃ (p : Packet) (r : Replica), c = INTSwitchEgress.insertStack sw.egress p ∧
      p.hdr = (q.setPort UDP_PORT).withInt ⟨some (sourceShim q.udpScion.dstPort),
        some (sourceMd instructionBits domainBits), x.intStack⟩ payload ∧
      p.rest = (parse a.frame).rest ∧
      p.metadata = insertMetadata (parse a.frame).metadata instructionBits domainBits ∧
      p.stdMeta.ingressGlobalTimestamp = a.ingressTimestamp ∧
      p.stdMeta.egressGlobalTimestamp = a.egressTimestamp p.stdMeta.instanceType r ∧
      p.stdMeta.egressPort = r.egressPort ∧ ¬ c.isClone := by
  obtain ⟨s, hs, hpacket, hclone⟩ := sw.ingress_eq a
  have hingress := INTSwitchIngress.apply_insert sw.scionInt
    (show ({ receive a with stdMeta := s } : Packet).hdr = q.withInt x payload from hparse) hentry
  rw [hingress] at hpacket hclone
  have horig : ¬ c.isClone := by
    intro h
    obtain ⟨r, -, hsome⟩ := mem_process_clone hc h
    rw [hclone] at hsome
    cases hsome
  obtain ⟨r, instanceType, hinst, hc⟩ := mem_process_original hc horig
  rw [hpacket] at hc
  have hhdr := hdr_insertInt (show ({ receive a with
    stdMeta := s, metadata.intState := 2, metadata.addLen := 0 } : Packet).hdr = _ from hparse)
    instructionBits domainBits
  have hethernet := congrArg (fun h : HeadersT => h.ethernet.isSome) hhdr
  have hudpScion := congrArg (fun h : HeadersT => h.udpScion.isSome) hhdr
  exact ⟨_, r, hc.trans (INTSwitchEgress.apply_insert sw.egress hethernet hudpScion rfl hinst),
    hhdr, rfl, rfl, hs, rfl, rfl, horig⟩

/-- The copies, clones apart, of a switch that removes INT. -/
theorem process_delete {sw : Switch} {a : Arrival} {c : Packet} {q : ScionFrame}
    {intShim : IntShimH} {intMd : Option IntMdH} {v : Option PreIntStackH}
    {payload : Option PayloadH}
    (hparse : (parse a.frame).hdr =
      q.withInt ⟨some intShim, intMd, { preIntStack := v }⟩ payload)
    (hentry : sw.scionInt.lookup q.dst = some .clone_int) (hc : c ∈ sw.process a)
    (horig : ¬ c.isClone) :
    ∃ p : Packet, c = INTSwitchEgress.deleteInt p ∧ p.hdr = (parse a.frame).hdr ∧
      p.rest = (parse a.frame).rest := by
  obtain ⟨s, -, hpacket, -⟩ := sw.ingress_eq a
  rw [INTSwitchIngress.apply_clone sw.scionInt (show ({ receive a with stdMeta := s } : Packet).hdr
    = _ from hparse) hentry] at hpacket
  obtain ⟨r, instanceType, hinst, hc⟩ := mem_process_original hc horig
  rw [hpacket] at hc
  have hethernet := congrArg (fun h : HeadersT => h.ethernet.isSome) hparse
  have hudpScion := congrArg (fun h : HeadersT => h.udpScion.isSome) hparse
  have hintShim := congrArg (fun h : HeadersT => h.intShim.isSome) hparse
  exact ⟨_, (hc.trans (INTSwitchEgress.apply_clone sw.egress hethernet hudpScion hintShim
    rfl)).trans (INTSwitchEgress.handleCloneInstances_original hinst), rfl, rfl⟩

end Switch

/-! ### A sample network -/

def sampleAddr : ScionAddrT where
  common := some ⟨1, 0xff0000000112, 1, 0xff0000000111⟩
  dst := { host32 := some ⟨0x7f000002⟩ }
  src := { host32 := some ⟨0x7f000001⟩ }

def samplePath : ScionPathT where
  infoField0 := some ⟨0, 0, 1, 0, 0x1234, 0x5f5e1000⟩
  hopFields := some ⟨List.replicate 24 0x2a, by decide⟩

/-- A frame on a one-hop path from AS `1-ff00:0:111` to AS `1-ff00:0:112`. -/
def sampleFrame : ScionFrame where
  ethernet := ⟨0x020000000002, 0x020000000001, EtherType.IPV4⟩
  ipv4 := ⟨4, 5, 0, 108, 0, 2, 0, 64, Proto.UDP, 0, 0x0a000001, 0x0a000002⟩
  udp := ⟨50000, 50000, 88, 0x1d0f⟩
  scionCommon := ⟨0, 0, 1, NextHdr.UDP_SCION, 17, 12, PathType.ONEHOP, 0, 0, 0, 0, 0⟩
  scionAddr := sampleAddr
  scionPath := samplePath
  udpScion := ⟨40000, 40001, 12, 0⟩
  etherType := rfl
  protocol := rfl
  dstPort := rfl
  nextHdr := rfl
  addr_matches := ⟨rfl, ⟨_, rfl⟩, ⟨_, rfl⟩⟩
  path_matches := .onehop _ _ rfl

def samplePayload : List Byte := [0x70, 0x69, 0x6e, 0x67]

/-- Padding behind the IPv4 packet. -/
def sampleTrailer : List Byte := [0, 0]

def sampleArrival (frame : List Byte) : Arrival where
  ingressPort := 1
  frame := frame
  ingressTimestamp := 1000
  egressTimestamp _ _ := 2000

/-- A switch with one entry in `scion_int`, which forwards the sample frame to port 2 and its clones
to port 128. -/
def sampleSwitch (action : ScionIntAction) : Switch where
  l2.forwardTable := { entries := [(0x020000000002, .forward 2)] }
  scionInt := { entries := [((1, 0xff0000000112), action)] }
  egress.intNodeIdTable := { entries := [(1, .insert_int_node_id 7)] }
  cloneSessions := { entries := [(1, [{ egressPort := 128 }])] }

/-- What the sample switch emits for a frame: the clone first, if there is one. -/
def sampleCopies (action : ScionIntAction) (frame : List Byte) : List Packet :=
  (sampleSwitch action).process (sampleArrival frame)

/-- The sample packet as it is sent. -/
def sampleBytes : List Byte := sampleFrame.emit ++ (samplePayload ++ sampleTrailer)

/-- The copy that a source emits for the sample frame. -/
@[irreducible] def sampleSent : Packet :=
  (sampleCopies (.insert_int 0xffff 0x0001) sampleBytes).getD 0 default

/-- The clone that a sink then emits for the controller. -/
@[irreducible] def sampleClone : Packet := (sampleCopies .clone_int sampleSent.wire).getD 0 default

/-- The copy that a sink then emits for the receiver. -/
@[irreducible] def sampleReceived : Packet := (sampleCopies .clone_int sampleSent.wire).getD 1 default

/-- The three copies are emitted, and only `sampleClone` is a clone. -/
theorem sample_copies :
    (sampleSent ∈ (sampleSwitch (.insert_int 0xffff 0x0001)).process (sampleArrival sampleBytes) ∧
      ¬ sampleSent.isClone) ∧
    (sampleClone ∈ (sampleSwitch .clone_int).process (sampleArrival sampleSent.wire) ∧
      sampleClone.isClone) ∧
    (sampleReceived ∈ (sampleSwitch .clone_int).process (sampleArrival sampleSent.wire) ∧
      ¬ sampleReceived.isClone) := by
  decide +kernel

theorem sampleSent_mem : sampleSent ∈
    (sampleSwitch (.insert_int 0xffff 0x0001)).process (sampleArrival sampleBytes) :=
  sample_copies.1.1

theorem sampleClone_mem : sampleClone ∈
    (sampleSwitch .clone_int).process (sampleArrival sampleSent.wire) :=
  sample_copies.2.1.1

theorem sampleReceived_mem : sampleReceived ∈
    (sampleSwitch .clone_int).process (sampleArrival sampleSent.wire) :=
  sample_copies.2.2.1

theorem hdr_parse_sampleBytes : (parse sampleBytes).hdr = sampleFrame.hdr :=
  congrArg ParsedPacket.hdr (parse_noInt sampleFrame (by decide) (samplePayload ++ sampleTrailer))

@[simp] theorem frame_sampleArrival (frame : List Byte) : (sampleArrival frame).frame = frame := rfl

theorem lookup_sampleSwitch (action : ScionIntAction) :
    (sampleSwitch action).scionInt.lookup sampleFrame.dst = some action := rfl

end ScionInt
