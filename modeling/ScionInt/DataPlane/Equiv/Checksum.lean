import ScionInt.DataPlane.Equiv.Slices
import ScionInt.DataPlane.Equiv.Switch

/-!
# What the checksum stage does to a frame

`transparent_iff`: a frame without INT for which `insert_int` does not run is handed on unchanged
exactly if its checksums are those that the checksum stage computes (`SelfChecked`): the IPv4 checksum
over the first 20 bytes of the header whatever `ihl` says, and the UDP checksum over everything behind
these 20 bytes, be it a fragment or followed by padding.

`sameOuter_process`: no control writes the Ethernet header, the protocol or the UDP checksum of a copy.
`selfChecked_of_correct`: correct checksums are those of the checksum stage in plain traffic.
-/

namespace ScionInt

open Wire

/-! ### Frames whose checksums are not changed -/

/-- The checksums of a frame are those of the checksum stage, which sums the first 20 bytes of the IPv4
header and, behind a pseudo header, everything from byte 34 to the end of the frame. -/
def SelfChecked (frame : List Byte) : Prop :=
  (IsIpv4 frame →
    onesSum (slice 14 10 frame ++ slice 26 8 frame) + word 24 frame = 65535) ∧
  (IsUdp frame → word 40 frame ≠ 0 →
    onesSum (slice 26 8 frame ++ [0] ++ slice 23 1 frame ++ slice 38 2 frame ++
      slice 34 6 frame ++ frame.drop 42) + word 40 frame = 65535)

theorem udpChecksumHeaders_eq (hdr : HeadersT) : udpChecksumHeaders hdr = hdr.emitBehindUdp := by
  unfold udpChecksumHeaders HeadersT.emitBehindUdp ScionAddrT.emit ScionHostT.emit
    ScionPathT.emit IntStackT.emit IntStackT.emitHop
  simp only [List.append_assoc]

theorem updateUdpChecksum_of_none {hdr : HeadersT} (hudp : hdr.udp = none) (rest : List Byte) :
    updateUdpChecksum hdr rest = hdr := by
  rw [updateUdpChecksum, hudp, Option.map_none, ← hudp]

theorem MyComputeChecksum_of_none {hdr : HeadersT} (hudp : hdr.udp = none) (rest : List Byte) :
    MyComputeChecksum hdr rest = updateIpv4Checksum hdr :=
  updateUdpChecksum_of_none (show (updateIpv4Checksum hdr).udp = none from hudp) rest

/-- The bytes of a packet that is not IPv4. -/
theorem wire_other {p : Packet} (hipv4 : p.hdr.ipv4 = none) (hudp : p.hdr.udp = none) :
    p.wire = p.hdr.emit ++ p.rest := by
  rw [Packet.wire, MyComputeChecksum_of_none hudp, updateIpv4Checksum, hipv4, Option.map_none,
    ← hipv4]

/-- The bytes of a packet whose parser stopped behind the IPv4 header. -/
theorem wire_ipv4 {ethernet : EthernetH} {ipv4 : Ipv4H} {p : Packet}
    (hhdr : p.hdr = { ethernet := some ethernet, ipv4 := some ipv4 }) :
    p.wire = emit ethernet ++ (emit { ipv4 with hdrChecksum := csum16 (ipv4ChecksumData ipv4) } ++
      p.rest) := by
  have hipv4 : p.hdr.ipv4 = some ipv4 := by rw [hhdr]
  have hemit : ∀ h : Ipv4H, HeadersT.emit { ethernet := some ethernet, ipv4 := some h } =
      emit ethernet ++ emit h := fun h => by
    simp [HeadersT.emit, HeadersT.emitBehindUdp, ScionPathT.emit, ScionHostT.emit,
      ScionAddrT.emit, IntStackT.emit, IntStackT.emitHop]
  rw [Packet.wire, MyComputeChecksum_of_none (by rw [hhdr]), updateIpv4Checksum_eq hipv4, hhdr,
    hemit, List.append_assoc]

/-- The bytes of a packet with an outer UDP header. -/
theorem wire_udp {ethernet : EthernetH} {ipv4 : Ipv4H} {udp : UdpH} {p : Packet}
    (hethernet : p.hdr.ethernet = some ethernet) (hipv4 : p.hdr.ipv4 = some ipv4)
    (hudp : p.hdr.udp = some udp) (hintCpu : p.hdr.intCpu = none) :
    p.wire = emit ethernet ++ (emit { ipv4 with hdrChecksum := csum16 (ipv4ChecksumData ipv4) } ++
      (emit { udp with
          checksum := if udp.checksum = 0 then 0
            else csum16 (udpChecksumData ipv4 udp p.hdr p.rest) } ++
        (p.hdr.emitBehindUdp ++ p.rest))) := by
  rw [Packet.wire, MyComputeChecksum_eq hipv4 hudp]
  generalize csum16 (ipv4ChecksumData ipv4) = hdrChecksum
  generalize (if udp.checksum = 0 then 0 else csum16 (udpChecksumData ipv4 udp p.hdr p.rest)) =
    checksum
  let hdr : HeadersT := { p.hdr with
    ipv4 := some { ipv4 with hdrChecksum := hdrChecksum }
    udp := some { udp with checksum := checksum } }
  have hemit := HeadersT.emit_eq_of_udp (show hdr.ethernet = some ethernet from hethernet) rfl rfl
    hintCpu
  show hdr.emit ++ p.rest = _
  rw [hemit]
  simp only [List.append_assoc]
  rfl

/-- The IPv4 header checksum is the one that the checksum stage computes. -/
theorem selfChecked_ipv4 {ethernet : EthernetH} {ipv4 : Ipv4H} {frame rest : List Byte}
    (hframe : frame = emit ethernet ++ (emit ipv4 ++ rest))
    (hetherType : ethernet.etherType = EtherType.IPV4) :
    (IsIpv4 frame → onesSum (slice 14 10 frame ++ slice 26 8 frame) + word 24 frame = 65535) ↔
      csum16 (ipv4ChecksumData ipv4) = ipv4.hdrChecksum := by
  have h := ipv4_slices hframe
  rw [csum16_eq_iff, h.checksumData, h.hdrChecksum]
  exact forall_prop_of_true (isIpv4_of_append hframe hetherType)

/-- The UDP checksum is unused or the one that the checksum stage computes. -/
theorem selfChecked_udp {ethernet : EthernetH} {ipv4 : Ipv4H} {udp : UdpH} {hdr : HeadersT}
    {frame rest : List Byte}
    (hframe : frame = emit ethernet ++ (emit ipv4 ++ (emit udp ++ (hdr.emitBehindUdp ++ rest))))
    (hetherType : ethernet.etherType = EtherType.IPV4) (hprotocol : ipv4.protocol = Proto.UDP) :
    (IsUdp frame → word 40 frame ≠ 0 →
      onesSum (slice 26 8 frame ++ [0] ++ slice 23 1 frame ++ slice 38 2 frame ++
        slice 34 6 frame ++ frame.drop 42) + word 40 frame = 65535) ↔
      (udp.checksum ≠ 0 → csum16 (udpChecksumData ipv4 udp hdr rest) = udp.checksum) := by
  have h := udp_slices hframe
  have hudp := isUdp_of_append hframe hetherType hprotocol
  have hzero : word 40 frame ≠ 0 ↔ udp.checksum ≠ 0 := by
    rw [h.checksum, ← BitVec.toNat_inj.ne]
    rfl
  rw [csum16_eq_iff, h.pseudoHeader, h.drop_behind, hzero, h.checksum, udpChecksumData,
    udpChecksumHeaders_eq, List.append_assoc]
  exact forall_prop_of_true hudp

/-- The frames in which the parser finds an IPv4 header but no outer UDP header. -/
theorem selfChecked_iff_of_ipv4 {ethernet : EthernetH} {ipv4 : Ipv4H} {frame rest : List Byte}
    (hframe : frame = emit ethernet ++ (emit ipv4 ++ rest))
    (hetherType : ethernet.etherType = EtherType.IPV4)
    (hnot : ipv4.protocol ≠ Proto.UDP ∨ rest.length < 8) :
    SelfChecked frame ↔ csum16 (ipv4ChecksumData ipv4) = ipv4.hdrChecksum := by
  have hudp := not_isUdp hframe hetherType hnot
  rw [SelfChecked, selfChecked_ipv4 hframe hetherType]
  exact and_iff_left fun h => absurd h hudp

/-- The frames in which the parser finds an outer UDP header. -/
theorem selfChecked_iff_of_udp {ethernet : EthernetH} {ipv4 : Ipv4H} {udp : UdpH} {hdr : HeadersT}
    {frame rest : List Byte}
    (hframe : frame = emit ethernet ++ (emit ipv4 ++ (emit udp ++ (hdr.emitBehindUdp ++ rest))))
    (hetherType : ethernet.etherType = EtherType.IPV4) (hprotocol : ipv4.protocol = Proto.UDP) :
    SelfChecked frame ↔ csum16 (ipv4ChecksumData ipv4) = ipv4.hdrChecksum ∧
      (udp.checksum ≠ 0 → csum16 (udpChecksumData ipv4 udp hdr rest) = udp.checksum) := by
  rw [SelfChecked, selfChecked_ipv4 hframe hetherType, selfChecked_udp hframe hetherType hprotocol]

theorem Ipv4H.with_hdrChecksum_eq_iff (h : Ipv4H) (c : BitVec 16) :
    { h with hdrChecksum := c } = h ↔ c = h.hdrChecksum := by
  constructor
  · intro heq
    exact congrArg Ipv4H.hdrChecksum heq
  · rintro rfl
    rfl

theorem UdpH.with_checksum_eq_iff (h : UdpH) (c : BitVec 16) :
    { h with checksum := c } = h ↔ c = h.checksum := by
  constructor
  · intro heq
    exact congrArg UdpH.checksum heq
  · rintro rfl
    rfl

/-- A packet that leaves with the headers with which it came is unchanged exactly if its checksums
are not. -/
theorem wire_eq_iff {frame : List Byte} {p : Packet} (hlayers : Layers frame p.hdr p.rest)
    (hemit : p.hdr.emit ++ p.rest = frame) : p.wire = frame ↔ SelfChecked frame := by
  generalize hhdr : p.hdr = hdr at hlayers
  generalize hrest : p.rest = rest at hlayers
  cases hlayers with
  | other _ _ hframe hipv4 hudp =>
    rw [wire_other (by rw [hhdr, hipv4]) (by rw [hhdr, hudp]), hemit]
    exact iff_of_true rfl ⟨fun h => absurd h hframe, fun h => absurd h.1 hframe⟩
  | ipv4 ethernet ipv4 _ hframe hetherType hnot =>
    have hself := selfChecked_iff_of_ipv4 hframe hetherType hnot
    rw [hself, wire_ipv4 hhdr, hrest, hframe, List.append_cancel_left_eq, emit_append_eq_iff,
      Ipv4H.with_hdrChecksum_eq_iff]
    exact and_iff_left rfl
  | udp ethernet ipv4 udp _ _ hframe hetherType hprotocol hethernet hipv4 hudp hintCpu =>
    have hself := selfChecked_iff_of_udp hframe hetherType hprotocol
    have hchecksum : (if udp.checksum = 0 then 0 else csum16 (udpChecksumData ipv4 udp hdr rest)) =
        udp.checksum ↔
        (udp.checksum ≠ 0 → csum16 (udpChecksumData ipv4 udp hdr rest) = udp.checksum) := by
      split_ifs with h0
      · exact iff_of_true h0.symm fun h => absurd h0 h
      · exact ⟨fun h _ => h, fun h => h h0⟩
    rw [hself, wire_udp (by rw [hhdr, hethernet]) (by rw [hhdr, hipv4]) (by rw [hhdr, hudp])
      (by rw [hhdr, hintCpu]), hhdr, hrest, hframe, List.append_cancel_left_eq, emit_append_eq_iff,
      emit_append_eq_iff, Ipv4H.with_hdrChecksum_eq_iff, UdpH.with_checksum_eq_iff, hchecksum]
    exact and_congr_right fun _ => and_iff_left rfl

/-! ### Frames that the switch does not instrument -/

/-- The key of `scion_int` for a packet. -/
def HeadersT.scionDst (hdr : HeadersT) : BitVec 16 × BitVec 48 :=
  ((hdr.scionAddr.common.getD default).dstISD, (hdr.scionAddr.common.getD default).dstAS)

/-- `insert_int` does not run on a packet with these headers. -/
def INTSwitchIngress.NoInsert (t : ScionIntTable) (hdr : HeadersT) : Prop :=
  hdr.udpScion.isSome → ∀ instructionBits domainBits : BitVec 16,
    t.lookup hdr.scionDst ≠ some (.insert_int instructionBits domainBits)

/-- Without `insert_int` the ingress control changes the metadata only. -/
theorem INTSwitchIngress.apply_noInsert {t : ScionIntTable} {p : Packet} (h : NoInsert t p.hdr) :
    (apply t p).1.hdr = p.hdr ∧ (apply t p).1.rest = p.rest ∧
      (apply t p).1.metadata.intState ≠ 1 := by
  have h2 : (2 : BitVec 2) ≠ 1 := by decide
  have h0 : (0 : BitVec 2) ≠ 1 := by decide
  rw [apply]
  split_ifs with hvalid
  · rw [scionInt]
    simp only
    split
    · rename_i instructionBits domainBits hentry
      exact absurd hentry (h hvalid.2 instructionBits domainBits)
    · exact ⟨rfl, rfl, h0⟩
    · exact ⟨rfl, rfl, h2⟩
    · exact ⟨rfl, rfl, h2⟩
  · exact ⟨rfl, rfl, h2⟩

/-- Without INT headers and without `insert_int` the egress control changes nothing that is sent. -/
theorem INTSwitchEgress.apply_noInt (t : Tables) {p : Packet} (hshim : p.hdr.intShim = none)
    (hstate : p.hdr.udpScion.isSome → p.metadata.intState ≠ 1) :
    (apply t p).hdr = p.hdr ∧ (apply t p).rest = p.rest := by
  have hinsert : ¬ (p.hdr.udpScion.isSome ∧ p.metadata.intState = 1) := fun h => hstate h.1 h.2
  rw [apply]
  simp only [if_neg hinsert, hshim, Option.isSome_none, Bool.false_eq_true, if_false]
  split_ifs
  all_goals exact ⟨rfl, rfl⟩

/-- The parser leaves `int_state` at zero if it finds a SCION-UDP header. -/
theorem intState_parse {frame : List Byte} (h : (parse frame).hdr.udpScion.isSome) :
    (parse frame).metadata.intState = 0 := by
  have hout := parse_outcome frame
  generalize parse frame = r at hout h
  cases hout with
  | noEthernet | notIpv4 | noIpv4 | notUdp | noUdp | noUdpScion => cases h
  | noInt | noShim | notMd | noMd | emptyStack | badStack | badPayload | payload => rfl

/-- A copy of a frame without INT for which `insert_int` does not run has the headers of the frame. -/
theorem Switch.process_noInt {sw : Switch} {a : Arrival} {c : Packet}
    (hshim : (parse a.frame).hdr.intShim = none)
    (hno : INTSwitchIngress.NoInsert sw.scionInt (parse a.frame).hdr) (hc : c ∈ sw.process a) :
    c.hdr = (parse a.frame).hdr ∧ c.rest = (parse a.frame).rest := by
  obtain ⟨s, -, hpacket, -⟩ := sw.ingress_eq a
  obtain ⟨hhdr, hrest, hstate⟩ := INTSwitchIngress.apply_noInsert (t := sw.scionInt)
    (p := { receive a with stdMeta := s }) hno
  rw [← hpacket] at hhdr hrest hstate
  by_cases hclone : c.isClone
  · obtain ⟨r, rfl, -⟩ := mem_process_clone hc hclone
    refine INTSwitchEgress.apply_noInt sw.egress hshim fun hudpScion => ?_
    have hzero := intState_parse hudpScion
    show (parse a.frame).metadata.intState ≠ 1
    rw [hzero]
    decide
  · obtain ⟨r, instanceType, -, rfl⟩ := mem_process_original hc hclone
    have h := INTSwitchEgress.apply_noInt sw.egress
      (p := toEgress a (sw.ingress a).packet instanceType r)
      ((congrArg HeadersT.intShim hhdr).trans hshim) fun _ => hstate
    exact ⟨h.1.trans hhdr, h.2.trans hrest⟩

/-- The switch is transparent to a frame that it does not instrument exactly if the checksums of the
frame are those that the checksum stage computes. -/
theorem transparent_iff {sw : Switch} {a : Arrival} {c : Packet}
    (hshim : (parse a.frame).hdr.intShim = none)
    (hno : INTSwitchIngress.NoInsert sw.scionInt (parse a.frame).hdr) (hc : c ∈ sw.process a) :
    c.wire = a.frame ↔ SelfChecked a.frame := by
  obtain ⟨hhdr, hrest⟩ := Switch.process_noInt hshim hno hc
  refine wire_eq_iff ?_ ?_
  · rw [hhdr, hrest]
    exact layers a.frame
  · rw [hhdr, hrest]
    exact (parse_outcome a.frame).emit_eq

/-- The copy of the sample frame that a switch emits whose entry is `NoAction`. -/
@[irreducible] def samplePassed : Packet := (sampleCopies .NoAction sampleBytes).getD 0 default

theorem samplePassed_mem :
    samplePassed ∈ (sampleSwitch .NoAction).process (sampleArrival sampleBytes) := by
  decide +kernel

theorem noInsert_sampleSwitch (frame : List Byte) (h : (parse frame).hdr.udpScion = none ∨
    (parse frame).hdr.scionDst = sampleFrame.dst) :
    INTSwitchIngress.NoInsert (sampleSwitch .NoAction).scionInt (parse frame).hdr := by
  intro hudpScion instructionBits domainBits hentry
  rcases h with h | h
  · rw [h] at hudpScion
    cases hudpScion
  · rw [h, lookup_sampleSwitch] at hentry
    cases hentry

theorem transparent_iff_sample : samplePassed.wire = sampleBytes ↔ SelfChecked sampleBytes := by
  have hshim : (parse (sampleArrival sampleBytes).frame).hdr.intShim = none := by
    rw [frame_sampleArrival, hdr_parse_sampleBytes]
    rfl
  have hdst : (parse (sampleArrival sampleBytes).frame).hdr.scionDst = sampleFrame.dst := by
    rw [frame_sampleArrival, hdr_parse_sampleBytes]
    rfl
  exact transparent_iff hshim (noInsert_sampleSwitch _ (.inr hdst)) samplePassed_mem

/-- The checksum of an IPv4 header is correct: the words of the header and its options add up to
`0xffff`. -/
def Ipv4HeaderCorrect (frame : List Byte) : Prop :=
  onesSum (slice 14 (4 * (ofBytes (slice 14 1 frame) % 16)) frame) = 65535

/-- An ICMP message behind an IPv4 header with a router alert. -/
def optionsBytes : List Byte :=
  emit (EthernetH.mk 0x020000000002 0x020000000001 EtherType.IPV4) ++
  emit (Ipv4H.mk 4 6 0 28 0 2 0 64 1 0x91da 0x0a000001 0x0a000002) ++
  [0x94, 0x04, 0, 0] ++ [8, 0, 0xf7, 0xff]

@[irreducible] def optionsPassed : Packet := (sampleCopies .NoAction optionsBytes).getD 0 default

/-- A correct IPv4 header with options leaves the switch with another checksum. -/
theorem transparent_counterexample :
    Ipv4HeaderCorrect optionsBytes ∧ ¬ IsUdp optionsBytes ∧
    (parse optionsBytes).hdr.intShim = none ∧
    INTSwitchIngress.NoInsert (sampleSwitch .NoAction).scionInt (parse optionsBytes).hdr ∧
    optionsPassed ∈ (sampleSwitch .NoAction).process (sampleArrival optionsBytes) ∧
    optionsPassed.wire ≠ optionsBytes :=
  ⟨by unfold Ipv4HeaderCorrect; decide +kernel, by decide +kernel, by decide +kernel,
    noInsert_sampleSwitch optionsBytes (.inl (by decide +kernel)), by decide +kernel,
    by decide +kernel⟩

/-! ### The outer headers of a copy -/

/-- What no control changes of the headers in front of the SCION headers. -/
structure HeadersT.SameOuter (hdr hdr' : HeadersT) : Prop where
  ethernet : hdr'.ethernet = hdr.ethernet
  protocol : hdr'.ipv4.map Ipv4H.protocol = hdr.ipv4.map Ipv4H.protocol
  checksum : hdr'.udp.map UdpH.checksum = hdr.udp.map UdpH.checksum
  intCpu : hdr'.intCpu = hdr.intCpu

theorem HeadersT.SameOuter.refl (hdr : HeadersT) : hdr.SameOuter hdr := ⟨rfl, rfl, rfl, rfl⟩

theorem HeadersT.SameOuter.trans {hdr hdr' hdr'' : HeadersT} (h : hdr.SameOuter hdr')
    (h' : hdr'.SameOuter hdr'') : hdr.SameOuter hdr'' :=
  ⟨h'.ethernet.trans h.ethernet, h'.protocol.trans h.protocol, h'.checksum.trans h.checksum,
    h'.intCpu.trans h.intCpu⟩

theorem HeadersT.SameOuter.ipv4_udp {hdr hdr' : HeadersT} (h : hdr.SameOuter hdr') {ipv4 : Ipv4H}
    {udp : UdpH} (hipv4 : hdr.ipv4 = some ipv4) (hudp : hdr.udp = some udp) :
    ∃ (ipv4' : Ipv4H) (udp' : UdpH), hdr'.ipv4 = some ipv4' ∧ hdr'.udp = some udp' ∧
      ipv4'.protocol = ipv4.protocol ∧ udp'.checksum = udp.checksum := by
  have hp := h.protocol
  have hu := h.checksum
  rw [hipv4] at hp
  rw [hudp] at hu
  obtain ⟨ipv4', hipv4', hp⟩ := Option.map_eq_some_iff.mp hp
  obtain ⟨udp', hudp', hu⟩ := Option.map_eq_some_iff.mp hu
  exact ⟨ipv4', udp', hipv4', hudp', hp, hu⟩

theorem INTSwitchIngress.sameOuter_apply (t : ScionIntTable) (p : Packet) :
    p.hdr.SameOuter (apply t p).1.hdr := by
  rw [apply]
  split_ifs
  · rw [scionInt]
    simp only
    split
    all_goals exact ⟨rfl, rfl, rfl, rfl⟩
  · exact .refl _

theorem INTSwitchEgress.sameOuter_insertStack (t : Tables) (p : Packet) :
    p.hdr.SameOuter (insertStack t p).hdr := by
  rw [insertStack, intNodeIdTable_eq, intIgTimestampTable_eq t, intEgTimestampTable_eq t,
    intEgIfUtilTable_eq, sciAsAddrTable_eq, scionIntLength]
  split_ifs
  · exact ⟨rfl, Option.map_map .., Option.map_map .., rfl⟩
  · exact ⟨rfl, rfl, rfl, rfl⟩

theorem INTSwitchEgress.sameOuter_deleteInt (p : Packet) : p.hdr.SameOuter (deleteInt p).hdr :=
  ⟨rfl, Option.map_map .., Option.map_map .., rfl⟩

theorem INTSwitchEgress.sameOuter_apply (t : Tables) {p : Packet}
    (horig : p.stdMeta.instanceType ≠ INGRESS_CLONE) : p.hdr.SameOuter (apply t p).hdr := by
  have hout := apply_outcome t p
  generalize apply t p = c at hout
  cases hout with
  | alone => exact .refl _
  | insert => exact sameOuter_insertStack t p
  | drop hclone => exact absurd hclone horig
  | insertDrop _ hclone => exact absurd hclone horig
  | handle =>
    rw [handleCloneInstances_original horig]
    exact sameOuter_deleteInt p

/-- No control changes the outer headers of a copy that is not a clone. -/
theorem Switch.sameOuter_process {sw : Switch} {a : Arrival} {c : Packet} (hc : c ∈ sw.process a)
    (horig : ¬ c.isClone) : (parse a.frame).hdr.SameOuter c.hdr := by
  obtain ⟨s, -, hpacket, -⟩ := sw.ingress_eq a
  obtain ⟨r, instanceType, hinst, rfl⟩ := mem_process_original hc horig
  have hin := INTSwitchIngress.sameOuter_apply sw.scionInt { receive a with stdMeta := s }
  rw [← hpacket] at hin
  exact HeadersT.SameOuter.trans hin (INTSwitchEgress.sameOuter_apply sw.egress
    (p := toEgress a (sw.ingress a).packet instanceType r) hinst)

/-! ### Plain traffic -/

/-- The outer UDP checksum is in use and correct for the datagram of the frame: the words of the pseudo
header and of the datagram with its checksum add up to `0xffff`. -/
structure UdpProtected (frame : List Byte) : Prop where
  checksum : word 40 frame ≠ 0
  len_ge : 8 ≤ word 38 frame
  len_le : 34 + word 38 frame ≤ frame.length
  sum : onesSum (slice 26 8 frame ++ [0] ++ slice 23 1 frame ++ slice 38 2 frame ++
    slice 34 (word 38 frame) frame) = 65535

/-- The IPv4 header around its checksum. -/
theorem slice_ipv4Header (frame : List Byte) :
    slice 14 (4 * 5) frame = slice 14 10 frame ++ (slice 24 2 frame ++ slice 26 8 frame) := by
  rw [← slice_add 24 2 8, ← slice_add 14 10 10]

/-- A datagram that ends with the frame, around its checksum. -/
theorem slice_udpDatagram {frame : List Byte} (hlen : 8 ≤ word 38 frame)
    (hend : frame.length = 34 + word 38 frame) :
    slice 34 (word 38 frame) frame =
      slice 34 6 frame ++ (slice 40 2 frame ++ frame.drop 42) := by
  have hrest : frame.drop 42 = slice 42 (word 38 frame - 8) frame := by
    rw [slice, List.take_of_length_le]
    rw [List.length_drop]
    omega
  rw [hrest, ← slice_add 40 2, ← slice_add 34 6]
  congr 1
  omega

/-- The words in front of the UDP checksum. -/
theorem length_udpChecksumFront {frame : List Byte} (hlen : 42 ≤ frame.length) :
    (slice 26 8 frame ++ [0] ++ slice 23 1 frame ++ slice 38 2 frame ++
      slice 34 6 frame).length % 2 = 0 := by
  have haddrs : (slice 26 8 frame).length = 8 := length_slice (by omega)
  have hprotocol : (slice 23 1 frame).length = 1 := length_slice (by omega)
  have hl : (slice 38 2 frame).length = 2 := length_slice (by omega)
  have hports : (slice 34 6 frame).length = 6 := length_slice (by omega)
  simp only [List.length_append, List.length_singleton, haddrs, hprotocol, hl, hports]

/-- Correct checksums are those of the checksum stage if the IPv4 header has no options, the datagram
ends with the frame and no checksum is `0xffff`. -/
theorem selfChecked_of_correct {frame : List Byte}
    (hipv4 : IsIpv4 frame → ofBytes (slice 14 1 frame) % 16 = 5 ∧ Ipv4HeaderCorrect frame ∧
      word 24 frame < 65535)
    (hudp : IsUdp frame → word 40 frame ≠ 0 → UdpProtected frame ∧
      frame.length = 34 + word 38 frame ∧ word 40 frame < 65535) : SelfChecked frame := by
  constructor
  · intro h
    obtain ⟨hihl, hsum, hmax⟩ := hipv4 h
    have hlen := h.1
    rw [Ipv4HeaderCorrect, hihl, slice_ipv4Header] at hsum
    exact (onesSum_around_iff (by rw [length_slice (by omega)]) (length_slice (by omega)) hmax).mp
      hsum
  · intro h hne
    obtain ⟨hprotected, hend, hmax⟩ := hudp h hne
    have hlen := h.2.1
    have hsum := hprotected.sum
    rw [slice_udpDatagram hprotected.len_ge hend, ← List.append_assoc] at hsum
    exact (onesSum_around_iff (length_udpChecksumFront hlen) (length_slice (by omega)) hmax).mp hsum

end ScionInt
