import ScionInt.DataPlane.Equiv.Frame

/-!
# The outer headers in the bytes of a frame

The frame as a receiver sees it: the Ethernet type at offset 12, the IPv4 header at 14 and the outer
UDP header at 34.  `layers` says which of these headers the parser finds, `ipv4_slices` and `udp_slices`
where their fields are.
-/

namespace ScionInt

open Wire

/-- The frame holds an Ethernet header and 20 bytes of IPv4. -/
def IsIpv4 (frame : List Byte) : Prop := 34 ≤ frame.length ∧ word 12 frame = 0x0800

/-- The frame holds 8 bytes more, which the IPv4 header calls UDP. -/
def IsUdp (frame : List Byte) : Prop :=
  IsIpv4 frame ∧ 42 ≤ frame.length ∧ slice 23 1 frame = [0x11]

theorem emit_ethernet (h : EthernetH) :
    emit h = emitFields [48, 48] (h.dstAddr, h.srcAddr, ()) ++
      emitFields [16] (h.etherType, ()) := by
  rw [← emitFields_append _ _ rfl rfl, emit_eq_emitFields]
  rfl

instance (frame : List Byte) : Decidable (IsIpv4 frame) := inferInstanceAs (Decidable (_ ∧ _))

instance (frame : List Byte) : Decidable (IsUdp frame) := inferInstanceAs (Decidable (_ ∧ _))

theorem emitFields_byte (b : Byte) : emitFields [8] (b, ()) = [b] := by
  simp [emitFields, packFields, toBytes]

theorem word_etherType (ethernet : EthernetH) (rest : List Byte) :
    word 12 (emit ethernet ++ rest) = ethernet.etherType.toNat := by
  rw [word, emit_ethernet, List.append_assoc,
    slice_of_append _ (emitFields [16] (ethernet.etherType, ())) _ rfl (by simp) (by simp)]
  exact (ofBytes_emitFields _ rfl).trans (by simp [packFields])

theorem ipv4ChecksumData_eq (h : Ipv4H) :
    ipv4ChecksumData h = ipv4Front h ++ (emitFields [8] (h.protocol, ()) ++
      emitFields [32, 32] (h.srcAddr, h.dstAddr, ())) := by
  rw [ipv4Front, ← emitFields_append _ _ rfl rfl, ← emitFields_append _ _ rfl rfl]
  rfl

/-- The fields of the Ethernet and the IPv4 header in a frame. -/
structure Ipv4Slices (ethernet : EthernetH) (ipv4 : Ipv4H) (frame : List Byte) : Prop where
  etherType : word 12 frame = ethernet.etherType.toNat
  protocol : slice 23 1 frame = [ipv4.protocol]
  hdrChecksum : word 24 frame = ipv4.hdrChecksum.toNat
  checksumData : slice 14 10 frame ++ slice 26 8 frame = ipv4ChecksumData ipv4
  addrs : slice 26 8 frame = emitFields [32, 32] (ipv4.srcAddr, ipv4.dstAddr, ())

theorem ipv4_slices {ethernet : EthernetH} {ipv4 : Ipv4H} {frame rest : List Byte}
    (hframe : frame = emit ethernet ++ (emit ipv4 ++ rest)) : Ipv4Slices ethernet ipv4 frame := by
  have hetherType : word 12 frame = ethernet.etherType.toNat := by
    rw [hframe, word_etherType]
  rw [emit_ethernet, emit_ipv4] at hframe
  have hfront : (ipv4Front ipv4).length = 9 := by simp [ipv4Front]
  have haddrs : slice 26 8 frame = emitFields [32, 32] (ipv4.srcAddr, ipv4.dstAddr, ()) :=
    slice_of_append (emitFields [48, 48] (ethernet.dstAddr, ethernet.srcAddr, ()) ++
        emitFields [16] (ethernet.etherType, ()) ++ ipv4Front ipv4 ++
        emitFields [8] (ipv4.protocol, ()) ++ emitFields [16] (ipv4.hdrChecksum, ())) _ rest
      (by simpa only [List.append_assoc] using hframe) (by simp [hfront]) (by simp)
  have hchecksummed : slice 14 10 frame = ipv4Front ipv4 ++ emitFields [8] (ipv4.protocol, ()) :=
    slice_of_append (emitFields [48, 48] (ethernet.dstAddr, ethernet.srcAddr, ()) ++
        emitFields [16] (ethernet.etherType, ())) _
      (emitFields [16] (ipv4.hdrChecksum, ()) ++
        (emitFields [32, 32] (ipv4.srcAddr, ipv4.dstAddr, ()) ++ rest))
      (by simpa only [List.append_assoc] using hframe) (by simp) (by simp [hfront])
  constructor
  · exact hetherType
  · rw [← emitFields_byte]
    exact slice_of_append (emitFields [48, 48] (ethernet.dstAddr, ethernet.srcAddr, ()) ++
        emitFields [16] (ethernet.etherType, ()) ++ ipv4Front ipv4) _
      (emitFields [16] (ipv4.hdrChecksum, ()) ++
        (emitFields [32, 32] (ipv4.srcAddr, ipv4.dstAddr, ()) ++ rest))
      (by simpa only [List.append_assoc] using hframe) (by simp [hfront]) (by simp)
  · rw [word, slice_of_append (emitFields [48, 48] (ethernet.dstAddr, ethernet.srcAddr, ()) ++
        emitFields [16] (ethernet.etherType, ()) ++ ipv4Front ipv4 ++
        emitFields [8] (ipv4.protocol, ())) (emitFields [16] (ipv4.hdrChecksum, ())) _
      (by simpa only [List.append_assoc] using hframe) (by simp [hfront]) (by simp)]
    exact (ofBytes_emitFields _ rfl).trans (by simp [packFields])
  · rw [hchecksummed, haddrs, ipv4ChecksumData_eq, List.append_assoc]
  · exact haddrs

/-- The fields of the outer UDP header in a frame. -/
structure UdpSlices (ipv4 : Ipv4H) (udp : UdpH) (behind frame : List Byte) : Prop where
  ports : slice 34 4 frame = emitFields [16, 16] (udp.srcPort, udp.dstPort, ())
  len : word 38 frame = udp.len.toNat
  checksum : word 40 frame = udp.checksum.toNat
  pseudoHeader : slice 26 8 frame ++ [0] ++ slice 23 1 frame ++ slice 38 2 frame ++
    slice 34 6 frame = udpPseudoHeader ipv4 udp
  drop : frame.drop 34 = emit udp ++ behind

theorem UdpSlices.drop_behind {ipv4 : Ipv4H} {udp : UdpH} {behind frame : List Byte}
    (h : UdpSlices ipv4 udp behind frame) : frame.drop 42 = behind := by
  rw [show 42 = 34 + 8 from rfl, ← List.drop_drop, h.drop, List.drop_left' (by simp)]

theorem udpPseudoHeader_eq (ipv4 : Ipv4H) (udp : UdpH) :
    udpPseudoHeader ipv4 udp = emitFields [32, 32] (ipv4.srcAddr, ipv4.dstAddr, ()) ++
      ([0] ++ ([ipv4.protocol] ++ (emitFields [16] (udp.len, ()) ++
        emitFields [16, 16, 16] (udp.srcPort, udp.dstPort, udp.len, ())))) := by
  rw [← emitFields_byte, ← emitFields_byte, ← emitFields_append _ _ rfl rfl,
    ← emitFields_append _ _ rfl rfl, ← emitFields_append _ _ rfl rfl,
    ← emitFields_append _ _ rfl rfl]
  rfl

theorem udp_slices {ethernet : EthernetH} {ipv4 : Ipv4H} {udp : UdpH} {frame behind : List Byte}
    (hframe : frame = emit ethernet ++ (emit ipv4 ++ (emit udp ++ behind))) :
    UdpSlices ipv4 udp behind frame := by
  have hipv4 := ipv4_slices hframe
  rw [← List.append_assoc] at hframe
  have hlen : (emit ethernet ++ emit ipv4).length = 34 := by simp
  generalize emit ethernet ++ emit ipv4 = front at hframe hlen
  have hdrop : frame.drop 34 = emit udp ++ behind := by rw [hframe, List.drop_left' hlen]
  rw [emit_udp] at hframe
  simp only [List.append_assoc] at hframe
  have hlenField : slice 38 2 frame = emitFields [16] (udp.len, ()) :=
    slice_of_append (front ++ emitFields [16, 16] (udp.srcPort, udp.dstPort, ())) _
      (emitFields [16] (udp.checksum, ()) ++ behind)
      (by simpa only [List.append_assoc] using hframe) (by simp [hlen]) (by simp)
  have hports : slice 34 6 frame =
      emitFields [16, 16, 16] (udp.srcPort, udp.dstPort, udp.len, ()) := by
    have hsplit : emitFields [16, 16, 16] (udp.srcPort, udp.dstPort, udp.len, ()) =
        emitFields [16, 16] (udp.srcPort, udp.dstPort, ()) ++ emitFields [16] (udp.len, ()) := by
      rw [← emitFields_append _ _ rfl rfl]
      rfl
    rw [hsplit]
    exact slice_of_append front _ (emitFields [16] (udp.checksum, ()) ++ behind)
      (by simpa only [List.append_assoc] using hframe) hlen (by simp)
  constructor
  · exact slice_of_append _ _ _ hframe hlen (by simp)
  · rw [word, hlenField]
    exact (ofBytes_emitFields _ rfl).trans (by simp [packFields])
  · rw [word, slice_of_append (front ++ emitFields [16, 16] (udp.srcPort, udp.dstPort, ()) ++
        emitFields [16] (udp.len, ())) (emitFields [16] (udp.checksum, ())) _
      (by simpa only [List.append_assoc] using hframe) (by simp [hlen]) (by simp)]
    exact (ofBytes_emitFields _ rfl).trans (by simp [packFields])
  · rw [hipv4.addrs, hipv4.protocol, hlenField, hports, udpPseudoHeader_eq]
    simp only [List.append_assoc]
  · exact hdrop

/-- What the parser finds of the headers that the checksum stage reads. -/
inductive Layers (frame : List Byte) : HeadersT → List Byte → Prop
  | other (hdr : HeadersT) (rest : List Byte) (hframe : ¬ IsIpv4 frame) (hipv4 : hdr.ipv4 = none)
    (hudp : hdr.udp = none) : Layers frame hdr rest
  | ipv4 (ethernet : EthernetH) (ipv4 : Ipv4H) (rest : List Byte)
    (hframe : frame = emit ethernet ++ (emit ipv4 ++ rest))
    (hetherType : ethernet.etherType = EtherType.IPV4)
    (hnot : ipv4.protocol ≠ Proto.UDP ∨ rest.length < 8) :
    Layers frame { ethernet := some ethernet, ipv4 := some ipv4 } rest
  | udp (ethernet : EthernetH) (ipv4 : Ipv4H) (udp : UdpH) (hdr : HeadersT) (rest : List Byte)
    (hframe : frame = emit ethernet ++ (emit ipv4 ++ (emit udp ++ (hdr.emitBehindUdp ++ rest))))
    (hetherType : ethernet.etherType = EtherType.IPV4) (hprotocol : ipv4.protocol = Proto.UDP)
    (hethernet : hdr.ethernet = some ethernet) (hipv4 : hdr.ipv4 = some ipv4)
    (hudp : hdr.udp = some udp) (hintCpu : hdr.intCpu = none) : Layers frame hdr rest

theorem HeadersT.emit_eq_of_udp {hdr : HeadersT} {ethernet : EthernetH} {ipv4 : Ipv4H} {udp : UdpH}
    (hethernet : hdr.ethernet = some ethernet) (hipv4 : hdr.ipv4 = some ipv4)
    (hudp : hdr.udp = some udp) (hintCpu : hdr.intCpu = none) :
    hdr.emit = Wire.emit ethernet ++ (Wire.emit ipv4 ++ (Wire.emit udp ++ hdr.emitBehindUdp)) := by
  simp only [HeadersT.emit, hethernet, hipv4, hudp, hintCpu, emitOpt_some, emitOpt_none,
    List.append_nil, List.append_assoc]

theorem layers (frame : List Byte) : Layers frame (parse frame).hdr (parse frame).rest := by
  have hshort : ∀ bs : List Byte, bs.length < 34 → ¬ IsIpv4 bs := fun bs hlen h => by
    have := h.1
    omega
  -- with a UDP header all that follows is one block
  have hudp : ∀ (ethernet : EthernetH) (ipv4 : Ipv4H) (udp : UdpH),
      ethernet.etherType = EtherType.IPV4 → ipv4.protocol = Proto.UDP →
      (parse frame).hdr.ethernet = some ethernet → (parse frame).hdr.ipv4 = some ipv4 →
      (parse frame).hdr.udp = some udp → (parse frame).hdr.intCpu = none →
      Layers frame (parse frame).hdr (parse frame).rest := by
    intro ethernet ipv4 udp hetherType hprotocol h1 h2 h3 h4
    have hemit := (parse_outcome frame).emit_eq
    rw [HeadersT.emit_eq_of_udp h1 h2 h3 h4] at hemit
    simp only [List.append_assoc] at hemit
    exact .udp ethernet ipv4 udp _ _ hemit.symm hetherType hprotocol h1 h2 h3 h4
  have h := parse_outcome frame
  generalize parse frame = r at h hudp
  cases h with
  | noEthernet bs hlen => exact .other _ _ (hshort _ (by omega)) rfl rfl
  | notIpv4 ethernet rest hetherType =>
    refine .other _ _ (fun h => hetherType ?_) rfl rfl
    have hword := h.2
    rw [word_etherType] at hword
    exact BitVec.eq_of_toNat_eq hword
  | noIpv4 ethernet rest hetherType hlen =>
    refine .other _ _ (hshort _ ?_) rfl rfl
    rw [List.length_append, length_emit, EthernetH.size_eq]
    omega
  | notUdp ethernet ipv4 rest hetherType hprotocol =>
    exact .ipv4 ethernet ipv4 rest rfl hetherType (.inl hprotocol)
  | noUdp ethernet ipv4 rest hetherType hprotocol hlen =>
    exact .ipv4 ethernet ipv4 rest rfl hetherType (.inr hlen)
  | noUdpScion ethernet ipv4 udp scionCommon scionAddr scionPath accepted m rest hetherType
      hprotocol => exact hudp ethernet ipv4 udp hetherType hprotocol rfl rfl rfl rfl
  | noInt q | noShim q | notMd q | noMd q | emptyStack q | badStack q | badPayload q | payload q =>
    exact hudp q.ethernet q.ipv4 q.udp q.etherType q.protocol rfl rfl rfl rfl

theorem isIpv4_of_append {ethernet : EthernetH} {ipv4 : Ipv4H} {frame rest : List Byte}
    (hframe : frame = emit ethernet ++ (emit ipv4 ++ rest))
    (hetherType : ethernet.etherType = EtherType.IPV4) : IsIpv4 frame := by
  constructor
  · rw [hframe, List.length_append, List.length_append, length_emit, length_emit,
      EthernetH.size_eq, Ipv4H.size_eq]
    omega
  · rw [(ipv4_slices hframe).etherType, hetherType]
    rfl

theorem isUdp_iff {ethernet : EthernetH} {ipv4 : Ipv4H} {frame rest : List Byte}
    (hframe : frame = emit ethernet ++ (emit ipv4 ++ rest))
    (hetherType : ethernet.etherType = EtherType.IPV4) :
    IsUdp frame ↔ ipv4.protocol = Proto.UDP ∧ 8 ≤ rest.length := by
  have hlen : frame.length = 34 + rest.length := by
    rw [hframe, List.length_append, List.length_append, length_emit, length_emit,
      EthernetH.size_eq, Ipv4H.size_eq]
    omega
  have hprotocol : slice 23 1 frame = [0x11] ↔ ipv4.protocol = Proto.UDP := by
    rw [(ipv4_slices hframe).protocol, List.cons.injEq]
    exact and_iff_left rfl
  rw [IsUdp, hprotocol, hlen]
  constructor
  · rintro ⟨-, hlen, hp⟩
    exact ⟨hp, by omega⟩
  · rintro ⟨hp, hlen⟩
    exact ⟨isIpv4_of_append hframe hetherType, by omega, hp⟩

theorem isUdp_of_append {ethernet : EthernetH} {ipv4 : Ipv4H} {udp : UdpH} {frame rest : List Byte}
    (hframe : frame = emit ethernet ++ (emit ipv4 ++ (emit udp ++ rest)))
    (hetherType : ethernet.etherType = EtherType.IPV4) (hprotocol : ipv4.protocol = Proto.UDP) :
    IsUdp frame := by
  rw [isUdp_iff hframe hetherType, List.length_append, length_emit, UdpH.size_eq]
  exact ⟨hprotocol, Nat.le_add_right _ _⟩

/-- A frame in which the parser stopped behind the IPv4 header. -/
theorem not_isUdp {ethernet : EthernetH} {ipv4 : Ipv4H} {frame rest : List Byte}
    (hframe : frame = emit ethernet ++ (emit ipv4 ++ rest))
    (hetherType : ethernet.etherType = EtherType.IPV4)
    (hnot : ipv4.protocol ≠ Proto.UDP ∨ rest.length < 8) : ¬ IsUdp frame := by
  rw [isUdp_iff hframe hetherType]
  rintro ⟨hprotocol, hlen⟩
  rcases hnot with hnot | hnot
  · exact hnot hprotocol
  · omega

end ScionInt
