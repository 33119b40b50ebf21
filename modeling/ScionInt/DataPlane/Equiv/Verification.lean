import ScionInt.DataPlane.Equiv.Checksum

/-!
# Verification and recomputation

`MyVerifyChecksum` sets `checksum_error`, which nothing reads, and `MyComputeChecksum` computes both
checksums anew for every copy.  `checksumError_iff`: the flag is clear exactly for the frames that are
`SelfChecked`; `selfChecked_wire`: every copy is `SelfChecked` when it leaves, whatever was received.
-/

namespace ScionInt

open Wire

/-! ### The verification -/

theorem checksumError_receive (a : Arrival) :
    (MyVerifyChecksum (Switch.receive a)).stdMeta.checksumError = 0 ↔
      ((parse a.frame).hdr.ipv4.isSome → csum16 (ipv4ChecksumData ((parse a.frame).hdr.ipv4.getD
        default)) = ((parse a.frame).hdr.ipv4.getD default).hdrChecksum) ∧
      ((parse a.frame).hdr.udp.isSome → ((parse a.frame).hdr.udp.getD default).checksum ≠ 0 →
        csum16 (udpChecksumData ((parse a.frame).hdr.ipv4.getD default)
          ((parse a.frame).hdr.udp.getD default) (parse a.frame).hdr (parse a.frame).rest) =
            ((parse a.frame).hdr.udp.getD default).checksum) := by
  unfold MyVerifyChecksum Switch.receive
  dsimp only
  split_ifs with h
  · refine iff_of_false (show (1 : BitVec 1) ≠ 0 by decide) ?_
    rintro ⟨hipv4, hudp⟩
    rcases h with ⟨hsome, hne⟩ | ⟨hsome, hzero, hne⟩
    · exact hne (hipv4 hsome)
    · exact hne (hudp hsome hzero)
  · refine iff_of_true rfl ?_
    obtain ⟨hipv4, hudp⟩ := not_or.mp h
    constructor
    · intro hsome
      by_contra hne
      exact hipv4 ⟨hsome, hne⟩
    · intro hsome hzero
      by_contra hne
      exact hudp ⟨hsome, hzero, hne⟩

/-- The verification accepts exactly the frames that are `SelfChecked`. -/
theorem checksumError_iff (a : Arrival) :
    (MyVerifyChecksum (Switch.receive a)).stdMeta.checksumError = 0 ↔ SelfChecked a.frame := by
  rw [checksumError_receive]
  have hlayers := layers a.frame
  generalize (parse a.frame).hdr = hdr at hlayers ⊢
  generalize (parse a.frame).rest = rest at hlayers ⊢
  cases hlayers with
  | other _ _ hframe hipv4 hudp =>
    rw [hipv4, hudp]
    exact iff_of_true ⟨fun h => absurd h (by simp), fun h => absurd h (by simp)⟩
      ⟨fun h => absurd h hframe, fun h => absurd h.1 hframe⟩
  | ipv4 ethernet ipv4 _ hframe hetherType hnot =>
    rw [selfChecked_iff_of_ipv4 hframe hetherType hnot]
    constructor
    · rintro ⟨hipv4, -⟩
      exact hipv4 rfl
    · intro hipv4
      exact ⟨fun _ => hipv4, fun h => by cases h⟩
  | udp ethernet ipv4 udp _ _ hframe hetherType hprotocol hethernet hipv4 hudp hintCpu =>
    rw [selfChecked_iff_of_udp hframe hetherType hprotocol, hipv4, hudp]
    exact and_congr (forall_prop_of_true rfl) (forall_prop_of_true rfl)

/-! ### The recomputation -/

theorem ipv4ChecksumData_congr (ipv4 : Ipv4H) (hdrChecksum : BitVec 16) :
    ipv4ChecksumData { ipv4 with hdrChecksum := hdrChecksum } = ipv4ChecksumData ipv4 := rfl

theorem udpChecksumData_congr (ipv4 : Ipv4H) (udp : UdpH) (hdr : HeadersT) (rest : List Byte)
    (hdrChecksum checksum : BitVec 16) :
    udpChecksumData { ipv4 with hdrChecksum := hdrChecksum } { udp with checksum := checksum } hdr
      rest = udpChecksumData ipv4 udp hdr rest := rfl

/-- A packet without an outer UDP header leaves with a correct IPv4 header checksum. -/
theorem selfChecked_wire_ipv4 {ethernet : EthernetH} {ipv4 : Ipv4H} {p : Packet}
    (hhdr : p.hdr = { ethernet := some ethernet, ipv4 := some ipv4 })
    (hetherType : ethernet.etherType = EtherType.IPV4)
    (hnot : ipv4.protocol ≠ Proto.UDP ∨ p.rest.length < 8) : SelfChecked p.wire := by
  have hself := selfChecked_iff_of_ipv4 (wire_ipv4 hhdr) hetherType hnot
  rw [ipv4ChecksumData_congr] at hself
  exact hself.mpr rfl

/-- A packet with an outer UDP header leaves with checksums that verify. -/
theorem selfChecked_wire_udp {ethernet : EthernetH} {ipv4 : Ipv4H} {udp : UdpH} {p : Packet}
    (hethernet : p.hdr.ethernet = some ethernet) (hipv4 : p.hdr.ipv4 = some ipv4)
    (hudp : p.hdr.udp = some udp) (hintCpu : p.hdr.intCpu = none)
    (hetherType : ethernet.etherType = EtherType.IPV4) (hprotocol : ipv4.protocol = Proto.UDP) :
    SelfChecked p.wire := by
  have hwire := wire_udp hethernet hipv4 hudp hintCpu
  rw [selfChecked_iff_of_udp hwire hetherType hprotocol]
  refine ⟨by rw [ipv4ChecksumData_congr], fun hne => ?_⟩
  rw [udpChecksumData_congr]
  dsimp only at hne ⊢
  split_ifs at hne ⊢ with h0
  · exact absurd rfl hne
  · rfl

/-- Without an outer UDP header the parser finds neither SCION-UDP nor INT. -/
theorem parse_noUdp {frame : List Byte} (h : (parse frame).hdr.udp = none) :
    (parse frame).hdr.udpScion = none ∧ (parse frame).hdr.intShim = none := by
  have hout := parse_outcome frame
  generalize parse frame = r at hout h
  cases hout with
  | noEthernet | notIpv4 | noIpv4 | notUdp | noUdp => exact ⟨rfl, rfl⟩
  | noUdpScion | noInt | noShim | notMd | noMd | emptyStack | badStack | badPayload | payload =>
    cases h

/-- A copy of a frame without an outer UDP header has the headers of the frame. -/
theorem Switch.process_noUdp {sw : Switch} {a : Arrival} {c : Packet}
    (hudp : (parse a.frame).hdr.udp = none) (hc : c ∈ sw.process a) :
    c.hdr = (parse a.frame).hdr ∧ c.rest = (parse a.frame).rest := by
  obtain ⟨hudpScion, hshim⟩ := parse_noUdp hudp
  refine process_noInt hshim (fun h => ?_) hc
  rw [hudpScion] at h
  cases h

/-- Every copy but those for the controller leaves with checksums that verify. -/
theorem selfChecked_wire {sw : Switch} {a : Arrival} {c : Packet} (hc : c ∈ sw.process a)
    (horig : ¬ c.isClone) : SelfChecked c.wire := by
  have hsame := Switch.sameOuter_process hc horig
  have hplain := fun hudp => Switch.process_noUdp hudp hc
  have hemit := (parse_outcome a.frame).emit_eq
  have hlayers := layers a.frame
  generalize (parse a.frame).hdr = hdr at hsame hplain hemit hlayers
  generalize (parse a.frame).rest = rest at hplain hemit hlayers
  cases hlayers with
  | other _ _ hframe hipv4 hudp =>
    obtain ⟨hhdr, hrest⟩ := hplain hudp
    -- without an IPv4 header nothing is computed and nothing verified
    have hwire : c.wire = a.frame := by
      rw [wire_other (by rw [hhdr, hipv4]) (by rw [hhdr, hudp]), hhdr, hrest, hemit]
    rw [hwire]
    exact ⟨fun h => absurd h hframe, fun h => absurd h.1 hframe⟩
  | ipv4 ethernet ipv4 _ hframe hetherType hnot =>
    obtain ⟨hhdr, hrest⟩ := hplain rfl
    rw [← hrest] at hnot
    exact selfChecked_wire_ipv4 hhdr hetherType hnot
  | udp ethernet ipv4 udp _ _ hframe hetherType hprotocol hethernet hipv4 hudp hintCpu =>
    -- whatever the actions did, the copy still has these headers
    obtain ⟨ipv4', udp', hipv4', hudp', hp, -⟩ := hsame.ipv4_udp hipv4 hudp
    exact selfChecked_wire_udp (hsame.ethernet.trans hethernet) hipv4' hudp'
      (hsame.intCpu.trans hintCpu) hetherType (hp.trans hprotocol)

end ScionInt
