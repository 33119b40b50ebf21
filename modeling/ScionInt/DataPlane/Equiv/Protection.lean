import ScionInt.DataPlane.Equiv.Rewriting

/-!
# UDP checksums of copies

`udpProtected_wire_iff`: a UDP frame with a checksum leaves with a correct one exactly if the words of its
edit do not add up to a zero, the length after the edit counts bytes that are there, and the bytes behind
the datagram, which the checksum stage includes, do not matter.

Main result: `udpProtected_iff`, for a frame that arrives with a correct checksum.  What the checksum stage
then computes is the received checksum with the edit taken off, so that the copy is protected exactly if
the edit `Keeps` the checksum.  It does not if the result is a zero: the stage sends `0`, which means that
there is no checksum.  `protected_passes_iff` and `protected_counted_iff` are the cases without an edit and
without bytes behind the datagram.
-/

namespace ScionInt

open Wire

/-! ### A datagram around its length and its checksum -/

/-- The words of the pseudo header and of a datagram of `8 + n` bytes. -/
theorem onesSum_datagram {frame : List Byte} (hlen : 42 ≤ frame.length) (n : ℕ) :
    onesSum (slice 26 8 frame ++ [0] ++ slice 23 1 frame ++ slice 38 2 frame ++ slice 34 (8 + n) frame) ≡
      onesSum (udpFront frame) + 2 * word 38 frame + word 40 frame + onesSum ((frame.drop 42).take n)
        [MOD 65535] := by
  have hfront := length_ipFront (show 34 ≤ frame.length by omega)
  have hports : (slice 34 4 frame).length = 4 := length_slice (by omega)
  have hl : (slice 38 2 frame).length = 2 := length_slice (by omega)
  have hc : (slice 40 2 frame).length = 2 := length_slice (by omega)
  have hsplit : slice 34 (8 + n) frame =
      slice 34 4 frame ++ (slice 38 2 frame ++ (slice 40 2 frame ++ (frame.drop 42).take n)) := by
    rw [show (frame.drop 42).take n = slice 42 n frame from rfl, ← slice_add 40 2, ← slice_add 38 2,
      ← slice_add 34 4]
    congr 1
    omega
  have hheader := onesSum_counted (show (ipFront frame).length % 2 = 0 by omega)
    (show (slice 34 4 frame).length % 2 = 0 by omega) hl (slice 40 2 frame ++ (frame.drop 42).take n)
  have hdata := onesSum_append_modEq (show (slice 40 2 frame).length % 2 = 0 by omega)
    ((frame.drop 42).take n)
  rw [onesSum_of_length_two hc] at hdata
  rw [hsplit, List.append_assoc, ← ipFront, udpFront, word, word]
  unfold Nat.ModEq at *
  omega

/-- The protocol is not zero, so the sum is not either. -/
theorem onesSum_datagram_ne_zero {frame : List Byte} (hframe : IsUdp frame) (xs : List Byte) :
    onesSum (slice 26 8 frame ++ [0] ++ slice 23 1 frame ++ xs) ≠ 0 := by
  intro h
  have hzero := (onesSum_eq_zero_iff _).mp h 0x11 (by rw [hframe.2.2]; simp)
  exact absurd hzero (by decide)

theorem udpProtected_iff_modEq {frame : List Byte} (hframe : IsUdp frame) :
    UdpProtected frame ↔ word 40 frame ≠ 0 ∧
      (8 ≤ word 38 frame ∧ word 38 frame ≤ 8 + (frame.drop 42).length) ∧
      onesSum (udpFront frame) + 2 * word 38 frame + word 40 frame +
        onesSum ((frame.drop 42).take (word 38 frame - 8)) ≡ 0 [MOD 65535] := by
  have hlen := hframe.2.1
  have hfits : 34 + word 38 frame ≤ frame.length ↔ word 38 frame ≤ 8 + (frame.drop 42).length := by
    rw [List.length_drop]
    omega
  -- the sum of the datagram, once its length is at least that of the header
  have hsum (h8 : 8 ≤ word 38 frame) :
      onesSum (slice 26 8 frame ++ [0] ++ slice 23 1 frame ++ slice 38 2 frame ++
        slice 34 (word 38 frame) frame) = 65535 ↔
      onesSum (udpFront frame) + 2 * word 38 frame + word 40 frame +
        onesSum ((frame.drop 42).take (word 38 frame - 8)) ≡ 0 [MOD 65535] := by
    have hmod := onesSum_datagram hlen (word 38 frame - 8)
    rw [Nat.add_sub_cancel' h8] at hmod
    rw [onesSum_eq_max_iff (by
      rw [List.append_assoc _ (slice 38 2 frame)]
      exact onesSum_datagram_ne_zero hframe _)]
    exact ⟨hmod.symm.trans, hmod.trans⟩
  constructor
  · rintro ⟨h1, h2, h3, h4⟩
    exact ⟨h1, ⟨h2, hfits.mp h3⟩, (hsum h2).mp h4⟩
  · rintro ⟨h1, ⟨h2, h3⟩, h4⟩
    exact ⟨h1, h2, hfits.mpr h3, (hsum h2).mpr h4⟩

/-! ### Copies -/

/-- A copy of a UDP frame with a checksum leaves with a correct checksum exactly if the words are not a
zero, the length counts bytes that are there, and the bytes behind the datagram add up to a zero. -/
theorem udpProtected_wire_iff {e : UdpEdit} {frame wire : List Byte} (h : e.Yields frame wire)
    (hchecksum : word 40 frame ≠ 0) :
    UdpProtected wire ↔
      ¬ onesSum (udpFront frame) + 2 * e.len frame + onesSum (e.behind frame) ≡ 0 [MOD 65535] ∧
      (8 ≤ e.len frame ∧ e.len frame ≤ 8 + (e.behind frame).length) ∧
      IsZeroSum (sumBehind (e.len frame - 8) (e.behind frame)) := by
  obtain ⟨hlt, hsum⟩ := h.checksum hchecksum
  have htake := onesSum_take_modEq (e.len frame - 8) (e.behind frame)
  rw [udpProtected_iff_modEq h.isUdp, h.front, h.len, h.behind, isZeroSum_iff_modEq (sumBehind_le _ _)]
  refine and_congr ?_ (and_congr_right fun _ => ?_)
  · unfold Nat.ModEq at *
    omega
  · unfold Nat.ModEq at *
    omega

/-- An edit of a frame with a correct UDP checksum after which there is a correct checksum: the received
checksum less what the edit and the bytes behind the datagram add is not a zero, the length counts bytes
that are there, and those that it does not count add up to a zero. -/
structure UdpEdit.Keeps (e : UdpEdit) (frame : List Byte) : Prop where
  checksum : ¬ word 40 frame + (2 * word 38 frame + onesSum e.before) ≡
    2 * e.len frame + onesSum e.after + sumBehind (word 38 frame - 8) (frame.drop 42) [MOD 65535]
  len_ge : 8 ≤ e.len frame
  len_le : e.len frame ≤ 8 + (e.behind frame).length
  trailer : IsZeroSum (sumBehind (e.len frame - 8) (e.behind frame))

/-- A copy of a frame with a correct UDP checksum leaves with a correct one exactly if its edit keeps the
checksum. -/
theorem protected_iff_keeps {e : UdpEdit} {frame wire : List Byte} (h : e.Yields frame wire)
    (hframe : IsUdp frame) (harrival : UdpProtected frame) : UdpProtected wire ↔ e.Keeps frame := by
  obtain ⟨-, -, hreceived⟩ := (udpProtected_iff_modEq hframe).mp harrival
  have htake := onesSum_take_modEq (word 38 frame - 8) (frame.drop 42)
  have hreplace := onesSum_replace h.parity (frame.drop (42 + e.before.length))
  rw [← h.before] at hreplace
  -- the new sum, from the one that was received
  have hsum : onesSum (udpFront frame) + 2 * e.len frame + onesSum (e.behind frame) ≡ 0 [MOD 65535] ↔
      word 40 frame + (2 * word 38 frame + onesSum e.before) ≡
        2 * e.len frame + onesSum e.after + sumBehind (word 38 frame - 8) (frame.drop 42)
          [MOD 65535] := by
    rw [UdpEdit.behind]
    unfold Nat.ModEq at *
    omega
  rw [udpProtected_wire_iff h harrival.checksum, hsum]
  constructor
  · rintro ⟨hchecksum, ⟨hge, hle⟩, htrailer⟩
    exact ⟨hchecksum, hge, hle, htrailer⟩
  · rintro ⟨hchecksum, hge, hle, htrailer⟩
    exact ⟨hchecksum, ⟨hge, hle⟩, htrailer⟩

/-- A frame that is not changed keeps its checksum unless it is `0xffff` or there are bytes behind the
datagram that matter. -/
theorem keeps_none_iff {frame : List Byte} (harrival : UdpProtected frame) :
    ({} : UdpEdit).Keeps frame ↔ word 40 frame ≠ 65535 ∧
      IsZeroSum (sumBehind (word 38 frame - 8) (frame.drop 42)) := by
  have hlen : ({} : UdpEdit).len frame = word 38 frame := Nat.mod_eq_of_lt (word_lt 38 frame)
  have hbehind : ({} : UdpEdit).behind frame = frame.drop 42 := rfl
  have hempty : onesSum ({} : UdpEdit).before = 0 := rfl
  have hword := word_lt 40 frame
  have hne := harrival.checksum
  have hfits := harrival.len_le
  constructor
  · rintro ⟨hchecksum, -, -, hzero⟩
    rw [hlen, hempty, Nat.ModEq] at hchecksum
    rw [hlen, hbehind] at hzero
    refine ⟨fun hmax => hchecksum ?_, hzero⟩
    rw [IsZeroSum] at hzero
    omega
  · rintro ⟨hmax, hzero⟩
    refine ⟨?_, by rw [hlen]; exact harrival.len_ge, ?_, by rw [hlen, hbehind]; exact hzero⟩
    · rw [hlen, hempty, Nat.ModEq]
      rw [IsZeroSum] at hzero
      omega
    · rw [hlen, hbehind, List.length_drop]
      omega

/-- An edit that counts what it adds, in a frame that ends with its datagram, keeps the checksum unless
that would become a zero. -/
theorem keeps_iff_of_counted {e : UdpEdit} {frame : List Byte} (hframe : IsUdp frame)
    (hend : frame.length = 34 + word 38 frame)
    (hcounted : e.len frame + e.before.length = word 38 frame + e.after.length)
    (hbefore : frame.drop 42 = e.before ++ frame.drop (42 + e.before.length)) :
    e.Keeps frame ↔ ¬ word 40 frame + (2 * word 38 frame + onesSum e.before) ≡
      2 * e.len frame + onesSum e.after [MOD 65535] := by
  have hlen := hframe.2.1
  have hlengths := congrArg List.length hbefore
  rw [List.length_append, List.length_drop, List.length_drop] at hlengths
  have hbehind : (e.behind frame).length + 8 = e.len frame := by
    rw [UdpEdit.behind, List.length_append, List.length_drop]
    omega
  have hreceived : sumBehind (word 38 frame - 8) (frame.drop 42) = 0 :=
    sumBehind_of_length_le (by rw [List.length_drop]; omega)
  have hsent : sumBehind (e.len frame - 8) (e.behind frame) = 0 := sumBehind_of_length_le (by omega)
  constructor
  · rintro ⟨hchecksum, -, -, -⟩
    rwa [hreceived, Nat.add_zero] at hchecksum
  · intro hchecksum
    refine ⟨?_, by omega, by omega, .inl hsent⟩
    rwa [hreceived, Nat.add_zero]

/-- A frame that is passed on leaves with a correct checksum unless its own is `0xffff` or there are bytes
behind its datagram that matter. -/
theorem protected_passes_iff {sw : Switch} {a : Arrival} {c : Packet} (hpasses : sw.Passes a)
    (hframe : IsUdp a.frame) (harrival : UdpProtected a.frame) (hc : c ∈ sw.process a)
    (horig : ¬ c.isClone) : UdpProtected c.wire ↔ word 40 a.frame ≠ 65535 ∧
      IsZeroSum (sumBehind (word 38 a.frame - 8) (a.frame.drop 42)) := by
  have h := Switch.yields hframe hc horig
  rw [Switch.edit_passes hpasses] at h
  exact (protected_iff_keeps h hframe harrival).trans (keeps_none_iff harrival)

/-- A frame that ends with its datagram leaves with a correct checksum, if the length counts what is added
or removed, unless the checksum would become a zero. -/
theorem protected_counted_iff {sw : Switch} {a : Arrival} {c : Packet} (hframe : IsUdp a.frame)
    (harrival : UdpProtected a.frame) (hc : c ∈ sw.process a) (horig : ¬ c.isClone)
    (hend : a.frame.length = 34 + word 38 a.frame) {e : UdpEdit}
    (he : e = sw.edit a c.stdMeta.egressPort c.stdMeta.egressGlobalTimestamp)
    (hcounted : e.len a.frame + e.before.length = word 38 a.frame + e.after.length) :
    UdpProtected c.wire ↔ ¬ word 40 a.frame + (2 * word 38 a.frame + onesSum e.before) ≡
      2 * e.len a.frame + onesSum e.after [MOD 65535] := by
  have h := Switch.yields hframe hc horig
  rw [← he] at h
  exact (protected_iff_keeps h hframe harrival).trans
    (keeps_iff_of_counted hframe hend hcounted h.before)

/-- The edit of a copy depends on the frame, the bitmaps, the tables, the port and the timestamps; the copy
leaves with a correct UDP checksum exactly if it keeps the one that was received. -/
theorem udpProtected_iff {sw : Switch} {a : Arrival} {c : Packet} (hframe : IsUdp a.frame)
    (harrival : UdpProtected a.frame) (hc : c ∈ sw.process a) (horig : ¬ c.isClone) :
    UdpProtected c.wire ↔
      (sw.edit a c.stdMeta.egressPort c.stdMeta.egressGlobalTimestamp).Keeps a.frame :=
  protected_iff_keeps (Switch.yields hframe hc horig) hframe harrival

/-- The sample packet with a correct checksum. -/
def protectedBytes : List Byte := sampleBytes.take 40 ++ ([0xbf, 0x65] ++ sampleBytes.drop 42)

@[irreducible] def protectedSent : Packet :=
  (sampleCopies (.insert_int 0xffff 0x0001) protectedBytes).getD 0 default

/-- The copy of a source is protected, and so the edit keeps the checksum. -/
theorem udpProtected_iff_sample :
    UdpProtected protectedBytes ∧
    protectedSent ∈ (sampleSwitch (.insert_int 0xffff 0x0001)).process (sampleArrival protectedBytes) ∧
    UdpProtected protectedSent.wire ∧ ((sampleSwitch (.insert_int 0xffff 0x0001)).edit
      (sampleArrival protectedBytes) protectedSent.stdMeta.egressPort
      protectedSent.stdMeta.egressGlobalTimestamp).Keeps protectedBytes := by
  have harrival : UdpProtected protectedBytes :=
    ⟨by decide +kernel, by decide +kernel, by decide +kernel, by decide +kernel⟩
  have hprotected : UdpProtected protectedSent.wire :=
    ⟨by decide +kernel, by decide +kernel, by decide +kernel, by decide +kernel⟩
  have hsent : protectedSent ∈ (sampleSwitch (.insert_int 0xffff 0x0001)).process
      (sampleArrival protectedBytes) ∧ ¬ protectedSent.isClone := by
    decide +kernel
  have hiff := udpProtected_iff (a := sampleArrival protectedBytes) (by decide +kernel) harrival hsent.1
    hsent.2
  exact ⟨harrival, hsent.1, hprotected, hiff.mp hprotected⟩

/-- A UDP datagram whose words add up to zero, so that its checksum is `0xffff`. -/
def zeroSumBytes : List Byte :=
  emit (EthernetH.mk 0x020000000002 0x020000000001 EtherType.IPV4) ++
  emit (Ipv4H.mk 4 5 0 30 0 2 0 64 Proto.UDP 0x26cd 0x0a000001 0x0a000002) ++
  emit (UdpH.mk 4000 53 10 0xffff) ++ [0xdc, 0x02]

@[irreducible] def zeroSumPassed : Packet := (sampleCopies .NoAction zeroSumBytes).getD 0 default

/-- A datagram with a correct checksum leaves the switch without one. -/
theorem udpProtected_counterexample :
    UdpProtected zeroSumBytes ∧
    zeroSumPassed ∈ (sampleSwitch .NoAction).process (sampleArrival zeroSumBytes) ∧
    ¬ zeroSumPassed.isClone ∧ ¬ UdpProtected zeroSumPassed.wire :=
  ⟨⟨by decide +kernel, by decide +kernel, by decide +kernel, by decide +kernel⟩, by decide +kernel,
    by decide +kernel, fun h => h.checksum (by decide +kernel)⟩

end ScionInt
