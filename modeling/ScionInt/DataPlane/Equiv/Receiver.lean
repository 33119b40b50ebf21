import ScionInt.DataPlane.Equiv.Protection

/-!
# Damaged frames at a receiver

A receiver sums the IPv4 header up to the end that `ihl` names and the UDP datagram that starts there
(`Verifies`); the checksum stage sums 20 bytes of the header and everything behind them.
`verifies_wire_iff`: a copy verifies exactly if the received frame and the edit are `Verified`, a condition
on the header length, the sum of the options, the length after the edit and the bytes behind the datagram.

Main result: `resigned_iff`.  A damaged frame leaves with checksums that the verification of the switch
accepts, whatever is done to it, and with checksums that a receiver accepts exactly if it is `Verified`, as
every plain frame is, zero padding included (`verified_of_padded`, `verifies_passes`).
-/

namespace ScionInt

open Wire

/-! ### What a receiver verifies -/

/-- The offset of the first byte behind the IPv4 header. -/
def headerEnd (frame : List Byte) : ℕ := 14 + 4 * (ofBytes (slice 14 1 frame) % 16)

/-- There is one fragment. -/
def Unfragmented (frame : List Byte) : Prop := word 20 frame % 2 ^ 14 = 0

/-- The header has its fixed part, is there as a whole, and its words add up to `0xffff`. -/
def HeaderVerifies (frame : List Byte) : Prop :=
  34 ≤ headerEnd frame ∧ headerEnd frame ≤ frame.length ∧ Ipv4HeaderCorrect frame

/-- A UDP header and its data: the checksum is not in use or the words of the datagram that `len` counts
add up to `0xffff` with those of the pseudo header. -/
def DatagramVerifies (front datagram : List Byte) : Prop :=
  word 6 datagram = 0 ∨ (8 ≤ word 4 datagram ∧ word 4 datagram ≤ datagram.length) ∧
    onesSum (front ++ slice 4 2 datagram ++ datagram.take (word 4 datagram)) = 65535

/-- The checksums that a receiver computes are those of the frame. -/
def Verifies (frame : List Byte) : Prop :=
  IsIpv4 frame → HeaderVerifies frame ∧
    (slice 23 1 frame = [0x11] → Unfragmented frame → headerEnd frame + 8 ≤ frame.length →
      DatagramVerifies (ipFront frame) (frame.drop (headerEnd frame)))

instance (frame : List Byte) : Decidable (Unfragmented frame) := inferInstanceAs (Decidable (_ = _))

instance (frame : List Byte) : Decidable (HeaderVerifies frame) :=
  inferInstanceAs (Decidable (_ ∧ _ ∧ onesSum _ = 65535))

instance (front datagram : List Byte) : Decidable (DatagramVerifies front datagram) :=
  inferInstanceAs (Decidable (_ ∨ _ ∧ _))

instance (frame : List Byte) : Decidable (Verifies frame) := inferInstanceAs (Decidable (_ → _ ∧ _))

/-- A frame whose IPv4 header has a correct sum in its first 20 bytes verifies, with `behind` behind these
bytes. -/
def VerifiesBehind (frame behind : List Byte) : Prop :=
  (34 ≤ headerEnd frame ∧ headerEnd frame ≤ 34 + behind.length) ∧
  IsZeroSum (onesSum (behind.take (headerEnd frame - 34))) ∧
  (slice 23 1 frame = [0x11] → Unfragmented frame → headerEnd frame + 8 ≤ 34 + behind.length →
    DatagramVerifies (ipFront frame) (behind.drop (headerEnd frame - 34)))

theorem headerVerifies_iff {frame : List Byte} (hframe : IsIpv4 frame) (hself : SelfChecked frame) :
    HeaderVerifies frame ↔ (34 ≤ headerEnd frame ∧ headerEnd frame ≤ frame.length) ∧
      IsZeroSum (onesSum ((frame.drop 34).take (headerEnd frame - 34))) := by
  have hlen := hframe.1
  have hfixed : onesSum (slice 14 20 frame) = 65535 := by
    rw [slice_ipv4Header]
    exact onesSum_around_of_add (by rw [length_slice (by omega)]) (length_slice (by omega))
      (hself.1 hframe)
  have hsum (hge : 34 ≤ headerEnd frame) : Ipv4HeaderCorrect frame ↔
      IsZeroSum (onesSum ((frame.drop 34).take (headerEnd frame - 34))) := by
    have hoptions : slice 14 (4 * (ofBytes (slice 14 1 frame) % 16)) frame =
        slice 14 20 frame ++ (frame.drop 34).take (headerEnd frame - 34) := by
      rw [show (frame.drop 34).take (headerEnd frame - 34) = slice (14 + 20) (headerEnd frame - 34) frame
        from rfl, ← slice_add, headerEnd]
      congr 1
      rw [headerEnd] at hge
      omega
    rw [Ipv4HeaderCorrect, hoptions, onesSum_append_of_even (by rw [length_slice (by omega)]), hfixed,
      max_endAroundAdd_iff (onesSum_le _)]
  rw [HeaderVerifies, ← and_assoc]
  exact and_congr_right fun h => hsum h.1

/-- Of a frame with the checksum of the checksum stage a receiver verifies what is behind byte 34. -/
theorem verifies_iff {frame : List Byte} (hframe : IsIpv4 frame) (hself : SelfChecked frame) :
    Verifies frame ↔ VerifiesBehind frame (frame.drop 34) := by
  have hlen := hframe.1
  have hfits (n : ℕ) : n ≤ 34 + (frame.drop 34).length ↔ n ≤ frame.length := by
    rw [List.length_drop]
    omega
  rw [Verifies, VerifiesBehind, hfits, hfits, ← and_assoc, ← headerVerifies_iff hframe hself]
  rw [forall_prop_of_true hframe]
  refine and_congr_right fun h => ?_
  rw [List.drop_drop, Nat.add_sub_cancel' h.1]

/-- A receiver reads what no control writes. -/
theorem SameIpv4.verifiesBehind_iff {frame wire : List Byte} (h : SameIpv4 frame wire)
    (behind : List Byte) : VerifiesBehind wire behind ↔ VerifiesBehind frame behind := by
  have hversion (xs : List Byte) : slice 14 1 xs = (slice 14 2 xs).take 1 := by
    rw [slice, slice, List.take_take]
    rfl
  have hend : headerEnd wire = headerEnd frame := by
    rw [headerEnd, headerEnd, hversion, hversion, h.version]
  rw [VerifiesBehind, VerifiesBehind, Unfragmented, Unfragmented, ipFront, ipFront, hend, h.fragment,
    h.protocol, h.addrs]

/-! ### Frames with a UDP checksum -/

/-- A UDP frame with a checksum whose copies verify: the IPv4 header ends in front of the outer UDP header
of the parser, inside of it, or behind it. -/
inductive UdpEdit.Resigned (e : UdpEdit) (frame : List Byte) : Prop
  | plain (hend : headerEnd frame = 34)
    (hdatagram : Unfragmented frame →
      onesSum (udpFront frame) + 2 * e.len frame + onesSum (e.behind frame) ≡ 0 [MOD 65535] ∨
      (8 ≤ e.len frame ∧ e.len frame ≤ 8 + (e.behind frame).length) ∧
        IsZeroSum (sumBehind (e.len frame - 8) (e.behind frame)))
  | oneOption (hend : headerEnd frame = 38) (hoption : IsZeroSum (onesSum (slice 34 4 frame)))
    (hdatagram : Unfragmented frame → 4 ≤ (e.behind frame).length →
      word 2 (e.behind frame) = 0 ∨
      (8 ≤ word 0 (e.behind frame) ∧ word 0 (e.behind frame) ≤ 4 + (e.behind frame).length) ∧
        word 0 (e.behind frame) ≡
          e.len frame + sumBehind (word 0 (e.behind frame) - 4) (e.behind frame) [MOD 65535])
  | options (hge : 42 ≤ headerEnd frame) (hle : headerEnd frame ≤ 42 + (e.behind frame).length)
    (hoptions : onesSum (ipFront frame) + e.len frame +
      sumBehind (headerEnd frame - 42) (e.behind frame) ≡ 0 [MOD 65535])
    (hdatagram : Unfragmented frame → headerEnd frame + 8 ≤ 42 + (e.behind frame).length →
      DatagramVerifies (ipFront frame) ((e.behind frame).drop (headerEnd frame - 42)))

/-- Behind a header without options the receiver and the parser read the same datagram. -/
theorem datagramVerifies_iff {frame : List Byte} (hlen : 42 ≤ frame.length) :
    DatagramVerifies (ipFront frame) (frame.drop 34) ↔ (word 40 frame ≠ 0 → UdpProtected frame) := by
  have hfits : word 38 frame ≤ (frame.drop 34).length ↔ 34 + word 38 frame ≤ frame.length := by
    rw [List.length_drop]
    omega
  rw [DatagramVerifies, word_drop, word_drop, slice_drop, hfits, ipFront]
  constructor
  · rintro (h | ⟨⟨hge, hle⟩, hsum⟩) hne
    · exact absurd h hne
    · exact ⟨hne, hge, hle, hsum⟩
  · intro h
    by_cases hne : word 40 frame = 0
    · exact .inl hne
    · exact .inr ⟨⟨(h hne).len_ge, (h hne).len_le⟩, (h hne).sum⟩

section

variable {e : UdpEdit} {frame wire : List Byte}

/-- The length and the checksum of a copy and the first `n` bytes behind its UDP header. -/
theorem UdpEdit.Yields.onesSum_take (h : e.Yields frame wire) (n : ℕ) :
    onesSum ((wire.drop 38).take (4 + n)) ≡
      e.len frame + word 40 wire + onesSum ((e.behind frame).take n) [MOD 65535] := by
  have hlen := h.isUdp.2.1
  have hl : (slice 38 2 wire).length = 2 := length_slice (by omega)
  have hc : (slice 40 2 wire).length = 2 := length_slice (by omega)
  have hsplit : (wire.drop 38).take (4 + n) =
      slice 38 2 wire ++ (slice 40 2 wire ++ (e.behind frame).take n) := by
    rw [drop_eq_slice_append 38 2, drop_eq_slice_append 40 2, h.behind, ← List.append_assoc,
      List.take_append, List.length_append, hl, hc, List.take_of_length_le, List.append_assoc,
      Nat.add_sub_cancel_left]
    rw [List.length_append]
    omega
  have h1 := onesSum_append_modEq (show (slice 38 2 wire).length % 2 = 0 by omega)
    (slice 40 2 wire ++ (e.behind frame).take n)
  have h2 := onesSum_append_modEq (show (slice 40 2 wire).length % 2 = 0 by omega)
    ((e.behind frame).take n)
  rw [onesSum_of_length_two hl, ← word, h.len] at h1
  rw [onesSum_of_length_two hc, ← word] at h2
  rw [hsplit]
  unfold Nat.ModEq at *
  omega

theorem udpFront_modEq (hlen : 42 ≤ frame.length) :
    onesSum (udpFront frame) ≡ onesSum (ipFront frame) + onesSum (slice 34 4 frame) [MOD 65535] := by
  have hfront := length_ipFront (show 34 ≤ frame.length by omega)
  exact onesSum_append_modEq (by omega) _

/-- The copy of a frame whose header has no options. -/
theorem verifiesBehind_plain (h : e.Yields frame wire) (hframe : IsUdp frame) (hne : word 40 frame ≠ 0)
    (hend : headerEnd frame = 34) :
    VerifiesBehind frame (wire.drop 34) ↔ (Unfragmented frame →
      onesSum (udpFront frame) + 2 * e.len frame + onesSum (e.behind frame) ≡ 0 [MOD 65535] ∨
      (8 ≤ e.len frame ∧ e.len frame ≤ 8 + (e.behind frame).length) ∧
        IsZeroSum (sumBehind (e.len frame - 8) (e.behind frame))) := by
  have hlen := h.isUdp.2.1
  obtain ⟨hlt, hsum⟩ := h.checksum hne
  have hfront : ipFront frame = ipFront wire := by rw [ipFront, ipFront, h.addrs, h.protocol]
  have hfits : 34 + 8 ≤ 34 + (wire.drop 34).length := by
    rw [List.length_drop]
    omega
  -- a checksum of zero is not verified
  have hzero : word 40 wire = 0 ↔
      onesSum (udpFront frame) + 2 * e.len frame + onesSum (e.behind frame) ≡ 0 [MOD 65535] := by
    unfold Nat.ModEq at *
    omega
  have hdatagram : DatagramVerifies (ipFront frame) (wire.drop 34) ↔ _ :=
    hfront ▸ (datagramVerifies_iff hlen).trans
      (imp_congr_right fun _ => udpProtected_wire_iff h hne)
  rw [VerifiesBehind, hend, Nat.sub_self, List.take_zero, List.drop_zero, hdatagram]
  constructor
  · rintro ⟨-, -, hverifies⟩ hunfragmented
    by_cases hmod : onesSum (udpFront frame) + 2 * e.len frame + onesSum (e.behind frame) ≡ 0 [MOD 65535]
    · exact .inl hmod
    · exact .inr (hverifies hframe.2.2 hunfragmented hfits (fun h0 => hmod (hzero.mp h0))).2
  · intro hverifies
    refine ⟨⟨Nat.le_refl _, Nat.le_add_right _ _⟩, .inl rfl, fun _ hunfragmented _ hnonzero => ?_⟩
    have hmod := mt hzero.mpr hnonzero
    exact ⟨hmod, (hverifies hunfragmented).resolve_left hmod⟩

/-- The bytes of a copy behind the ports of the parser. -/
theorem UdpEdit.Yields.length_drop (h : e.Yields frame wire) :
    (wire.drop 34).length = 8 + (e.behind frame).length ∧
      (wire.drop 38).length = 4 + (e.behind frame).length := by
  have hlen := h.isUdp.2.1
  rw [← h.behind, List.length_drop, List.length_drop, List.length_drop]
  omega

theorem UdpEdit.Yields.word_drop (h : e.Yields frame wire) (i : ℕ) :
    word (4 + i) (wire.drop 38) = word i (e.behind frame) := by
  rw [← h.behind, Wire.word_drop, Wire.word_drop, ← Nat.add_assoc]

/-- The sum of the datagram behind one option: the length and the checksum that the checksum stage writes
are its ports. -/
theorem onesSum_oneOption_iff (h : e.Yields frame wire) (hframe : IsUdp frame) (hne : word 40 frame ≠ 0)
    (hoption : IsZeroSum (onesSum (slice 34 4 frame))) (hfour : 4 ≤ (e.behind frame).length)
    (hge : 8 ≤ word 0 (e.behind frame)) :
    onesSum (ipFront frame ++ slice 4 2 (wire.drop 38) ++ (wire.drop 38).take (word 0 (e.behind frame))) =
        65535 ↔
      word 0 (e.behind frame) ≡
        e.len frame + sumBehind (word 0 (e.behind frame) - 4) (e.behind frame) [MOD 65535] := by
  have hne0 : onesSum (ipFront frame ++ slice 4 2 (wire.drop 38) ++
      (wire.drop 38).take (word 0 (e.behind frame))) ≠ 0 := by
    rw [ipFront, List.append_assoc]
    exact onesSum_datagram_ne_zero hframe _
  have hslice : (slice 4 2 (wire.drop 38)).length = 2 := by
    refine length_slice ?_
    rw [h.length_drop.2]
    omega
  have hfront := length_ipFront hframe.1.1
  have hsum1 := onesSum_append_modEq (show (ipFront frame).length % 2 = 0 by omega)
    (slice 4 2 (wire.drop 38) ++ (wire.drop 38).take (word 0 (e.behind frame)))
  have hsum2 := onesSum_append_modEq (show (slice 4 2 (wire.drop 38)).length % 2 = 0 by omega)
    ((wire.drop 38).take (word 0 (e.behind frame)))
  have hsum3 := h.onesSum_take (word 0 (e.behind frame) - 4)
  have hsum4 := onesSum_take_modEq (word 0 (e.behind frame) - 4) (e.behind frame)
  have hsum5 := udpFront_modEq hframe.2.1
  have hsum6 := (h.checksum hne).2
  have hcount : ofBytes (slice 4 2 (wire.drop 38)) = word 0 (e.behind frame) := h.word_drop 0
  rw [onesSum_of_length_two hslice, hcount] at hsum2
  rw [Nat.add_sub_cancel' (by omega)] at hsum3
  rw [isZeroSum_iff_modEq (onesSum_le _)] at hoption
  rw [onesSum_eq_max_iff hne0, List.append_assoc]
  clear hne0 hslice hfront hcount
  unfold Nat.ModEq at *
  omega

/-- The copy of a frame with one option, which the parser takes for the ports. -/
theorem verifiesBehind_oneOption (h : e.Yields frame wire) (hframe : IsUdp frame)
    (hne : word 40 frame ≠ 0) (hend : headerEnd frame = 38) :
    VerifiesBehind frame (wire.drop 34) ↔ IsZeroSum (onesSum (slice 34 4 frame)) ∧
      (Unfragmented frame → 4 ≤ (e.behind frame).length → word 2 (e.behind frame) = 0 ∨
        (8 ≤ word 0 (e.behind frame) ∧ word 0 (e.behind frame) ≤ 4 + (e.behind frame).length) ∧
          word 0 (e.behind frame) ≡
            e.len frame + sumBehind (word 0 (e.behind frame) - 4) (e.behind frame) [MOD 65535]) := by
  obtain ⟨hlength, hlength'⟩ := h.length_drop
  have hports : (wire.drop 34).take (38 - 34) = slice 34 4 frame := h.ports
  have hdrop : (wire.drop 34).drop (38 - 34) = wire.drop 38 := List.drop_drop
  have hheader : (34 ≤ 38 ∧ 38 ≤ 34 + (wire.drop 34).length) ∧
      (38 + 8 ≤ 34 + (wire.drop 34).length ↔ 4 ≤ (e.behind frame).length) := by
    omega
  rw [VerifiesBehind, hend, hports, hdrop, and_iff_right hheader.1, hheader.2,
    forall_prop_of_true hframe.2.2]
  refine and_congr_right fun hoption => imp_congr_right fun _ => imp_congr_right fun hfour => ?_
  rw [DatagramVerifies, h.word_drop 2, show word 4 (wire.drop 38) = _ from h.word_drop 0, hlength']
  exact or_congr_right (and_congr_right fun hge =>
    onesSum_oneOption_iff h hframe hne hoption hfour hge.1)

/-- The sum of more options: the header that the parser takes for UDP is among them. -/
theorem isZeroSum_options_iff (h : e.Yields frame wire) (hframe : IsUdp frame) (hne : word 40 frame ≠ 0)
    {n : ℕ} (hge : 42 ≤ n) :
    IsZeroSum (onesSum ((wire.drop 34).take (n - 34))) ↔
      onesSum (ipFront frame) + e.len frame + sumBehind (n - 42) (e.behind frame) ≡ 0 [MOD 65535] := by
  have hsplit : (wire.drop 34).take (n - 34) = slice 34 4 frame ++ (wire.drop 38).take (4 + (n - 42)) := by
    rw [← h.ports, show n - 34 = 4 + (4 + (n - 42)) by omega]
    exact slice_add 34 4 (4 + (n - 42)) wire
  have hports : (slice 34 4 frame).length = 4 := by
    have hlen := hframe.2.1
    exact length_slice (by omega)
  have hsum1 := onesSum_append_modEq (show (slice 34 4 frame).length % 2 = 0 by omega)
    ((wire.drop 38).take (4 + (n - 42)))
  have hsum2 := h.onesSum_take (n - 42)
  have hsum3 := onesSum_take_modEq (n - 42) (e.behind frame)
  have hsum4 := udpFront_modEq hframe.2.1
  have hsum5 := (h.checksum hne).2
  rw [isZeroSum_iff_modEq (onesSum_le _), hsplit]
  clear hsplit hports
  unfold Nat.ModEq at *
  omega

/-- The copy of a frame with more options. -/
theorem verifiesBehind_options (h : e.Yields frame wire) (hframe : IsUdp frame)
    (hne : word 40 frame ≠ 0) (hge : 42 ≤ headerEnd frame) :
    VerifiesBehind frame (wire.drop 34) ↔ headerEnd frame ≤ 42 + (e.behind frame).length ∧
      onesSum (ipFront frame) + e.len frame + sumBehind (headerEnd frame - 42) (e.behind frame) ≡ 0
        [MOD 65535] ∧
      (Unfragmented frame → headerEnd frame + 8 ≤ 42 + (e.behind frame).length →
        DatagramVerifies (ipFront frame) ((e.behind frame).drop (headerEnd frame - 42))) := by
  have hlength := h.length_drop.1
  have hheader : (34 ≤ headerEnd frame ∧ headerEnd frame ≤ 34 + (wire.drop 34).length ↔
      headerEnd frame ≤ 42 + (e.behind frame).length) ∧
      (headerEnd frame + 8 ≤ 34 + (wire.drop 34).length ↔
        headerEnd frame + 8 ≤ 42 + (e.behind frame).length) := by
    omega
  have hdrop : (wire.drop 34).drop (headerEnd frame - 34) =
      (e.behind frame).drop (headerEnd frame - 42) := by
    rw [← h.behind, List.drop_drop, List.drop_drop]
    congr 1
    omega
  rw [VerifiesBehind, hheader.1, hheader.2, hdrop, forall_prop_of_true hframe.2.2,
    isZeroSum_options_iff h hframe hne hge]

/-- The copy of a UDP frame with a checksum verifies exactly if the frame and the edit are `Resigned`. -/
theorem verifiesBehind_iff_resigned (h : e.Yields frame wire) (hframe : IsUdp frame)
    (hne : word 40 frame ≠ 0) : VerifiesBehind frame (wire.drop 34) ↔ e.Resigned frame := by
  constructor
  · intro hverifies
    have hge := hverifies.1.1
    -- the header ends at a word of four bytes
    have hend : headerEnd frame = 34 ∨ headerEnd frame = 38 ∨ 42 ≤ headerEnd frame := by
      rw [headerEnd] at hge ⊢
      omega
    rcases hend with hend | hend | hend
    · exact .plain hend ((verifiesBehind_plain h hframe hne hend).mp hverifies)
    · obtain ⟨hoption, hdatagram⟩ := (verifiesBehind_oneOption h hframe hne hend).mp hverifies
      exact .oneOption hend hoption hdatagram
    · obtain ⟨hle, hoptions, hdatagram⟩ := (verifiesBehind_options h hframe hne hend).mp hverifies
      exact .options hend hle hoptions hdatagram
  · intro hresigned
    cases hresigned with
    | plain hend hdatagram => exact (verifiesBehind_plain h hframe hne hend).mpr hdatagram
    | oneOption hend hoption hdatagram =>
      exact (verifiesBehind_oneOption h hframe hne hend).mpr ⟨hoption, hdatagram⟩
    | options hge hle hoptions hdatagram =>
      exact (verifiesBehind_options h hframe hne hge).mpr ⟨hle, hoptions, hdatagram⟩

end

/-! ### Copies -/

/-- The received frame and the edit lead to a copy that a receiver accepts. -/
def UdpEdit.Verified (e : UdpEdit) (frame : List Byte) : Prop :=
  IsIpv4 frame →
    if IsUdp frame then
      if word 40 frame = 0 then
        VerifiesBehind frame
          (slice 34 4 frame ++ (toBytes 2 (e.len frame) ++ ([0, 0] ++ e.behind frame)))
      else e.Resigned frame
    else VerifiesBehind frame (frame.drop 34)

/-- A copy whose UDP checksum is not in use. -/
theorem UdpEdit.Yields.drop_unused {e : UdpEdit} {frame wire : List Byte} (h : e.Yields frame wire)
    (hzero : word 40 frame = 0) :
    wire.drop 34 = slice 34 4 frame ++ (toBytes 2 (e.len frame) ++ ([0, 0] ++ e.behind frame)) := by
  have hlen := h.isUdp.2.1
  have hl : toBytes 2 (e.len frame) = slice 38 2 wire := by
    rw [← h.len]
    exact toBytes_ofBytes (length_slice (by omega))
  have hc : [0, 0] = slice 40 2 wire := by
    have hlength : (slice 40 2 wire).length = 2 := length_slice (by omega)
    have hwrite := toBytes_ofBytes hlength
    rw [← word, h.unused hzero] at hwrite
    exact hwrite
  rw [drop_eq_slice_append 34 4, drop_eq_slice_append 38 2, drop_eq_slice_append 40 2, h.ports, h.behind,
    hl, hc]

/-- A copy of a frame without an outer UDP header. -/
theorem Switch.wire_noUdp {sw : Switch} {a : Arrival} {c : Packet} (hnot : ¬ IsUdp a.frame)
    (hc : c ∈ sw.process a) :
    (¬ IsIpv4 a.frame ∧ c.wire = a.frame) ∨
      ((IsIpv4 a.frame ∧ IsIpv4 c.wire) ∧ SameIpv4 a.frame c.wire ∧ c.wire.drop 34 = a.frame.drop 34) := by
  have hplain := fun hudp => Switch.process_noUdp hudp hc
  have hemit := (parse_outcome a.frame).emit_eq
  have hlayers := layers a.frame
  generalize (parse a.frame).hdr = hdr at hplain hemit hlayers
  generalize (parse a.frame).rest = rest at hplain hemit hlayers
  cases hlayers with
  | other _ _ hframe hipv4 hudp =>
    obtain ⟨hhdr, hrest⟩ := hplain hudp
    refine .inl ⟨hframe, ?_⟩
    rw [wire_other (by rw [hhdr, hipv4]) (by rw [hhdr, hudp]), hhdr, hrest, hemit]
  | ipv4 ethernet ipv4 _ hframe hetherType =>
    obtain ⟨hhdr, hrest⟩ := hplain rfl
    have hwire := wire_ipv4 hhdr
    rw [hrest] at hwire
    have hdrop (h : Ipv4H) : (emit ethernet ++ (emit h ++ rest)).drop 34 = rest := by
      rw [← List.append_assoc, List.drop_left' (by simp)]
    refine .inr ⟨⟨isIpv4_of_append hframe hetherType, isIpv4_of_append hwire hetherType⟩,
      sameIpv4_of_emit hframe hwire, ?_⟩
    rw [hwire, hframe, hdrop, hdrop]
  | udp ethernet ipv4 udp _ _ hframe hetherType hprotocol =>
    exact absurd (isUdp_of_append hframe hetherType hprotocol) hnot

/-- A copy, whatever the frame was, verifies exactly if the frame and its edit are `Verified`. -/
theorem verifies_wire_iff {sw : Switch} {a : Arrival} {c : Packet} (hc : c ∈ sw.process a)
    (horig : ¬ c.isClone) :
    Verifies c.wire ↔
      (sw.edit a c.stdMeta.egressPort c.stdMeta.egressGlobalTimestamp).Verified a.frame := by
  have hself := selfChecked_wire hc horig
  by_cases hframe : IsUdp a.frame
  · have h := Switch.yields hframe hc horig
    generalize sw.edit a c.stdMeta.egressPort c.stdMeta.egressGlobalTimestamp = e at h
    rw [verifies_iff h.isUdp.1 hself, h.verifiesBehind_iff, UdpEdit.Verified,
      forall_prop_of_true hframe.1, if_pos hframe]
    split_ifs with hzero
    · rw [h.drop_unused hzero]
    · exact verifiesBehind_iff_resigned h hframe hzero
  · rw [UdpEdit.Verified, if_neg hframe]
    rcases Switch.wire_noUdp hframe hc with ⟨hnot, hwire⟩ | ⟨⟨hipv4, hipv4'⟩, hsame, hdrop⟩
    · rw [Verifies, hwire]
      exact iff_of_true (fun h => absurd h hnot) (fun h => absurd h hnot)
    · rw [verifies_iff hipv4' hself, hsame.verifiesBehind_iff, hdrop, forall_prop_of_true hipv4]

/-- In a plain frame with a checksum, without options and with nothing but zero padding behind the datagram
after the edit, no damage is left. -/
theorem verified_of_padded {e : UdpEdit} {frame : List Byte} (hframe : IsUdp frame)
    (hne : word 40 frame ≠ 0) (hend : headerEnd frame = 34) (hge : 8 ≤ e.len frame)
    (hle : e.len frame ≤ 8 + (e.behind frame).length)
    (hpadding : ∀ b ∈ (e.behind frame).drop (e.len frame - 8), b = 0) : e.Verified frame := by
  rw [UdpEdit.Verified, forall_prop_of_true hframe.1, if_pos hframe, if_neg hne]
  exact .plain hend fun _ => .inr ⟨⟨hge, hle⟩, .inl (sumBehind_of_zeros hpadding)⟩

/-- So no damage of a plain frame that is passed on survives. -/
theorem verifies_passes {sw : Switch} {a : Arrival} {c : Packet} (hpasses : sw.Passes a)
    (hframe : IsUdp a.frame) (hne : word 40 a.frame ≠ 0) (hheader : headerEnd a.frame = 34)
    (hge : 8 ≤ word 38 a.frame) (hle : 34 + word 38 a.frame ≤ a.frame.length)
    (hpadding : ∀ b ∈ a.frame.drop (34 + word 38 a.frame), b = 0) (hc : c ∈ sw.process a)
    (horig : ¬ c.isClone) : Verifies c.wire := by
  have hcount : ({} : UdpEdit).len a.frame = word 38 a.frame := Nat.mod_eq_of_lt (word_lt 38 a.frame)
  have hbehind : ({} : UdpEdit).behind a.frame = a.frame.drop 42 := rfl
  rw [verifies_wire_iff hc horig, Switch.edit_passes hpasses]
  refine verified_of_padded hframe hne hheader ?_ ?_ ?_
  · rw [hcount]
    exact hge
  · rw [hcount, hbehind, List.length_drop]
    omega
  · rw [hcount, hbehind, List.drop_drop, show 42 + (word 38 a.frame - 8) = 34 + word 38 a.frame by omega]
    exact hpadding

end ScionInt
