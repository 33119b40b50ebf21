import ScionInt.ControlPlane.Bitstring
import ScionInt.ControlPlane.TakeUint

/-!
# The byte-order helpers

`toBitstring` and `fromBitstring` shift and mask, `takeUint` stores bytes into the memory of a number.
`toBitstring_eq`, `toNat_fromBitstring` and `readsWindow_takeUint` say that all of them mean the big-endian
value of a byte string; so they agree (`byteOrder_agree`).
-/

namespace ScionInt

open Wire Wire.Scan

/-- `toBitstring<bytes>` for a signed type, whose shift to the right copies the sign. -/
def toBitstringSigned {w : ℕ} (bytes : ℕ) (value : BitVec w) : List Byte :=
  (List.range bytes).map fun i => ((value.sshiftRight (8 * (bytes - i - 1))) &&& 0xff).setWidth 8

/-- The sign does not reach the bytes that are taken. -/
theorem toBitstringSigned_eq {w bytes : ℕ} (hw : 8 * bytes ≤ w) (value : BitVec w) :
    toBitstringSigned bytes value = toBitstring bytes value := by
  refine List.map_congr_left fun i hi => ?_
  have hi' := List.mem_range.mp hi
  refine BitVec.eq_of_getLsbD_eq fun j hj => ?_
  have hin : 8 * (bytes - i - 1) + j < w := by omega
  have hjw : ¬ w ≤ j := by omega
  simp only [BitVec.getLsbD_setWidth, BitVec.getLsbD_and, BitVec.getLsbD_sshiftRight,
    BitVec.getLsbD_ushiftRight, hin, hjw, if_true, decide_false, Bool.not_false, Bool.true_and]

theorem length_toBitstring {w : ℕ} (bytes : ℕ) (value : BitVec w) :
    (toBitstring bytes value).length = bytes := by
  rw [toBitstring, List.length_map, List.length_range]

theorem pow_256 (n : ℕ) : 256 ^ n = 2 ^ (8 * n) := by
  rw [pow_mul]
  norm_num

/-- A number survives as far as the bytes go. -/
theorem toNat_fromBitstring_toBitstring {w w' bytes : ℕ} (hw : 8 * bytes ≤ w) (hw' : 8 * bytes ≤ w')
    (value : BitVec w) :
    (fromBitstring bytes (toBitstring bytes value) : BitVec w').toNat =
      value.toNat % 2 ^ (8 * bytes) := by
  rw [toNat_fromBitstring hw', ← pow_256]
  cases bytes with
  | zero => simp only [pow_zero, Nat.mod_one]
  | succ n => rw [ofBytes_toBitstring (by omega), Nat.mod_mod]

/-- The low bytes of a big-endian number. -/
theorem ofBytes_mod (bs : List Byte) {n : ℕ} (hn : n ≤ bs.length) :
    ofBytes bs % 256 ^ n = ofBytes (bs.drop (bs.length - n)) := by
  have hlow : (bs.drop (bs.length - n)).length = n := by
    rw [List.length_drop]
    omega
  have hlt := ofBytes_lt (bs.drop (bs.length - n))
  rw [hlow] at hlt
  conv_lhs => rw [← List.take_append_drop (bs.length - n) bs, ofBytes_append, hlow]
  rw [Nat.mul_add_mod_self_right, Nat.mod_eq_of_lt hlt]

/-- The last bytes of a string, or all of them. -/
theorem toNat_fromBitstring_eq {w bytes : ℕ} (hw : 8 * bytes ≤ w) (s : List Byte) :
    (fromBitstring bytes s : BitVec w).toNat =
      ofBytes (s.drop (s.length - min bytes s.length)) := by
  rw [toNat_fromBitstring hw]
  rcases Nat.le_total bytes s.length with hle | hle
  · rw [min_eq_left hle, ofBytes_mod s hle]
  · have hlt := Nat.lt_of_lt_of_le (ofBytes_lt s) (Nat.pow_le_pow_right (by decide : 0 < 256) hle)
    rw [min_eq_right hle, Nat.sub_self, List.drop_zero, Nat.mod_eq_of_lt hlt]

theorem toBitstring_fromBitstring {w bytes : ℕ} (hw : 8 * bytes ≤ w) {s : List Byte}
    (hs : s.length = bytes) : toBitstring bytes (fromBitstring bytes s : BitVec w) = s := by
  cases bytes with
  | zero => rw [List.length_eq_zero_iff.mp hs, toBitstring, List.range_zero, List.map_nil]
  | succ n =>
    have hlt : ofBytes s < 256 ^ (n + 1) := hs ▸ ofBytes_lt s
    rw [toBitstring_eq (by omega), toNat_fromBitstring hw, Nat.mod_eq_of_lt hlt, toBytes_ofBytes hs]

/-- A program that reads the big-endian number of `n` bytes. -/
def TakesBitstring (n : ℕ) (take : BitVec 32 → Scan Empty (BitVec (8 * n))) : Prop :=
  ∀ (buffer : List Byte) (pos : BitVec 32), pos.toNat + n ≤ buffer.length →
    InBounds (take pos) buffer ∧
      result (take pos) buffer = .ok (fromBitstring n (slice pos.toNat n buffer))

theorem takesBitstring_takeUint (n : ℕ) : TakesBitstring n (takeUint n) := by
  intro buffer pos hpos
  have hwindow := readsWindow_takeUint (ε := Empty) n
  refine ⟨hwindow.inBounds_of_le hpos, ?_⟩
  have hlt := ofBytes_lt (slice pos.toNat n buffer)
  rw [length_slice hpos] at hlt
  rw [hwindow.result_eq, bytesAt_eq_slice hpos]
  congr 1
  apply BitVec.eq_of_toNat_eq
  rw [toNat_fromBitstring (Nat.le_refl (8 * n)), Nat.mod_eq_of_lt hlt, BitVec.toNat_ofNat, ← pow_256,
    Nat.mod_eq_of_lt hlt]

/-- The helpers agree, for every width and for all types of that width. -/
theorem byteOrder_agree {w w' bytes : ℕ} (hw : 8 * bytes ≤ w) (hw' : 8 * bytes ≤ w') :
    (∀ value : BitVec w, (toBitstring bytes value).length = bytes ∧
      toBitstringSigned bytes value = toBitstring bytes value ∧
      (fromBitstring bytes (toBitstring bytes value) : BitVec w').toNat =
        value.toNat % 2 ^ (8 * bytes)) ∧
    (∀ s : List Byte, (fromBitstring bytes s : BitVec w).toNat =
      ofBytes (s.drop (s.length - min bytes s.length))) ∧
    (∀ s : List Byte, s.length = bytes →
      toBitstring bytes (fromBitstring bytes s : BitVec w) = s) ∧
    TakesBitstring 8 takeUint64 ∧ TakesBitstring 4 takeUint32 ∧ TakesBitstring 2 takeUint16 ∧
    TakesBitstring 1 takeUint8 := by
  refine ⟨fun value => ⟨length_toBitstring bytes value, toBitstringSigned_eq hw value,
    toNat_fromBitstring_toBitstring hw hw' value⟩, toNat_fromBitstring_eq hw,
    fun s hs => toBitstring_fromBitstring hw hs, ?_⟩
  exact ⟨takesBitstring_takeUint 8, takesBitstring_takeUint 4, takesBitstring_takeUint 2,
    takesBitstring_takeUint 1⟩

/-- The two low bytes of a 32-bit number, read into a 64-bit number. -/
theorem byteOrder_agree_sample :
    (∀ value : BitVec 32, (toBitstring 2 value).length = 2 ∧
      toBitstringSigned 2 value = toBitstring 2 value ∧
      (fromBitstring 2 (toBitstring 2 value) : BitVec 64).toNat = value.toNat % 2 ^ (8 * 2)) ∧
    (∀ s : List Byte, (fromBitstring 2 s : BitVec 32).toNat =
      ofBytes (s.drop (s.length - min 2 s.length))) ∧
    (∀ s : List Byte, s.length = 2 → toBitstring 2 (fromBitstring 2 s : BitVec 32) = s) ∧
    TakesBitstring 8 takeUint64 ∧ TakesBitstring 4 takeUint32 ∧ TakesBitstring 2 takeUint16 ∧
    TakesBitstring 1 takeUint8 :=
  byteOrder_agree (by decide) (by decide)

end ScionInt
