import Mathlib.Data.Nat.Log
import ScionInt.Wire.Protobuf

/-!
# Numbers in base 128

The encoding of numbers in protocol buffers: seven bits in a byte, the low ones first, with the top bit
set in every byte but the last.  `base128` is a `Runtime` with this encoding.
-/

namespace Wire

namespace Protobuf

open Reader

def varint (v : ℕ) : List Byte :=
  if v < 128 then [BitVec.ofNat 8 v]
  else BitVec.ofNat 8 (128 + v % 128) :: varint (v / 128)
termination_by v
decreasing_by omega

/-- The number of bytes of a varint, computed from the highest bit. -/
def varintSize (v : ℕ) : ℕ := (Nat.log2 (v ||| 1) * 9 + 73) / 64

/-- A varint of at most `n` bytes. -/
def readVarint : ℕ → Reader ℕ
  | 0 => fail
  | n + 1 => do
    let b ← number 1
    if b < 128 then pure b
    else do
      let v ← readVarint n
      pure (b % 128 + 128 * v)

/-! ### The size -/

/-- The number of sevenths of the bits of a number, one at least. -/
theorem length_varint (v : ℕ) : (varint v).length = Nat.log2 v / 7 + 1 := by
  induction v using Nat.strong_induction_on with
  | _ v ih =>
    rw [varint]
    split_ifs with hv
    · have hlog : Nat.log2 v < 7 ∨ v = 0 := by
        rcases eq_or_ne v 0 with h | h
        · exact Or.inr h
        · exact Or.inl ((Nat.log2_lt h).mpr hv)
      rcases hlog with hlog | rfl
      · rw [Nat.div_eq_of_lt hlog]
        rfl
      · rfl
    · have hlog : Nat.log2 (v / 128) = Nat.log2 v - 7 := by
        rw [Nat.log2_eq_log_two, Nat.log2_eq_log_two]
        exact Nat.log_div_base_pow 2 v 7
      have hge : 7 ≤ Nat.log2 v := (Nat.le_log2 (by omega)).mpr (by omega)
      rw [List.length_cons, ih (v / 128) (by omega), hlog]
      omega

theorem log2_or_one (v : ℕ) : Nat.log2 (v ||| 1) = Nat.log2 v := by
  rcases eq_or_ne v 0 with rfl | hv
  · rfl
  · have hor : v ||| 1 ≠ 0 := by
      intro h
      have h1 := Nat.right_le_or (n := v) (m := 1)
      omega
    have hpow : 2 ^ Nat.log2 v ≤ v := Nat.log2_self_le hv
    apply le_antisymm
    · have hlt : v ||| 1 < 2 ^ (Nat.log2 v + 1) :=
        Nat.or_lt_two_pow Nat.lt_log2_self (Nat.one_lt_two_pow (by omega))
      have := (Nat.log2_lt hor).mpr hlt
      omega
    · exact (Nat.le_log2 hor).mpr (hpow.trans Nat.left_le_or)

theorem log2_lt_of_lt {v : ℕ} (hv : v < 2 ^ 64) : Nat.log2 v < 64 := by
  rcases eq_or_ne v 0 with rfl | h
  · decide
  · exact (Nat.log2_lt h).mpr hv

theorem varintSize_le {v : ℕ} (hv : v < 2 ^ 64) : varintSize v ≤ 10 := by
  unfold varintSize
  have hlog := log2_lt_of_lt hv
  rw [log2_or_one]
  omega

theorem length_varint_eq_varintSize {v : ℕ} (hv : v < 2 ^ 64) : (varint v).length = varintSize v := by
  unfold varintSize
  rw [length_varint, log2_or_one]
  -- for fewer than 64 bits nine sixty-fourths are close enough to a seventh
  have hdiv : ∀ l < 64, l / 7 + 1 = (l * 9 + 73) / 64 := by decide
  exact hdiv _ (log2_lt_of_lt hv)

/-! ### The round trip -/

theorem reads_readVarint {n v : ℕ} (hv : v < 128 ^ n) (hn : 0 < n) :
    Reads (readVarint n) (varint v) v := by
  induction n generalizing v with
  | zero => exact absurd hn (Nat.lt_irrefl 0)
  | succ n ih =>
    have hbyte {b : ℕ} (hb : b < 256) : Reads (number 1) [BitVec.ofNat 8 b] b := by
      have h := reads_number (n := 1) (v := b) (by omega)
      have hbytes : leBytes 1 b = [BitVec.ofNat 8 b] := by
        simp [leBytes, toBytes]
      rwa [hbytes] at h
    rw [varint]
    split_ifs with hlt
    · rw [← List.append_nil [BitVec.ofNat 8 v]]
      refine (hbyte (by omega)).bind ?_
      rw [if_pos hlt]
      exact reads_pure v
    · have hpos : 0 < n := by
        rcases Nat.eq_zero_or_pos n with rfl | h
        · rw [pow_one] at hv
          exact absurd hv hlt
        · exact h
      have hdiv : v / 128 < 128 ^ n := by
        rw [pow_succ, Nat.mul_comm] at hv
        exact Nat.div_lt_of_lt_mul hv
      -- the byte in front has the upper bit set, which the reader drops again
      have hrest := (ih hdiv hpos).bind_pure fun w => (128 + v % 128) % 128 + 128 * w
      have hvalue : (128 + v % 128) % 128 + 128 * (v / 128) = v := by omega
      rw [hvalue] at hrest
      rw [← List.singleton_append]
      refine (hbyte (by omega)).bind ?_
      rw [if_neg (by omega)]
      exact hrest

/-! ### The runtime -/

/-- Base 128.  The groups of fields that proto3 does not have any more are not read over. -/
def base128 : Runtime where
  varint := varint
  varintSize := varintSize
  readTag := do
    let v ← readVarint 5
    pure (BitVec.ofNat 32 v)
  readVarint32 := do
    let v ← readVarint 10
    pure (BitVec.ofNat 32 v)
  readVarint64 := do
    let v ← readVarint 10
    pure (BitVec.ofNat 64 v)
  readSize := do
    let v ← readVarint 5
    if v ≤ maxSize then pure v else fail
  unknownFieldParse tag := do
    if tag.toNat < 8 then fail
    else match tag.toNat % 8 with
    | 0 => do
      let _ ← readVarint 10
      pure ()
    | 1 => do
      let _ ← bytes 8
      pure ()
    | 2 => do
      let size ← readVarint 5
      if size ≤ maxSize then do
        let _ ← bytes size
        pure ()
      else fail
    | 5 => do
      let _ ← bytes 4
      pure ()
    | _ => fail
  length_varint := length_varint_eq_varintSize
  varintSize_eq_one := by
    intro v hv
    rw [← length_varint_eq_varintSize (by omega), varint, if_pos hv]
    rfl
  varintSize_le := varintSize_le
  readTag_nil := rfl
  reads_tag := by
    intro tag
    have h := (reads_readVarint (n := 5) (v := tag.toNat) (by have := tag.isLt; omega)
      (by decide)).bind_pure (BitVec.ofNat 32)
    rwa [BitVec.ofNat_toNat, BitVec.setWidth_eq] at h
  reads_varint32 := by
    intro v
    have h := (reads_readVarint (n := 10) (v := v.toNat) (by have := v.isLt; omega)
      (by decide)).bind_pure (BitVec.ofNat 32)
    rwa [BitVec.ofNat_toNat, BitVec.setWidth_eq] at h
  reads_varint64 := by
    intro v
    have h := (reads_readVarint (n := 10) (v := v.toNat) (by have := v.isLt; omega)
      (by decide)).bind_pure (BitVec.ofNat 64)
    rwa [BitVec.ofNat_toNat, BitVec.setWidth_eq] at h
  reads_size := by
    intro n hn
    have hmax : maxSize < 128 ^ 5 := by decide
    have h := (reads_readVarint (n := 5) (v := n) (by omega) (by decide)).bind
      (f := fun v => if v ≤ maxSize then pure v else fail) (by rw [if_pos hn]; exact reads_pure n)
    rwa [List.append_nil] at h

end Protobuf

end Wire
