import ScionInt.Wire.Bytes
import Mathlib.Tactic.NormNum

/-!
# `bitstring.h`

The controller writes a number into a P4Runtime message as the string of its low bytes, most
significant first, and reads the low bytes of such a string.
-/

namespace ScionInt

open Wire

/-- `toBitstring<bytes>` -/
def toBitstring {w : ℕ} (bytes : ℕ) (value : BitVec w) : List Byte :=
  (List.range bytes).map fun i => ((value >>> (8 * (bytes - i - 1))) &&& 0xff).setWidth 8

/-- The bytes of a number, by index. -/
theorem toBytes_eq_map (n v : ℕ) :
    toBytes n v = (List.range n).map fun i => BitVec.ofNat 8 (v / 256 ^ (n - i - 1)) := by
  induction n with
  | zero => rfl
  | succ n ih =>
    rw [toBytes, ih, List.range_succ_eq_map, List.map_cons, List.map_map]
    congr 1
    refine List.map_congr_left fun i _ => ?_
    rw [Function.comp_apply, Nat.succ_eq_add_one, Nat.add_sub_add_right]

theorem toBitstring_eq {w : ℕ} (hw : 8 ≤ w) (bytes : ℕ) (value : BitVec w) :
    toBitstring bytes value = toBytes bytes value.toNat := by
  rw [toBitstring, toBytes_eq_map]
  refine List.map_congr_left fun i _ => ?_
  apply BitVec.eq_of_toNat_eq
  have hmask : (0xff : BitVec w).toNat = 2 ^ 8 - 1 := by
    have hlt : 0xff < 2 ^ w := Nat.lt_of_lt_of_le (by decide) (Nat.pow_le_pow_right (by decide) hw)
    rw [BitVec.ofNat_eq_ofNat, BitVec.toNat_ofNat, Nat.mod_eq_of_lt hlt]
    norm_num
  rw [BitVec.toNat_setWidth, BitVec.toNat_and, BitVec.toNat_ushiftRight, hmask,
    Nat.and_two_pow_sub_one_eq_mod, Nat.mod_mod, BitVec.toNat_ofNat, Nat.shiftRight_eq_div_pow,
    pow_mul]
  norm_num

theorem ofBytes_toBitstring {w : ℕ} (hw : 8 ≤ w) (bytes : ℕ) (value : BitVec w) :
    ofBytes (toBitstring bytes value) = value.toNat % 256 ^ bytes := by
  rw [toBitstring_eq hw, ofBytes_toBytes]

/-- The loop of `fromBitstring`, on the bytes from the last one on. -/
def fromBitstringLoop {w : ℕ} (bytes : ℕ) : List Byte → ℕ → BitVec w → BitVec w
  | [], _, value => value
  | c :: cs, i, value =>
    if i < bytes then fromBitstringLoop bytes cs (i + 1) (value ||| (c.setWidth w <<< (8 * i)))
    else value

/-- `fromBitstring<bytes>` -/
def fromBitstring {w : ℕ} (bytes : ℕ) (bitstring : List Byte) : BitVec w :=
  fromBitstringLoop bytes bitstring.reverse 0 0

/-- A byte goes in front of the `i` bytes that have been read. -/
theorem toNat_or_byte {w i : ℕ} (hw : 8 * (i + 1) ≤ w) {value : BitVec w}
    (hvalue : value.toNat < 256 ^ i) (c : Byte) :
    (value ||| (c.setWidth w <<< (8 * i))).toNat = value.toNat + 256 ^ i * c.toNat := by
  have hc : c.toNat < 2 ^ 8 := c.isLt
  have hpow : (256 : ℕ) ^ i = 2 ^ (8 * i) := by rw [pow_mul]; norm_num
  have hfit : 2 ^ 8 * 2 ^ (8 * i) ≤ 2 ^ w := by
    rw [← pow_add]
    exact Nat.pow_le_pow_right (by decide) (by omega)
  have hlow : c.toNat < 2 ^ w := by
    refine Nat.lt_of_lt_of_le hc (Nat.pow_le_pow_right (by decide) ?_)
    omega
  have hshift : c.toNat * 2 ^ (8 * i) < 2 ^ w :=
    Nat.lt_of_lt_of_le (Nat.mul_lt_mul_of_pos_right hc (Nat.two_pow_pos _)) hfit
  rw [hpow] at hvalue ⊢
  rw [BitVec.toNat_or, BitVec.toNat_shiftLeft, BitVec.toNat_setWidth, Nat.mod_eq_of_lt hlow,
    Nat.shiftLeft_eq, Nat.mod_eq_of_lt hshift, Nat.or_comm, Nat.mul_comm c.toNat,
    ← Nat.two_pow_add_eq_or_of_lt hvalue, Nat.add_comm]

theorem toNat_fromBitstringLoop {w bytes : ℕ} (hw : 8 * bytes ≤ w) (cs : List Byte) {i : ℕ}
    {value : BitVec w} (hvalue : value.toNat < 256 ^ i) :
    (fromBitstringLoop bytes cs i value).toNat =
      value.toNat + 256 ^ i * (ofBytes cs.reverse % 256 ^ (bytes - i)) := by
  induction cs generalizing i value with
  | nil => simp [fromBitstringLoop]
  | cons c cs ih =>
    unfold fromBitstringLoop
    have hc : c.toNat < 256 := c.isLt
    by_cases hi : i < bytes
    · obtain ⟨n, hn⟩ : ∃ n, bytes - i = n + 1 := ⟨bytes - i - 1, by omega⟩
      have hor := toNat_or_byte (by omega) hvalue c
      have hnext : (value ||| (c.setWidth w <<< (8 * i))).toNat < 256 ^ (i + 1) := by
        rw [hor, pow_succ]
        calc value.toNat + 256 ^ i * c.toNat
            < 256 ^ i + 256 ^ i * c.toNat := by omega
          _ = 256 ^ i * (c.toNat + 1) := by ring
          _ ≤ 256 ^ i * 256 := Nat.mul_le_mul_left _ hc
      have hsplit : ofBytes (cs.reverse ++ [c]) % 256 ^ (n + 1) =
          c.toNat + 256 * (ofBytes cs.reverse % 256 ^ n) := by
        have hvalue : ofBytes (cs.reverse ++ [c]) = c.toNat + 256 * ofBytes cs.reverse := by
          rw [ofBytes_append]
          show ofBytes cs.reverse * 256 ^ 1 + (c.toNat * 256 ^ 0 + 0) = _
          ring
        rw [hvalue, pow_succ, Nat.mul_comm (256 ^ n) 256, Nat.mod_mul, Nat.add_mul_mod_self_left,
          Nat.mod_eq_of_lt hc, Nat.add_mul_div_left _ _ (by decide), Nat.div_eq_of_lt hc, Nat.zero_add]
      rw [if_pos hi, ih hnext, hor, List.reverse_cons, hn, hsplit, pow_succ,
        show bytes - (i + 1) = n by omega]
      ring
    · rw [if_neg hi, show bytes - i = 0 by omega, pow_zero, Nat.mod_one, Nat.mul_zero, Nat.add_zero]

/-- The number that the last bytes of the string stand for. -/
theorem toNat_fromBitstring {w bytes : ℕ} (hw : 8 * bytes ≤ w) (bitstring : List Byte) :
    (fromBitstring bytes bitstring : BitVec w).toNat = ofBytes bitstring % 256 ^ bytes := by
  have hzero : (0 : BitVec w).toNat < 256 ^ 0 := by simp
  rw [fromBitstring, toNat_fromBitstringLoop hw bitstring.reverse hzero, List.reverse_reverse]
  simp

end ScionInt
