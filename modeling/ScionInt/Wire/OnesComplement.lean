import ScionInt.Wire.Header

/-!
# The 16-bit one's-complement checksum

`onesSum` adds the 16-bit words of a byte string with end-around carry (an odd last byte is padded
with a zero byte) and `csum16` is its complement.  The addition is associative and commutative on
sums, so `onesSum_append` splits a sum at any byte, where a string of odd length shifts the words of
what follows it.

`csum16_eq_iff` is the comparison of a checksum with a checksum field.  Modulo 65535 the sums are those of
numbers (`onesSum_append_modEq`), and `onesSum_replace` is what a sum gains if a part of the data is
replaced; with the carries a sum of `0` and one of `65535` differ, and `0` is the sum of zero bytes only.
-/

namespace Wire

/-! ### End-around carry -/

/-- Addition of 16-bit words with end-around carry. -/
def endAroundAdd (a b : ℕ) : ℕ := if a + b < 65536 then a + b else a + b - 65535

theorem endAroundAdd_le {a b : ℕ} (ha : a ≤ 65535) (hb : b ≤ 65535) : endAroundAdd a b ≤ 65535 := by
  rw [endAroundAdd]
  split_ifs
  all_goals omega

theorem endAroundAdd_comm (a b : ℕ) : endAroundAdd a b = endAroundAdd b a := by
  rw [endAroundAdd, endAroundAdd, Nat.add_comm]

@[simp] theorem endAroundAdd_zero {a : ℕ} (ha : a ≤ 65535) : endAroundAdd a 0 = a :=
  if_pos (by omega)

@[simp] theorem zero_endAroundAdd {a : ℕ} (ha : a ≤ 65535) : endAroundAdd 0 a = a := by
  rw [endAroundAdd_comm, endAroundAdd_zero ha]

/-- The carries can be added in any order; the only sum that is `0` is that of zeros. -/
theorem endAroundAdd_assoc {a b c : ℕ} (ha : a ≤ 65535) (hb : b ≤ 65535) (hc : c ≤ 65535) :
    endAroundAdd (endAroundAdd a b) c = endAroundAdd a (endAroundAdd b c) := by
  simp only [endAroundAdd]
  split_ifs
  all_goals omega

theorem endAroundAdd_left_comm {a b c : ℕ} (ha : a ≤ 65535) (hb : b ≤ 65535) (hc : c ≤ 65535) :
    endAroundAdd a (endAroundAdd b c) = endAroundAdd b (endAroundAdd a c) := by
  rw [← endAroundAdd_assoc ha hb hc, endAroundAdd_comm a b, endAroundAdd_assoc hb ha hc]

theorem endAroundAdd_eq_zero_iff {a b : ℕ} : endAroundAdd a b = 0 ↔ a = 0 ∧ b = 0 := by
  rw [endAroundAdd]
  split_ifs
  all_goals omega

/-- Whether a sum is one of the two zeros of one's-complement arithmetic. -/
def IsZeroSum (a : ℕ) : Prop := a = 0 ∨ a = 65535

instance (a : ℕ) : Decidable (IsZeroSum a) := inferInstanceAs (Decidable (_ ∨ _))

theorem endAroundAdd_eq_max_iff {a b : ℕ} (ha : a ≤ 65535) (hb : b < 65535) :
    endAroundAdd a b = 65535 ↔ a + b = 65535 := by
  rw [endAroundAdd]
  split_ifs
  all_goals omega

/-- Behind data that add up to `65535` only a zero leaves the sum as it is. -/
theorem max_endAroundAdd_iff {a : ℕ} (ha : a ≤ 65535) : endAroundAdd 65535 a = 65535 ↔ IsZeroSum a := by
  rw [endAroundAdd, IsZeroSum]
  split_ifs
  all_goals omega

/-! ### Sums of byte strings -/

/-- The one's-complement sum of the 16-bit words of a byte string. -/
def onesSum : List Byte → ℕ
  | [] => 0
  | [a] => a.toNat * 256
  | a :: b :: bs => endAroundAdd (a.toNat * 256 + b.toNat) (onesSum bs)

theorem onesSum_le (bs : List Byte) : onesSum bs ≤ 65535 := by
  induction bs using onesSum.induct with
  | case1 => simp [onesSum]
  | case2 a =>
    have ha : a.toNat < 256 := a.isLt
    rw [onesSum]
    omega
  | case3 a b bs ih =>
    have ha : a.toNat < 256 := a.isLt
    have hb : b.toNat < 256 := b.isLt
    rw [onesSum]
    exact endAroundAdd_le (by omega) ih

/-- A string is summed from its first byte on; behind a string of odd length, from the second byte
of a word on. -/
def wordPad (bs : List Byte) : List Byte := if bs.length % 2 = 0 then [] else [0]

theorem wordPad_cons_cons (a b : Byte) (bs : List Byte) : wordPad (a :: b :: bs) = wordPad bs := by
  simp only [wordPad, List.length_cons, Nat.add_assoc, Nat.add_mod_right]

theorem onesSum_append (xs ys : List Byte) :
    onesSum (xs ++ ys) = endAroundAdd (onesSum xs) (onesSum (wordPad xs ++ ys)) := by
  induction xs using onesSum.induct with
  | case1 => exact (zero_endAroundAdd (onesSum_le ys)).symm
  | case2 a =>
    have ha : a.toNat < 256 := a.isLt
    -- the first byte of `ys` completes the word of `a`
    cases ys with
    | nil => simp [onesSum, wordPad, endAroundAdd]; omega
    | cons y ys =>
      have hy : y.toNat < 256 := y.isLt
      have hadd : a.toNat * 256 + y.toNat = endAroundAdd (a.toNat * 256) y.toNat := by
        rw [endAroundAdd, if_pos (by omega)]
      show endAroundAdd (a.toNat * 256 + y.toNat) (onesSum ys) =
        endAroundAdd (a.toNat * 256) (endAroundAdd (0 * 256 + y.toNat) (onesSum ys))
      rw [hadd, Nat.zero_mul, Nat.zero_add,
        endAroundAdd_assoc (by omega) (by omega) (onesSum_le ys)]
  | case3 a b bs ih =>
    have ha : a.toNat < 256 := a.isLt
    have hb : b.toNat < 256 := b.isLt
    show endAroundAdd (a.toNat * 256 + b.toNat) (onesSum (bs ++ ys)) = _
    rw [ih, onesSum, wordPad_cons_cons,
      endAroundAdd_assoc (by omega) (onesSum_le bs) (onesSum_le _)]

/-- Strings of whole words are summed one after the other. -/
theorem onesSum_append_of_even {xs : List Byte} (h : xs.length % 2 = 0) (ys : List Byte) :
    onesSum (xs ++ ys) = endAroundAdd (onesSum xs) (onesSum ys) := by
  rw [onesSum_append, wordPad, if_pos h, List.nil_append]

/-- Only zero bytes sum up to `0`. -/
theorem onesSum_eq_zero_iff (bs : List Byte) : onesSum bs = 0 ↔ ∀ b ∈ bs, b = 0 := by
  have hbyte : ∀ b : Byte, b.toNat = 0 ↔ b = 0 := fun b => by
    rw [← BitVec.toNat_inj, BitVec.ofNat_eq_ofNat, BitVec.toNat_ofNat, Nat.zero_mod]
  induction bs using onesSum.induct with
  | case1 => simp [onesSum]
  | case2 a =>
    rw [onesSum, List.forall_mem_singleton, ← hbyte]
    omega
  | case3 a b bs ih =>
    have hword : a.toNat * 256 + b.toNat = 0 ↔ a = 0 ∧ b = 0 := by
      rw [← hbyte, ← hbyte]
      omega
    rw [onesSum, endAroundAdd_eq_zero_iff, List.forall_mem_cons, List.forall_mem_cons, hword,
      and_assoc, and_congr_right_iff, and_congr_right_iff]
    exact fun _ _ => ih

theorem onesSum_of_length_two {bs : List Byte} (h : bs.length = 2) : onesSum bs = ofBytes bs := by
  match bs, h with
  | [a, b], _ =>
    have ha : a.toNat < 256 := a.isLt
    have hb : b.toNat < 256 := b.isLt
    rw [onesSum, onesSum, endAroundAdd_zero (by omega), ofBytes_cons, ofBytes_cons]
    simp

/-- A field of two bytes in the middle of the data counts as one word. -/
theorem onesSum_around {xs ys zs : List Byte} (hx : xs.length % 2 = 0) (hy : ys.length = 2) :
    onesSum (xs ++ (ys ++ zs)) = endAroundAdd (ofBytes ys) (onesSum (xs ++ zs)) := by
  have heven : ys.length % 2 = 0 := by rw [hy]
  rw [onesSum_append_of_even hx, onesSum_append_of_even heven, onesSum_append_of_even hx,
    endAroundAdd_left_comm (onesSum_le xs) (onesSum_le ys) (onesSum_le zs), onesSum_of_length_two hy]

/-- A checksum field in the middle of the data: correct exactly if the data around it and the field
add up to `65535`. -/
theorem onesSum_around_iff {xs ys zs : List Byte} (hx : xs.length % 2 = 0) (hy : ys.length = 2)
    (hy' : ofBytes ys < 65535) :
    onesSum (xs ++ (ys ++ zs)) = 65535 ↔ onesSum (xs ++ zs) + ofBytes ys = 65535 := by
  rw [onesSum_around hx hy, endAroundAdd_comm, endAroundAdd_eq_max_iff (onesSum_le _) hy']

/-- If the field is what the data around it lack, all words add up to `65535`. -/
theorem onesSum_around_of_add {xs ys zs : List Byte} (hx : xs.length % 2 = 0) (hy : ys.length = 2)
    (hsum : onesSum (xs ++ zs) + ofBytes ys = 65535) : onesSum (xs ++ (ys ++ zs)) = 65535 := by
  rw [onesSum_around hx hy, endAroundAdd, if_pos (by omega)]
  omega

/-! ### Sums modulo 65535 -/

theorem endAroundAdd_modEq (a b : ℕ) : endAroundAdd a b ≡ a + b [MOD 65535] := by
  rw [endAroundAdd, Nat.ModEq]
  split_ifs
  · rfl
  · omega

theorem onesSum_append_modEq {xs : List Byte} (h : xs.length % 2 = 0) (ys : List Byte) :
    onesSum (xs ++ ys) ≡ onesSum xs + onesSum ys [MOD 65535] := by
  rw [onesSum_append_of_even h]
  exact endAroundAdd_modEq _ _

/-- A length that stands in front of the ports and behind them counts twice. -/
theorem onesSum_counted {front ports len : List Byte} (hfront : front.length % 2 = 0)
    (hports : ports.length % 2 = 0) (hlen : len.length = 2) (data : List Byte) :
    onesSum (front ++ (len ++ (ports ++ (len ++ data)))) ≡
      onesSum (front ++ ports) + 2 * ofBytes len + onesSum data [MOD 65535] := by
  have heven : len.length % 2 = 0 := by rw [hlen]
  have h1 := onesSum_append_modEq hfront (len ++ (ports ++ (len ++ data)))
  have h2 := onesSum_append_modEq heven (ports ++ (len ++ data))
  have h3 := onesSum_append_modEq hports (len ++ data)
  have h4 := onesSum_append_modEq heven data
  have h5 := onesSum_append_modEq hfront ports
  rw [onesSum_of_length_two hlen] at h2 h4
  unfold Nat.ModEq at *
  omega

/-- A sum that is not `0` is `65535` exactly if it is a multiple of `65535`. -/
theorem onesSum_eq_max_iff {bs : List Byte} (h : onesSum bs ≠ 0) :
    onesSum bs = 65535 ↔ onesSum bs ≡ 0 [MOD 65535] := by
  have hle := onesSum_le bs
  rw [Nat.ModEq]
  omega

theorem isZeroSum_iff_modEq {a : ℕ} (h : a ≤ 65535) : IsZeroSum a ↔ a ≡ 0 [MOD 65535] := by
  rw [IsZeroSum, Nat.ModEq]
  omega

/-- The sum of what stands behind the first `n` bytes, at its place in the words. -/
def sumBehind (n : ℕ) (bs : List Byte) : ℕ := onesSum (wordPad (bs.take n) ++ bs.drop n)

theorem sumBehind_le (n : ℕ) (bs : List Byte) : sumBehind n bs ≤ 65535 := onesSum_le _

/-- Zero bytes add nothing, wherever they start. -/
theorem sumBehind_of_zeros {n : ℕ} {bs : List Byte} (h : ∀ b ∈ bs.drop n, b = 0) : sumBehind n bs = 0 := by
  rw [sumBehind, onesSum_eq_zero_iff]
  intro b hb
  rcases List.mem_append.mp hb with hb | hb
  · rw [wordPad] at hb
    split_ifs at hb
    · cases hb
    · exact List.mem_singleton.mp hb
  · exact h b hb

theorem sumBehind_of_length_le {n : ℕ} {bs : List Byte} (h : bs.length ≤ n) : sumBehind n bs = 0 := by
  apply sumBehind_of_zeros
  rw [List.drop_of_length_le h]
  exact fun b hb => absurd hb List.not_mem_nil

theorem onesSum_take_modEq (n : ℕ) (bs : List Byte) :
    onesSum (bs.take n) + sumBehind n bs ≡ onesSum bs [MOD 65535] := by
  have h := onesSum_append (bs.take n) (bs.drop n)
  rw [List.take_append_drop] at h
  rw [h]
  exact (endAroundAdd_modEq _ _).symm

/-- What a sum gains if the bytes at its front are replaced. -/
theorem onesSum_replace {before after : List Byte} (h : before.length % 2 = after.length % 2)
    (rest : List Byte) :
    onesSum (after ++ rest) + onesSum before ≡ onesSum (before ++ rest) + onesSum after
      [MOD 65535] := by
  have hpad : wordPad after = wordPad before := by rw [wordPad, wordPad, h]
  have hafter := endAroundAdd_modEq (onesSum after) (onesSum (wordPad after ++ rest))
  have hbefore := endAroundAdd_modEq (onesSum before) (onesSum (wordPad before ++ rest))
  rw [onesSum_append after, onesSum_append before]
  rw [hpad] at hafter ⊢
  unfold Nat.ModEq at *
  omega

/-! ### The checksum -/

/-- `HashAlgorithm.csum16` -/
def csum16 (bs : List Byte) : BitVec 16 := BitVec.ofNat 16 (65535 - onesSum bs)

theorem toNat_csum16 (bs : List Byte) : (csum16 bs).toNat = 65535 - onesSum bs := by
  rw [csum16, BitVec.toNat_ofNat]
  omega

/-- A checksum field holds the checksum of the data exactly if both add up to `65535`. -/
theorem csum16_eq_iff (bs : List Byte) (c : BitVec 16) :
    csum16 bs = c ↔ onesSum bs + c.toNat = 65535 := by
  have hle := onesSum_le bs
  have hc : c.toNat < 2 ^ 16 := c.isLt
  rw [← BitVec.toNat_inj, toNat_csum16]
  omega

end Wire
