import Mathlib.Data.List.Basic
import Mathlib.Data.Nat.ModEq
import Mathlib.Tactic.Positivity
import Mathlib.Tactic.Ring

/-!
# Byte strings in network order

A packet is a `List Byte`.  `ofBytes` reads a byte string as a big-endian number and `toBytes n`
writes the `n` low bytes of a number back; `ofBytes_toBytes` and `toBytes_ofBytes` say that the
two are mutually inverse on `n` bytes, and `ofBytes_append` / `toBytes_add` say how they split.

`slice i n` are the `n` bytes from offset `i` on and `word i` is the 16-bit word there;
`slice_of_append` finds them in a packet that is put together from parts.
-/

namespace Wire

/-- An octet of a packet. -/
abbrev Byte := BitVec 8

/-- The big-endian value of a byte string. -/
def ofBytes : List Byte → ℕ
  | [] => 0
  | b :: bs => b.toNat * 256 ^ bs.length + ofBytes bs

/-- The `n` low bytes of `v`, most significant first. -/
def toBytes : ℕ → ℕ → List Byte
  | 0, _ => []
  | n + 1, v => BitVec.ofNat 8 (v / 256 ^ n) :: toBytes n v

@[simp] theorem length_toBytes (n v : ℕ) : (toBytes n v).length = n := by
  induction n with
  | zero => rfl
  | succ n ih => rw [toBytes, List.length_cons, ih]

@[simp] theorem ofBytes_nil : ofBytes [] = 0 := rfl

theorem ofBytes_cons (b : Byte) (bs : List Byte) :
    ofBytes (b :: bs) = b.toNat * 256 ^ bs.length + ofBytes bs := rfl

theorem ofBytes_lt (bs : List Byte) : ofBytes bs < 256 ^ bs.length := by
  induction bs with
  | nil => simp
  | cons b bs ih =>
    have hb : b.toNat < 256 := b.isLt
    rw [ofBytes_cons, List.length_cons, pow_succ]
    calc b.toNat * 256 ^ bs.length + ofBytes bs
        < b.toNat * 256 ^ bs.length + 256 ^ bs.length := by omega
      _ = (b.toNat + 1) * 256 ^ bs.length := by ring
      _ ≤ 256 * 256 ^ bs.length := Nat.mul_le_mul_right _ (by omega)
      _ = 256 ^ bs.length * 256 := by ring

theorem ofBytes_append (xs ys : List Byte) :
    ofBytes (xs ++ ys) = ofBytes xs * 256 ^ ys.length + ofBytes ys := by
  induction xs with
  | nil => simp
  | cons b xs ih =>
    rw [List.cons_append, ofBytes_cons, ofBytes_cons, ih, List.length_append, pow_add]
    ring

/-- `toBytes n` only looks at `v` modulo `256 ^ n`. -/
theorem toBytes_congr {n v w : ℕ} (h : v % 256 ^ n = w % 256 ^ n) : toBytes n v = toBytes n w := by
  induction n with
  | zero => rfl
  | succ n ih =>
    have hdvd : (256 : ℕ) ^ n ∣ 256 ^ (n + 1) := pow_dvd_pow 256 (Nat.le_succ n)
    have hlow : v % 256 ^ n = w % 256 ^ n := by
      rw [← Nat.mod_mod_of_dvd v hdvd, h, Nat.mod_mod_of_dvd w hdvd]
    have hhigh : ∀ x : ℕ, x / 256 ^ n % 256 = x % 256 ^ (n + 1) / 256 ^ n := fun x => by
      rw [pow_succ, Nat.mod_mul_right_div_self]
    rw [toBytes, toBytes, ih hlow]
    congr 1
    apply BitVec.eq_of_toNat_eq
    rw [BitVec.toNat_ofNat, BitVec.toNat_ofNat]
    show v / 256 ^ n % 256 = w / 256 ^ n % 256
    rw [hhigh, hhigh, h]

theorem toBytes_add (m n v : ℕ) : toBytes (m + n) v = toBytes m (v / 256 ^ n) ++ toBytes n v := by
  induction m with
  | zero => simp [toBytes]
  | succ m ih =>
    rw [Nat.succ_add, toBytes, toBytes, ih, Nat.div_div_eq_div_mul, ← pow_add, Nat.add_comm n m]
    rfl

@[simp] theorem ofBytes_toBytes (n v : ℕ) : ofBytes (toBytes n v) = v % 256 ^ n := by
  induction n with
  | zero => simp [toBytes, Nat.mod_one]
  | succ n ih =>
    have hsplit : v % 256 ^ (n + 1) = v % 256 ^ n + 256 ^ n * (v / 256 ^ n % 256) := by
      rw [pow_succ, Nat.mod_mul]
    rw [toBytes, ofBytes_cons, length_toBytes, ih, BitVec.toNat_ofNat, hsplit,
      Nat.mul_comm, Nat.add_comm]

theorem toBytes_ofBytes {bs : List Byte} {n : ℕ} (h : bs.length = n) :
    toBytes n (ofBytes bs) = bs := by
  induction bs generalizing n with
  | nil => subst h; rfl
  | cons b bs ih =>
    subst h
    have hlt := ofBytes_lt bs
    have hdiv : ofBytes (b :: bs) / 256 ^ bs.length = b.toNat := by
      rw [ofBytes_cons, Nat.mul_comm, Nat.mul_add_div (by positivity), Nat.div_eq_of_lt hlt,
        Nat.add_zero]
    have hmod : ofBytes (b :: bs) % 256 ^ bs.length = ofBytes bs % 256 ^ bs.length := by
      rw [ofBytes_cons, Nat.mul_comm, Nat.mul_add_mod]
    rw [List.length_cons, toBytes, hdiv, toBytes_congr hmod, ih rfl, BitVec.ofNat_toNat,
      BitVec.setWidth_eq]

/-! ### Parts of a packet -/

/-- The `n` bytes from offset `i` on. -/
def slice (i n : ℕ) (bs : List Byte) : List Byte := (bs.drop i).take n

/-- The 16-bit word at offset `i`. -/
def word (i : ℕ) (bs : List Byte) : ℕ := ofBytes (slice i 2 bs)

theorem length_slice {i n : ℕ} {bs : List Byte} (h : i + n ≤ bs.length) :
    (slice i n bs).length = n := by
  rw [slice, List.length_take, List.length_drop]
  omega

theorem word_lt (i : ℕ) (bs : List Byte) : word i bs < 65536 := by
  have hlen : (slice i 2 bs).length ≤ 2 := List.length_take_le _ _
  calc word i bs < 256 ^ (slice i 2 bs).length := ofBytes_lt _
    _ ≤ 256 ^ 2 := Nat.pow_le_pow_right (by omega) hlen

theorem slice_add (i m n : ℕ) (bs : List Byte) :
    slice i (m + n) bs = slice i m bs ++ slice (i + m) n bs := by
  rw [slice, slice, slice, List.take_add, List.drop_drop]

theorem slice_drop (i j n : ℕ) (bs : List Byte) : slice i n (bs.drop j) = slice (j + i) n bs := by
  rw [slice, slice, List.drop_drop]

theorem word_drop (i j : ℕ) (bs : List Byte) : word i (bs.drop j) = word (j + i) bs := by
  rw [word, word, slice_drop]

theorem drop_eq_slice_append (i n : ℕ) (bs : List Byte) : bs.drop i = slice i n bs ++ bs.drop (i + n) := by
  rw [slice, ← List.drop_drop, List.take_append_drop]

/-- The part of a packet between `i` bytes and the rest. -/
theorem slice_of_append {i n : ℕ} {bs : List Byte} (xs ys zs : List Byte) (h : bs = xs ++ (ys ++ zs))
    (hx : xs.length = i) (hy : ys.length = n) : slice i n bs = ys := by
  rw [h, slice, List.drop_left' hx, List.take_left' hy]

end Wire
