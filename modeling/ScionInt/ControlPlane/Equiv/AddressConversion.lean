import ScionInt.ControlPlane.AddressConversion

/-!
# What `splitScionAddress` returns

With `0x` in front every part of an address has a value, so that only a number that is too large makes
`splitScionAddress` fail (`splitScionAddress_eq`).  It returns the address that is written, or fails as it
should, on the well-formed addresses and on those with such a number, and on no other
(`splitsOrFails_iff`).
-/

namespace ScionInt

open Wire

/-! ### The numbers in an address -/

/-- The digits that are read of the ISD. -/
def isdDigits (address : List Char) : List Char := (address.takeWhile (· ≠ '-')).takeWhile isHex

/-- The digits that are read of the parts of the AS address. -/
def asDigits (address : List Char) : List (List Char) :=
  (getlines ':' (address.dropWhile (· ≠ '-')).tail).map (List.takeWhile isHex)

/-- A number in the address is too large for `std::stoi` or `std::stoull`. -/
def HasLargeNumber (address : List Char) : Prop :=
  0x7fffffff < hexValue (isdDigits address) ∨
    ∃ part ∈ asDigits address, 0xffffffffffffffff < hexValue part

instance (address : List Char) : Decidable (HasLargeNumber address) := instDecidableOr

/-- The AS address with the given parts. -/
def asOfParts (parts : List (List Char)) (as : BitVec 64) : BitVec 64 :=
  parts.foldl (fun as part => (as <<< 16) + BitVec.ofNat 64 (hexValue part)) as

theorem foldlM_addAsPart (parts : List (List Char)) (as : BitVec 64) :
    parts.foldlM addAsPart as =
      if ∃ part ∈ parts.map (List.takeWhile isHex), 0xffffffffffffffff < hexValue part
      then .error .outOfRange else .ok (asOfParts (parts.map (List.takeWhile isHex)) as) := by
  induction parts generalizing as with
  | nil => rfl
  | cons part parts ih =>
    have hstep : addAsPart as part =
        if 0xffffffffffffffff < hexValue (part.takeWhile isHex) then .error .outOfRange
        else .ok ((as <<< 16) + BitVec.ofNat 64 (hexValue (part.takeWhile isHex))) := by
      rw [addAsPart, stoull_hex]
      split_ifs
      · rfl
      · rfl
    rw [List.foldlM_cons, hstep]
    by_cases hlarge : 0xffffffffffffffff < hexValue (part.takeWhile isHex)
    · rw [if_pos hlarge, if_pos ⟨_, by simp, hlarge⟩]
      rfl
    · rw [if_neg hlarge]
      show parts.foldlM addAsPart _ = _
      rw [ih]
      simp only [List.map_cons, List.exists_mem_cons_iff, hlarge, false_or]
      rfl

/-- `splitScionAddress` fails on numbers that are too large, and on nothing else. -/
theorem splitScionAddress_eq (address : List Char) :
    splitScionAddress address =
      if HasLargeNumber address then .error .outOfRange
      else .ok (BitVec.ofNat 16 (hexValue (isdDigits address)), asOfParts (asDigits address) 0) := by
  have hparts : (getline '-' address).getD ([], []) =
      (address.takeWhile (· ≠ '-'), (address.dropWhile (· ≠ '-')).tail) := by
    cases address with
    | nil => rfl
    | cons c s => rfl
  rw [splitScionAddress, hparts]
  dsimp only
  rw [stoi_hex, foldlM_addAsPart, ← isdDigits, ← asDigits]
  by_cases hisd : 0x7fffffff < hexValue (isdDigits address)
  · rw [if_pos hisd, if_pos (show HasLargeNumber address from Or.inl hisd)]
    rfl
  · by_cases has : ∃ part ∈ asDigits address, 0xffffffffffffffff < hexValue part
    · rw [if_neg hisd, if_pos has, if_pos (show HasLargeNumber address from Or.inr has)]
      rfl
    · rw [if_neg hisd, if_neg has, if_neg (show ¬ HasLargeNumber address from not_or.mpr ⟨hisd, has⟩)]
      show Except.ok (BitVec.setWidth 16 (BitVec.ofNat 32 _), _) = _
      rw [BitVec.setWidth_ofNat_of_le (by decide)]

/-! ### Well-formed addresses -/

/-- At most four hexadecimal digits, and not fewer than `least`. -/
structure HexNumeral (least : ℕ) where
  digits : List Char
  hex : ∀ c ∈ digits, isHex c
  least_le : least ≤ digits.length
  length_le : digits.length ≤ 4

namespace HexNumeral

variable {least : ℕ}

def value (n : HexNumeral least) : ℕ := hexValue n.digits

theorem value_lt (n : HexNumeral least) : n.value < 2 ^ 16 :=
  calc n.value < 16 ^ n.digits.length := hexValue_lt n.digits
    _ ≤ 16 ^ 4 := Nat.pow_le_pow_right (by decide) n.length_le

/-- A 16-bit number as it is printed. -/
def print (hleast : least ≤ 1) (v : BitVec 16) : HexNumeral least where
  digits := Nat.toDigits 16 v.toNat
  hex := fun _ hc => (of_mem_toDigits hc).1
  least_le := hleast.trans Nat.length_toDigits_pos
  length_le := (Nat.length_toDigits_le_iff (by decide) (by decide)).mpr v.isLt

theorem stripHex_print (hleast : least ≤ 1) {n : HexNumeral least} {v : BitVec 16}
    (h : v.toNat = n.value) : stripHex (print hleast v).digits = stripHex n.digits := by
  show stripHex (Nat.toDigits 16 v.toNat) = _
  rw [h]
  exact stripHex_toDigits n.hex

theorem not_mem {c : Char} (hc : isHex c = false) (n : HexNumeral least) : c ∉ n.digits := by
  intro hmem
  rw [n.hex c hmem] at hc
  cases hc

theorem takeWhile_digits (n : HexNumeral least) : n.digits.takeWhile isHex = n.digits :=
  List.takeWhile_eq_self_iff.mpr n.hex

end HexNumeral

/-- An ISD, a minus and three groups with colons between them. -/
structure ScionAddressText where
  isd : HexNumeral 0
  g1 : HexNumeral 1
  g2 : HexNumeral 1
  g3 : HexNumeral 1

namespace ScionAddressText

def text (t : ScionAddressText) : List Char :=
  t.isd.digits ++ '-' :: (t.g1.digits ++ ':' :: (t.g2.digits ++ ':' :: t.g3.digits))

def isdAddress (t : ScionAddressText) : BitVec 16 := BitVec.ofNat 16 t.isd.value

def asAddress (t : ScionAddressText) : BitVec 64 :=
  (BitVec.ofNat 64 t.g1.value <<< 32) + (BitVec.ofNat 64 t.g2.value <<< 16) + BitVec.ofNat 64 t.g3.value

/-- The same address up to leading zeros and letter case. -/
def Same (t t' : ScionAddressText) : Prop :=
  stripHex t.isd.digits = stripHex t'.isd.digits ∧ stripHex t.g1.digits = stripHex t'.g1.digits ∧
    stripHex t.g2.digits = stripHex t'.g2.digits ∧ stripHex t.g3.digits = stripHex t'.g3.digits

/-- The address with the given numbers, as it is printed. -/
def format (isd : BitVec 16) (as : BitVec 64) : ScionAddressText where
  isd := .print (by decide) isd
  g1 := .print (by decide) ((as >>> 32).setWidth 16)
  g2 := .print (by decide) ((as >>> 16).setWidth 16)
  g3 := .print (by decide) (as.setWidth 16)

theorem toNat_asAddress (t : ScionAddressText) :
    t.asAddress.toNat = t.g1.value * 2 ^ 32 + t.g2.value * 2 ^ 16 + t.g3.value := by
  have h1 := t.g1.value_lt
  have h2 := t.g2.value_lt
  have h3 := t.g3.value_lt
  simp only [asAddress, BitVec.toNat_add, BitVec.toNat_shiftLeft, BitVec.toNat_ofNat,
    Nat.shiftLeft_eq]
  omega

/-- The ISD ends at the first minus. -/
theorem ne_minus_of_mem (t : ScionAddressText) : ∀ c ∈ t.isd.digits, decide (c ≠ '-') = true := by
  intro c hc
  rw [decide_eq_true_eq]
  rintro rfl
  exact t.isd.not_mem (by decide) hc

theorem isdDigits_text (t : ScionAddressText) : isdDigits t.text = t.isd.digits := by
  rw [isdDigits, text, List.takeWhile_append_of_pos t.ne_minus_of_mem,
    List.takeWhile_cons_of_neg (by decide), List.append_nil, t.isd.takeWhile_digits]

theorem asDigits_text (t : ScionAddressText) :
    asDigits t.text = [t.g1.digits, t.g2.digits, t.g3.digits] := by
  have hne : t.g3.digits ≠ [] := List.length_pos_iff.mp t.g3.least_le
  rw [asDigits, text, List.dropWhile_append_of_pos t.ne_minus_of_mem,
    List.dropWhile_cons_of_neg (by decide), List.tail_cons, getlines_cons (t.g1.not_mem (by decide)),
    getlines_cons (t.g2.not_mem (by decide)), getlines_last (t.g3.not_mem (by decide)) hne]
  simp only [List.map_cons, List.map_nil, HexNumeral.takeWhile_digits]

theorem not_hasLargeNumber (t : ScionAddressText) : ¬ HasLargeNumber t.text := by
  have hisd := t.isd.value_lt
  have h1 := t.g1.value_lt
  have h2 := t.g2.value_lt
  have h3 := t.g3.value_lt
  simp only [HexNumeral.value] at hisd h1 h2 h3
  rw [HasLargeNumber, isdDigits_text, asDigits_text]
  simp only [List.mem_cons, List.not_mem_nil, or_false, exists_eq_or_imp, exists_eq_left]
  omega

/-- A well-formed address is taken apart as it is written. -/
theorem splitScionAddress_text (t : ScionAddressText) :
    splitScionAddress t.text = .ok (t.isdAddress, t.asAddress) := by
  have has : asOfParts [t.g1.digits, t.g2.digits, t.g3.digits] 0 = t.asAddress := by
    show (((0#64 <<< 16) + BitVec.ofNat 64 t.g1.value) <<< 16 +
      BitVec.ofNat 64 t.g2.value) <<< 16 + BitVec.ofNat 64 t.g3.value = _
    rw [BitVec.zero_shiftLeft, BitVec.zero_add]
    apply BitVec.eq_of_toNat_eq
    have h1 := t.g1.value_lt
    have h2 := t.g2.value_lt
    have h3 := t.g3.value_lt
    rw [toNat_asAddress]
    simp only [BitVec.toNat_add, BitVec.toNat_shiftLeft, BitVec.toNat_ofNat, Nat.shiftLeft_eq]
    omega
  rw [splitScionAddress_eq, if_neg t.not_hasLargeNumber, isdDigits_text, asDigits_text, has]
  rfl

/-! ### Printing an address -/

theorem toNat_isdAddress (t : ScionAddressText) : t.isdAddress.toNat = t.isd.value :=
  Nat.mod_eq_of_lt t.isd.value_lt

theorem toNat_groups (t : ScionAddressText) :
    ((t.asAddress >>> 32).setWidth 16).toNat = t.g1.value ∧
      ((t.asAddress >>> 16).setWidth 16).toNat = t.g2.value ∧
      (t.asAddress.setWidth 16).toNat = t.g3.value := by
  have h1 := t.g1.value_lt
  have h2 := t.g2.value_lt
  have h3 := t.g3.value_lt
  simp only [BitVec.toNat_setWidth, BitVec.toNat_ushiftRight, toNat_asAddress,
    Nat.shiftRight_eq_div_pow]
  omega

/-- Printing undoes `splitScionAddress`. -/
theorem format_same (t : ScionAddressText) : (format t.isdAddress t.asAddress).Same t := by
  obtain ⟨h1, h2, h3⟩ := t.toNat_groups
  exact ⟨HexNumeral.stripHex_print (by decide) t.toNat_isdAddress,
    HexNumeral.stripHex_print (by decide) h1, HexNumeral.stripHex_print (by decide) h2,
    HexNumeral.stripHex_print (by decide) h3⟩

end ScionAddressText

/-! ### All texts -/

/-- `splitScionAddress` returns the address that is written, and fails if none is. -/
def SplitsOrFails (address : List Char) : Prop :=
  (∀ t : ScionAddressText, t.text = address →
    splitScionAddress address = .ok (t.isdAddress, t.asAddress) ∧
      (ScionAddressText.format t.isdAddress t.asAddress).Same t) ∧
  ((∀ t : ScionAddressText, t.text ≠ address) → ∃ e, splitScionAddress address = .error e)

/-- A text that is not a well-formed address is refused only for a number that is too large. -/
theorem splitsOrFails_iff (address : List Char) :
    SplitsOrFails address ↔ (∃ t : ScionAddressText, t.text = address) ∨ HasLargeNumber address := by
  have hreturns : ∀ t : ScionAddressText, t.text = address →
      splitScionAddress address = .ok (t.isdAddress, t.asAddress) ∧
        (ScionAddressText.format t.isdAddress t.asAddress).Same t := by
    rintro t rfl
    exact ⟨t.splitScionAddress_text, t.format_same⟩
  constructor
  · rintro ⟨-, hfails⟩
    by_cases ht : ∃ t : ScionAddressText, t.text = address
    · exact Or.inl ht
    · obtain ⟨e, he⟩ := hfails (not_exists.mp ht)
      refine Or.inr (by_contra fun hlarge => ?_)
      rw [splitScionAddress_eq, if_neg hlarge] at he
      cases he
  · rintro (⟨t, ht⟩ | hlarge)
    · exact ⟨hreturns, fun hnone => absurd ht (hnone t)⟩
    · exact ⟨hreturns, fun _ => ⟨.outOfRange, by rw [splitScionAddress_eq, if_pos hlarge]⟩⟩

/-- The ISD `10000` becomes `0`. -/
theorem not_splitsOrFails_large_isd : ¬ ∀ address : List Char, address ≠ [] → SplitsOrFails address := by
  intro h
  obtain ⟨-, hfails⟩ := h "10000-1:2:3".toList (by decide)
  have hresult : splitScionAddress "10000-1:2:3".toList = .ok (0, 0x100020003) := by decide +kernel
  have hnone : ∀ t : ScionAddressText, t.text ≠ "10000-1:2:3".toList := by
    intro t ht
    have hdigits : isdDigits "10000-1:2:3".toList = "10000".toList := by decide
    rw [← ht, t.isdDigits_text] at hdigits
    exact absurd t.isd.length_le (by rw [hdigits]; decide)
  obtain ⟨e, he⟩ := hfails hnone
  rw [hresult] at he
  cases he

end ScionInt
