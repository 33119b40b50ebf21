import ScionInt.Wire.Text

/-!
# Decimal numbers in a text

`std::stoi` with base 10 reads white space, a sign and digits, and leaves what follows them
(`DecimalText`).  It returns the number of such a text if that is an `int`, and refuses every other text
(`stoiDec_eq_ok_iff`, `stoiDec_eq_error_iff`).
-/

namespace Wire

/-! ### `std::stoi` -/

/-- The value of a decimal numeral. -/
def decValue (digits : List Char) : ℕ := Nat.ofDigitChars 10 digits 0

/-- The sign and the digits that `strtol` reads with base 10. -/
def strto10 (s : List Char) : Bool × List Char :=
  let (negative, s) := readSign (s.dropWhile isspace)
  (negative, s.takeWhile Char.isDigit)

/-- `std::stoi(s)` -/
def stoiDec (s : List Char) : Except Exception (BitVec 32) :=
  let (negative, digits) := strto10 s
  if digits = [] then .error .invalidArgument
  else if (if negative then 0x80000000 else 0x7fffffff) < decValue digits then .error .outOfRange
  else .ok (if negative then -BitVec.ofNat 32 (decValue digits) else BitVec.ofNat 32 (decValue digits))

/-! ### Texts that start with a number -/

/-- The sign of a number: a minus, a plus or none. -/
inductive Sign where
  | minus
  | plus
  | none
deriving DecidableEq

def Sign.text : Sign → List Char
  | minus => ['-']
  | plus => ['+']
  | none => []

/-- A number with white space in front of it, and what follows it. -/
structure DecimalText where
  blank : List Char
  space : ∀ c ∈ blank, isspace c
  sign : Sign
  digits : List Char
  digits_ne : digits ≠ []
  digit : ∀ c ∈ digits, c.isDigit
  rest : List Char
  rest_head : ∀ c ∈ rest.head?, c.isDigit = false

namespace DecimalText

def text (t : DecimalText) : List Char := t.blank ++ (t.sign.text ++ (t.digits ++ t.rest))

def number (t : DecimalText) : ℤ :=
  if t.sign = .minus then -(decValue t.digits : ℤ) else decValue t.digits

/-- The number is an `int`. -/
def InRange (t : DecimalText) : Prop := -2 ^ 31 ≤ t.number ∧ t.number < 2 ^ 31

instance (t : DecimalText) : Decidable t.InRange := inferInstanceAs (Decidable (_ ∧ _))

/-- A number as it is printed. -/
def print (n : ℕ) (rest : List Char) (h : ∀ c ∈ rest.head?, c.isDigit = false) : DecimalText where
  blank := []
  space := by simp
  sign := .none
  digits := Nat.toDigits 10 n
  digits_ne := Nat.toDigits_ne_nil
  digit := fun _ hc => Nat.isDigit_of_mem_toDigits (by decide) (by decide) hc
  rest := rest
  rest_head := h

theorem number_print (n : ℕ) (rest : List Char) (h : ∀ c ∈ rest.head?, c.isDigit = false) :
    (print n rest h).number = n := by
  show ((decValue (Nat.toDigits 10 n) : ℕ) : ℤ) = n
  rw [decValue, Nat.ofDigitChars_ten_toDigits]

end DecimalText

/-- A digit is neither white space nor a sign. -/
theorem of_isDigit {c : Char} (h : c.isDigit) : isspace c = false ∧ c ≠ '-' ∧ c ≠ '+' := by
  rw [Char.isDigit_iff_toNat] at h
  change 48 ≤ c.toNat ∧ c.toNat ≤ 57 at h
  refine ⟨?_, ?_, ?_⟩
  · rw [isspace, decide_eq_false_iff_not]
    rintro (rfl | ⟨-, hhi⟩)
    · exact absurd h.1 (by decide)
    · change c.toNat ≤ 13 at hhi
      omega
  · rintro rfl
    exact absurd h.1 (by decide)
  · rintro rfl
    exact absurd h.1 (by decide)

theorem readSign_text (sign : Sign) {s : List Char} (h : ∀ c ∈ s.head?, c.isDigit) :
    readSign (sign.text ++ s) = (decide (sign = .minus), s) := by
  cases sign with
  | minus => rfl
  | plus => rfl
  | none =>
    cases s with
    | nil => rfl
    | cons c s =>
      obtain ⟨-, hminus, hplus⟩ := of_isDigit (h c rfl)
      simp [Sign.text, readSign, hminus, hplus]

/-- What `strtol` reads of a text that starts with a number. -/
theorem DecimalText.strto10_text (t : DecimalText) :
    strto10 t.text = (decide (t.sign = .minus), t.digits) := by
  obtain ⟨c, digits, hdigits⟩ := List.exists_cons_of_ne_nil t.digits_ne
  have hhead : ∀ c ∈ (t.digits ++ t.rest).head?, c.isDigit := by
    intro c' hc'
    rw [List.head?_append_of_ne_nil _ t.digits_ne] at hc'
    exact t.digit c' (List.mem_of_mem_head? hc')
  -- the number starts with its sign or with a digit
  have hspace : ∀ c ∈ (t.sign.text ++ (t.digits ++ t.rest)).head?, isspace c = false := by
    intro c' hc'
    cases hsign : t.sign with
    | none =>
      rw [hsign] at hc'
      exact (of_isDigit (hhead c' hc')).1
    | minus | plus =>
      rw [hsign] at hc'
      obtain rfl := Option.some.inj hc'
      rfl
  obtain ⟨-, hdrop⟩ := IStream.takeWhile_append_of_head t.space hspace
  obtain ⟨htake, -⟩ := IStream.takeWhile_append_of_head t.digit t.rest_head
  rw [strto10, text, hdrop, readSign_text t.sign hhead]
  exact congrArg (Prod.mk _) htake

/-- A text that starts with a number, or has no digits where they are read. -/
theorem exists_decimalText_or (s : List Char) :
    (∃ t : DecimalText, t.text = s) ∨ (strto10 s).2 = [] := by
  by_cases hdigits : (strto10 s).2 = []
  · exact Or.inr hdigits
  · -- the text is put together again from what the three steps have taken
    obtain ⟨sign, hsign⟩ : ∃ sign : Sign,
        s.dropWhile isspace = sign.text ++ (readSign (s.dropWhile isspace)).2 := by
      cases hs : s.dropWhile isspace with
      | nil => exact ⟨.none, rfl⟩
      | cons c s' =>
        by_cases hminus : c = '-'
        · exact ⟨.minus, by rw [hminus]; rfl⟩
        · by_cases hplus : c = '+'
          · exact ⟨.plus, by rw [hplus]; rfl⟩
          · exact ⟨.none, by simp [Sign.text, readSign, hminus, hplus]⟩
    have hread : (strto10 s).2 = (readSign (s.dropWhile isspace)).2.takeWhile Char.isDigit := rfl
    refine Or.inl ⟨{
      blank := s.takeWhile isspace
      space := fun c hc => List.mem_takeWhile_imp hc
      sign := sign
      digits := (strto10 s).2
      digits_ne := hdigits
      digit := fun c hc => List.mem_takeWhile_imp (hread ▸ hc)
      rest := (readSign (s.dropWhile isspace)).2.dropWhile Char.isDigit
      rest_head := ?_ }, ?_⟩
    · intro c hc
      have hnot := List.head?_dropWhile_not Char.isDigit (readSign (s.dropWhile isspace)).2
      rw [Option.mem_def.mp hc] at hnot
      simpa using hnot
    · show s.takeWhile isspace ++ (sign.text ++ ((strto10 s).2 ++ List.dropWhile Char.isDigit _)) = s
      rw [hread, List.takeWhile_append_dropWhile, ← hsign, List.takeWhile_append_dropWhile]

theorem DecimalText.stoiDec_text (t : DecimalText) :
    stoiDec t.text = if t.InRange then .ok (BitVec.ofInt 32 t.number) else .error .outOfRange := by
  rw [stoiDec, t.strto10_text]
  dsimp only
  rw [if_neg t.digits_ne]
  by_cases hminus : t.sign = .minus
  · have hnumber : t.number = -(decValue t.digits : ℤ) := if_pos hminus
    have hrange : t.InRange ↔ ¬ 0x80000000 < decValue t.digits := by
      rw [InRange, hnumber]
      omega
    simp only [hminus, decide_true, if_true, hrange, hnumber, BitVec.ofInt_neg, BitVec.ofInt_natCast]
    split_ifs
    · rfl
    · rfl
  · have hnumber : t.number = decValue t.digits := if_neg hminus
    have hrange : t.InRange ↔ ¬ 0x7fffffff < decValue t.digits := by
      rw [InRange, hnumber]
      omega
    simp only [hminus, decide_false, Bool.false_eq_true, if_false, hrange, hnumber, BitVec.ofInt_natCast]
    split_ifs
    · rfl
    · rfl

/-- What follows a character that cannot stand in front of the end of a number is not read. -/
theorem stoiDec_takeWhile {delim : Char} (hspace : isspace delim = false) (hdigit : delim.isDigit = false)
    (hminus : delim ≠ '-') (hplus : delim ≠ '+') (s : List Char) :
    stoiDec (s.takeWhile (· ≠ delim)) = stoiDec s := by
  -- each of the three steps stops in front of `delim`
  have hdrop (s : List Char) : (s.takeWhile (· ≠ delim)).dropWhile isspace =
      (s.dropWhile isspace).takeWhile (· ≠ delim) := by
    induction s with
    | nil => rfl
    | cons c s ih =>
      by_cases hc : isspace c
      · have hne : c ≠ delim := by
          rintro rfl
          exact absurd hc (by simp [hspace])
        simpa [hne, hc] using ih
      · by_cases hne : c = delim
        · simp [hne, hspace]
        · simp [hne, hc]
  have hsign (s : List Char) : readSign (s.takeWhile (· ≠ delim)) =
      ((readSign s).1, (readSign s).2.takeWhile (· ≠ delim)) := by
    cases s with
    | nil => rfl
    | cons c s =>
      by_cases hne : c = delim
      · simp [hne, readSign, hminus, hplus]
      · by_cases hc : c = '-' ∨ c = '+'
        · simp [hne, readSign, hc]
        · simp [hne, readSign, hc]
  have htake (s : List Char) : (s.takeWhile (· ≠ delim)).takeWhile Char.isDigit =
      s.takeWhile Char.isDigit := by
    rw [List.takeWhile_takeWhile]
    congr 1
    funext c
    by_cases hne : c = delim
    · simp [hne, hdigit]
    · simp [hne]
  rw [stoiDec, stoiDec, strto10, strto10, hdrop, hsign]
  dsimp only
  rw [htake]

theorem stoiDec_of_digits_nil {s : List Char} (h : (strto10 s).2 = []) :
    stoiDec s = .error .invalidArgument := if_pos h

theorem stoiDec_eq_ok_iff {s : List Char} {v : BitVec 32} :
    stoiDec s = .ok v ↔ ∃ t : DecimalText, t.text = s ∧ t.InRange ∧ v = BitVec.ofInt 32 t.number := by
  constructor
  · intro h
    rcases exists_decimalText_or s with ⟨t, rfl⟩ | hnone
    · rw [t.stoiDec_text] at h
      split_ifs at h with hrange
      exact ⟨t, rfl, hrange, (Except.ok.inj h).symm⟩
    · rw [stoiDec_of_digits_nil hnone] at h
      cases h
  · rintro ⟨t, rfl, hrange, rfl⟩
    rw [t.stoiDec_text, if_pos hrange]

/-- A text without a number is refused, and so is a number that is not an `int`. -/
theorem stoiDec_eq_error_iff {s : List Char} {e : Exception} :
    stoiDec s = .error e ↔ (e = .invalidArgument ∧ ∀ t : DecimalText, t.text ≠ s) ∨
      (e = .outOfRange ∧ ∃ t : DecimalText, t.text = s ∧ ¬ t.InRange) := by
  constructor
  · intro h
    rcases exists_decimalText_or s with ⟨t, rfl⟩ | hnone
    · rw [t.stoiDec_text] at h
      split_ifs at h with hrange
      exact Or.inr ⟨(Except.error.inj h).symm, t, rfl, hrange⟩
    · rw [stoiDec_of_digits_nil hnone] at h
      refine Or.inl ⟨(Except.error.inj h).symm, ?_⟩
      rintro t rfl
      rw [t.strto10_text] at hnone
      exact t.digits_ne hnone
  · rintro (⟨rfl, hnone⟩ | ⟨rfl, t, rfl, hrange⟩)
    · rcases exists_decimalText_or s with ⟨t, ht⟩ | hdigits
      · exact absurd ht (hnone t)
      · exact stoiDec_of_digits_nil hdigits
    · rw [t.stoiDec_text, if_neg hrange]

end Wire
