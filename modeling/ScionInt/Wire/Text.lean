import ScionInt.Wire.Hex
import Mathlib.Data.BitVec

/-!
# Text input

The functions of the C++ library with which text is taken apart: `std::getline`, `std::stoi` and
`std::stoull` with base 16, and an input stream with `>>` for words and, after `std::hex`, for 16-bit
numbers.
-/

namespace Wire

/-- The exceptions of the library. -/
inductive Exception where
  | invalidArgument
  | outOfRange
  | runtimeError (what : String)
deriving DecidableEq

/-- `std::isspace` in the C locale. -/
def isspace (c : Char) : Bool := c = ' ' ∨ ('\t' ≤ c ∧ c ≤ '\r')

/-! ### `std::getline` -/

/-- The text in front of the delimiter, and the text after it.  At the end of the input it fails. -/
def getline (delim : Char) (s : List Char) : Option (List Char × List Char) :=
  if s = [] then none
  else some (s.takeWhile (· ≠ delim), (s.dropWhile (· ≠ delim)).tail)

/-- What a loop `while (std::getline(…))` goes over. -/
def getlines (delim : Char) : List Char → List (List Char)
  | [] => []
  | c :: s =>
    if c = delim then [] :: getlines delim s
    else match getlines delim s with
      | [] => [[c]]
      | line :: lines => (c :: line) :: lines

/-- The loop takes one line after the other. -/
theorem getlines_eq (delim : Char) (s : List Char) :
    getlines delim s = match getline delim s with
      | none => []
      | some (line, rest) => line :: getlines delim rest := by
  induction s with
  | nil => rfl
  | cons c s ih =>
    by_cases hc : c = delim
    · simp [getlines, getline, hc]
    · cases s with
      | nil => simp [getlines, getline, hc]
      | cons c' s =>
        rw [getlines, if_neg hc, ih]
        simp [getline, hc]

theorem getlines_cons {delim : Char} {line : List Char} (h : delim ∉ line) (s : List Char) :
    getlines delim (line ++ delim :: s) = line :: getlines delim s := by
  induction line with
  | nil => simp [getlines]
  | cons c line ih =>
    obtain ⟨hc, hline⟩ := not_or.mp (mt List.mem_cons.mpr h)
    rw [List.cons_append, getlines, if_neg (Ne.symm hc), ih hline]

/-- The last line may stand without a delimiter. -/
theorem getlines_last {delim : Char} {line : List Char} (h : delim ∉ line) (hne : line ≠ []) :
    getlines delim line = [line] := by
  induction line with
  | nil => exact absurd rfl hne
  | cons c line ih =>
    obtain ⟨hc, hline⟩ := not_or.mp (mt List.mem_cons.mpr h)
    rw [getlines, if_neg (Ne.symm hc)]
    cases line with
    | nil => rfl
    | cons c' line => rw [ih hline (List.cons_ne_nil _ _)]

theorem getlines_flatMap {delim : Char} {lines : List (List Char)} (h : ∀ line ∈ lines, delim ∉ line)
    (s : List Char) :
    getlines delim (lines.flatMap (· ++ [delim]) ++ s) = lines ++ getlines delim s := by
  induction lines with
  | nil => rfl
  | cons line lines ih =>
    rw [List.flatMap_cons, List.append_assoc, List.append_assoc, List.singleton_append,
      getlines_cons (h line List.mem_cons_self), ih fun l hl => h l (List.mem_cons_of_mem line hl),
      List.cons_append]

/-! ### `std::stoi` and `std::stoull` -/

/-- The prefix `0x` is skipped if a digit follows it. -/
def skipHexPrefix : List Char → List Char
  | '0' :: x :: c :: s => if (x = 'x' ∨ x = 'X') ∧ isHex c then c :: s else '0' :: x :: c :: s
  | s => s

/-- Whether there is a minus sign, and what follows the sign. -/
def readSign (s : List Char) : Bool × List Char :=
  (s.head? = some '-', if s.head? = some '-' ∨ s.head? = some '+' then s.tail else s)

/-- The sign and the digits that `strtol` and `strtoull` read with base 16. -/
def strto16 (s : List Char) : Bool × List Char :=
  let (negative, s) := readSign (s.dropWhile isspace)
  (negative, (skipHexPrefix s).takeWhile isHex)

/-- The number with the sign and the digits that have been read. -/
def signed (w : ℕ) (negative : Bool) (digits : List Char) : BitVec w :=
  if negative then -BitVec.ofNat w (hexValue digits) else BitVec.ofNat w (hexValue digits)

/-- `std::stoi(s, nullptr, 16)` -/
def stoi (s : List Char) : Except Exception (BitVec 32) :=
  let (negative, digits) := strto16 s
  if digits = [] then .error .invalidArgument
  else if (if negative then 0x80000000 else 0x7fffffff) < hexValue digits then .error .outOfRange
  else .ok (signed 32 negative digits)

/-- `std::stoull(s, nullptr, 16)` -/
def stoull (s : List Char) : Except Exception (BitVec 64) :=
  let (negative, digits) := strto16 s
  if digits = [] then .error .invalidArgument
  else if 0xffffffffffffffff < hexValue digits then .error .outOfRange
  else .ok (signed 64 negative digits)

/-- After `0x` the digits are read up to the first other character, and `0` is read if there are none. -/
theorem strto16_hex (part : List Char) :
    strto16 ('0' :: 'x' :: part) =
      (false, if part.takeWhile isHex = [] then ['0'] else part.takeWhile isHex) := by
  have hspace : List.dropWhile isspace ('0' :: 'x' :: part) = '0' :: 'x' :: part := rfl
  have hsign : readSign ('0' :: 'x' :: part) = (false, '0' :: 'x' :: part) := rfl
  rw [strto16, hspace, hsign]
  cases part with
  | nil => rfl
  | cons c part =>
    by_cases hc : isHex c
    · simp [skipHexPrefix, hc]
    · have hzero : isHex '0' := rfl
      have hx : ¬ isHex 'x' := by decide
      simp [skipHexPrefix, hc, hzero, hx]

/-- After `0x` there are digits, and their value is that of the digits at the start of the text. -/
theorem exists_strto16_hex (part : List Char) :
    ∃ digits, strto16 ('0' :: 'x' :: part) = (false, digits) ∧ digits ≠ [] ∧
      hexValue digits = hexValue (part.takeWhile isHex) := by
  rw [strto16_hex]
  split_ifs with hnone
  · rw [hnone]
    exact ⟨['0'], rfl, List.cons_ne_nil _ _, rfl⟩
  · exact ⟨_, rfl, hnone, rfl⟩

/-- After `0x` every text has a value. -/
theorem stoi_hex (part : List Char) :
    stoi ('0' :: 'x' :: part) =
      if 0x7fffffff < hexValue (part.takeWhile isHex) then .error .outOfRange
      else .ok (BitVec.ofNat 32 (hexValue (part.takeWhile isHex))) := by
  obtain ⟨digits, hread, hne, hvalue⟩ := exists_strto16_hex part
  rw [stoi, hread, ← hvalue]
  exact if_neg hne

theorem stoull_hex (part : List Char) :
    stoull ('0' :: 'x' :: part) =
      if 0xffffffffffffffff < hexValue (part.takeWhile isHex) then .error .outOfRange
      else .ok (BitVec.ofNat 64 (hexValue (part.takeWhile isHex))) := by
  obtain ⟨digits, hread, hne, hvalue⟩ := exists_strto16_hex part
  rw [stoull, hread, ← hvalue]
  exact if_neg hne

/-! ### `std::istringstream` -/

/-- What is left to read, and whether an extraction has failed. -/
structure IStream where
  rest : List Char
  fail : Bool := false

namespace IStream

/-- White space is skipped before every extraction, which fails at the end of the text. -/
def skipws (is : IStream) : IStream :=
  if is.fail then is
  else { rest := is.rest.dropWhile isspace, fail := is.rest.dropWhile isspace = [] }

/-- `is >> value` for a string -/
def word (is : IStream) (value : List Char) : List Char × IStream :=
  let is := is.skipws
  if is.fail then (value, is)
  else (is.rest.takeWhile (!isspace ·), { is with rest := is.rest.dropWhile (!isspace ·) })

/-- The prefix `0x` of a number is skipped in any case. -/
def skipPrefix : List Char → List Char
  | '0' :: x :: s => if x = 'x' ∨ x = 'X' then s else '0' :: x :: s
  | s => s

/-- `is >> std::hex >> value` for a `uint16_t` -/
def hexUint16 (is : IStream) (value : BitVec 16) : BitVec 16 × IStream :=
  let is := is.skipws
  if is.fail then (value, is)
  else
    let (negative, s) := readSign is.rest
    let digits := (skipPrefix s).takeWhile isHex
    let rest := (skipPrefix s).dropWhile isHex
    if digits = [] then (0, { rest, fail := true })
    else if 0xffff < hexValue digits then (0xffff, { rest, fail := true })
    else (signed 16 negative digits, { rest })

/-! ### What is read from a text -/

/-- A text at whose start a word or a number ends. -/
def AtSpace (s : List Char) : Prop := ∀ c ∈ s.head?, isspace c

theorem not_isHex_of_isspace {c : Char} (h : isspace c) : isHex c = false := by
  rcases of_decide_eq_true h with rfl | ⟨hlo, hhi⟩
  · rfl
  · change 9 ≤ c.toNat at hlo
    change c.toNat ≤ 13 at hhi
    have hdec : ¬ ('0' ≤ c ∧ c ≤ '9') := fun h => absurd (show 48 ≤ c.toNat from h.1) (by omega)
    have hlow : ¬ ('a' ≤ c ∧ c ≤ 'f') := fun h => absurd (show 97 ≤ c.toNat from h.1) (by omega)
    have hup : ¬ ('A' ≤ c ∧ c ≤ 'F') := fun h => absurd (show 65 ≤ c.toNat from h.1) (by omega)
    rw [isHex, hexDigit, if_neg hdec, if_neg hlow, if_neg hup]
    rfl

theorem not_isspace_of_isHex {c : Char} (h : isHex c) : isspace c = false := by
  by_contra hspace
  exact absurd h (by simp [not_isHex_of_isspace (eq_true_of_ne_false hspace)])

theorem takeWhile_of_head {p : Char → Bool} {s : List Char} (h : ∀ c ∈ s.head?, p c = false) :
    s.takeWhile p = [] ∧ s.dropWhile p = s := by
  cases s with
  | nil => exact ⟨rfl, rfl⟩
  | cons c s =>
    have hc : p c = false := h c rfl
    exact ⟨List.takeWhile_cons_of_neg (by simp [hc]), List.dropWhile_cons_of_neg (by simp [hc])⟩

theorem takeWhile_append_of_head {p : Char → Bool} {t s : List Char} (ht : ∀ c ∈ t, p c)
    (hs : ∀ c ∈ s.head?, p c = false) :
    (t ++ s).takeWhile p = t ∧ (t ++ s).dropWhile p = s := by
  obtain ⟨htake, hdrop⟩ := takeWhile_of_head hs
  rw [List.takeWhile_append_of_pos ht, List.dropWhile_append_of_pos ht, htake, hdrop]
  exact ⟨List.append_nil t, rfl⟩

theorem skipws_append {blank t : List Char} (hblank : ∀ c ∈ blank, isspace c) (hne : t ≠ [])
    (ht : ∀ c ∈ t.head?, isspace c = false) :
    skipws { rest := blank ++ t } = { rest := t } := by
  obtain ⟨-, hdrop⟩ := takeWhile_append_of_head hblank ht
  simp [skipws, hdrop, hne]

theorem skipws_blank {blank : List Char} (hblank : ∀ c ∈ blank, isspace c) :
    skipws { rest := blank } = { rest := [], fail := true } := by
  have hdrop : blank.dropWhile isspace = [] := List.dropWhile_eq_nil_iff.mpr hblank
  simp [skipws, hdrop]

theorem word_append {blank t s : List Char} (hblank : ∀ c ∈ blank, isspace c) (hne : t ≠ [])
    (ht : ∀ c ∈ t, isspace c = false) (hs : AtSpace s) (value : List Char) :
    word { rest := blank ++ (t ++ s) } value = (t, { rest := s }) := by
  have hhead : ∀ c ∈ (t ++ s).head?, isspace c = false := by
    intro c hc
    rw [List.head?_append_of_ne_nil _ hne] at hc
    exact ht c (List.mem_of_mem_head? hc)
  obtain ⟨htake, hdrop⟩ := takeWhile_append_of_head (p := (!isspace ·)) (t := t) (s := s)
    (fun c hc => by simp [ht c hc]) (fun c hc => by simp [hs c hc])
  simp [word, skipws_append hblank (List.append_ne_nil_of_left_ne_nil hne s) hhead, htake, hdrop]

theorem word_blank {blank : List Char} (hblank : ∀ c ∈ blank, isspace c) (value : List Char) :
    word { rest := blank } value = (value, { rest := [], fail := true }) := by
  simp [word, skipws_blank hblank]

theorem hexUint16_blank {blank : List Char} (hblank : ∀ c ∈ blank, isspace c) (value : BitVec 16) :
    hexUint16 { rest := blank } value = (value, { rest := [], fail := true }) := by
  simp [hexUint16, skipws_blank hblank]

/-- After a failure nothing is read. -/
theorem hexUint16_fail (rest : List Char) (value : BitVec 16) :
    hexUint16 { rest, fail := true } value = (value, { rest, fail := true }) := rfl

theorem readSign_of_isHex {c : Char} (h : isHex c) (s : List Char) :
    readSign (c :: s) = (false, c :: s) := by
  have hminus : c ≠ '-' := by
    rintro rfl
    exact absurd h (by decide)
  have hplus : c ≠ '+' := by
    rintro rfl
    exact absurd h (by decide)
  simp [readSign, hminus, hplus]

/-- Digits in front of a space are not taken for the prefix. -/
theorem skipPrefix_digits {digits s : List Char} (hne : digits ≠ []) (hhex : ∀ c ∈ digits, isHex c)
    (hs : AtSpace s) : skipPrefix (digits ++ s) = digits ++ s := by
  have hx {c : Char} (h : isHex c ∨ isspace c) : ¬ (c = 'x' ∨ c = 'X') := by
    rintro (rfl | rfl)
    · exact absurd h (by decide)
    · exact absurd h (by decide)
  obtain ⟨c, digits, rfl⟩ := List.exists_cons_of_ne_nil hne
  by_cases hc : c = '0'
  · subst hc
    cases digits with
    | nil =>
      cases s with
      | nil => rfl
      | cons c s =>
        rw [List.singleton_append, skipPrefix, if_neg (hx (Or.inr (hs c rfl)))]
    | cons c digits =>
      rw [List.cons_append, List.cons_append, skipPrefix, if_neg (hx (Or.inl (hhex c (by simp))))]
  · rw [List.cons_append]
    unfold skipPrefix
    split
    · rename_i heq
      exact absurd (List.cons_eq_cons.mp heq).1 hc
    · rfl

theorem hexUint16_append {blank pre digits s : List Char} (hblank : ∀ c ∈ blank, isspace c)
    (hpre : pre = [] ∨ pre = ['0', 'x'] ∨ pre = ['0', 'X']) (hne : digits ≠ [])
    (hhex : ∀ c ∈ digits, isHex c) (hle : hexValue digits ≤ 0xffff) (hs : AtSpace s)
    (value : BitVec 16) :
    hexUint16 { rest := blank ++ (pre ++ (digits ++ s)) } value =
      (BitVec.ofNat 16 (hexValue digits), { rest := s }) := by
  -- what follows the blanks starts with a digit in any case
  obtain ⟨c, t, ht, hc⟩ : ∃ c t, pre ++ (digits ++ s) = c :: t ∧ isHex c := by
    rcases hpre with rfl | rfl | rfl
    · obtain ⟨c, digits, rfl⟩ := List.exists_cons_of_ne_nil hne
      exact ⟨c, digits ++ s, rfl, hhex c List.mem_cons_self⟩
    · exact ⟨'0', 'x' :: (digits ++ s), rfl, rfl⟩
    · exact ⟨'0', 'X' :: (digits ++ s), rfl, rfl⟩
  have hskipped : skipPrefix (pre ++ (digits ++ s)) = digits ++ s := by
    rcases hpre with rfl | rfl | rfl
    · rw [List.nil_append]
      exact skipPrefix_digits hne hhex hs
    · rfl
    · rfl
  have hskip : skipws { rest := blank ++ c :: t } = { rest := c :: t } :=
    skipws_append hblank (List.cons_ne_nil c t) fun c' hc' => by
      obtain rfl : c = c' := Option.some.inj hc'
      exact not_isspace_of_isHex hc
  obtain ⟨htake, hdrop⟩ := takeWhile_append_of_head hhex fun c' hc' => not_isHex_of_isspace (hs c' hc')
  rw [ht] at hskipped ⊢
  rw [hexUint16, hskip]
  simp only [Bool.false_eq_true, if_false, readSign_of_isHex hc, hskipped, htake, hdrop, if_neg hne,
    if_neg (Nat.not_lt.mpr hle)]
  rfl

end IStream

end Wire
