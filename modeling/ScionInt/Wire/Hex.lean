import Mathlib.Data.List.Basic
import Mathlib.Data.List.TakeWhile
import Mathlib.Tactic.IntervalCases
import Mathlib.Tactic.Positivity
import Mathlib.Tactic.Ring

/-!
# Hexadecimal numerals

`hexValue` is the value of a string of hexadecimal digits, most significant first, of either case.  It
undoes `Nat.toDigits 16` (`hexValue_toDigits`), and `Nat.toDigits 16` undoes it on numerals as they are
printed (`IsPrintedHex.toDigits_hexValue`), and on all others up to leading zeros and letter case
(`stripHex_toDigits`).
-/

namespace Wire

/-- The value of a hexadecimal digit. -/
def hexDigit (c : Char) : Option ℕ :=
  if '0' ≤ c ∧ c ≤ '9' then some (c.toNat - 48)
  else if 'a' ≤ c ∧ c ≤ 'f' then some (c.toNat - 87)
  else if 'A' ≤ c ∧ c ≤ 'F' then some (c.toNat - 55)
  else none

def isHex (c : Char) : Bool := (hexDigit c).isSome

/-- The value of a hexadecimal numeral. -/
def hexValue (cs : List Char) : ℕ := cs.foldl (fun v c => 16 * v + (hexDigit c).getD 0) 0

/-! ### Digits -/

theorem hexDigit_digitChar {d : ℕ} (hd : d < 16) : hexDigit d.digitChar = some d := by
  interval_cases d
  all_goals rfl

/-- A digit is printed in lower case. -/
theorem hexDigit_cases {c : Char} (h : isHex c) :
    ∃ d < 16, hexDigit c = some d ∧ d.digitChar = c.toLower := by
  have hc := Char.ofNat_toNat c
  unfold isHex hexDigit at h
  unfold hexDigit
  split_ifs at h ⊢ with hdec hlow hup
  · change 48 ≤ c.toNat ∧ c.toNat ≤ 57 at hdec
    refine ⟨c.toNat - 48, by omega, rfl, ?_⟩
    generalize c.toNat = n at hc hdec
    subst hc
    obtain ⟨hlo, hhi⟩ := hdec
    interval_cases n
    all_goals rfl
  · change 97 ≤ c.toNat ∧ c.toNat ≤ 102 at hlow
    refine ⟨c.toNat - 87, by omega, rfl, ?_⟩
    generalize c.toNat = n at hc hlow
    subst hc
    obtain ⟨hlo, hhi⟩ := hlow
    interval_cases n
    all_goals rfl
  · change 65 ≤ c.toNat ∧ c.toNat ≤ 70 at hup
    refine ⟨c.toNat - 55, by omega, rfl, ?_⟩
    generalize c.toNat = n at hc hup
    subst hc
    obtain ⟨hlo, hhi⟩ := hup
    interval_cases n
    all_goals rfl
  · cases h

theorem getD_hexDigit_lt (c : Char) : (hexDigit c).getD 0 < 16 := by
  by_cases h : isHex c
  · obtain ⟨d, hd, hdigit, -⟩ := hexDigit_cases h
    rw [hdigit]
    exact hd
  · rw [Option.not_isSome_iff_eq_none.mp h]
    decide

/-- The case of a digit does not change its value. -/
theorem hexDigit_toLower {c : Char} (h : isHex c) : hexDigit c.toLower = hexDigit c := by
  obtain ⟨d, hd, hdigit, hchar⟩ := hexDigit_cases h
  rw [← hchar, hdigit, hexDigit_digitChar hd]

theorem toLower_digitChar {d : ℕ} (hd : d < 16) : d.digitChar.toLower = d.digitChar := by
  interval_cases d
  all_goals rfl

/-! ### Values -/

@[simp] theorem hexValue_nil : hexValue [] = 0 := rfl

theorem hexValue_append (cs ds : List Char) :
    hexValue (cs ++ ds) = hexValue cs * 16 ^ ds.length + hexValue ds := by
  induction ds using List.reverseRecOn with
  | nil => simp
  | append_singleton ds d ih =>
    have hsnoc (es : List Char) : hexValue (es ++ [d]) = 16 * hexValue es + (hexDigit d).getD 0 :=
      List.foldl_append
    rw [← List.append_assoc, hsnoc, ih, hsnoc, List.length_append, List.length_singleton, pow_succ]
    ring

theorem hexValue_singleton (c : Char) : hexValue [c] = (hexDigit c).getD 0 := by
  show 16 * 0 + _ = _
  rw [Nat.mul_zero, Nat.zero_add]

theorem hexValue_cons (c : Char) (cs : List Char) :
    hexValue (c :: cs) = (hexDigit c).getD 0 * 16 ^ cs.length + hexValue cs := by
  rw [← List.singleton_append, hexValue_append, hexValue_singleton]

theorem hexValue_lt (cs : List Char) : hexValue cs < 16 ^ cs.length := by
  induction cs with
  | nil => decide
  | cons c cs ih =>
    have hc := getD_hexDigit_lt c
    rw [hexValue_cons, List.length_cons, pow_succ]
    calc (hexDigit c).getD 0 * 16 ^ cs.length + hexValue cs
        < ((hexDigit c).getD 0 + 1) * 16 ^ cs.length := by
          rw [Nat.add_mul, Nat.one_mul]
          omega
      _ ≤ 16 * 16 ^ cs.length := Nat.mul_le_mul_right _ hc
      _ = 16 ^ cs.length * 16 := Nat.mul_comm _ _

/-- Reading a number undoes printing it. -/
theorem hexValue_toDigits (n : ℕ) : hexValue (Nat.toDigits 16 n) = n := by
  induction n using Nat.strong_induction_on with
  | _ n ih =>
    by_cases hn : n < 16
    · rw [Nat.toDigits_of_lt_base hn, hexValue_singleton, hexDigit_digitChar hn]
      rfl
    · rw [Nat.toDigits_of_base_le (by decide) (by omega), hexValue_append, ih (n / 16) (by omega),
        hexValue_singleton, hexDigit_digitChar (Nat.mod_lt n (by decide))]
      show n / 16 * 16 ^ 1 + n % 16 = n
      omega

/-- What is printed are digits in lower case. -/
theorem of_mem_toDigits {c : Char} {n : ℕ} (h : c ∈ Nat.toDigits 16 n) : isHex c ∧ c.toLower = c := by
  have hdigit {d : ℕ} (hd : d < 16) : isHex d.digitChar ∧ d.digitChar.toLower = d.digitChar := by
    refine ⟨?_, toLower_digitChar hd⟩
    rw [isHex, hexDigit_digitChar hd]
    rfl
  induction n using Nat.strong_induction_on with
  | _ n ih =>
    by_cases hn : n < 16
    · rw [Nat.toDigits_of_lt_base hn, List.mem_singleton] at h
      exact h ▸ hdigit hn
    · rw [Nat.toDigits_of_base_le (by decide) (by omega), List.mem_append, List.mem_singleton] at h
      rcases h with h | h
      · exact ih (n / 16) (by omega) h
      · exact h ▸ hdigit (Nat.mod_lt n (by decide))

/-! ### Printed numerals -/

/-- A numeral as it is printed: digits in lower case without leading zeros. -/
structure IsPrintedHex (cs : List Char) : Prop where
  ne_nil : cs ≠ []
  lower : ∀ c ∈ cs, isHex c ∧ c.toLower = c
  head : cs.head? = some '0' → cs = ['0']

theorem hexDigit_eq_zero {c : Char} (h : isHex c) (hlow : c.toLower = c)
    (hzero : (hexDigit c).getD 0 = 0) : c = '0' := by
  obtain ⟨d, -, hdigit, hchar⟩ := hexDigit_cases h
  rw [hdigit] at hzero
  rw [← hlow, ← hchar, show d = 0 from hzero]
  rfl

/-- Printing a number undoes reading it. -/
theorem IsPrintedHex.toDigits_hexValue {cs : List Char} (h : IsPrintedHex cs) :
    Nat.toDigits 16 (hexValue cs) = cs := by
  induction cs using List.reverseRecOn with
  | nil => exact absurd rfl h.ne_nil
  | append_singleton cs c ih =>
    obtain ⟨hhex, hlow⟩ := h.lower c (by simp)
    obtain ⟨d, hd, hdigit, hchar⟩ := hexDigit_cases hhex
    rw [hlow] at hchar
    rw [hexValue_append, hexValue_singleton, hdigit, List.length_singleton, pow_one, Option.getD_some]
    cases cs with
    | nil =>
      rw [hexValue_nil, Nat.zero_mul, Nat.zero_add, Nat.toDigits_of_lt_base hd, hchar]
      rfl
    | cons c' cs =>
      obtain ⟨hhex', hlow'⟩ := h.lower c' (by simp)
      -- the first digit is not zero, and so the number in front of the last digit
      have hhead : c' ≠ '0' := by
        rintro rfl
        have hone := h.head rfl
        simp at hone
      have hpos : 0 < hexValue (c' :: cs) := by
        have hdigit' : 0 < (hexDigit c').getD 0 :=
          Nat.pos_of_ne_zero fun hzero => hhead (hexDigit_eq_zero hhex' hlow' hzero)
        rw [hexValue_cons]
        positivity
      have hfront : IsPrintedHex (c' :: cs) := by
        refine ⟨List.cons_ne_nil _ _, fun e he => h.lower e (List.mem_append_left _ he), ?_⟩
        intro hzero
        exact absurd (Option.some.inj hzero) hhead
      rw [Nat.mul_comm, ← Nat.toDigits_append_toDigits (by decide) hpos hd, ih hfront,
        Nat.toDigits_of_lt_base hd, hchar]

/-- The digits of a numeral up to leading zeros and letter case. -/
def stripHex (cs : List Char) : List Char := (cs.map Char.toLower).dropWhile (· = '0')

theorem hexValue_map_toLower {cs : List Char} (h : ∀ c ∈ cs, isHex c) :
    hexValue (cs.map Char.toLower) = hexValue cs := by
  induction cs with
  | nil => rfl
  | cons c cs ih =>
    rw [List.map_cons, hexValue_cons, hexValue_cons, List.length_map,
      ih fun e he => h e (List.mem_cons_of_mem c he), hexDigit_toLower (h c List.mem_cons_self)]

theorem hexValue_dropWhile (cs : List Char) :
    hexValue (cs.dropWhile (· = '0')) = hexValue cs := by
  induction cs with
  | nil => rfl
  | cons c cs ih =>
    by_cases hc : c = '0'
    · rw [List.dropWhile_cons_of_pos (by simpa using hc), ih, hexValue_cons, hc]
      show _ = 0 * _ + _
      rw [Nat.zero_mul, Nat.zero_add]
    · rw [List.dropWhile_cons_of_neg (by simpa using hc)]

theorem head_stripHex_ne {cs : List Char} (hne : stripHex cs ≠ []) : (stripHex cs).head hne ≠ '0' :=
  of_decide_eq_false (List.head_dropWhile_not (fun c : Char => decide (c = '0')) hne)

/-- Without its leading zeros a numeral is empty or printed. -/
theorem isPrintedHex_stripHex {cs : List Char} (h : ∀ c ∈ cs, isHex c) (hne : stripHex cs ≠ []) :
    IsPrintedHex (stripHex cs) := by
  refine ⟨hne, ?_, ?_⟩
  · intro c hc
    obtain ⟨c', hc', rfl⟩ := List.mem_map.mp ((List.dropWhile_sublist _).subset hc)
    obtain ⟨d, hd, -, hchar⟩ := hexDigit_cases (h c' hc')
    rw [← hchar, isHex, hexDigit_digitChar hd]
    exact ⟨rfl, toLower_digitChar hd⟩
  · intro hzero
    rw [List.head?_eq_some_head hne, Option.some.injEq] at hzero
    exact absurd hzero (head_stripHex_ne hne)

theorem IsPrintedHex.map_toLower {cs : List Char} (h : IsPrintedHex cs) : cs.map Char.toLower = cs :=
  (List.map_congr_left fun c hc => (h.lower c hc).2).trans (List.map_id cs)

theorem stripHex_of_isPrintedHex {cs : List Char} (h : IsPrintedHex cs) (hzero : cs ≠ ['0']) :
    stripHex cs = cs := by
  rw [stripHex, h.map_toLower]
  cases cs with
  | nil => rfl
  | cons c cs =>
    have hc : c ≠ '0' := by
      rintro rfl
      exact hzero (h.head rfl)
    rw [List.dropWhile_cons_of_neg (by simpa using hc)]

theorem hexValue_stripHex {cs : List Char} (h : ∀ c ∈ cs, isHex c) :
    hexValue (stripHex cs) = hexValue cs := by
  rw [stripHex, hexValue_dropWhile, hexValue_map_toLower h]

/-- Printing a number gives the numeral back from which it was read, up to leading zeros and letter
case. -/
theorem stripHex_toDigits {cs : List Char} (h : ∀ c ∈ cs, isHex c) :
    stripHex (Nat.toDigits 16 (hexValue cs)) = stripHex cs := by
  by_cases hne : stripHex cs = []
  · rw [← hexValue_stripHex h, hne]
    rfl
  · have hprinted := isPrintedHex_stripHex h hne
    have hzero : stripHex cs ≠ ['0'] := by
      intro hcs
      exact head_stripHex_ne hne (by simp [hcs])
    rw [← hexValue_stripHex h, hprinted.toDigits_hexValue, stripHex_of_isPrintedHex hprinted hzero]

theorem isPrintedHex_toDigits (n : ℕ) : IsPrintedHex (Nat.toDigits 16 n) := by
  have hhex : ∀ c ∈ Nat.toDigits 16 n, isHex c := fun c hc => (of_mem_toDigits hc).1
  have hvalue : hexValue (stripHex (Nat.toDigits 16 n)) = n := by
    rw [hexValue_stripHex hhex, hexValue_toDigits]
  by_cases hne : stripHex (Nat.toDigits 16 n) = []
  · obtain rfl : 0 = n := by rwa [hne] at hvalue
    exact ⟨List.cons_ne_nil _ _, fun c hc => of_mem_toDigits hc, fun _ => rfl⟩
  · have hprinted := isPrintedHex_stripHex hhex hne
    have hdigits := hprinted.toDigits_hexValue
    rw [hvalue] at hdigits
    exact hdigits ▸ hprinted

end Wire
