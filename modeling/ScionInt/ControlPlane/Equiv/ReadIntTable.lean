import ScionInt.ControlPlane.Equiv.AddressConversion
import ScionInt.ControlPlane.ReadIntTable

/-!
# What `readIntTable` reads

A file consists of comments, blank lines and entries (`IntTableFile`).  Each entry becomes an element of
the lists and a comment becomes none, but a blank line becomes an entry for the address 0
(`readIntTable_text`), so that the lists are what the file says on the files without blank lines
(`readIntTable_eq_entries_iff`).
-/

namespace ScionInt

open Wire

/-! ### The text of a file -/

/-- White space within a line. -/
structure Blank where
  text : List Char
  space : ∀ c ∈ text, isspace c ∧ c ≠ '\n'

/-- A bitmap in hexadecimal digits, with or without the prefix `0x`, and the white space in front of it. -/
structure BitmapText where
  gap : Blank
  gap_ne : gap.text ≠ []
  pre : List Char
  pre_eq : pre = [] ∨ pre = ['0', 'x'] ∨ pre = ['0', 'X']
  digits : List Char
  digits_ne : digits ≠ []
  hex : ∀ c ∈ digits, isHex c
  le : hexValue digits ≤ 0xffff

namespace BitmapText

def text (b : BitmapText) : List Char := b.gap.text ++ (b.pre ++ b.digits)

def value (b : BitmapText) : BitVec 16 := BitVec.ofNat 16 (hexValue b.digits)

end BitmapText

/-- An address and up to two bitmaps. -/
structure EntryText where
  indent : Blank
  address : ScionAddressText
  bitmaps : List BitmapText
  bitmaps_le : bitmaps.length ≤ 2
  trailing : Blank

namespace EntryText

def text (e : EntryText) : List Char :=
  e.indent.text ++ (e.address.text ++ (e.bitmaps.flatMap BitmapText.text ++ e.trailing.text))

/-- What the entry says; a bitmap that is omitted is 0. -/
def line (e : EntryText) : IntTableLine where
  addr := (e.address.isdAddress.setWidth 64 <<< 48) + e.address.asAddress
  bitmapInt := (e.bitmaps[0]?.map BitmapText.value).getD 0
  bitmapScion := (e.bitmaps[1]?.map BitmapText.value).getD 0

end EntryText

/-- A line of the file. -/
inductive FileLine where
  | comment (rest : List Char) (h : '\n' ∉ rest)
  | blank (b : Blank)
  | entry (e : EntryText)

namespace FileLine

def text : FileLine → List Char
  | comment rest _ => '#' :: rest
  | blank b => b.text
  | entry e => e.text

def entry? : FileLine → Option IntTableLine
  | comment _ _ => none
  | blank _ => none
  | entry e => some e.line

def isBlank : FileLine → Bool
  | blank _ => true
  | _ => false

/-- What `readIntTable` makes of a line. -/
def read : FileLine → Option IntTableLine
  | comment _ _ => none
  | blank _ => some ⟨0, 0, 0⟩
  | entry e => some e.line

end FileLine

/-- The lines that end with a newline, and the last line if it does not. -/
structure IntTableFile where
  lines : List FileLine
  last : Option FileLine
  last_ne : ∀ line ∈ last, line.text ≠ []

namespace IntTableFile

def text (f : IntTableFile) : List Char :=
  f.lines.flatMap (fun line => line.text ++ ['\n']) ++ f.last.elim [] FileLine.text

def allLines (f : IntTableFile) : List FileLine := f.lines ++ f.last.toList

/-- What the file says. -/
def entries (f : IntTableFile) : List IntTableLine := f.allLines.filterMap FileLine.entry?

end IntTableFile

/-- The lists with further elements. -/
def IntTableLists.append (lists : IntTableLists) (lines : List IntTableLine) : IntTableLists where
  asList := lists.asList ++ lines.map (·.addr)
  bitmaskIntList := lists.bitmaskIntList ++ lines.map (·.bitmapInt)
  bitmaskScionList := lists.bitmaskScionList ++ lines.map (·.bitmapScion)

/-! ### A line of the file -/

theorem Blank.isspace (b : Blank) : ∀ c ∈ b.text, isspace c := fun c hc => (b.space c hc).1

theorem Blank.atSpace_append (b : Blank) {s : List Char} (h : b.text = [] → IStream.AtSpace s) :
    IStream.AtSpace (b.text ++ s) := by
  by_cases hb : b.text = []
  · rw [hb]
    exact h hb
  · intro c hc
    rw [List.head?_append_of_ne_nil _ hb] at hc
    exact b.isspace c (List.mem_of_mem_head? hc)

theorem atSpace_bitmaps (bitmaps : List BitmapText) (b : Blank) :
    IStream.AtSpace (bitmaps.flatMap BitmapText.text ++ b.text) := by
  cases bitmaps with
  | nil =>
    intro c hc
    exact b.isspace c (List.mem_of_mem_head? hc)
  | cons bitmap bitmaps =>
    rw [List.flatMap_cons, BitmapText.text, List.append_assoc, List.append_assoc]
    exact bitmap.gap.atSpace_append fun hgap => absurd hgap bitmap.gap_ne

theorem BitmapText.hexUint16_text (b : BitmapText) {s : List Char} (hs : IStream.AtSpace s)
    (value : BitVec 16) :
    IStream.hexUint16 { rest := b.text ++ s } value = (b.value, { rest := s }) := by
  rw [text, List.append_assoc, List.append_assoc]
  exact IStream.hexUint16_append b.gap.isspace b.pre_eq b.digits_ne b.hex b.le hs value

/-- There is neither white space nor a `#` in an address. -/
theorem ScionAddressText.of_mem_text {t : ScionAddressText} {c : Char} (h : c ∈ t.text) :
    isHex c ∨ c = '-' ∨ c = ':' := by
  simp only [text, List.mem_append, List.mem_cons] at h
  rcases h with h | h | h | h | h | h | h
  · exact Or.inl (t.isd.hex c h)
  · exact Or.inr (Or.inl h)
  · exact Or.inl (t.g1.hex c h)
  · exact Or.inr (Or.inr h)
  · exact Or.inl (t.g2.hex c h)
  · exact Or.inr (Or.inr h)
  · exact Or.inl (t.g3.hex c h)

theorem ScionAddressText.not_isspace {t : ScionAddressText} {c : Char} (h : c ∈ t.text) :
    isspace c = false := by
  rcases of_mem_text h with hhex | rfl | rfl
  · exact IStream.not_isspace_of_isHex hhex
  · rfl
  · rfl

theorem ScionAddressText.text_ne_nil (t : ScionAddressText) : t.text ≠ [] :=
  List.append_ne_nil_of_right_ne_nil _ (List.cons_ne_nil _ _)

theorem readIntTableLine_entry (e : EntryText) : readIntTableLine e.text = .ok e.line := by
  have hword : IStream.word { rest := e.text } [] =
      (e.address.text, { rest := e.bitmaps.flatMap BitmapText.text ++ e.trailing.text }) :=
    IStream.word_append e.indent.isspace e.address.text_ne_nil
      (fun c hc => ScionAddressText.not_isspace hc) (atSpace_bitmaps e.bitmaps e.trailing) []
  rw [readIntTableLine, hword]
  dsimp only
  rw [e.address.splitScionAddress_text]
  have htrailing : IStream.AtSpace e.trailing.text := atSpace_bitmaps [] e.trailing
  have hblank := IStream.hexUint16_blank e.trailing.isspace 0
  match hb : e.bitmaps, e.bitmaps_le with
  | [], _ =>
    rw [List.flatMap_nil, List.nil_append, hblank, IStream.hexUint16_fail, EntryText.line, hb]
    rfl
  | [b], _ =>
    rw [List.flatMap_cons, List.flatMap_nil, List.append_nil,
      b.hexUint16_text htrailing, hblank, EntryText.line, hb]
    rfl
  | [b, b'], _ =>
    rw [List.flatMap_cons, List.append_assoc, b.hexUint16_text (atSpace_bitmaps [b'] e.trailing),
      List.flatMap_cons, List.flatMap_nil, List.append_nil,
      b'.hexUint16_text htrailing, EntryText.line, hb]
    rfl

/-- From a blank line no name is read, and the empty name is split into zeros. -/
theorem readIntTableLine_blank (b : Blank) : readIntTableLine b.text = .ok ⟨0, 0, 0⟩ := by
  rw [readIntTableLine, IStream.word_blank b.isspace]
  dsimp only
  rw [IStream.hexUint16_fail, IStream.hexUint16_fail]
  decide +kernel

theorem Blank.newline_not_mem (b : Blank) : '\n' ∉ b.text := fun h => (b.space _ h).2 rfl

theorem BitmapText.newline_not_mem (b : BitmapText) : '\n' ∉ b.text := by
  have hhex : isHex '\n' = false := rfl
  intro hc
  rcases List.mem_append.mp hc with hc | hc
  · exact b.gap.newline_not_mem hc
  rcases List.mem_append.mp hc with hc | hc
  · rcases b.pre_eq with hpre | hpre | hpre
    all_goals
      rw [hpre] at hc
      exact absurd hc (by decide)
  · rw [b.hex _ hc] at hhex
    cases hhex

theorem EntryText.newline_not_mem (e : EntryText) : '\n' ∉ e.text := by
  intro hc
  rcases List.mem_append.mp hc with hc | hc
  · exact e.indent.newline_not_mem hc
  rcases List.mem_append.mp hc with hc | hc
  · have hspace := ScionAddressText.not_isspace hc
    cases hspace
  rcases List.mem_append.mp hc with hc | hc
  · obtain ⟨bitmap, -, hc⟩ := List.mem_flatMap.mp hc
    exact bitmap.newline_not_mem hc
  · exact e.trailing.newline_not_mem hc

theorem FileLine.newline_not_mem (line : FileLine) : '\n' ∉ line.text := by
  cases line with
  | comment rest h => exact fun hc => (List.mem_cons.mp hc).elim (by decide) h
  | blank b => exact b.newline_not_mem
  | entry e => exact e.newline_not_mem

/-- Only a comment starts with `#`. -/
theorem Blank.headD_ne (b : Blank) : b.text.headD '\x00' ≠ '#' := by
  intro hhead
  cases htext : b.text with
  | nil =>
    rw [htext] at hhead
    exact absurd hhead (by decide)
  | cons c s =>
    rw [htext] at hhead
    obtain rfl : c = '#' := hhead
    have hspace := b.isspace '#' (htext ▸ List.mem_cons_self)
    exact absurd hspace (by decide)

theorem EntryText.headD_ne (e : EntryText) : e.text.headD '\x00' ≠ '#' := by
  intro hhead
  rw [text] at hhead
  cases hindent : e.indent.text with
  | nil =>
    obtain ⟨c, s, htext⟩ := List.exists_cons_of_ne_nil e.address.text_ne_nil
    rw [hindent, htext] at hhead
    obtain rfl : c = '#' := hhead
    have hmem : '#' ∈ e.address.text := htext ▸ List.mem_cons_self
    exact absurd (ScionAddressText.of_mem_text hmem) (by decide)
  | cons c s =>
    have hblank := e.indent.headD_ne
    rw [hindent] at hhead hblank
    exact hblank hhead

theorem readIntTableLoop_of_ok {text : List Char} {line : IntTableLine} (lists : IntTableLists)
    (hhead : text.headD '\x00' ≠ '#') (h : readIntTableLine text = .ok line) :
    readIntTableLoop lists text = .ok (lists.append [line]) := by
  rw [readIntTableLoop, if_pos hhead, h]
  rfl

theorem FileLine.readIntTableLoop_text (line : FileLine) (lists : IntTableLists) :
    readIntTableLoop lists line.text = .ok (lists.append line.read.toList) := by
  cases line with
  | comment rest h =>
    have hnone : lists.append [] = lists := by simp [IntTableLists.append]
    show _ = Except.ok (lists.append [])
    rw [hnone]
    rfl
  | blank b => exact readIntTableLoop_of_ok lists b.headD_ne (readIntTableLine_blank b)
  | entry e => exact readIntTableLoop_of_ok lists e.headD_ne (readIntTableLine_entry e)

/-! ### The file -/

theorem IntTableLists.append_append (lists : IntTableLists) (xs ys : List IntTableLine) :
    (lists.append xs).append ys = lists.append (xs ++ ys) := by
  simp [append]

theorem IntTableLists.append_inj {lists : IntTableLists} {xs ys : List IntTableLine}
    (h : lists.append xs = lists.append ys) : xs.length = ys.length := by
  have haddrs := List.append_cancel_left (congrArg asList h)
  simpa using congrArg List.length haddrs

theorem foldlM_readIntTableLoop (lines : List FileLine) (lists : IntTableLists) :
    (lines.map FileLine.text).foldlM readIntTableLoop lists =
      .ok (lists.append (lines.filterMap FileLine.read)) := by
  induction lines generalizing lists with
  | nil => simp [IntTableLists.append, pure, Except.pure]
  | cons line lines ih =>
    rw [List.map_cons, List.foldlM_cons, line.readIntTableLoop_text]
    show (lines.map FileLine.text).foldlM readIntTableLoop (lists.append line.read.toList) = _
    rw [ih, IntTableLists.append_append]
    congr 2
    cases hline : line.read with
    | none => rw [List.filterMap_cons_none hline, Option.toList_none, List.nil_append]
    | some l => rw [List.filterMap_cons_some hline, Option.toList_some, List.singleton_append]

theorem IntTableFile.getlines_text (f : IntTableFile) :
    getlines '\n' f.text = f.allLines.map FileLine.text := by
  have hlines : ∀ l ∈ f.lines.map FileLine.text, '\n' ∉ l := by
    intro l hl
    obtain ⟨line, -, rfl⟩ := List.mem_map.mp hl
    exact line.newline_not_mem
  have htext : f.text =
      (f.lines.map FileLine.text).flatMap (· ++ ['\n']) ++ f.last.elim [] FileLine.text := by
    rw [text, List.flatMap_map]
  rw [htext, getlines_flatMap hlines, allLines, List.map_append]
  congr 1
  cases hlast : f.last with
  | none => rfl
  | some line => exact getlines_last line.newline_not_mem (f.last_ne line hlast)

/-- Every entry and every blank line becomes an element of the lists. -/
theorem readIntTable_text (f : IntTableFile) (lists : IntTableLists) :
    readIntTable (some f.text) lists = .ok (lists.append (f.allLines.filterMap FileLine.read)) := by
  show (getlines '\n' f.text).foldlM readIntTableLoop lists = _
  rw [f.getlines_text, foldlM_readIntTableLoop]

theorem length_filterMap_read (lines : List FileLine) :
    (lines.filterMap FileLine.read).length =
      (lines.filterMap FileLine.entry?).length + lines.countP FileLine.isBlank := by
  induction lines with
  | nil => rfl
  | cons line lines ih =>
    cases line with
    | comment rest h => exact ih
    | blank b =>
      rw [List.filterMap_cons_some (f := FileLine.read) rfl,
        List.filterMap_cons_none (f := FileLine.entry?) rfl, List.countP_cons_of_pos rfl,
        List.length_cons, ih, Nat.add_assoc]
    | entry e =>
      rw [List.filterMap_cons_some (f := FileLine.read) rfl,
        List.filterMap_cons_some (f := FileLine.entry?) rfl,
        List.countP_cons_of_neg (by simp [FileLine.isBlank]), List.length_cons, List.length_cons, ih,
        Nat.add_right_comm]

/-- The lists are extended by one element for each entry exactly if there is no blank line. -/
theorem readIntTable_eq_entries_iff (f : IntTableFile) (lists : IntTableLists) :
    readIntTable (some f.text) lists = .ok (lists.append f.entries) ↔
      ∀ line ∈ f.allLines, ¬ line.isBlank := by
  rw [readIntTable_text, Except.ok.injEq]
  constructor
  · intro h
    have hlength := IntTableLists.append_inj h
    rw [length_filterMap_read] at hlength
    have hcount : f.allLines.countP FileLine.isBlank = 0 := by
      simp only [IntTableFile.entries] at hlength
      omega
    exact List.countP_eq_zero.mp hcount
  · intro hblank
    congr 1
    refine List.filterMap_congr fun line hline => ?_
    cases line with
    | comment rest h => rfl
    | blank b => exact absurd rfl (hblank (.blank b) hline)
    | entry e => rfl

/-- A file that is empty but for a newline has an entry for the address 0. -/
theorem readIntTable_blank_counterexample :
    ¬ ∀ (f : IntTableFile) (lists : IntTableLists),
      readIntTable (some f.text) lists = .ok (lists.append f.entries) := by
  intro h
  have hfile := h { lines := [.blank ⟨[], by simp⟩], last := none, last_ne := by simp } {}
  have hresult : readIntTable (some "\n".toList) {} = .ok ⟨[0], [0], [0]⟩ := by decide +kernel
  have hlists := Except.ok.inj (hresult.symm.trans hfile)
  exact absurd (congrArg IntTableLists.asList hlists) (List.cons_ne_nil _ _)

/-! ### The constructor -/

theorem IntTableLists.lines_append (lines : List IntTableLine) :
    (({} : IntTableLists).append lines).lines = lines := by
  induction lines with
  | nil => rfl
  | cons line lines ih => exact congrArg (line :: ·) ih

/-- The configuration that is made of the texts: the address of the host and the entries of the file, and
an entry for the address 0 for each blank line. -/
theorem create_text (host : ScionAddressText) (nodeId : BitVec 32) (f : IntTableFile) :
    IntController.create host.text nodeId (some f.text) = .ok {
      hostISD := host.isdAddress
      hostAS := host.asAddress
      nodeID := nodeId
      intTable := f.allLines.filterMap FileLine.read } := by
  rw [IntController.create, host.splitScionAddress_text, readIntTable_text]
  show Except.ok _ = _
  rw [IntTableLists.lines_append]

end ScionInt
