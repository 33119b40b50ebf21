import Mathlib.Data.List.GetD
import ScionInt.Wire.Bytes

/-!
# Programs that read a buffer

A `Scan ε α` reads bytes of a buffer at offsets that it computes, with nothing that checks them
against the length of the buffer, and returns a value or stops with an `ε`.  It logs every offset at
which it reads, so that `InBounds` can say that no read was outside the buffer; what such a read
returns is unspecified (here a zero byte).

A program that walks over a buffer keeps a `Cursor`.  `Consumes f bytes g` says that `f` finds `bytes`
at the cursor, moves the cursor behind them and updates the rest of its state with `g`;
`Consumes.bind` composes such steps.  `Walks f widths` says which windows `f` reads, wherever it starts.
-/

namespace Wire

/-- A program over a buffer: its result and the offsets at which it read. -/
def Scan (ε α : Type) : Type := List Byte → Except ε α × List ℕ

namespace Scan

variable {ε α β σ : Type}

protected def pure (a : α) : Scan ε α := fun _ => (.ok a, [])

protected def bind (m : Scan ε α) (f : α → Scan ε β) : Scan ε β := fun bs =>
  match m bs with
  | (.ok a, reads) => ((f a bs).1, reads ++ (f a bs).2)
  | (.error e, reads) => (.error e, reads)

instance : Monad (Scan ε) where
  pure := Scan.pure
  bind := Scan.bind

/-- Stop with `e`. -/
def stop (e : ε) : Scan ε α := fun _ => (.error e, [])

/-- Stop with `e` unless `c` holds. -/
def require (c : Prop) [Decidable c] (e : ε) : Scan ε Unit := if c then pure () else stop e

/-- The length of the buffer. -/
def length : Scan ε ℕ := fun bs => (.ok bs.length, [])

/-- The bytes at the given offsets. -/
def readList (offsets : List ℕ) : Scan ε (List Byte) := fun bs =>
  (.ok (offsets.map fun i => bs.getD i 0), offsets)

/-- The result of a program on a buffer. -/
def result (m : Scan ε α) (bs : List Byte) : Except ε α := (m bs).1

/-- No read is outside the buffer. -/
def InBounds (m : Scan ε α) (bs : List Byte) : Prop := ∀ i ∈ (m bs).2, i < bs.length

/-! ### One step at a time -/

section

variable {m : Scan ε α} {f : α → Scan ε β} {bs : List Byte} {a : α} {e : ε}

@[simp] theorem result_pure : result (pure a : Scan ε α) bs = .ok a := rfl

@[simp] theorem result_length_bind {f : ℕ → Scan ε β} :
    result (length >>= f) bs = result (f bs.length) bs := rfl

/-- A run consists of its result and its reads. -/
theorem exists_reads (m : Scan ε α) (bs : List Byte) : ∃ reads, m bs = (result m bs, reads) :=
  ⟨(m bs).2, rfl⟩

theorem result_bind_ok (h : result m bs = .ok a) : result (m >>= f) bs = result (f a) bs := by
  obtain ⟨reads, hm⟩ := exists_reads m bs
  rw [h] at hm
  show (Scan.bind m f bs).1 = _
  simp only [Scan.bind, hm]
  rfl

theorem result_bind_error (h : result m bs = .error e) : result (m >>= f) bs = .error e := by
  obtain ⟨reads, hm⟩ := exists_reads m bs
  rw [h] at hm
  show (Scan.bind m f bs).1 = _
  simp only [Scan.bind, hm]

@[simp] theorem result_require_bind {c : Prop} [Decidable c] {f : Unit → Scan ε β} :
    result (require c e >>= f) bs = if c then result (f ()) bs else .error e := by
  rw [require]
  split_ifs
  · exact result_bind_ok rfl
  · exact result_bind_error rfl

@[simp] theorem inBounds_pure : InBounds (pure a : Scan ε α) bs := fun _ h => by cases h

@[simp] theorem inBounds_stop : InBounds (stop e : Scan ε α) bs := fun _ h => by cases h

theorem inBounds_bind_ok (h : result m bs = .ok a) :
    InBounds (m >>= f) bs ↔ InBounds m bs ∧ InBounds (f a) bs := by
  obtain ⟨reads, hm⟩ := exists_reads m bs
  rw [h] at hm
  show (∀ i ∈ (Scan.bind m f bs).2, i < bs.length) ↔ _
  simp only [Scan.bind, InBounds, hm, List.forall_mem_append]

theorem inBounds_bind_error (h : result m bs = .error e) :
    InBounds (m >>= f) bs ↔ InBounds m bs := by
  obtain ⟨reads, hm⟩ := exists_reads m bs
  rw [h] at hm
  show (∀ i ∈ (Scan.bind m f bs).2, i < bs.length) ↔ _
  simp only [Scan.bind, InBounds, hm]

@[simp] theorem inBounds_length_bind {f : ℕ → Scan ε β} :
    InBounds (length >>= f) bs ↔ InBounds (f bs.length) bs := by
  rw [inBounds_bind_ok (show result length bs = .ok bs.length from rfl)]
  exact and_iff_right fun _ h => by cases h

@[simp] theorem inBounds_require_bind {c : Prop} [Decidable c] {f : Unit → Scan ε β} :
    InBounds (require c e >>= f) bs ↔ (c → InBounds (f ()) bs) := by
  rw [require]
  split_ifs with hc
  · rw [inBounds_bind_ok (show result (pure () : Scan ε Unit) bs = .ok () from rfl)]
    simp [hc]
  · rw [inBounds_bind_error (show result (stop e : Scan ε Unit) bs = .error e from rfl)]
    simp [hc]

end

/-! ### Windows -/

/-- The `n` bytes of a buffer from offset `i` on, with unspecified bytes behind its end. -/
def bytesAt (i n : ℕ) (bs : List Byte) : List Byte := (List.range' i n).map fun j => bs.getD j 0

@[simp] theorem length_bytesAt (i n : ℕ) (bs : List Byte) : (bytesAt i n bs).length = n := by
  rw [bytesAt, List.length_map, List.length_range']

theorem bytesAt_append {pre bytes : List Byte} {i n : ℕ} (hi : pre.length = i)
    (hn : bytes.length = n) (post : List Byte) : bytesAt i n (pre ++ (bytes ++ post)) = bytes := by
  subst hi hn
  apply List.ext_getElem (length_bytesAt _ _ _)
  intro j hj hj'
  simp only [bytesAt, List.getElem_map, List.getElem_range', Nat.one_mul]
  rw [List.getD_eq_getElem?_getD, List.getElem?_append_right (by omega), Nat.add_sub_cancel_left,
    List.getElem?_append_left hj', List.getElem?_eq_getElem hj', Option.getD_some]

theorem bytesAt_zero_append {bytes : List Byte} {n : ℕ} (hn : bytes.length = n) (post : List Byte) :
    bytesAt 0 n (bytes ++ post) = bytes :=
  bytesAt_append List.length_nil hn post

theorem getD_bytesAt {k n : ℕ} (hk : k < n) (i : ℕ) (bs : List Byte) :
    (bytesAt i n bs).getD k 0 = bs.getD (i + k) 0 := by
  rw [List.getD_eq_getElem _ _ (by rw [length_bytesAt]; exact hk)]
  simp only [bytesAt, List.getElem_map, List.getElem_range', Nat.one_mul]

/-- Inside a buffer a window is a slice. -/
theorem bytesAt_eq_slice {i n : ℕ} {bs : List Byte} (h : i + n ≤ bs.length) :
    bytesAt i n bs = slice i n bs := by
  have hsplit : bs = bs.take i ++ (slice i n bs ++ bs.drop (i + n)) := by
    rw [slice, ← List.drop_drop, List.take_append_drop, List.take_append_drop]
  conv_lhs => rw [hsplit]
  exact bytesAt_append (by rw [List.length_take]; omega) (length_slice h) _

theorem bytesAt_eq_bytesAt_iff (i j n : ℕ) (bs : List Byte) :
    bytesAt i n bs = bytesAt j n bs ↔ ∀ k < n, bs.getD (i + k) 0 = bs.getD (j + k) 0 := by
  constructor
  · intro h k hk
    rw [← getD_bytesAt hk, h, getD_bytesAt hk]
  · intro h
    apply List.ext_getElem (by rw [length_bytesAt, length_bytesAt])
    intro k hkl hkr
    have hk : k < n := by
      rw [length_bytesAt] at hkl
      exact hkl
    rw [← List.getD_eq_getElem _ 0 hkl, ← List.getD_eq_getElem _ 0 hkr, getD_bytesAt hk, getD_bytesAt hk]
    exact h k hk

/-- A window equals the window `w` bytes in front of it exactly if it repeats the `w` bytes in front of
it. -/
theorem bytesAt_shift_iff {w : ℕ} (hw : 0 < w) (i n : ℕ) (bs : List Byte) :
    bytesAt i n bs = bytesAt (i + w) n bs ↔
      ∀ k < n, bs.getD (i + w + k) 0 = bs.getD (i + k % w) 0 := by
  rw [bytesAt_eq_bytesAt_iff]
  have hback {k : ℕ} (hwk : ¬ k < w) : i + w + (k - w) = i + k ∧ (k - w) % w = k % w :=
    ⟨by omega, (Nat.mod_eq_sub_mod (Nat.le_of_not_lt hwk)).symm⟩
  constructor
  · intro h k
    induction k using Nat.strong_induction_on with
    | _ k ih =>
    intro hk
    rw [← h k hk]
    by_cases hwk : k < w
    · rw [Nat.mod_eq_of_lt hwk]
    · obtain ⟨hpos, hmod⟩ := hback hwk
      have hprev := ih (k - w) (by omega) (by omega)
      rwa [hpos, hmod] at hprev
  · intro h k hk
    rw [h k hk]
    by_cases hwk : k < w
    · rw [Nat.mod_eq_of_lt hwk]
    · obtain ⟨hpos, hmod⟩ := hback hwk
      have hprev := h (k - w) (by omega)
      rwa [hpos, hmod] at hprev

/-- A program that reads a window of `width` bytes at a position and returns what `value` makes of
them. -/
structure ReadsWindow (take : BitVec 32 → Scan ε α) (width : ℕ) (value : List Byte → α) : Prop where
  result_eq : ∀ pos bs, result (take pos) bs = .ok (value (bytesAt pos.toNat width bs))
  mem_reads_iff : ∀ pos bs i, i ∈ (take pos bs).2 ↔ pos.toNat ≤ i ∧ i < pos.toNat + width

theorem ReadsWindow.inBounds_of_le {take : BitVec 32 → Scan ε α} {width : ℕ}
    {value : List Byte → α} (h : ReadsWindow take width value) {pos : BitVec 32} {bs : List Byte}
    (hle : pos.toNat + width ≤ bs.length) : InBounds (take pos) bs := by
  intro i hi
  have := (h.mem_reads_iff _ _ _).mp hi
  omega

theorem ReadsWindow.inBounds_iff {take : BitVec 32 → Scan ε α} {width : ℕ} {value : List Byte → α}
    (h : ReadsWindow take width value) (hwidth : 0 < width) (pos : BitVec 32) (bs : List Byte) :
    InBounds (take pos) bs ↔ pos.toNat + width ≤ bs.length := by
  refine ⟨fun hb => ?_, h.inBounds_of_le⟩
  have hlast := hb (pos.toNat + width - 1) ((h.mem_reads_iff _ _ _).mpr (by omega))
  omega

/-! ### Cursors -/

/-- A position in a buffer and what has been read in front of it. -/
structure Cursor (σ : Type) where
  pos : BitVec 32
  value : σ
deriving DecidableEq, Inhabited

/-- `f` reads `bytes` at the cursor, moves behind them and updates the value with `g`. -/
def Consumes (f : Cursor σ → Scan ε (Cursor σ)) (bytes : List Byte) (g : σ → σ) : Prop :=
  ∀ (pre post : List Byte) (c : Cursor σ), c.pos.toNat = pre.length →
    pre.length + bytes.length < 2 ^ 32 →
    result (f c) (pre ++ (bytes ++ post)) =
      .ok ⟨c.pos + BitVec.ofNat 32 bytes.length, g c.value⟩

theorem toNat_add_ofNat_of_lt {pos : BitVec 32} {n : ℕ} (h : pos.toNat + n < 2 ^ 32) :
    (pos + BitVec.ofNat 32 n).toNat = pos.toNat + n := by
  rw [BitVec.toNat_add, BitVec.toNat_ofNat]
  omega

theorem Consumes.congr {f : Cursor σ → Scan ε (Cursor σ)} {bytes : List Byte} {g g' : σ → σ}
    (h : Consumes f bytes g) (hg : ∀ value, g value = g' value) : Consumes f bytes g' := by
  obtain rfl : g = g' := funext hg
  exact h

theorem consumes_pure : Consumes (fun c : Cursor σ => (pure c : Scan ε _)) [] id := by
  intro pre post c _ _
  rw [result_pure, List.length_nil, BitVec.add_zero]
  rfl

theorem Consumes.bind {f f' : Cursor σ → Scan ε (Cursor σ)} {bytes bytes' : List Byte} {g g' : σ → σ}
    (h : Consumes f bytes g) (h' : Consumes f' bytes' g') :
    Consumes (fun c => f c >>= f') (bytes ++ bytes') (g' ∘ g) := by
  intro pre post c hpos hlen
  rw [List.length_append] at hlen
  have hfirst := h pre (bytes' ++ post) c hpos (by omega)
  have hpos' : (c.pos + BitVec.ofNat 32 bytes.length).toNat = (pre ++ bytes).length := by
    rw [toNat_add_ofNat_of_lt (by omega), hpos, List.length_append]
  have hsecond := h' (pre ++ bytes) post ⟨c.pos + BitVec.ofNat 32 bytes.length, g c.value⟩ hpos'
    (by rw [List.length_append]; omega)
  rw [List.append_assoc bytes, result_bind_ok hfirst]
  rw [List.append_assoc pre] at hsecond
  rw [hsecond, List.length_append, BitVec.ofNat_add, BitVec.add_assoc]
  rfl

/-- A window at the cursor. -/
theorem ReadsWindow.consumes {take : BitVec 32 → Scan ε α} {width : ℕ} {value : List Byte → α}
    (h : ReadsWindow take width value) (store : α → σ → σ) {bytes : List Byte}
    (hlen : bytes.length = width) :
    Consumes (fun c => do
      let a ← take c.pos
      pure ⟨c.pos + BitVec.ofNat 32 width, store a c.value⟩) bytes (store (value bytes)) := by
  intro pre post c hpos _
  have hwindow := h.result_eq c.pos (pre ++ (bytes ++ post))
  rw [bytesAt_append hpos.symm hlen] at hwindow
  rw [result_bind_ok hwindow, result_pure, hlen]

/-! ### The windows of a walk -/

/-- Windows of the given widths, one behind the other from a position on, end inside a buffer. -/
def WindowsFit : BitVec 32 → List ℕ → ℕ → Prop
  | _, [], _ => True
  | pos, w :: ws, len => pos.toNat + w ≤ len ∧ WindowsFit (pos + BitVec.ofNat 32 w) ws len

theorem windowsFit_append (ws ws' : List ℕ) (pos : BitVec 32) (len : ℕ) :
    WindowsFit pos (ws ++ ws') len ↔
      WindowsFit pos ws len ∧ WindowsFit (pos + BitVec.ofNat 32 ws.sum) ws' len := by
  induction ws generalizing pos with
  | nil => simp [WindowsFit]
  | cons w ws ih =>
    rw [List.cons_append, WindowsFit, WindowsFit, ih, List.sum_cons, BitVec.ofNat_add,
      BitVec.add_assoc, and_assoc]

/-- As long as the position does not wrap around, the last window decides. -/
theorem windowsFit_iff {ws : List ℕ} {pos : BitVec 32} {len : ℕ} (hne : ws ≠ [])
    (hwrap : pos.toNat + ws.sum < 2 ^ 32) :
    WindowsFit pos ws len ↔ pos.toNat + ws.sum ≤ len := by
  induction ws generalizing pos with
  | nil => exact absurd rfl hne
  | cons w ws ih =>
    rw [List.sum_cons] at hwrap ⊢
    have hnext : (pos + BitVec.ofNat 32 w).toNat = pos.toNat + w :=
      toNat_add_ofNat_of_lt (by omega)
    by_cases hws : ws = []
    · simp [hws, WindowsFit]
    · rw [WindowsFit, ih hws (by omega), hnext]
      omega

/-- Wherever it starts, `f` reads exactly the windows of the given widths at the cursor. -/
structure Walks (f : Cursor σ → Scan ε (Cursor σ)) (widths : List ℕ) : Prop where
  result_eq : ∀ c bs, ∃ value, result (f c) bs = .ok ⟨c.pos + BitVec.ofNat 32 widths.sum, value⟩
  inBounds_iff : ∀ c bs, InBounds (f c) bs ↔ WindowsFit c.pos widths bs.length

theorem walks_pure : Walks (fun c : Cursor σ => (pure c : Scan ε _)) [] where
  result_eq c _ := ⟨c.value, by rw [result_pure, List.sum_nil, BitVec.add_zero]⟩
  inBounds_iff _ _ := iff_of_true inBounds_pure trivial

theorem Walks.bind {f f' : Cursor σ → Scan ε (Cursor σ)} {ws ws' : List ℕ} (h : Walks f ws)
    (h' : Walks f' ws') : Walks (fun c => f c >>= f') (ws ++ ws') where
  result_eq c bs := by
    obtain ⟨value, hf⟩ := h.result_eq c bs
    obtain ⟨value', hf'⟩ := h'.result_eq ⟨c.pos + BitVec.ofNat 32 ws.sum, value⟩ bs
    refine ⟨value', ?_⟩
    rw [result_bind_ok hf, hf', List.sum_append, BitVec.ofNat_add, BitVec.add_assoc]
  inBounds_iff c bs := by
    obtain ⟨value, hf⟩ := h.result_eq c bs
    rw [inBounds_bind_ok hf, h.inBounds_iff, h'.inBounds_iff, windowsFit_append]

/-- A window at the cursor. -/
theorem ReadsWindow.walks {take : BitVec 32 → Scan ε α} {width : ℕ} {value : List Byte → α}
    (h : ReadsWindow take width value) (hwidth : 0 < width) (store : α → σ → σ) :
    Walks (fun c => do
      let a ← take c.pos
      pure ⟨c.pos + BitVec.ofNat 32 width, store a c.value⟩) [width] where
  result_eq c bs := by
    rw [result_bind_ok (h.result_eq c.pos bs), result_pure, List.sum_singleton]
    exact ⟨_, rfl⟩
  inBounds_iff c bs := by
    rw [inBounds_bind_ok (h.result_eq c.pos bs), h.inBounds_iff hwidth]
    simp [WindowsFit]

end Scan

end Wire
