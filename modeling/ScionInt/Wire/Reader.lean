import Mathlib.Data.List.Basic
import ScionInt.Wire.Framing

/-!
# Readers

A `Reader` takes a value from the start of a byte string.  It carries the proof that the bytes it has
read determine what it does, whatever follows them.  `Reads r bytes a` says that `r` reads exactly
`bytes` and returns `a`.

`untilEnd turn` repeats a reader up to the end of a byte string.  `Absorbs turn bytes g` says that these
turns read `bytes` and change their state by `g`; its rules follow the way a byte string is put together.
-/

namespace Wire

structure Reader (α : Type) where
  run : List Byte → Option (α × List Byte)
  exists_bytes : ∀ {bs a rest}, run bs = some (a, rest) →
    ∃ bytes, bs = bytes ++ rest ∧ ∀ rest', run (bytes ++ rest') = some (a, rest')

namespace Reader

variable {α β σ τ : Type}

protected def pure (a : α) : Reader α where
  run bs := some (a, bs)
  exists_bytes := by
    intro bs b rest h
    cases h
    exact ⟨[], rfl, fun _ => rfl⟩

protected def bind (r : Reader α) (f : α → Reader β) : Reader β where
  run bs :=
    match r.run bs with
    | some (a, rest) => (f a).run rest
    | none => none
  exists_bytes := by
    intro bs b rest h
    cases hr : r.run bs with
    | none => simp [hr] at h
    | some out =>
      obtain ⟨a, mid⟩ := out
      simp only [hr] at h
      obtain ⟨first, rfl, hfirst⟩ := r.exists_bytes hr
      obtain ⟨second, rfl, hsecond⟩ := (f a).exists_bytes h
      refine ⟨first ++ second, by rw [List.append_assoc], fun rest' => ?_⟩
      simp only [List.append_assoc, hfirst, hsecond]

instance : Monad Reader where
  pure := Reader.pure
  bind := Reader.bind

/-- Read nothing and fail. -/
def fail : Reader α where
  run _ := none
  exists_bytes h := by cases h

/-- The next `n` bytes. -/
def bytes (n : ℕ) : Reader (List Byte) where
  run bs := if n ≤ bs.length then some (bs.take n, bs.drop n) else none
  exists_bytes := by
    intro bs a rest h
    split_ifs at h with hn
    cases h
    have hlen : (bs.take n).length = n := List.length_take_of_le hn
    refine ⟨bs.take n, (List.take_append_drop n bs).symm, fun rest' => ?_⟩
    rw [if_pos (by rw [List.length_append]; omega), List.take_left' hlen, List.drop_left' hlen]

/-- A little-endian number of `n` bytes. -/
def number (n : ℕ) : Reader ℕ := do
  let bs ← bytes n
  pure (ofLeBytes bs)

/-- What `parse` makes of the next `n` bytes. -/
def within (n : ℕ) (parse : List Byte → Option α) : Reader α := do
  let bs ← bytes n
  match parse bs with
  | some a => pure a
  | none => fail

/-! ### What a reader reads -/

/-- `r` reads exactly `bytes` and returns `a`. -/
def Reads (r : Reader α) (bytes : List Byte) (a : α) : Prop :=
  ∀ rest, r.run (bytes ++ rest) = some (a, rest)

variable {r : Reader α} {f : α → Reader β} {bs xs ys rest : List Byte} {a : α} {b : β}

theorem reads_of_run (h : r.run bs = some (a, rest)) : ∃ bytes, bs = bytes ++ rest ∧ Reads r bytes a :=
  r.exists_bytes h

theorem reads_pure (a : α) : Reads (pure a) [] a := fun _ => rfl

theorem run_bind : (r >>= f).run bs =
    match r.run bs with
    | some (a, rest) => (f a).run rest
    | none => none := rfl

theorem Reads.bind (hr : Reads r xs a) (hf : Reads (f a) ys b) : Reads (r >>= f) (xs ++ ys) b := by
  intro rest
  rw [run_bind, List.append_assoc, hr]
  exact hf rest

/-- A reader whose value is used without reading further. -/
theorem Reads.bind_pure (hr : Reads r xs a) (g : α → β) : Reads (r >>= fun a => pure (g a)) xs (g a) := by
  have h := hr.bind (f := fun a => pure (g a)) (reads_pure (g a))
  rwa [List.append_nil] at h

theorem reads_bytes {n : ℕ} (hn : bs.length = n) : Reads (bytes n) bs bs := by
  intro rest
  unfold bytes
  dsimp only
  rw [if_pos (by rw [List.length_append]; omega), List.take_left' hn, List.drop_left' hn]

theorem reads_number {n v : ℕ} (hv : v < 256 ^ n) : Reads (number n) (leBytes n v) v := by
  have h := (reads_bytes (length_leBytes n v)).bind_pure ofLeBytes
  rwa [ofLeBytes_leBytes hv] at h

theorem reads_within {n : ℕ} {parse : List Byte → Option α} (hn : bs.length = n)
    (hparse : parse bs = some a) : Reads (within n parse) bs a := by
  have h : Reads (match parse bs with | some a => pure a | none => fail) [] a := by
    rw [hparse]
    exact reads_pure a
  have hbind := (reads_bytes hn).bind (f := fun bs => match parse bs with | some a => pure a | none => fail) h
  rwa [List.append_nil] at hbind

/-- A reader that does not read the empty string makes it shorter. -/
theorem length_lt_of_run (hnil : r.run [] = none) (h : r.run bs = some (a, rest)) :
    rest.length < bs.length := by
  obtain ⟨bytes, rfl, hreads⟩ := reads_of_run h
  have hne : bytes ≠ [] := by
    rintro rfl
    have hempty := hreads []
    rw [List.append_nil, hnil] at hempty
    cases hempty
  rw [List.length_append]
  exact Nat.lt_add_of_pos_left (List.length_pos_of_ne_nil hne)

/-! ### Up to the end -/

/-- One turn after the other, as long as there are bytes left. -/
def untilEnd (turn : σ → Reader σ) (hturn : ∀ s, (turn s).run [] = none) (s : σ) (bs : List Byte) :
    Option σ :=
  if bs = [] then some s
  else
    match _h : (turn s).run bs with
    | none => none
    | some (s', rest) => untilEnd turn hturn s' rest
termination_by bs.length
decreasing_by exact length_lt_of_run (hturn s) _h

variable {turn : σ → Reader σ} {hturn : ∀ s, (turn s).run [] = none} {s s' : σ}

@[simp] theorem untilEnd_nil : untilEnd turn hturn s [] = some s := by
  rw [untilEnd, if_pos rfl]

theorem untilEnd_of_run (h : (turn s).run bs = some (s', rest)) :
    untilEnd turn hturn s bs = untilEnd turn hturn s' rest := by
  have hne : bs ≠ [] := by
    rintro rfl
    rw [hturn s] at h
    cases h
  rw [untilEnd, if_neg hne]
  split
  · rename_i hnone
    rw [h] at hnone
    cases hnone
  · rename_i hsome
    rw [h] at hsome
    cases hsome
    rfl

theorem untilEnd_reads (h : Reads (turn s) xs s') (rest : List Byte) :
    untilEnd turn hturn s (xs ++ rest) = untilEnd turn hturn s' rest :=
  untilEnd_of_run (h rest)

/-! ### What the turns absorb -/

variable (turn hturn) in
/-- The turns read `bytes` and change the state by `g`. -/
def Absorbs (bytes : List Byte) (g : σ → σ) : Prop :=
  ∀ s rest, untilEnd turn hturn s (bytes ++ rest) = untilEnd turn hturn (g s) rest

variable {g g' : σ → σ}

theorem absorbs_nil : Absorbs turn hturn [] id := fun _ _ => rfl

theorem absorbs_of_reads (h : ∀ s, Reads (turn s) xs (g s)) : Absorbs turn hturn xs g :=
  fun s rest => untilEnd_reads (h s) rest

theorem Absorbs.append (hx : Absorbs turn hturn xs g) (hy : Absorbs turn hturn ys g') :
    Absorbs turn hturn (xs ++ ys) (fun s => g' (g s)) := by
  intro s rest
  rw [List.append_assoc, hx, hy]

/-- Bytes that are only there under a condition. -/
theorem Absorbs.ite {c : Prop} [Decidable c] (h : c → Absorbs turn hturn xs g) :
    Absorbs turn hturn (if c then xs else []) (fun s => if c then g s else s) := by
  intro s rest
  split_ifs with hc
  · exact h hc s rest
  · rfl

/-- The bytes of a list of items. -/
theorem absorbs_flatMap (upd : σ → τ → σ) {items : List τ} {enc : τ → List Byte}
    (h : ∀ item ∈ items, Absorbs turn hturn (enc item) (upd · item)) :
    Absorbs turn hturn (items.flatMap enc) (items.foldl upd ·) := by
  intro s rest
  induction items generalizing s with
  | nil => rfl
  | cons item items ih =>
    rw [List.flatMap_cons, List.append_assoc, h item List.mem_cons_self]
    exact ih (fun x hx => h x (List.mem_cons_of_mem item hx)) (upd s item)

theorem Absorbs.congr (h : Absorbs turn hturn xs g) (hg : ∀ s, g s = g' s) :
    Absorbs turn hturn xs g' := by
  obtain rfl : g = g' := funext hg
  exact h

theorem Absorbs.untilEnd_eq (h : Absorbs turn hturn xs g) (s : σ) :
    untilEnd turn hturn s xs = some (g s) := by
  have hend := h s []
  rwa [List.append_nil, untilEnd_nil] at hend

end Reader

end Wire
