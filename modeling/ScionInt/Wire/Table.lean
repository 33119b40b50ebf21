import Mathlib.Data.List.Basic
import Mathlib.Data.List.Dedup
import Mathlib.Data.List.Perm.Subperm

/-!
# Match-action tables with exact keys

A table is the list of its entries in the order in which they were written.  `insert` models the
INSERT of a control-plane write: on an existing key or a full table it fails without effect.  So of
several entries for a key the first one counts (`lookup_insertList`).  `Records` says which keys a table
of a declared size holds after a sequence of INSERTs.
-/

namespace Wire

/-- A table with exact keys, of at most `size` entries if a size is given. -/
structure Table (K A : Type) where
  entries : List (K × A) := []
  size : Option ℕ := none
deriving DecidableEq, Inhabited

namespace Table

variable {K A : Type} [DecidableEq K]

/-- The action of the entry for `k`, if there is one. -/
def lookup (t : Table K A) (k : K) : Option A := t.entries.lookup k

/-- Whether a further entry exceeds the declared size. -/
def full (t : Table K A) : Bool := t.size.any (· ≤ t.entries.length)

/-- INSERT; fails without effect if the key exists or the table is full. -/
def insert (t : Table K A) (k : K) (a : A) : Table K A :=
  if (t.lookup k).isSome ∨ t.full then t else { t with entries := t.entries ++ [(k, a)] }

/-- INSERTs, one after the other. -/
def insertList (t : Table K A) (es : List (K × A)) : Table K A :=
  es.foldl (fun t e => t.insert e.1 e.2) t

@[simp] theorem lookup_empty (k : K) : ({} : Table K A).lookup k = none := rfl

@[simp] theorem size_insert (t : Table K A) (k : K) (a : A) : (t.insert k a).size = t.size := by
  unfold insert
  split_ifs
  · rfl
  · rfl

theorem size_insertList (t : Table K A) (es : List (K × A)) : (t.insertList es).size = t.size := by
  induction es generalizing t with
  | nil => rfl
  | cons e es ih => exact (ih (t.insert e.1 e.2)).trans (size_insert t e.1 e.2)

/-- An INSERT into a table without a declared size. -/
theorem lookup_insert {t : Table K A} (hsize : t.size = none) (k : K) (a : A) (k' : K) :
    (t.insert k a).lookup k' = (t.lookup k').or ([(k, a)].lookup k') := by
  have hfull : ¬ t.full := by simp [full, hsize]
  unfold insert
  by_cases hk : (t.lookup k).isSome
  · rw [if_pos (.inl hk)]
    by_cases hk' : k' = k
    · obtain ⟨a', ha'⟩ := Option.isSome_iff_exists.mp hk
      rw [hk', ha', Option.some_or]
    · have hne : (k' == k) = false := beq_eq_false_iff_ne.mpr hk'
      rw [List.lookup_cons, hne]
      exact (Option.or_none).symm
  · rw [if_neg (not_or.mpr ⟨hk, hfull⟩)]
    exact List.lookup_append

/-- Of the entries for a key the first one counts, whether it was there before or is inserted. -/
theorem lookup_insertList {t : Table K A} (hsize : t.size = none) (es : List (K × A)) (k : K) :
    (t.insertList es).lookup k = (t.lookup k).or (es.lookup k) := by
  induction es generalizing t with
  | nil => exact (Option.or_none).symm
  | cons e es ih =>
    have hlookup := ih (t := t.insert e.1 e.2) (by rw [size_insert, hsize])
    rw [lookup_insert hsize, Option.or_assoc, ← List.lookup_append] at hlookup
    exact hlookup

theorem insertList_append (t : Table K A) (es es' : List (K × A)) :
    t.insertList (es ++ es') = (t.insertList es).insertList es' := List.foldl_append

theorem lookup_insertList_empty (es : List (K × A)) (k : K) :
    (({} : Table K A).insertList es).lookup k = ({ entries := es } : Table K A).lookup k := by
  rw [lookup_insertList rfl, lookup_empty, Option.none_or]
  rfl

theorem lookup_cons (k : K) (a : A) (es : List (K × A)) (k' : K) :
    ({ entries := (k, a) :: es } : Table K A).lookup k' =
      if k' = k then some a else ({ entries := es } : Table K A).lookup k' := by
  rw [lookup, List.lookup_cons]
  split_ifs with hk
  · rw [hk, beq_self_eq_true]
  · rw [beq_eq_false_iff_ne.mpr hk]
    rfl

/-- The entry of `i`, if no other index in the list has its key. -/
theorem lookup_map {ι : Type} {f : ι → K} {g : ι → A} {is : List ι} {i : ι}
    (hf : ∀ j ∈ is, f i = f j → i = j) (hi : i ∈ is) :
    (is.map fun j => (f j, g j)).lookup (f i) = some (g i) := by
  induction is with
  | nil => cases hi
  | cons j is ih =>
    rw [List.map_cons, List.lookup_cons]
    by_cases hj : i = j
    · simp [hj]
    · have hne : (f i == f j) = false :=
        beq_eq_false_iff_ne.mpr fun h => hj (hf j List.mem_cons_self h)
      rw [hne]
      exact ih (fun k hk => hf k (List.mem_cons_of_mem j hk)) ((List.mem_cons.mp hi).resolve_left hj)

/-- A key that no entry has. -/
theorem lookup_map_of_ne {ι : Type} {f : ι → K} {g : ι → A} {is : List ι} {k : K}
    (h : ∀ i ∈ is, k ≠ f i) : (is.map fun j => (f j, g j)).lookup k = none := by
  rw [List.lookup_eq_none_iff]
  intro e he
  obtain ⟨i, hi, rfl⟩ := List.mem_map.mp he
  exact bne_iff_ne.mpr (h i hi)

/-! ### The keys of a table -/

/-- The keys, in the order of the entries. -/
def keys (t : Table K A) : List K := t.entries.map Prod.fst

variable {t : Table K A} {k k' : K} {a a' : A}

theorem mem_entries_of_lookup (h : t.lookup k = some a) : (k, a) ∈ t.entries := by
  obtain ⟨l1, l2, hentries, -⟩ := List.lookup_eq_some_iff.mp h
  rw [hentries]
  exact List.mem_append_right l1 List.mem_cons_self

theorem lookup_ne_none_iff : t.lookup k ≠ none ↔ k ∈ t.keys := by
  rw [lookup, Ne, List.lookup_eq_none_iff, keys, List.mem_map]
  constructor
  · intro h
    simp only [not_forall] at h
    obtain ⟨e, he, hk⟩ := h
    exact ⟨e, he, (by simpa using hk : k = e.1).symm⟩
  · rintro ⟨e, he, rfl⟩ h
    exact absurd (h e he) (by simp)

theorem entries_insert (t : Table K A) (k : K) (a : A) :
    (t.insert k a).entries = if k ∈ t.keys ∨ t.full then t.entries else t.entries ++ [(k, a)] := by
  unfold insert
  simp only [Option.isSome_iff_ne_none, lookup_ne_none_iff]
  split_ifs
  · rfl
  · rfl

theorem mem_entries_insert {e : K × A} (h : e ∈ (t.insert k a).entries) :
    e ∈ t.entries ∨ e = (k, a) := by
  rw [entries_insert] at h
  split_ifs at h
  · exact .inl h
  · exact (List.mem_append.mp h).imp id List.mem_singleton.mp

theorem mem_entries_insertList {es : List (K × A)} {e : K × A}
    (h : e ∈ (t.insertList es).entries) : e ∈ t.entries ∨ e ∈ es := by
  induction es generalizing t with
  | nil => exact .inl h
  | cons e' es ih =>
    rcases ih h with hmem | hmem
    · rcases mem_entries_insert hmem with hmem | rfl
      · exact .inl hmem
      · exact .inr List.mem_cons_self
    · exact .inr (List.mem_cons_of_mem e' hmem)

/-- An INSERT does not change an entry. -/
theorem lookup_insert_of_some (h : t.lookup k' = some a') : (t.insert k a).lookup k' = some a' := by
  unfold lookup at h ⊢
  rw [entries_insert]
  split_ifs
  · exact h
  · rw [List.lookup_append, h, Option.some_or]

theorem keys_insert (t : Table K A) (k : K) (a : A) :
    (t.insert k a).keys = if k ∈ t.keys ∨ t.full then t.keys else t.keys ++ [k] := by
  rw [keys, entries_insert]
  split_ifs
  · rfl
  · rw [List.map_append]
    rfl

theorem nodup_keys_insert (h : t.keys.Nodup) (k : K) (a : A) : (t.insert k a).keys.Nodup := by
  rw [keys_insert]
  split_ifs with hk
  · exact h
  · refine List.nodup_append.mpr ⟨h, List.nodup_singleton k, ?_⟩
    rintro k' hk' _ hmem rfl
    rw [List.mem_singleton.mp hmem] at hk'
    exact hk (.inl hk')

/-- No key has two entries. -/
theorem nodup_keys_insertList (h : t.keys.Nodup) (es : List (K × A)) :
    (t.insertList es).keys.Nodup := by
  induction es generalizing t with
  | nil => exact h
  | cons e es ih => exact ih (nodup_keys_insert h e.1 e.2)

theorem mem_keys_insertList (hsize : t.size = none) {es : List (K × A)} {e : K × A} (he : e ∈ es) :
    e.1 ∈ (t.insertList es).keys := by
  have hmem : e.1 ∈ ({ entries := es } : Table K A).keys := List.mem_map_of_mem he
  have hlookup : es.lookup e.1 ≠ none := lookup_ne_none_iff.mpr hmem
  rw [← lookup_ne_none_iff, lookup_insertList hsize]
  exact fun h => hlookup (Option.or_eq_none_iff.mp h).2

/-- INSERTs on existing keys. -/
theorem insertList_eq_self {es : List (K × A)} (h : ∀ e ∈ es, e.1 ∈ t.keys) : t.insertList es = t := by
  induction es with
  | nil => rfl
  | cons e es ih =>
    have hsome : (t.lookup e.1).isSome :=
      Option.isSome_iff_ne_none.mpr (lookup_ne_none_iff.mpr (h e List.mem_cons_self))
    have hinsert : t.insert e.1 e.2 = t := if_pos (.inl hsome)
    rw [insertList, List.foldl_cons, hinsert]
    exact ih fun e' he' => h e' (List.mem_cons_of_mem e he')

/-! ### Tables of a declared size -/

/-- A table of at most `n` entries after INSERTs of the keys `ks`: it holds these keys only, and all of
them unless it is full. -/
structure Records (t : Table K A) (n : ℕ) (ks : List K) : Prop where
  size : t.size = some n
  nodup : t.keys.Nodup
  subset : t.keys ⊆ ks
  covered : ∀ k ∈ ks, k ∈ t.keys ∨ t.keys.length = n
  length_le : t.keys.length ≤ n

namespace Records

variable {n : ℕ} {ks : List K}

omit [DecidableEq K] in
theorem full_iff (h : t.Records n ks) : t.full ↔ t.keys.length = n := by
  have hle := h.length_le
  rw [full, h.size, Option.any_some, decide_eq_true_eq, ← List.length_map Prod.fst]
  exact ⟨fun hn => Nat.le_antisymm hle hn, fun hn => Nat.le_of_eq hn.symm⟩

theorem insert (h : t.Records n ks) (k : K) (a : A) : (t.insert k a).Records n (ks ++ [k]) := by
  have hkeys := t.keys_insert k a
  have hle := h.length_le
  by_cases hfail : k ∈ t.keys ∨ t.full
  · -- the INSERT fails: the keys stay
    rw [if_pos hfail] at hkeys
    constructor
    · rw [size_insert, h.size]
    · exact nodup_keys_insert h.nodup k a
    · rw [hkeys]
      exact fun k' hk' => List.mem_append_left _ (h.subset hk')
    · intro k' hk'
      rw [hkeys]
      rcases List.mem_append.mp hk' with hk' | hk'
      · exact h.covered k' hk'
      · rw [List.mem_singleton.mp hk']
        exact hfail.imp id h.full_iff.mp
    · rw [hkeys]
      exact hle
  · -- a new key and room for it
    rw [if_neg hfail] at hkeys
    obtain ⟨hnew, hroom⟩ := not_or.mp hfail
    rw [h.full_iff] at hroom
    constructor
    · rw [size_insert, h.size]
    · exact nodup_keys_insert h.nodup k a
    · rw [hkeys]
      exact List.append_subset.mpr ⟨fun k' hk' => List.mem_append_left _ (h.subset hk'),
        List.subset_append_right _ _⟩
    · intro k' hk'
      rw [hkeys]
      refine .inl ?_
      rcases List.mem_append.mp hk' with hk' | hk'
      · exact List.mem_append_left _ ((h.covered k' hk').resolve_right hroom)
      · exact List.mem_append_right _ hk'
    · rw [hkeys, List.length_append, List.length_singleton]
      omega

theorem insertList (h : t.Records n ks) (es : List (K × A)) :
    (t.insertList es).Records n (ks ++ es.map Prod.fst) := by
  induction es generalizing t ks with
  | nil => exact (List.append_nil ks).symm ▸ h
  | cons e es ih =>
    have hrest := ih (h.insert e.1 e.2)
    rw [List.append_assoc] at hrest
    exact hrest

theorem subperm (h : t.Records n ks) : List.Subperm t.keys ks.dedup :=
  List.subperm_of_subset h.nodup fun _ hk => List.mem_dedup.mpr (h.subset hk)

/-- The keys that were inserted are all there if they fit the table. -/
theorem mem_keys_iff (h : t.Records n ks) (hfit : ks.dedup.length ≤ n) : k ∈ t.keys ↔ k ∈ ks := by
  constructor
  · intro hk
    exact h.subset hk
  · intro hk
    rcases h.covered k hk with hmem | hfull
    · exact hmem
    · have hperm := h.subperm.perm_of_length_le (hfull ▸ hfit)
      exact hperm.mem_iff.mpr (List.mem_dedup.mpr hk)

/-- The number of entries: that of the distinct keys, up to the size of the table. -/
theorem length_keys (h : t.Records n ks) : t.keys.length = min n ks.dedup.length := by
  have hle := h.length_le
  have hkeys := h.subperm.length_le
  by_cases hfull : t.keys.length = n
  · omega
  · have hback : List.Subperm ks.dedup t.keys :=
      List.subperm_of_subset ks.nodup_dedup fun k hk =>
        (h.covered k (List.mem_dedup.mp hk)).resolve_right hfull
    have hlen := hback.length_le
    omega

end Records

omit [DecidableEq K] in
theorem records_empty (n : ℕ) : ({ size := some n } : Table K A).Records n [] where
  size := rfl
  nodup := List.nodup_nil
  subset := List.Subset.refl []
  covered _ h := absurd h List.not_mem_nil
  length_le := Nat.zero_le n

end Table

end Wire
