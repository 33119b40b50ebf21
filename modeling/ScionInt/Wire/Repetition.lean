import Mathlib.Data.List.Basic
import Mathlib.Data.List.Infix

/-!
# Strings that commute

Two strings give the same string in both orders exactly if they are repetitions of one string
(`append_comm_iff`).
-/

namespace Wire

variable {α : Type}

/-- Both strings are repetitions of one string. -/
def Repetitions (xs ys : List α) : Prop :=
  ∃ (t : List α) (i j : ℕ), xs = (List.replicate i t).flatten ∧ ys = (List.replicate j t).flatten

theorem flatten_replicate_add (t : List α) (i j : ℕ) :
    (List.replicate i t).flatten ++ (List.replicate j t).flatten =
      (List.replicate (i + j) t).flatten := by
  rw [List.replicate_add, List.flatten_append]

theorem Repetitions.symm {xs ys : List α} (h : Repetitions xs ys) : Repetitions ys xs := by
  obtain ⟨t, i, j, hxs, hys⟩ := h
  exact ⟨t, j, i, hys, hxs⟩

theorem repetitions_nil_left (ys : List α) : Repetitions [] ys :=
  ⟨ys, 0, 1, rfl, by rw [List.replicate_one, List.flatten_singleton]⟩

/-- Cutting a string off a string that starts with it, as in Euclid's algorithm. -/
theorem Repetitions.append_left {xs ys : List α} (h : Repetitions xs ys) : Repetitions xs (xs ++ ys) := by
  obtain ⟨t, i, j, rfl, rfl⟩ := h
  exact ⟨t, i, i + j, rfl, flatten_replicate_add t i j⟩

theorem repetitions_of_append_comm {xs ys : List α} (h : xs ++ ys = ys ++ xs) : Repetitions xs ys := by
  induction hn : xs.length + ys.length using Nat.strong_induction_on generalizing xs ys with
  | _ n ih =>
    -- the shorter string is the start of the longer one, and what is left commutes with it
    have hcut {us vs : List α} (hle : us.length ≤ vs.length) (hlen : us.length + vs.length = n)
        (h : us ++ vs = vs ++ us) (hne : us ≠ []) : Repetitions us vs := by
      obtain ⟨ws, rfl⟩ : us <+: vs :=
        List.prefix_of_prefix_length_le (List.prefix_append us vs) (h ▸ List.prefix_append vs us) hle
      rw [List.append_assoc] at h
      have hpos := List.length_pos_of_ne_nil hne
      rw [List.length_append] at hlen
      exact (ih (us.length + ws.length) (by omega) (List.append_cancel_left h) rfl).append_left
    rcases eq_or_ne xs [] with rfl | hxs
    · exact repetitions_nil_left ys
    · rcases eq_or_ne ys [] with rfl | hys
      · exact (repetitions_nil_left xs).symm
      · rcases Nat.le_total xs.length ys.length with hle | hle
        · exact hcut hle hn h hxs
        · exact (hcut hle (by omega) h.symm hys).symm

theorem append_comm_iff {xs ys : List α} : xs ++ ys = ys ++ xs ↔ Repetitions xs ys := by
  refine ⟨repetitions_of_append_comm, ?_⟩
  rintro ⟨t, i, j, rfl, rfl⟩
  rw [flatten_replicate_add, flatten_replicate_add, Nat.add_comm]

end Wire
