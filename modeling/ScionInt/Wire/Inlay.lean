import Mathlib.Data.List.Induction

/-!
# Pieces laid into a string

`inlay` lays one piece after the other into a string, each of them behind as many elements as the piece
before it has.  Of pieces of one length the first one stays in front, and the others come behind it in
reverse order (`inlay_same`).
-/

namespace Wire

variable {α : Type}

/-- A string into which pieces have been laid, and the length of the last one. -/
structure Inlaid (α : Type) where
  last : ℕ
  string : List α

/-- Lay a piece into the string, behind as many elements as the last piece has. -/
def Inlaid.add (s : Inlaid α) (piece : List α) : Inlaid α where
  last := piece.length
  string := s.string.take s.last ++ (piece ++ s.string.drop s.last)

def inlay (xs : List α) (pieces : List (List α)) : Inlaid α := pieces.foldl Inlaid.add ⟨0, xs⟩

theorem inlay_append_singleton (xs : List α) (pieces : List (List α)) (piece : List α) :
    inlay xs (pieces ++ [piece]) = (inlay xs pieces).add piece := by
  unfold inlay
  rw [List.foldl_append, List.foldl_cons, List.foldl_nil]

theorem last_inlay (xs : List α) (pieces : List (List α)) (piece : List α) :
    (inlay xs (pieces ++ [piece])).last = piece.length := by
  rw [inlay_append_singleton, Inlaid.add]

theorem string_inlay (xs : List α) (pieces : List (List α)) (piece : List α) :
    (inlay xs (pieces ++ [piece])).string = (inlay xs pieces).string.take (inlay xs pieces).last ++
      (piece ++ (inlay xs pieces).string.drop (inlay xs pieces).last) := by
  rw [inlay_append_singleton, Inlaid.add]

/-- There is room for the last piece. -/
theorem last_le (xs : List α) (pieces : List (List α)) :
    (inlay xs pieces).last ≤ (inlay xs pieces).string.length := by
  induction pieces using List.reverseRecOn with
  | nil => exact Nat.zero_le _
  | append_singleton pieces piece ih =>
    rw [last_inlay, string_inlay, List.length_append, List.length_append]
    omega

/-- Of pieces of one length the first one stays in front. -/
theorem inlay_same (xs first : List α) {pieces : List (List α)}
    (h : ∀ piece ∈ pieces, piece.length = first.length) :
    inlay xs (first :: pieces) = ⟨first.length, first ++ (pieces.reverse.flatten ++ xs)⟩ := by
  induction pieces using List.reverseRecOn with
  | nil => rfl
  | append_singleton pieces piece ih =>
    have hpiece := h piece (List.mem_append_right _ List.mem_cons_self)
    rw [← List.cons_append, inlay_append_singleton, ih fun p hp => h p (List.mem_append_left _ hp),
      Inlaid.add, hpiece, List.take_left' rfl, List.drop_left' rfl, List.reverse_append,
      List.reverse_singleton, List.flatten_append, List.flatten_singleton, List.append_assoc]

end Wire
