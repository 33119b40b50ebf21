import ScionInt.Wire.Bytes

/-!
# Frames with a length

A frame is a content behind its length, a little-endian number of `width` bytes.  `splitFrames` takes a
stream of frames apart and stops at a frame that is not complete.
-/

namespace Wire

/-! ### Little-endian numbers -/

/-- The `n` low bytes of `v`, least significant first. -/
def leBytes (n v : ℕ) : List Byte := (toBytes n v).reverse

/-- The little-endian value of a byte string. -/
def ofLeBytes (bs : List Byte) : ℕ := ofBytes bs.reverse

@[simp] theorem length_leBytes (n v : ℕ) : (leBytes n v).length = n := by
  rw [leBytes, List.length_reverse, length_toBytes]

theorem ofLeBytes_leBytes {n v : ℕ} (h : v < 256 ^ n) : ofLeBytes (leBytes n v) = v := by
  rw [ofLeBytes, leBytes, List.reverse_reverse, ofBytes_toBytes, Nat.mod_eq_of_lt h]

/-! ### Frames -/

def frame (width : ℕ) (content : List Byte) : List Byte := leBytes width content.length ++ content

/-- The contents of the frames at the start of the stream that are complete. -/
def splitFrames (width : ℕ) (stream : List Byte) : List (List Byte) :=
  if 0 < width ∧ width + ofLeBytes (stream.take width) ≤ stream.length then
    (stream.drop width).take (ofLeBytes (stream.take width)) ::
      splitFrames width (stream.drop (width + ofLeBytes (stream.take width)))
  else []
termination_by stream.length
decreasing_by
  rw [List.length_drop]
  omega

section

variable {width : ℕ} {content : List Byte}

@[simp] theorem length_frame : (frame width content).length = width + content.length := by
  rw [frame, List.length_append, length_leBytes]

@[simp] theorem splitFrames_nil (width : ℕ) : splitFrames width [] = [] := by
  rw [splitFrames, if_neg]
  rintro ⟨hwidth, hcomplete⟩
  rw [List.length_nil] at hcomplete
  omega

/-- A complete frame is split off. -/
theorem splitFrames_frame_append (hwidth : 0 < width) (hlen : content.length < 256 ^ width)
    (rest : List Byte) :
    splitFrames width (frame width content ++ rest) = content :: splitFrames width rest := by
  have hnumber : ofLeBytes ((frame width content ++ rest).take width) = content.length := by
    rw [frame, List.append_assoc, List.take_left' (length_leBytes _ _), ofLeBytes_leBytes hlen]
  have hcomplete : width + content.length ≤ (frame width content ++ rest).length := by
    rw [List.length_append, length_frame]
    omega
  rw [splitFrames, hnumber, if_pos ⟨hwidth, hcomplete⟩, List.drop_left' length_frame]
  congr 1
  rw [frame, List.append_assoc, List.drop_left' (length_leBytes _ _), List.take_left' rfl]

/-- Nothing is split off a frame that is not complete. -/
theorem splitFrames_of_incomplete (hlen : content.length < 256 ^ width) {part : List Byte}
    (hpart : part <+: frame width content) (hne : part ≠ frame width content) :
    splitFrames width part = [] := by
  have hshort : part.length < width + content.length := by
    have hle := hpart.length_le
    have hlength : part.length ≠ (frame width content).length := fun h => hne (hpart.eq_of_length h)
    rw [length_frame] at hle hlength
    omega
  rw [splitFrames, if_neg]
  rintro ⟨-, hcomplete⟩
  have hnumber : ofLeBytes (part.take width) = content.length := by
    obtain ⟨rest, hrest⟩ := hpart
    have htake := congrArg (List.take width) hrest
    rw [List.take_append_of_le_length (by omega), frame, List.take_left' (length_leBytes _ _)] at htake
    rw [htake, ofLeBytes_leBytes hlen]
  omega

end

end Wire
