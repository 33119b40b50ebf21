import ScionInt.Wire.Scan

/-!
# `takeUint.h`

The four functions read a big-endian number of 8, 4, 2 or 1 bytes from a payload.  They differ only in
the number of bytes: byte `i` of the number in memory, which is little-endian, is the byte at
`payload + pos + (n - 1) - i`.
-/

namespace ScionInt

open Wire Wire.Scan

variable {ε : Type}

/-- The value of a number whose bytes lie in memory in this order. -/
def ofMemory (n : ℕ) (bytes : List Byte) : BitVec (8 * n) := BitVec.ofNat (8 * n) (ofBytes bytes.reverse)

/-- `takeUint…` for a number of `n` bytes. -/
def takeUint (n : ℕ) (pos : BitVec 32) : Scan ε (BitVec (8 * n)) := do
  let number ← readList ((List.range n).map fun i => pos.toNat + (n - 1) - i)
  pure (ofMemory n number)

def takeUint64 (pos : BitVec 32) : Scan ε (BitVec 64) := takeUint 8 pos
def takeUint32 (pos : BitVec 32) : Scan ε (BitVec 32) := takeUint 4 pos
def takeUint16 (pos : BitVec 32) : Scan ε (BitVec 16) := takeUint 2 pos
def takeUint8 (pos : BitVec 32) : Scan ε (BitVec 8) := takeUint 1 pos

/-- The offsets of a number, last byte first. -/
theorem takeUint_offsets (n p : ℕ) :
    ((List.range n).map fun i => p + (n - 1) - i) = (List.range' p n).reverse := by
  rw [List.reverse_range']
  apply List.map_congr_left
  intro i hi
  have := List.mem_range.mp hi
  omega

/-- `takeUint` reads the big-endian number of the window at `pos`. -/
theorem readsWindow_takeUint (n : ℕ) : ReadsWindow (takeUint n : BitVec 32 → Scan ε _) n
    fun bytes => BitVec.ofNat (8 * n) (ofBytes bytes) where
  result_eq pos bs := by
    rw [takeUint, takeUint_offsets]
    show Except.ok (ofMemory n ((List.range' pos.toNat n).reverse.map fun i => bs.getD i 0)) = _
    rw [ofMemory, List.map_reverse, List.reverse_reverse]
    rfl
  mem_reads_iff pos bs i := by
    rw [takeUint, takeUint_offsets]
    show i ∈ (List.range' pos.toNat n).reverse ++ [] ↔ _
    rw [List.append_nil, List.mem_reverse, List.mem_range'_1]

theorem readsWindow_takeUint64 : ReadsWindow (takeUint64 : BitVec 32 → Scan ε _) 8
    fun bytes => BitVec.ofNat 64 (ofBytes bytes) := readsWindow_takeUint 8

theorem readsWindow_takeUint32 : ReadsWindow (takeUint32 : BitVec 32 → Scan ε _) 4
    fun bytes => BitVec.ofNat 32 (ofBytes bytes) := readsWindow_takeUint 4

theorem readsWindow_takeUint16 : ReadsWindow (takeUint16 : BitVec 32 → Scan ε _) 2
    fun bytes => BitVec.ofNat 16 (ofBytes bytes) := readsWindow_takeUint 2

theorem readsWindow_takeUint8 : ReadsWindow (takeUint8 : BitVec 32 → Scan ε _) 1
    fun bytes => BitVec.ofNat 8 (ofBytes bytes) := readsWindow_takeUint 1

end ScionInt
