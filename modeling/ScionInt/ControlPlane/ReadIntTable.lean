import ScionInt.ControlPlane.AddressConversion
import ScionInt.ControlPlane.StaticEntries

/-!
# `readIntTable`

The INT table is a text file with a line for each destination AS: the address, the INT bitmap and the
SCION bitmap.
-/

namespace ScionInt

open Wire

/-- The lists that are filled from the file. -/
structure IntTableLists where
  asList : List (BitVec 64) := []
  bitmaskIntList : List (BitVec 16) := []
  bitmaskScionList : List (BitVec 16) := []
deriving DecidableEq

def IntTableLists.pushBack (lists : IntTableLists) (line : IntTableLine) : IntTableLists where
  asList := lists.asList ++ [line.addr]
  bitmaskIntList := lists.bitmaskIntList ++ [line.bitmapInt]
  bitmaskScionList := lists.bitmaskScionList ++ [line.bitmapScion]

/-- The elements of the lists at the same index. -/
def IntTableLists.lines (lists : IntTableLists) : List IntTableLine :=
  List.zipWith (fun addr bitmaps => ⟨addr, bitmaps.1, bitmaps.2⟩) lists.asList
    (lists.bitmaskIntList.zip lists.bitmaskScionList)

/-- The body of the loop, for a line that is not a comment. -/
def readIntTableLine (line : List Char) : Except Exception IntTableLine := do
  let (asName, lineStr) := IStream.word { rest := line } []
  let (bitmaskInt, lineStr) := lineStr.hexUint16 0
  let (bitmaskScion, _) := lineStr.hexUint16 0
  let (isdAddr, asAddr) ← splitScionAddress asName
  pure ⟨(isdAddr.setWidth 64 <<< 48) + asAddr, bitmaskInt, bitmaskScion⟩

/-- The loop over the lines; `line[0]` of an empty line is the zero at its end. -/
def readIntTableLoop (lists : IntTableLists) (line : List Char) : Except Exception IntTableLists :=
  if line.headD '\x00' ≠ '#' then do
    pure (lists.pushBack (← readIntTableLine line))
  else pure lists

/-- `readIntTable` for a file with the given text; there is none if the file cannot be opened. -/
def readIntTable (intTable : Option (List Char)) (lists : IntTableLists) :
    Except Exception IntTableLists :=
  match intTable with
  | none => .error (.runtimeError "ERROR: Failed to open int_table.txt")
  | some text => (getlines '\n' text).foldlM readIntTableLoop lists

/-- The constructor of `IntController`, which takes the address of its AS apart twice. -/
def IntController.create (hostASStr : List Char) (nodeId : BitVec 32) (intTable : Option (List Char)) :
    Except Exception Config := do
  let _ ← splitScionAddress hostASStr
  let (hostISD, hostAS) ← splitScionAddress hostASStr
  let lists ← readIntTable intTable {}
  pure { hostISD, hostAS, nodeID := nodeId, intTable := lists.lines }

end ScionInt
