import ScionInt.ControlPlane.Bitstring
import ScionInt.ControlPlane.P4Runtime

/-!
# `IntController::handleArbitrationUpdate`

When the controller becomes master it installs the entries that it does not learn: `clone_int` for its
own AS, `insert_int` for the other ASes of the INT table, the node ID, the AS address and the
utilisation of the 512 ports, and the clone session for the CPU port.
-/

namespace ScionInt

open Wire

def CPU_PORT : BitVec 9 := 128

def ISD_BYTES : ℕ := 2
def AS_BYTES : ℕ := 6
def FLAG_BYTES : ℕ := 1
def PORT_BYTES : ℕ := 2
def NODE_ID_BYTES : ℕ := 4
def LINK_UTIL_BYTES : ℕ := 4

/-- An element of `asList`, `bitmapIntList` and `bitmapScionList`: the ISD and the AS of a destination in
one number, and the bitmaps for it. -/
structure IntTableLine where
  addr : BitVec 64
  bitmapInt : BitVec 16
  bitmapScion : BitVec 16
deriving DecidableEq

/-- The configuration of an `IntController`. -/
structure IntController.Config where
  hostISD : BitVec 16
  hostAS : BitVec 64
  nodeID : BitVec 32
  intTable : List IntTableLine

namespace IntController

def buildScionIntTableEntry (isd as : BitVec 64) (bitmapInt bitmapScion : BitVec 16)
    (defAction : BitVec 32) : Entity :=
  .tableEntry {
    tableId := TABLE_SCION_INT
    fieldMatches := [⟨1, toBitstring ISD_BYTES isd⟩, ⟨2, toBitstring AS_BYTES as⟩]
    action :=
      if defAction = ACTION_INSERT_INT then some {
        actionId := ACTION_INSERT_INT
        params := [⟨1, toBitstring 2 bitmapInt⟩, ⟨2, toBitstring 2 bitmapScion⟩] }
      else if defAction = ACTION_CLONE_INT then some { actionId := ACTION_CLONE_INT }
      else none }

def buildIntNodeIdTableEntry (nodeID : BitVec 32) : Entity :=
  .tableEntry {
    tableId := TABLE_INT_NODE_ID
    fieldMatches := [⟨1, toBitstring FLAG_BYTES (1 : BitVec 8)⟩]
    action := some {
      actionId := ACTION_INSERT_NODE_ID
      params := [⟨1, toBitstring NODE_ID_BYTES nodeID⟩] } }

def buildSciAsAddrTableEntry (as : BitVec 64) : Entity :=
  .tableEntry {
    tableId := TABLE_INT_AS_ADDR
    fieldMatches := [⟨1, toBitstring FLAG_BYTES (1 : BitVec 8)⟩]
    action := some {
      actionId := ACTION_INSERT_AS_ADDR
      params := [⟨1, toBitstring 8 as⟩] } }

def buildIntTxUtilTableEntry (port : BitVec 32) (txCount : BitVec 32) : Entity :=
  .tableEntry {
    tableId := TABLE_INT_TX_UTIL
    fieldMatches := [⟨1, toBitstring FLAG_BYTES (1 : BitVec 8)⟩, ⟨2, toBitstring PORT_BYTES port⟩]
    action := some {
      actionId := ACTION_INSERT_TX_UTIL
      params := [⟨1, toBitstring LINK_UTIL_BYTES txCount⟩] } }

def buildCloneSessionEntry (id : BitVec 32) : Entity :=
  .cloneSessionEntry { sessionId := id, replicas := [{ egressPort := CPU_PORT, inst := 1 }] }

/-- The request for one line of the INT table: nothing for the AS of the controller itself. -/
def scionIntRequest (c : Config) (line : IntTableLine) : List Entity :=
  if line.addr >>> 48 = c.hostISD.setWidth 64 ∧ line.addr &&& 0xffffffffffff = c.hostAS then []
  else [buildScionIntTableEntry (line.addr >>> 48) (line.addr &&& 0xffffffffffff) line.bitmapInt
    line.bitmapScion ACTION_INSERT_INT]

/-- The write requests of `installStaticTableEntries`. -/
def installStaticTableEntries (c : Config) : List (List Entity) :=
  [buildScionIntTableEntry (c.hostISD.setWidth 64) c.hostAS 0 0 ACTION_CLONE_INT] ::
    (c.intTable.map (scionIntRequest c) ++
      [buildIntNodeIdTableEntry c.nodeID :: buildSciAsAddrTableEntry c.hostAS ::
        (List.range 512).map fun i => buildIntTxUtilTableEntry (BitVec.ofNat 32 i) 0])

/-- The write request of `configCloneSession`. -/
def configCloneSession : List (List Entity) := [[buildCloneSessionEntry 1]]

/-- `handleArbitrationUpdate` on an update with the given status code. -/
def handleArbitrationUpdate (c : Config) (code : ℕ) (sw : Switch) : Switch :=
  if code = 0 then (installStaticTableEntries c ++ configCloneSession).foldl Switch.write sw else sw

end IntController

end ScionInt
