import ScionInt.DataPlane.Switch

/-!
# Write requests

A write request of the controller is a list of entities that the switch inserts one after the other
(`CONTINUE_ON_ERROR`).  Tables, actions, match fields and parameters are numbered by the `@id`
annotations and the positions in the P4 program; values are big-endian strings that have to fit the
field.  An entity that the switch cannot decode, or that exists already, has no effect.
-/

namespace ScionInt

open Wire

/-! ### Messages -/

/-- `p4::v1::FieldMatch` with an exact value. -/
structure FieldMatch where
  fieldId : ℕ
  exact : List Byte
deriving DecidableEq

/-- `p4::v1::Action::Param` -/
structure Param where
  paramId : ℕ
  value : List Byte
deriving DecidableEq

/-- `p4::v1::Action` -/
structure Action where
  actionId : BitVec 32
  params : List Param := []
deriving DecidableEq

/-- `p4::v1::TableEntry` -/
structure TableEntry where
  tableId : BitVec 32
  fieldMatches : List FieldMatch
  action : Option Action
deriving DecidableEq

/-- `p4::v1::CloneSessionEntry` -/
structure CloneSessionEntry where
  sessionId : BitVec 32
  replicas : List Replica
deriving DecidableEq

/-- `p4::v1::MulticastGroupEntry` -/
structure MulticastGroupEntry where
  multicastGroupId : BitVec 32
  replicas : List Replica
deriving DecidableEq

/-- `p4::v1::DigestEntry` -/
structure DigestEntry where
  digestId : BitVec 32
  maxTimeoutNs : ℕ
  maxListSize : ℕ
  ackTimeoutNs : ℕ
deriving DecidableEq

/-- `p4::v1::Entity` -/
inductive Entity where
  | tableEntry (entry : TableEntry)
  | cloneSessionEntry (entry : CloneSessionEntry)
  | multicastGroupEntry (entry : MulticastGroupEntry)
  | digestEntry (entry : DigestEntry)
deriving DecidableEq

/-! ### Identifiers -/

def ACTION_NONE : BitVec 32 := 0x01000001
def ACTION_LEARN_SOURCE : BitVec 32 := 0x01001001
def ACTION_FORWARD : BitVec 32 := 0x01001002
def ACTION_FLOOD : BitVec 32 := 0x01001003
def TABLE_LEARN : BitVec 32 := 0x02001001
def TABLE_FORWARD : BitVec 32 := 0x02001002

def ACTION_INSERT_INT : BitVec 32 := 0x01002001
def ACTION_CLONE_INT : BitVec 32 := 0x01002002
def ACTION_INSERT_NODE_ID : BitVec 32 := 0x01002003
def ACTION_INSERT_TX_UTIL : BitVec 32 := 0x01002004
def ACTION_INSERT_AS_ADDR : BitVec 32 := 0x01002005
def TABLE_SCION_INT : BitVec 32 := 0x02002001
def TABLE_INT_NODE_ID : BitVec 32 := 0x02002002
def TABLE_INT_TX_UTIL : BitVec 32 := 0x02002003
def TABLE_INT_AS_ADDR : BitVec 32 := 0x02002004

/-! ### The switch -/

/-- A value for a field of `w` bits. -/
def decodeValue (w : ℕ) (bytes : List Byte) : Option (BitVec w) :=
  if ofBytes bytes < 2 ^ w then some (BitVec.ofNat w (ofBytes bytes)) else none

/-- The value of a match field of `w` bits. -/
def TableEntry.key (e : TableEntry) (fieldId w : ℕ) : Option (BitVec w) := do
  let m ← e.fieldMatches.find? (·.fieldId = fieldId)
  decodeValue w m.exact

/-- The value of a parameter of `w` bits. -/
def Action.param (a : Action) (paramId w : ℕ) : Option (BitVec w) := do
  let p ← a.params.find? (·.paramId = paramId)
  decodeValue w p.value

theorem TableEntry.key_cons (tableId : BitVec 32) (m : FieldMatch) (ms : List FieldMatch)
    (a : Option Action) (fieldId w : ℕ) :
    (TableEntry.mk tableId (m :: ms) a).key fieldId w =
      if m.fieldId = fieldId then decodeValue w m.exact
      else (TableEntry.mk tableId ms a).key fieldId w := by
  simp only [TableEntry.key, List.find?_cons]
  by_cases h : m.fieldId = fieldId
  · simp [h]
  · simp [h]

theorem Action.param_cons (actionId : BitVec 32) (p : Param) (ps : List Param) (paramId w : ℕ) :
    (Action.mk actionId (p :: ps)).param paramId w =
      if p.paramId = paramId then decodeValue w p.value
      else (Action.mk actionId ps).param paramId w := by
  simp only [Action.param, List.find?_cons]
  by_cases h : p.paramId = paramId
  · simp [h]
  · simp [h]

namespace TableEntry

def scionInt (e : TableEntry) : Option ((BitVec 16 × BitVec 48) × ScionIntAction) := do
  let dstISD ← e.key 1 16
  let dstAS ← e.key 2 48
  let action ← e.action
  if action.actionId = ACTION_INSERT_INT then
    let instructionBits ← action.param 1 16
    let domainBits ← action.param 2 16
    some ((dstISD, dstAS), .insert_int instructionBits domainBits)
  else if action.actionId = ACTION_CLONE_INT then some ((dstISD, dstAS), .clone_int)
  else none

def intNodeId (e : TableEntry) : Option (BitVec 1 × IntNodeIdAction) := do
  let intNodeID ← e.key 1 1
  let action ← e.action
  if action.actionId = ACTION_INSERT_NODE_ID then
    let nodeID ← action.param 1 32
    some (intNodeID, .insert_int_node_id nodeID)
  else none

def intTxUtil (e : TableEntry) : Option ((BitVec 1 × BitVec 9) × IntEgIfUtilAction) := do
  let intEgIfUtil ← e.key 1 1
  let egressPort ← e.key 2 9
  let action ← e.action
  if action.actionId = ACTION_INSERT_TX_UTIL then
    let txUtil ← action.param 1 32
    some ((intEgIfUtil, egressPort), .insert_int_eg_if_util txUtil)
  else none

def sciAsAddr (e : TableEntry) : Option (BitVec 1 × SciAsAddrAction) := do
  let sciAsAddr ← e.key 1 1
  let action ← e.action
  if action.actionId = ACTION_INSERT_AS_ADDR then
    let asAddr ← action.param 1 64
    some (sciAsAddr, .insert_sci_as_addr asAddr)
  else none

def learn (e : TableEntry) : Option (BitVec 48 × LearnAction) := do
  let srcAddr ← e.key 1 48
  let action ← e.action
  if action.actionId = ACTION_NONE then some (srcAddr, .no_action)
  else if action.actionId = ACTION_LEARN_SOURCE then some (srcAddr, .learn_source)
  else none

def forward (e : TableEntry) : Option (BitVec 48 × ForwardAction) := do
  let dstAddr ← e.key 1 48
  let action ← e.action
  if action.actionId = ACTION_FORWARD then
    let port ← action.param 1 9
    some (dstAddr, .forward port)
  else if action.actionId = ACTION_FLOOD then some (dstAddr, .flood)
  else none

variable {key port value : List Byte} {flag : BitVec 1} {egressPort : BitVec 9} {mac : BitVec 48}

theorem intNodeId_mk {nodeID : BitVec 32} (hkey : decodeValue 1 key = some flag)
    (hvalue : decodeValue 32 value = some nodeID) :
    (TableEntry.mk TABLE_INT_NODE_ID [⟨1, key⟩]
      (some ⟨ACTION_INSERT_NODE_ID, [⟨1, value⟩]⟩)).intNodeId =
        some (flag, .insert_int_node_id nodeID) := by
  rw [intNodeId, key_cons, if_pos rfl, hkey]
  simp only [Option.bind_eq_bind, Option.bind_some]
  rw [if_pos trivial, Action.param_cons, if_pos rfl, hvalue]
  rfl

theorem intTxUtil_mk {txUtil : BitVec 32} (hkey : decodeValue 1 key = some flag)
    (hport : decodeValue 9 port = some egressPort) (hvalue : decodeValue 32 value = some txUtil) :
    (TableEntry.mk TABLE_INT_TX_UTIL [⟨1, key⟩, ⟨2, port⟩]
      (some ⟨ACTION_INSERT_TX_UTIL, [⟨1, value⟩]⟩)).intTxUtil =
        some ((flag, egressPort), .insert_int_eg_if_util txUtil) := by
  rw [intTxUtil, key_cons, if_pos rfl, hkey, key_cons, if_neg (by simp), key_cons, if_pos rfl, hport]
  simp only [Option.bind_eq_bind, Option.bind_some]
  rw [if_pos trivial, Action.param_cons, if_pos rfl, hvalue]
  rfl

theorem sciAsAddr_mk {asAddr : BitVec 64} (hkey : decodeValue 1 key = some flag)
    (hvalue : decodeValue 64 value = some asAddr) :
    (TableEntry.mk TABLE_INT_AS_ADDR [⟨1, key⟩]
      (some ⟨ACTION_INSERT_AS_ADDR, [⟨1, value⟩]⟩)).sciAsAddr =
        some (flag, .insert_sci_as_addr asAddr) := by
  rw [sciAsAddr, key_cons, if_pos rfl, hkey]
  simp only [Option.bind_eq_bind, Option.bind_some]
  rw [if_pos trivial, Action.param_cons, if_pos rfl, hvalue]
  rfl

theorem learn_mk (hkey : decodeValue 48 key = some mac) :
    (TableEntry.mk TABLE_LEARN [⟨1, key⟩] (some ⟨ACTION_NONE, []⟩)).learn = some (mac, .no_action) := by
  rw [learn, key_cons, if_pos rfl, hkey]
  simp only [Option.bind_eq_bind, Option.bind_some]
  rw [if_pos trivial]

theorem forward_mk (hkey : decodeValue 48 key = some mac) (hvalue : decodeValue 9 value = some egressPort) :
    (TableEntry.mk TABLE_FORWARD [⟨1, key⟩] (some ⟨ACTION_FORWARD, [⟨1, value⟩]⟩)).forward =
      some (mac, .forward egressPort) := by
  rw [forward, key_cons, if_pos rfl, hkey]
  simp only [Option.bind_eq_bind, Option.bind_some]
  rw [if_pos trivial, Action.param_cons, if_pos rfl, hvalue]
  rfl

end TableEntry

/-- INSERT of a decoded entry. -/
def insertDecoded {K A : Type} [DecidableEq K] (t : Table K A) : Option (K × A) → Table K A
  | some (k, a) => t.insert k a
  | none => t

namespace Switch

/-- INSERT of a table entry. -/
def insertTableEntry (sw : Switch) (e : TableEntry) : Switch :=
  if e.tableId = TABLE_SCION_INT then
    { sw with scionInt := insertDecoded sw.scionInt e.scionInt }
  else if e.tableId = TABLE_INT_NODE_ID then
    { sw with egress.intNodeIdTable := insertDecoded sw.egress.intNodeIdTable e.intNodeId }
  else if e.tableId = TABLE_INT_TX_UTIL then
    { sw with egress.intEgIfUtilTable := insertDecoded sw.egress.intEgIfUtilTable e.intTxUtil }
  else if e.tableId = TABLE_INT_AS_ADDR then
    { sw with egress.sciAsAddrTable := insertDecoded sw.egress.sciAsAddrTable e.sciAsAddr }
  else if e.tableId = TABLE_LEARN then
    { sw with l2.learnTable := insertDecoded sw.l2.learnTable e.learn }
  else if e.tableId = TABLE_FORWARD then
    { sw with l2.forwardTable := insertDecoded sw.l2.forwardTable e.forward }
  else sw

section

variable (sw : Switch) {e : TableEntry}

theorem insertTableEntry_scionInt (h : e.tableId = TABLE_SCION_INT) : sw.insertTableEntry e =
    { sw with scionInt := insertDecoded sw.scionInt e.scionInt } := if_pos h

theorem insertTableEntry_intNodeId (h : e.tableId = TABLE_INT_NODE_ID) : sw.insertTableEntry e =
    { sw with egress.intNodeIdTable := insertDecoded sw.egress.intNodeIdTable e.intNodeId } := by
  rw [insertTableEntry, h, if_neg (show TABLE_INT_NODE_ID ≠ TABLE_SCION_INT by decide), if_pos rfl]

theorem insertTableEntry_intTxUtil (h : e.tableId = TABLE_INT_TX_UTIL) : sw.insertTableEntry e =
    { sw with egress.intEgIfUtilTable := insertDecoded sw.egress.intEgIfUtilTable e.intTxUtil } := by
  rw [insertTableEntry, h, if_neg (show TABLE_INT_TX_UTIL ≠ TABLE_SCION_INT by decide),
    if_neg (show TABLE_INT_TX_UTIL ≠ TABLE_INT_NODE_ID by decide), if_pos rfl]

theorem insertTableEntry_sciAsAddr (h : e.tableId = TABLE_INT_AS_ADDR) : sw.insertTableEntry e =
    { sw with egress.sciAsAddrTable := insertDecoded sw.egress.sciAsAddrTable e.sciAsAddr } := by
  rw [insertTableEntry, h, if_neg (show TABLE_INT_AS_ADDR ≠ TABLE_SCION_INT by decide),
    if_neg (show TABLE_INT_AS_ADDR ≠ TABLE_INT_NODE_ID by decide),
    if_neg (show TABLE_INT_AS_ADDR ≠ TABLE_INT_TX_UTIL by decide), if_pos rfl]

theorem insertTableEntry_learn (h : e.tableId = TABLE_LEARN) : sw.insertTableEntry e =
    { sw with l2.learnTable := insertDecoded sw.l2.learnTable e.learn } := by
  rw [insertTableEntry, h, if_neg (show TABLE_LEARN ≠ TABLE_SCION_INT by decide),
    if_neg (show TABLE_LEARN ≠ TABLE_INT_NODE_ID by decide),
    if_neg (show TABLE_LEARN ≠ TABLE_INT_TX_UTIL by decide),
    if_neg (show TABLE_LEARN ≠ TABLE_INT_AS_ADDR by decide), if_pos rfl]

theorem insertTableEntry_forward (h : e.tableId = TABLE_FORWARD) : sw.insertTableEntry e =
    { sw with l2.forwardTable := insertDecoded sw.l2.forwardTable e.forward } := by
  rw [insertTableEntry, h, if_neg (show TABLE_FORWARD ≠ TABLE_SCION_INT by decide),
    if_neg (show TABLE_FORWARD ≠ TABLE_INT_NODE_ID by decide),
    if_neg (show TABLE_FORWARD ≠ TABLE_INT_TX_UTIL by decide),
    if_neg (show TABLE_FORWARD ≠ TABLE_INT_AS_ADDR by decide),
    if_neg (show TABLE_FORWARD ≠ TABLE_LEARN by decide), if_pos rfl]

end

/-- INSERT of a multicast group; `mcast_grp` has 16 bits. -/
def insertMulticastGroup (sw : Switch) (e : MulticastGroupEntry) : Switch :=
  if e.multicastGroupId.toNat < 2 ^ 16 then
    { sw with mcastGroups := sw.mcastGroups.insert (e.multicastGroupId.setWidth 16) e.replicas }
  else sw

/-- INSERT of an entity.  A digest entry concerns the P4Runtime server only. -/
def insert (sw : Switch) : Entity → Switch
  | .tableEntry e => sw.insertTableEntry e
  | .cloneSessionEntry e =>
    { sw with cloneSessions := sw.cloneSessions.insert e.sessionId e.replicas }
  | .multicastGroupEntry e => sw.insertMulticastGroup e
  | .digestEntry _ => sw

/-- A write request that inserts entities. -/
def write (sw : Switch) (request : List Entity) : Switch := request.foldl insert sw

end Switch

end ScionInt
