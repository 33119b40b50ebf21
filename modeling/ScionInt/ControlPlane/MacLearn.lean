import ScionInt.ControlPlane.StaticEntries

/-!
# `MacLearningCtrl`

A simple controller for L2 MAC learning without aging or support for moving a MAC from one port to
another.  When it becomes master it installs a multicast group for every port, a `learn_table` entry for
the broadcast address and the digest; for every message of a digest list it inserts one entry into
`learn_table` and one into `forward_table`.

`LearningState` puts the controller and the switch together.  The controller is sequential and a write
request is synchronous, so that it handles a digest list only when all updates of its earlier requests
have been applied; but frames arrive at any time, also between two updates of a request.
-/

namespace ScionInt

open Wire

def NUM_SWITCH_PORTS : ℕ := 8
def MAC_ADDR_BYTES : ℕ := 6

/-! ### Digests -/

/-- `p4::v1::P4Data`, as far as digests consist of it. -/
inductive P4Data where
  | bitstring (bytes : List Byte)
  | struct (members : List P4Data)

/-- `bitstring()`; empty if the data is something else. -/
def P4Data.bytes : P4Data → List Byte
  | .bitstring bytes => bytes
  | .struct _ => []

/-- `p4::v1::DigestList` -/
structure DigestList where
  digestId : BitVec 32
  listId : BitVec 64
  data : List P4Data

/-- What the controller sends on a digest list: the updates of a write request and, in this order, the
digest and the list that it acknowledges. -/
structure DigestReply where
  request : List Entity
  ackDigestId : BitVec 32
  ackListId : BitVec 64

namespace MacLearningCtrl

/-! ### Entities -/

def buildLearnTableEntry (mac : BitVec 64) : Entity :=
  .tableEntry {
    tableId := TABLE_LEARN
    fieldMatches := [⟨1, toBitstring MAC_ADDR_BYTES mac⟩]
    action := some { actionId := ACTION_NONE } }

def buildForwardTableEntry (mac : BitVec 64) (outPort : BitVec 32) : Entity :=
  .tableEntry {
    tableId := TABLE_FORWARD
    fieldMatches := [⟨1, toBitstring MAC_ADDR_BYTES mac⟩]
    action := some {
      actionId := ACTION_FORWARD
      params := [⟨1, toBitstring PORT_BYTES outPort⟩] } }

def buildFloodMcastGrpEntity (id exclude : BitVec 32) : Entity :=
  .multicastGroupEntry {
    multicastGroupId := id
    replicas := (((List.range NUM_SWITCH_PORTS).map (BitVec.ofNat 32)).filter (· ≠ exclude)).mapIdx
      fun inst i => { egressPort := i.setWidth 9, inst := BitVec.ofNat 16 inst } }

def buildDigestEntity (digestId : BitVec 32) : Entity :=
  .digestEntry {
    digestId := digestId
    maxTimeoutNs := 0
    maxListSize := 1
    ackTimeoutNs := 1000 * 1000 }

/-! ### Handlers -/

def createFloodMulticastGroup : List Entity :=
  (List.range NUM_SWITCH_PORTS).map fun i =>
    buildFloodMcastGrpEntity (BitVec.ofNat 32 i + 1) (BitVec.ofNat 32 i)

def installStaticTableEntries : List Entity := [buildLearnTableEntry 0xFFFFFFFFFFFF]

def configDigestMessages (macLearnDigestId : BitVec 32) : List Entity :=
  [buildDigestEntity macLearnDigestId]

/-- The write requests of `handleArbitrationUpdate` on an update with the given status code. -/
def handleArbitrationUpdate (macLearnDigestId : BitVec 32) (code : ℕ) : List (List Entity) :=
  if code = 0 then
    [createFloodMulticastGroup, installStaticTableEntries, configDigestMessages macLearnDigestId]
  else []

/-- The updates for a learned address. -/
def learnUpdates (srcMac : BitVec 64) (ingressPort : BitVec 32) : List Entity :=
  [buildLearnTableEntry srcMac, buildForwardTableEntry srcMac ingressPort]

/-- The body of the loop over the digests. -/
def handleData : P4Data → Except String (List Entity)
  | .struct [srcAddr, ingressPort] =>
    .ok (learnUpdates (fromBitstring MAC_ADDR_BYTES srcAddr.bytes)
      (fromBitstring PORT_BYTES ingressPort.bytes))
  | _ => .error "Invalid digest format"

/-- `handleDigest`: no reply if the digest is not the one for learning; an exception on a digest of
another format. -/
def handleDigest (macLearnDigestId : BitVec 32) (digestList : DigestList) :
    Except String (Option DigestReply) :=
  if digestList.digestId = macLearnDigestId then do
    let updates ← digestList.data.mapM handleData
    pure (some {
      request := updates.flatten
      ackDigestId := digestList.digestId
      ackListId := digestList.listId })
  else pure none

end MacLearningCtrl

/-! ### The switch and its controller -/

/-- A switch with a learning controller: the entries of the switch and of its P4Runtime server, the
updates of the controller that are still to be applied, the frames received so far with the messages
that they caused, and the messages in the digest lists handled since the pipeline was set. -/
structure LearningState where
  switch : Switch := {}
  digestEntries : Table (BitVec 32) DigestEntry := {}
  pending : List Entity := []
  history : List (Arrival × List MacLearnMsgT) := []
  handled : List MacLearnMsgT := []

namespace LearningState

/-- A message has been reported in a digest. -/
def Reported (s : LearningState) (m : MacLearnMsgT) : Prop := ∃ r ∈ s.history, m ∈ r.2

/-- The switch applies an update. -/
def insert (s : LearningState) (e : Entity) : LearningState :=
  { s with
    switch := s.switch.insert e
    digestEntries := match e with
      | .digestEntry d => s.digestEntries.insert d.digestId d
      | _ => s.digestEntries }

def write (s : LearningState) (request : List Entity) : LearningState := request.foldl insert s

/-- A frame arrives.  Messages for which there is no digest entry do not leave the switch. -/
def receive (macLearnDigestId : BitVec 32) (s : LearningState) (a : Arrival) : LearningState :=
  { s with
    history := s.history ++ [(a,
      if (s.digestEntries.lookup macLearnDigestId).isSome then (s.switch.ingress a).digests
      else [])] }

/-- `ControlPlane::handleArbitrationUpdate`, which sets the pipeline and so removes all entries, and
`MacLearningCtrl::handleArbitrationUpdate`. -/
def handleArbitrationUpdate (macLearnDigestId : BitVec 32) (code : ℕ) (s : LearningState) :
    LearningState :=
  if code = 0 then
    { s with
      switch := {}
      digestEntries := {}
      pending := (MacLearningCtrl.handleArbitrationUpdate macLearnDigestId code).flatten
      handled := [] }
  else s

/-- The switch reports a message as a struct of two byte strings with the values of its members. -/
def Encodes (d : P4Data) (m : MacLearnMsgT) : Prop :=
  ∃ srcAddr ingressPort : List Byte, d = .struct [.bitstring srcAddr, .bitstring ingressPort] ∧
    ofBytes srcAddr = m.srcAddr.toNat ∧ ofBytes ingressPort = m.ingressPort.toNat

/-- A step that keeps the pipeline. -/
inductive Step (macLearnDigestId : BitVec 32) : LearningState → LearningState → Prop
  /-- A frame arrives at the data plane. -/
  | receive (s : LearningState) (a : Arrival) :
    Step macLearnDigestId s (s.receive macLearnDigestId a)
  /-- The controller handles a digest list.  It may contain any messages that have been reported, in any
  order and any number of times. -/
  | handleDigest {s : LearningState} {digestList : DigestList} {msgs : List MacLearnMsgT}
    {reply : DigestReply} (hidle : s.pending = []) (hreported : ∀ m ∈ msgs, s.Reported m)
    (hdata : List.Forall₂ Encodes digestList.data msgs)
    (hreply : MacLearningCtrl.handleDigest macLearnDigestId digestList = .ok (some reply)) :
    Step macLearnDigestId s { s with pending := reply.request, handled := s.handled ++ msgs }
  /-- The switch applies the next update of a request. -/
  | write {s : LearningState} {e : Entity} {es : List Entity} (hpending : s.pending = e :: es) :
    Step macLearnDigestId s { s.insert e with pending := es }
  /-- Another controller writes entries that do not concern the learning switch. -/
  | other (s : LearningState) {sw : Switch} (hl2 : sw.l2 = s.switch.l2)
    (hmcastGroups : sw.mcastGroups = s.switch.mcastGroups) :
    Step macLearnDigestId s { s with switch := sw }

/-- The states after the controller has become master for the first time. -/
inductive Reachable (macLearnDigestId : BitVec 32) : LearningState → Prop
  | start : Reachable macLearnDigestId (handleArbitrationUpdate macLearnDigestId 0 {})
  | step {s s' : LearningState} (h : Reachable macLearnDigestId s)
    (hstep : Step macLearnDigestId s s') : Reachable macLearnDigestId s'
  | arbitration {s : LearningState} (h : Reachable macLearnDigestId s) (hidle : s.pending = [])
    (code : ℕ) : Reachable macLearnDigestId (s.handleArbitrationUpdate macLearnDigestId code)

end LearningState

end ScionInt
