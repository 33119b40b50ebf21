import ScionInt.ControlPlane.System
import ScionInt.DataPlane.L2SwitchGrpc

/-!
# The learning switch under its controller

`l2_switch_grpc` runs `ControlPlane` with `DefaultController` and `MacLearningCtrl` on the learning switch.
The steps are those of `System`, except for the messages that `DefaultController` only prints.
-/

namespace ScionInt

open Wire

namespace ControlPlane

/-- The stack of `l2_switch_grpc`. -/
def l2SwitchCtrls (macLearnDigestId : BitVec 32) : List Controller :=
  [DefaultController.controller, MacLearningCtrl.controller macLearnDigestId]

end ControlPlane

namespace EthernetSwitch

/-- INSERT of an entity.  The program has no tables but the two of `L2Switch`. -/
def insert (sw : EthernetSwitch) : Entity → EthernetSwitch
  | .tableEntry e =>
    if e.tableId = TABLE_LEARN then { sw with l2.learnTable := insertDecoded sw.l2.learnTable e.learn }
    else if e.tableId = TABLE_FORWARD then
      { sw with l2.forwardTable := insertDecoded sw.l2.forwardTable e.forward }
    else sw
  | .multicastGroupEntry e =>
    if e.multicastGroupId.toNat < 2 ^ 16 then
      { sw with mcastGroups := sw.mcastGroups.insert (e.multicastGroupId.setWidth 16) e.replicas }
    else sw
  | .cloneSessionEntry _ | .digestEntry _ => sw

end EthernetSwitch

/-- A received frame, the state of the learning switch when it arrived, and the messages for the controller
that it caused. -/
structure EthernetReception where
  switch : EthernetSwitch
  arrival : Arrival
  digests : List MacLearnMsgT

/-- The state of the learning switch and of its P4Runtime server, the updates that the controller waits for,
the frames received, and the messages in the digest lists handled since the pipeline was set. -/
structure EthernetSystem where
  switch : EthernetSwitch := {}
  digestEntries : Table (BitVec 32) DigestEntry := {}
  updates : List Entity := []
  history : List EthernetReception := []
  learned : List MacLearnMsgT := []
  exit : Option Exit := none

namespace EthernetSystem

/-- A message has been reported in a digest. -/
def Reported (s : EthernetSystem) (m : MacLearnMsgT) : Prop := ∃ r ∈ s.history, m ∈ r.digests

/-- A frame arrives. -/
def receive (macLearnDigestId : BitVec 32) (s : EthernetSystem) (a : Arrival) : EthernetSystem :=
  let digests := if (s.digestEntries.lookup macLearnDigestId).isSome then (s.switch.ingress a).2 else []
  { s with history := s.history ++ [⟨s.switch, a, digests⟩] }

/-- The switch applies an update. -/
def insert (s : EthernetSystem) (e : Entity) : EthernetSystem :=
  { s with
    switch := s.switch.insert e
    digestEntries := match e with
      | .digestEntry d => s.digestEntries.insert d.digestId d
      | _ => s.digestEntries }

/-- A request of a handler. -/
def request (s : EthernetSystem) : Request → EthernetSystem
  | .setPipelineConfig accepted =>
    if accepted then { s with switch := {}, digestEntries := {}, learned := [] } else s
  | .insert entity => { s with updates := s.updates ++ [entity] }
  | .ackDigestList _ _ | .send _ => s

/-- The controller handles a message. -/
def handle (macLearnDigestId : BitVec 32) (s : EthernetSystem) (msg : StreamMessage) : EthernetSystem :=
  match ControlPlane.handle (ControlPlane.l2SwitchCtrls macLearnDigestId) msg with
  | .ok requests => requests.foldl request s
  | .error exit => { s with exit := some exit }

/-- A step of the switch or of its controller. -/
inductive Step (macLearnDigestId : BitVec 32) : EthernetSystem → EthernetSystem → Prop
  /-- A frame arrives at the data plane. -/
  | receive (s : EthernetSystem) {a : Arrival} (hport : a.ingressPort ≠ CPU_PORT) :
    Step macLearnDigestId s (s.receive macLearnDigestId a)
  /-- The switch applies the next update. -/
  | update {s : EthernetSystem} {e : Entity} {es : List Entity} (hupdates : s.updates = e :: es) :
    Step macLearnDigestId s { s.insert e with updates := es }
  /-- The controller handles a digest list with messages that have been reported. -/
  | digest {s : EthernetSystem} {digestList : DigestList} {msgs : List MacLearnMsgT}
    (hidle : s.updates = []) (hrunning : s.exit = none) (hid : digestList.digestId = macLearnDigestId)
    (hreported : ∀ m ∈ msgs, s.Reported m)
    (hdata : List.Forall₂ LearningState.Encodes digestList.data msgs) :
    Step macLearnDigestId s
      ({ s with learned := s.learned ++ msgs }.handle macLearnDigestId (.digest digestList))
  /-- The controller is told of an election. -/
  | arbitration {s : EthernetSystem} (hidle : s.updates = []) (hrunning : s.exit = none)
    (arbUpdate : ArbitrationUpdate) :
    Step macLearnDigestId s (s.handle macLearnDigestId (.arbitration arbUpdate))

/-- The controller has become master, and the switch has accepted the pipeline. -/
def start (macLearnDigestId : BitVec 32) : EthernetSystem :=
  handle macLearnDigestId {} (.arbitration ⟨0, true⟩)

def Reachable (macLearnDigestId : BitVec 32) : EthernetSystem → Prop :=
  Relation.ReflTransGen (Step macLearnDigestId) (start macLearnDigestId)

end EthernetSystem

end ScionInt
