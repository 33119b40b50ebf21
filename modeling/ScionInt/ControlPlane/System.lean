import ScionInt.ControlPlane.Run
import ScionInt.DataPlane.Switch

/-!
# The switch under its controller

`System` puts `int_switch` and the data plane together.  Frames arrive at any time, also between two
updates of a write request.  The copies that leave on the CPU port become packet-ins, which the controller
reads in their order, unless they are lost on the way; the messages for `MacLearningCtrl` come to it in
digest lists.  The controller handles a message only when the switch has answered all requests of the
earlier ones.

A run begins with the first election after which the switch accepts the pipeline.  Later the controller may
be told of any further elections, and the switch may refuse the pipeline; that no other controller writes
entries, and that the host does not send frames through the CPU port, is assumed.  So is, as in
`ControlPlane.run`, that a read outside the payload of a packet-in returns a byte, which is taken to be
zero, and that sending a report to Kafka does not throw.
-/

namespace ScionInt

open Wire

/-- A received frame, the state of the switch when it arrived, and the messages for the controller that it
caused. -/
structure Reception where
  switch : Switch
  arrival : Arrival
  digests : List MacLearnMsgT

/-- The payloads of the packet-ins for a frame. -/
def Switch.packetIns (sw : Switch) (a : Arrival) : List (List Byte) :=
  ((sw.process a).filter fun c => c.stdMeta.egressPort = CPU_PORT).map Packet.wire

/-- The state of the switch and of its P4Runtime server, the updates that the controller waits for, the
frames received, the packet-ins on the way to the controller and the number of those that were lost; then
what the controller has done: the packet-ins handled, the messages in the digest lists handled since the
pipeline was set, the reports, and how it has ended. -/
structure System where
  switch : Switch := {}
  digestEntries : Table (BitVec 32) DigestEntry := {}
  updates : List Entity := []
  history : List Reception := []
  packetIns : List (List Byte) := []
  lost : ℕ := 0
  handled : List (List Byte) := []
  learned : List MacLearnMsgT := []
  reports : List IntController.Published := []
  exit : Option Exit := none

namespace System

/-- A message has been reported in a digest. -/
def Reported (s : System) (m : MacLearnMsgT) : Prop := ∃ r ∈ s.history, m ∈ r.digests

/-- A frame arrives. -/
def receive (macLearnDigestId : BitVec 32) (s : System) (a : Arrival) : System :=
  let digests := if (s.digestEntries.lookup macLearnDigestId).isSome then (s.switch.ingress a).digests
    else []
  { s with
    history := s.history ++ [⟨s.switch, a, digests⟩]
    packetIns := s.packetIns ++ s.switch.packetIns a }

/-- The switch applies an update. -/
def insert (s : System) (e : Entity) : System :=
  { s with
    switch := s.switch.insert e
    digestEntries := match e with
      | .digestEntry d => s.digestEntries.insert d.digestId d
      | _ => s.digestEntries }

/-- A request of a handler.  Updates wait until the switch applies them. -/
def request (s : System) : Request → System
  | .setPipelineConfig accepted =>
    { s with
      switch := SwitchConnection.setPipelineConfig accepted s.switch
      digestEntries := if accepted then {} else s.digestEntries
      learned := if accepted then [] else s.learned }
  | .insert entity => { s with updates := s.updates ++ [entity] }
  | .ackDigestList _ _ => s
  | .send report => { s with reports := s.reports ++ [report] }

/-- The controller handles a message. -/
def handle (macLearnDigestId : BitVec 32) (c : IntController.Config) (s : System) (msg : StreamMessage) :
    System :=
  match ControlPlane.handle (ControlPlane.intSwitchCtrls macLearnDigestId c) msg with
  | .ok requests => requests.foldl request s
  | .error exit => { s with exit := some exit }

/-- A step of the switch or of its controller. -/
inductive Step (macLearnDigestId : BitVec 32) (c : IntController.Config) : System → System → Prop
  /-- A frame arrives at the data plane. -/
  | receive (s : System) {a : Arrival} (hport : a.ingressPort ≠ CPU_PORT) :
    Step macLearnDigestId c s (s.receive macLearnDigestId a)
  /-- A packet-in is lost. -/
  | lose {s : System} {before after : List (List Byte)} {payload : List Byte}
    (hpacketIns : s.packetIns = before ++ payload :: after) :
    Step macLearnDigestId c s { s with packetIns := before ++ after, lost := s.lost + 1 }
  /-- The switch applies the next update. -/
  | update {s : System} {e : Entity} {es : List Entity} (hupdates : s.updates = e :: es) :
    Step macLearnDigestId c s { s.insert e with updates := es }
  /-- The controller handles a packet-in. -/
  | packetIn {s : System} {payload : List Byte} {after : List (List Byte)} (hidle : s.updates = [])
    (hrunning : s.exit = none) (hpacketIns : s.packetIns = payload :: after) :
    Step macLearnDigestId c s
      ({ s with packetIns := after, handled := s.handled ++ [payload] }.handle macLearnDigestId c
        (.packet payload))
  /-- The controller handles a digest list.  It may contain any messages that have been reported, in any
  order and any number of times. -/
  | digest {s : System} {digestList : DigestList} {msgs : List MacLearnMsgT} (hidle : s.updates = [])
    (hrunning : s.exit = none) (hid : digestList.digestId = macLearnDigestId)
    (hreported : ∀ m ∈ msgs, s.Reported m)
    (hdata : List.Forall₂ LearningState.Encodes digestList.data msgs) :
    Step macLearnDigestId c s
      ({ s with learned := s.learned ++ msgs }.handle macLearnDigestId c (.digest digestList))
  /-- The controller is told of an election. -/
  | arbitration {s : System} (hidle : s.updates = []) (hrunning : s.exit = none)
    (arbUpdate : ArbitrationUpdate) :
    Step macLearnDigestId c s (s.handle macLearnDigestId c (.arbitration arbUpdate))
  /-- The controller handles a message of another kind. -/
  | other {s : System} {msg : StreamMessage} (hidle : s.updates = []) (hrunning : s.exit = none)
    (hmsg : msg = .idleTimeoutNotification ∨ msg = .error ∨ msg = .other) :
    Step macLearnDigestId c s (s.handle macLearnDigestId c msg)

/-- The controller has become master, and the switch has accepted the pipeline. -/
def start (macLearnDigestId : BitVec 32) (c : IntController.Config) : System :=
  handle macLearnDigestId c {} (.arbitration ⟨0, true⟩)

def Reachable (macLearnDigestId : BitVec 32) (c : IntController.Config) : System → Prop :=
  Relation.ReflTransGen (Step macLearnDigestId c) (start macLearnDigestId c)

end System

end ScionInt
