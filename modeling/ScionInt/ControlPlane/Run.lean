import ScionInt.ControlPlane.Arbitration
import ScionInt.ControlPlane.IntController

/-!
# `ControlPlane::run`

`ControlPlane` reads one message of the stream after the other and hands it to its controllers: an
arbitration update to all of them from bottom to top, any other message from top to bottom until one of
them returns `true`.  What the handlers ask of the switch and of the receivers of the reports is returned
as a list of requests.  An exception and a division by zero end the process.  Two other ends are not
modelled: a read outside the payload returns a zero byte (`Scan`) and does not fault, and the requests
succeed, so that `produce` of the Kafka library does not throw.
-/

namespace ScionInt

open Wire Wire.Scan

/-! ### Messages and requests -/

/-- `p4::v1::StreamMessageResponse` by its `update_case()`, with what the handlers read of it. -/
inductive StreamMessage where
  | arbitration (arbUpdate : ArbitrationUpdate)
  | packet (payload : List Byte)
  | digest (digestList : DigestList)
  | idleTimeoutNotification
  | error
  | other

/-- What a handler does.  A write request is the list of its updates. -/
inductive Request where
  | setPipelineConfig (accepted : Bool)
  | insert (entity : Entity)
  | ackDigestList (digestId : BitVec 32) (listId : BitVec 64)
  | send (report : IntController.Published)

/-- How the process ends while the stream is open. -/
inductive Exit where
  | exception (what : String)
  | divisionByZero
deriving DecidableEq

/-- What a handler returns, and its requests. -/
abbrev Handled := Except Exit (Bool × List Request)

/-! ### The controllers -/

/-- `Controller`; a handler that is not overridden returns `false`. -/
structure Controller where
  handleArbitrationUpdate : ArbitrationUpdate → List Request := fun _ => []
  handlePacketIn : List Byte → Handled := fun _ => .ok (false, [])
  handleDigest : DigestList → Handled := fun _ => .ok (false, [])
  handleIdleTimeout : Handled := .ok (false, [])
  handleError : Handled := .ok (false, [])

/-- `DefaultController`, which prints every message that reaches it. -/
def DefaultController.controller : Controller where
  handlePacketIn _ := .ok (true, [])
  handleDigest _ := .ok (true, [])
  handleIdleTimeout := .ok (true, [])
  handleError := .ok (true, [])

/-- The updates of the write requests of an election. -/
def MacLearningCtrl.updates (macLearnDigestId : BitVec 32) (code : ℕ) : List Entity :=
  (handleArbitrationUpdate macLearnDigestId code).flatten

def MacLearningCtrl.controller (macLearnDigestId : BitVec 32) : Controller where
  handleArbitrationUpdate arbUpdate := (updates macLearnDigestId arbUpdate.code).map .insert
  handleDigest digestList :=
    match handleDigest macLearnDigestId digestList with
    | .error what => .error (.exception what)
    | .ok none => .ok (false, [])
    | .ok (some reply) =>
      .ok (true, reply.request.map .insert ++ [.ackDigestList reply.ackDigestId reply.ackListId])

/-- The updates of the write requests of an election. -/
def IntController.updates (c : Config) (code : ℕ) : List Entity :=
  if code = 0 then (installStaticTableEntries c ++ configCloneSession).flatten else []

/-- `handlePacketIn` returns `true` also if the report cannot be sent. -/
def IntController.controller (c : Config) : Controller where
  handleArbitrationUpdate arbUpdate := (updates c arbUpdate.code).map .insert
  handlePacketIn payload :=
    match result (handlePacketIn c.nodeID) payload with
    | .ok report => .ok (true, [.send report])
    | .error .rejected => .ok (false, [])
    | .error .divisionByZero => .error .divisionByZero

/-! ### The loop -/

namespace ControlPlane

/-- The loop over the controllers with `break` behind the first one that returns `true`. -/
def firstHandled (handle : Controller → Handled) : List Controller → Except Exit (List Request)
  | [] => .ok []
  | ctrl :: ctrls => do
    let (handled, requests) ← handle ctrl
    if handled then pure requests
    else
      let others ← firstHandled handle ctrls
      pure (requests ++ others)

/-- The body of the loop of `run`; `ctrls` is the stack from bottom to top. -/
def handle (ctrls : List Controller) : StreamMessage → Except Exit (List Request)
  | .arbitration arbUpdate =>
    .ok ((if arbUpdate.code = 0 then [.setPipelineConfig arbUpdate.pipelineSet] else []) ++
      ctrls.flatMap fun ctrl => ctrl.handleArbitrationUpdate arbUpdate)
  | .packet payload => firstHandled (fun ctrl => ctrl.handlePacketIn payload) ctrls.reverse
  | .digest digestList => firstHandled (fun ctrl => ctrl.handleDigest digestList) ctrls.reverse
  | .idleTimeoutNotification => firstHandled (fun ctrl => ctrl.handleIdleTimeout) ctrls.reverse
  | .error => firstHandled (fun ctrl => ctrl.handleError) ctrls.reverse
  | .other => .ok []

/-- The stack of `int_switch`. -/
def intSwitchCtrls (macLearnDigestId : BitVec 32) (c : IntController.Config) : List Controller :=
  [DefaultController.controller, MacLearningCtrl.controller macLearnDigestId, IntController.controller c]

section

variable (macLearnDigestId : BitVec 32) (c : IntController.Config)

theorem reverse_intSwitchCtrls : (intSwitchCtrls macLearnDigestId c).reverse =
    [IntController.controller c, MacLearningCtrl.controller macLearnDigestId,
      DefaultController.controller] := rfl

/-- The pipeline and then the updates of the two controllers that have any. -/
theorem handle_arbitration (arbUpdate : ArbitrationUpdate) :
    handle (intSwitchCtrls macLearnDigestId c) (.arbitration arbUpdate) =
      .ok ((if arbUpdate.code = 0 then [.setPipelineConfig arbUpdate.pipelineSet] else []) ++
        (MacLearningCtrl.updates macLearnDigestId arbUpdate.code ++
          IntController.updates c arbUpdate.code).map .insert) := by
  rw [handle, intSwitchCtrls, List.flatMap_cons, List.flatMap_cons, List.flatMap_singleton,
    List.map_append]
  rfl

/-- A packet-in that `IntController` rejects goes down to `DefaultController`. -/
theorem handle_packet (payload : List Byte) :
    handle (intSwitchCtrls macLearnDigestId c) (.packet payload) =
      match result (IntController.handlePacketIn c.nodeID) payload with
      | .ok report => .ok [.send report]
      | .error .rejected => .ok []
      | .error .divisionByZero => .error .divisionByZero := by
  rw [handle, reverse_intSwitchCtrls, firstHandled, IntController.controller]
  dsimp only
  split
  · rfl
  · rfl
  · rfl

/-- A digest list for another digest goes down to `DefaultController`. -/
theorem handle_digest (digestList : DigestList) :
    handle (intSwitchCtrls macLearnDigestId c) (.digest digestList) =
      match MacLearningCtrl.handleDigest macLearnDigestId digestList with
      | .error what => .error (.exception what)
      | .ok none => .ok []
      | .ok (some reply) => .ok (reply.request.map .insert ++
          [.ackDigestList reply.ackDigestId reply.ackListId]) := by
  have hint : (IntController.controller c).handleDigest digestList = .ok (false, []) := rfl
  rw [handle, reverse_intSwitchCtrls, firstHandled, hint, firstHandled, MacLearningCtrl.controller]
  dsimp only
  split
  · rfl
  · rfl
  · rfl

end

end ControlPlane

end ScionInt
