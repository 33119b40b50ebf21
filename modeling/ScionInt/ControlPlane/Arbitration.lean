import ScionInt.ControlPlane.MacLearn

/-!
# `ControlPlane::handleArbitrationUpdate`

When the primary controller of the switch changes, `ControlPlane` sets the pipeline if it has been elected
itself, and then the controllers of its stack handle the update from bottom to top: `DefaultController`,
which does nothing, `MacLearningCtrl` and `IntController`.
-/

namespace ScionInt

/-- An arbitration update, and whether the switch accepts the pipeline configuration that follows it. -/
structure ArbitrationUpdate where
  code : ℕ
  pipelineSet : Bool

/-- `SwitchConnection::setPipelineConfig`: a switch that accepts the configuration loses all entries. -/
def SwitchConnection.setPipelineConfig (accepted : Bool) (sw : Switch) : Switch :=
  if accepted then {} else sw

namespace ControlPlane

def handleArbitrationUpdate (arbUpdate : ArbitrationUpdate) (sw : Switch) : Switch :=
  if arbUpdate.code = 0 then SwitchConnection.setPipelineConfig arbUpdate.pipelineSet sw else sw

/-- The case `kArbitration` of `ControlPlane::run`. -/
def arbitration (macLearnDigestId : BitVec 32) (c : IntController.Config) (sw : Switch)
    (arbUpdate : ArbitrationUpdate) : Switch :=
  IntController.handleArbitrationUpdate c arbUpdate.code
    ((MacLearningCtrl.handleArbitrationUpdate macLearnDigestId arbUpdate.code).foldl Switch.write
      (handleArbitrationUpdate arbUpdate sw))

end ControlPlane

end ScionInt
