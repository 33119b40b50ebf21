import ScionInt.ControlPlane.Equiv.Reported

/-!
# How the controller stops

No message of the switch makes a handler throw, but a frame for the host whose `hopML` is zero makes
`IntController` divide by zero.  `exit_iff`: nothing else stops the process, with reads outside the payload
and requests to the receivers as in `System`.  `stops`: in every run and from every state one more frame
does.
-/

namespace ScionInt

open Wire Wire.Scan

/-- The sample frame with INT headers for the payload, without a stack, to a destination; `hopML` is zero. -/
def emptyIntFrame (dst : BitVec 16 × BitVec 48) : ScionFrame :=
  { (sampleFrame.setPort UDP_PORT).addLen 12 with
    scionAddr := { sampleAddr with common := some ⟨dst.1, dst.2, 1, 0xff0000000111⟩ }
    addr_matches := ⟨rfl, sampleFrame.addr_matches.dst, sampleFrame.addr_matches.src⟩ }

theorem dst_emptyIntFrame (dst : BitVec 16 × BitVec 48) : (emptyIntFrame dst).dst = dst := rfl

/-- The frame on port 1. -/
def emptyIntArrival (dst : BitVec 16 × BitVec 48) : Arrival :=
  sampleArrival ((emptyIntFrame dst).emit ++ (emit (sourceShim 40001) ++ (emit (sourceMd 0 0) ++ [])))

namespace System

open IntController

variable {id : BitVec 32} {c : IntController.Config} {s s' : System}

/-- The process has stopped exactly if it has divided by zero. -/
theorem Reachable.exit_eq (h : Reachable id c s) :
    (∀ exit, s.exit = some exit → exit = .divisionByZero) ∧
    (s.exit ≠ none ↔
      ∃ payload ∈ s.handled, result (handlePacketIn c.nodeID) payload = .error .divisionByZero) := by
  refine h.invariant (P := fun s => (∀ exit, s.exit = some exit → exit = .divisionByZero) ∧
    (s.exit ≠ none ↔
      ∃ payload ∈ s.handled, result (handlePacketIn c.nodeID) payload = .error .divisionByZero)) ?_ ?_
  · refine ⟨fun exit hexit => ?_, ?_⟩
    · cases hexit
    · simp
  · rintro s s' - ⟨honly, hiff⟩ hstep
    cases hstep with
    | idle | receive | lose | update | learn | elected | refused => exact ⟨honly, hiff⟩
    | report hpacketIns hresult | reject hpacketIns hresult =>
      refine ⟨honly, hiff.trans ?_⟩
      simp only [List.mem_append, List.mem_singleton, or_and_right, exists_or, exists_eq_left, hresult,
        reduceCtorEq, or_false, Except.error.injEq]
    | stop hpacketIns hresult =>
      refine ⟨fun exit hexit => (Option.some.inj hexit).symm, ?_⟩
      exact iff_of_true (Option.some_ne_none _)
        ⟨_, List.mem_append_right _ (List.mem_singleton.mpr rfl), hresult⟩

/-- All packet-ins on the way can be lost. -/
theorem drain_packetIns (id : BitVec 32) (c : IntController.Config) (s : System) :
    ∃ s', Relation.ReflTransGen (Step id c) s s' ∧ s'.packetIns = [] ∧ s'.updates = s.updates ∧
      s'.history = s.history ∧ s'.exit = s.exit := by
  induction hpacketIns : s.packetIns generalizing s with
  | nil => exact ⟨s, .refl, hpacketIns, rfl, rfl, rfl⟩
  | cons payload after ih =>
    obtain ⟨s', hrun, hempty, hupdates, hhistory, hexit⟩ :=
      ih { s with packetIns := after, lost := s.lost + 1 } rfl
    have hfirst : s.packetIns = [] ++ payload :: after := hpacketIns
    exact ⟨s', .head (.lose hfirst) hrun, hempty, hupdates, hhistory, hexit⟩

/-- The frame is cloned when the configuration is installed, and its packet-in stops the controller. -/
theorem Reachable.packetIns_emptyIntArrival (h : Reachable id c s) (hidle : s.updates = []) :
    ∃ payload, s.switch.packetIns (emptyIntArrival c.host) = [payload] ∧
      result (handlePacketIn c.nodeID) payload = .error .divisionByZero := by
  have hmd : (sourceShim 40001).type = INTType.MD := rfl
  have hlength : (sourceShim 40001).length = 3 := rfl
  have hparse := parse_emptyStack (emptyIntFrame c.host) rfl hmd hlength (sourceMd 0 0) []
  rw [← frame_sampleArrival ((emptyIntFrame c.host).emit ++ _)] at hparse
  have hpacketIns := h.packetIns_host hidle (a := emptyIntArrival c.host) (v := none)
    (congrArg ParsedPacket.hdr hparse) (congrArg (fun r => r.metadata.cpuHdrLen) hparse)
    (dst_emptyIntFrame c.host)
  refine ⟨_, hpacketIns, ?_⟩
  rw [divisionByZero_cpuPayload]
  rfl

/-- The frame arrives when nothing waits, and the controller handles its packet-in. -/
theorem Reachable.stop_of_idle (h : Reachable id c s) (hrunning : s.exit = none) (hidle : s.updates = [])
    (hempty : s.packetIns = []) :
    ∃ s', Relation.ReflTransGen (Step id c) s s' ∧ s'.exit = some .divisionByZero ∧
      s'.history.map Reception.arrival = s.history.map Reception.arrival ++ [emptyIntArrival c.host] := by
  obtain ⟨payload, hpacketIns, hresult⟩ := h.packetIns_emptyIntArrival hidle
  have hport : (emptyIntArrival c.host).ingressPort ≠ CPU_PORT := by
    show (1 : BitVec 9) ≠ CPU_PORT
    decide
  have hreceive : Step id c s (s.receive id (emptyIntArrival c.host)) := .receive s hport
  have hway : (s.receive id (emptyIntArrival c.host)).packetIns = payload :: [] := by
    unfold System.receive
    rw [hempty, hpacketIns]
    rfl
  have hhandle : Step id c (s.receive id (emptyIntArrival c.host)) _ := .packetIn hidle hrunning hway
  rw [handle_packet, hresult] at hhandle
  exact ⟨_, .tail (.single hreceive) hhandle, rfl, List.map_append⟩

/-- The process stops on the clone of a frame for the host with a `hopML` of zero, and in no other way. -/
theorem exit_iff (h : Reachable id c s) :
    (∀ exit, s.exit = some exit → exit = .divisionByZero) ∧
    (s.exit ≠ none ↔ ∃ payload ∈ s.handled, HeadersPass payload ∧ (hopMLByte payload).toNat % 32 = 0) := by
  obtain ⟨honly, hiff⟩ := h.exit_eq
  simp only [divisionByZero_iff] at hiff
  exact ⟨honly, hiff⟩

/-- A run that has ended. -/
theorem exit_iff_sample : ∃ s, (Reachable 1 sampleSink s ∧ s.exit = some .divisionByZero) ∧
    (∀ exit, s.exit = some exit → exit = .divisionByZero) ∧
    (s.exit ≠ none ↔ ∃ payload ∈ s.handled, HeadersPass payload ∧ (hopMLByte payload).toNat % 32 = 0) := by
  obtain ⟨s, hrun, hexit, -⟩ := reachable_sampleSettled.stop_of_idle exit_sampleSettled
    settled_sampleSettled.updates packetIns_sampleSettled
  exact ⟨s, ⟨reachable_sampleSettled.trans hrun, hexit⟩, exit_iff (reachable_sampleSettled.trans hrun)⟩

/-- From every state in which the process runs one more frame can stop it. -/
theorem stops (h : Reachable id c s) (hrunning : s.exit = none) :
    ∃ s', Relation.ReflTransGen (Step id c) s s' ∧ s'.exit = some .divisionByZero ∧
      s'.history.map Reception.arrival = s.history.map Reception.arrival ++ [emptyIntArrival c.host] := by
  obtain ⟨hrun1, hsettled⟩ := run_settle id c s
  obtain ⟨s2, hrun2, hempty2, hidle2, hhistory2, hexit2⟩ := drain_packetIns id c s.settle
  rw [hsettled.updates] at hidle2
  rw [hsettled.history] at hhistory2
  rw [hsettled.exit, hrunning] at hexit2
  have h2 : Reachable id c s2 := (h.trans hrun1).trans hrun2
  obtain ⟨s', hrun3, hexit, hhistory3⟩ := h2.stop_of_idle hexit2 hidle2 hempty2
  rw [hhistory2] at hhistory3
  exact ⟨s', (hrun1.trans hrun2).trans hrun3, hexit, hhistory3⟩

theorem stops_sample : ∃ s', Relation.ReflTransGen (Step 1 sampleSink) sampleSettled s' ∧
    s'.exit = some .divisionByZero ∧ s'.history.map Reception.arrival =
      sampleSettled.history.map Reception.arrival ++ [emptyIntArrival sampleSink.host] :=
  stops reachable_sampleSettled exit_sampleSettled

end System

end ScionInt
