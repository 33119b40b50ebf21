import ScionInt.ControlPlane.TcpClient

/-!
# The stream of a `tcpClient`

A call of `send` writes a whole frame, or fails in one of its two writes, after which the client is
inactive and writes nothing (`send_eq`).  So a run is a `Trace`, and its stream consists of whole frames
and at most one that is not complete.

Main result: `decodable_sendAll`.
-/

namespace ScionInt

open Wire

namespace TcpClient

/-! ### One call of `send` -/

/-- The writes of a call of `send` by an active client, and whether it stays active. -/
inductive SendWrites (report : List Byte) : List SocketWrite → Bool → Prop where
  | sent : SendWrites report [⟨leBytes 4 report.length, none⟩, ⟨report, none⟩] true
  | lengthFailed (n : ℕ) : SendWrites report [⟨leBytes 4 report.length, some n⟩] false
  | reportFailed (n : ℕ) :
      SendWrites report [⟨leBytes 4 report.length, none⟩, ⟨report, some n⟩] false

theorem send_of_not_isActive (net : Network) (report : List Byte) {c : TcpClient}
    (h : c.isActive = false) : c.send net report = (false, c) := by
  simp [send, h]

theorem send_eq (net : Network) {report : List Byte} (hlen : report.length < 2 ^ 32) {c : TcpClient}
    (h : c.isActive) :
    ∃ writes active, SendWrites report writes active ∧
      c.send net report = (active, { isActive := active, writes := c.writes ++ writes }) := by
  have hnumber : (BitVec.ofNat 32 report.length).toNat = report.length := by
    rw [BitVec.toNat_ofNat, Nat.mod_eq_of_lt hlen]
  cases hfirst : net c.writes.length with
  | some n => exact ⟨_, _, .lengthFailed n, by simp [send, write, h, hfirst, hnumber]⟩
  | none =>
    cases hsecond : net (c.writes.length + 1) with
    | some n => exact ⟨_, _, .reportFailed n, by simp [send, write, h, hfirst, hsecond, hnumber]⟩
    | none => exact ⟨_, _, .sent, by simp [send, write, h, hfirst, hsecond, hnumber]⟩

namespace SendWrites

variable {report : List Byte} {writes : List SocketWrite}

theorem written_of_sent (h : SendWrites report writes true) :
    writes.flatMap SocketWrite.written = frame 4 report := by
  cases h
  simp [SocketWrite.written, frame]

theorem err_of_sent (h : SendWrites report writes true) : ∀ w ∈ writes, w.err = none := by
  cases h
  simp

/-- A call that fails has written the start of the frame. -/
theorem written_isPrefix (h : SendWrites report writes false) :
    writes.flatMap SocketWrite.written <+: frame 4 report := by
  cases h with
  | lengthFailed n =>
    simp only [SocketWrite.written, List.flatMap_cons, List.flatMap_nil, List.append_nil]
    have htake := List.take_prefix n (leBytes 4 report.length)
    exact htake.trans (List.prefix_append _ _)
  | reportFailed n =>
    simp only [SocketWrite.written, List.flatMap_cons, List.flatMap_nil, List.append_nil]
    have htake := List.take_prefix n report
    exact (List.prefix_append_right_inj _).mpr htake

/-- Only the last write of a call can have failed. -/
theorem pairwise {active : Bool} (h : SendWrites report writes active) :
    writes.Pairwise fun w w' => w.err.isSome → w'.written = [] := by
  cases h
  all_goals simp

/-- `send` returns true exactly if there have been two writes and both have succeeded. -/
theorem result_iff {active : Bool} (h : SendWrites report writes active) :
    active = true ↔ writes.map SocketWrite.data = [leBytes 4 report.length, report] ∧
      ∀ w ∈ writes, w.err = none := by
  cases h
  all_goals simp

end SendWrites

/-! ### A run -/

/-- A call of `send` by an inactive client. -/
def silent (report : List Byte) : Sent := ⟨report, [], false⟩

/-- The calls of a run: they succeed up to the first failure, and are silent after it. -/
inductive Trace : List Sent → Prop where
  | inactive (reports : List (List Byte)) : Trace (reports.map silent)
  | sent {report : List Byte} {writes : List SocketWrite} {rest : List Sent} :
      report.length < 2 ^ 32 → SendWrites report writes true → Trace rest →
      Trace (⟨report, writes, true⟩ :: rest)
  | failed {report : List Byte} {writes : List SocketWrite} (reports : List (List Byte)) :
      report.length < 2 ^ 32 → SendWrites report writes false →
      Trace (⟨report, writes, false⟩ :: reports.map silent)

theorem sendAll_of_not_isActive (net : Network) (reports : List (List Byte)) {c : TcpClient}
    (h : c.isActive = false) : c.sendAll net reports = (reports.map silent, c) := by
  induction reports with
  | nil => rfl
  | cons report reports ih =>
    rw [sendAll, send_of_not_isActive net report h]
    dsimp only
    rw [ih, List.drop_length]
    rfl

theorem flatMap_writes_silent (reports : List (List Byte)) :
    (reports.map silent).flatMap Sent.writes = [] := by
  simp [List.flatMap_map, silent]

theorem trace_sendAll_of_isActive (net : Network) {reports : List (List Byte)}
    (hlen : ∀ report ∈ reports, report.length < 2 ^ 32) {c : TcpClient} (h : c.isActive) :
    Trace (c.sendAll net reports).1 ∧
      (c.sendAll net reports).2.writes = c.writes ++ (c.sendAll net reports).1.flatMap Sent.writes := by
  induction reports generalizing c with
  | nil => exact ⟨.inactive [], by simp [sendAll]⟩
  | cons report reports ih =>
    have hreport := hlen report List.mem_cons_self
    obtain ⟨writes, active, hwrites, hsend⟩ := send_eq net hreport h
    rw [sendAll, hsend]
    dsimp only
    rw [List.drop_left]
    cases active with
    | true =>
      obtain ⟨htrace, hrun⟩ := ih (c := { isActive := true, writes := c.writes ++ writes })
        (fun r hr => hlen r (List.mem_cons_of_mem report hr)) rfl
      refine ⟨.sent hreport hwrites htrace, ?_⟩
      rw [hrun, List.append_assoc]
      rfl
    | false =>
      rw [sendAll_of_not_isActive net reports rfl]
      refine ⟨.failed reports hreport hwrites, ?_⟩
      rw [List.flatMap_cons, flatMap_writes_silent, List.append_nil]

theorem trace_sendAll (net : Network) {reports : List (List Byte)}
    (hlen : ∀ report ∈ reports, report.length < 2 ^ 32) (c : TcpClient) :
    Trace (c.sendAll net reports).1 ∧
      (c.sendAll net reports).2.writes = c.writes ++ (c.sendAll net reports).1.flatMap Sent.writes := by
  by_cases h : c.isActive
  · exact trace_sendAll_of_isActive net hlen h
  · rw [sendAll_of_not_isActive net reports (eq_false_of_ne_true h)]
    exact ⟨.inactive reports, by rw [flatMap_writes_silent, List.append_nil]⟩

theorem map_report_sendAll (net : Network) (reports : List (List Byte)) (c : TcpClient) :
    (c.sendAll net reports).1.map Sent.report = reports := by
  induction reports generalizing c with
  | nil => rfl
  | cons report reports ih =>
    rw [sendAll]
    dsimp only
    rw [List.map_cons, ih]

/-! ### The stream of a run -/

/-- The stream of the calls of a run. -/
def streamOf (calls : List Sent) : List Byte := calls.flatMap Sent.written

theorem stream_eq_streamOf {c : TcpClient} {calls : List Sent}
    (h : c.writes = calls.flatMap Sent.writes) : c.stream = streamOf calls := by
  rw [stream, h, streamOf, List.flatMap_assoc]
  rfl

theorem streamOf_silent (reports : List (List Byte)) : streamOf (reports.map silent) = [] := by
  simp [streamOf, Sent.written, silent, List.flatMap_map]

theorem frame_ne_nil (report : List Byte) : frame 4 report ≠ [] := by
  intro h
  have hlength := congrArg List.length h
  rw [length_frame, List.length_nil] at hlength
  omega

/-- The whole frame of the report has been put on the socket. -/
def isComplete (s : Sent) : Bool := s.written = frame 4 s.report

namespace Trace

variable {calls : List Sent}

theorem stream_isPrefix (h : Trace calls) :
    streamOf calls <+: (calls.map Sent.report).flatMap (frame 4) := by
  induction h with
  | inactive reports =>
    rw [streamOf_silent]
    exact List.nil_prefix
  | sent hlen hwrites _ ih =>
    rw [streamOf, List.flatMap_cons, List.map_cons, List.flatMap_cons, Sent.written,
      hwrites.written_of_sent]
    exact (List.prefix_append_right_inj _).mpr ih
  | failed reports hlen hwrites =>
    rw [streamOf, List.flatMap_cons, ← streamOf, streamOf_silent, List.append_nil, List.map_cons,
      List.flatMap_cons]
    exact hwrites.written_isPrefix.trans (List.prefix_append _ _)

theorem pairwise (h : Trace calls) :
    (calls.flatMap Sent.writes).Pairwise fun w w' => w.err.isSome → w'.written = [] := by
  induction h with
  | inactive reports =>
    rw [flatMap_writes_silent]
    exact List.Pairwise.nil
  | sent hlen hwrites _ ih =>
    rw [List.flatMap_cons, List.pairwise_append]
    refine ⟨hwrites.pairwise, ih, fun w hw _ _ herr => ?_⟩
    rw [hwrites.err_of_sent w hw] at herr
    cases herr
  | failed reports hlen hwrites =>
    rw [List.flatMap_cons, flatMap_writes_silent, List.append_nil]
    exact hwrites.pairwise

theorem splitFrames_stream (h : Trace calls) :
    splitFrames 4 (streamOf calls) = (calls.filter isComplete).map Sent.report := by
  have hsilent (reports : List (List Byte)) : (reports.map silent).filter isComplete = [] := by
    rw [List.filter_eq_nil_iff]
    intro s hs
    obtain ⟨report, -, rfl⟩ := List.mem_map.mp hs
    exact fun hcomplete => frame_ne_nil report (of_decide_eq_true hcomplete).symm
  induction h with
  | inactive reports => rw [streamOf_silent, splitFrames_nil, hsilent, List.map_nil]
  | sent hlen hwrites _ ih =>
    rename_i report writes rest _
    have hcomplete : isComplete ⟨report, writes, true⟩ := decide_eq_true hwrites.written_of_sent
    rw [streamOf, List.flatMap_cons, Sent.written, hwrites.written_of_sent,
      splitFrames_frame_append (by decide) hlen, List.filter_cons_of_pos hcomplete, List.map_cons]
    exact congrArg _ ih
  | failed reports hlen hwrites =>
    rename_i report writes
    rw [streamOf, List.flatMap_cons, ← streamOf, streamOf_silent, List.append_nil]
    by_cases hcomplete : isComplete ⟨report, writes, false⟩
    · -- the error was reported behind the last byte
      have hwritten : Sent.written ⟨report, writes, false⟩ = frame 4 report :=
        of_decide_eq_true hcomplete
      rw [hwritten, ← List.append_nil (frame 4 report), splitFrames_frame_append (by decide) hlen,
        splitFrames_nil, List.filter_cons_of_pos hcomplete, hsilent]
      rfl
    · have hwritten : Sent.written ⟨report, writes, false⟩ ≠ frame 4 report :=
        fun h => hcomplete (decide_eq_true h)
      have hbytes : Sent.written ⟨report, writes, false⟩ <+: frame 4 report := hwrites.written_isPrefix
      rw [splitFrames_of_incomplete hlen hbytes hwritten, List.filter_cons_of_neg hcomplete, hsilent]
      rfl

theorem result_iff (h : Trace calls) : ∀ s ∈ calls, s.result = true ↔
    s.writes.map SocketWrite.data = [leBytes 4 s.report.length, s.report] ∧
      ∀ w ∈ s.writes, w.err = none := by
  have hsilent (reports : List (List Byte)) : ∀ s ∈ reports.map silent, s.result = true ↔
      s.writes.map SocketWrite.data = [leBytes 4 s.report.length, s.report] ∧
        ∀ w ∈ s.writes, w.err = none := by
    intro s hs
    obtain ⟨report, -, rfl⟩ := List.mem_map.mp hs
    simp [silent]
  induction h with
  | inactive reports => exact hsilent reports
  | sent hlen hwrites _ ih => exact List.forall_mem_cons.mpr ⟨hwrites.result_iff, ih⟩
  | failed reports hlen hwrites =>
    exact List.forall_mem_cons.mpr ⟨hwrites.result_iff, hsilent reports⟩

end Trace

/-- The calls of `send` with the given reports, and the client after them. -/
structure Decodable (reports : List (List Byte)) (calls : List Sent) (c : TcpClient) : Prop where
  reports_eq : calls.map Sent.report = reports
  writes_eq : c.writes = calls.flatMap Sent.writes
  stream_isPrefix : c.stream <+: reports.flatMap (frame 4)
  -- nothing is written after an error
  silent : c.writes.Pairwise fun w w' => w.err.isSome → w'.written = []
  result_iff : ∀ s ∈ calls, s.result = true ↔
    s.writes.map SocketWrite.data = [leBytes 4 s.report.length, s.report] ∧
      ∀ w ∈ s.writes, w.err = none
  -- the receiver finds the reports whose frames have been written to the end
  splitFrames_eq : splitFrames 4 c.stream =
    (calls.filter fun s => s.written = frame 4 s.report).map Sent.report

theorem writes_createClient (err : Bool) : (createClient err {}).2.writes = [] := by
  cases err
  all_goals rfl

/-- Whether connecting succeeds or not, and whatever happens to the writes, the stream can be decoded. -/
theorem decodable_sendAll (net : Network) (err : Bool) {reports : List (List Byte)}
    (hlen : ∀ report ∈ reports, report.length < 2 ^ 32) :
    Decodable reports (sendAll net reports (createClient err {}).2).1
      (sendAll net reports (createClient err {}).2).2 := by
  have hreports := map_report_sendAll net reports (createClient err {}).2
  obtain ⟨htrace, hwrites⟩ := trace_sendAll net hlen (createClient err {}).2
  rw [writes_createClient, List.nil_append] at hwrites
  have hstream := stream_eq_streamOf hwrites
  have hframes := htrace.stream_isPrefix
  rw [hreports] at hframes
  refine ⟨hreports, hwrites, ?_, ?_, htrace.result_iff, ?_⟩
  · rw [hstream]
    exact hframes
  · rw [hwrites]
    exact htrace.pairwise
  · rw [hstream]
    exact htrace.splitFrames_stream

/-- The first byte of the second length is the last one that is written. -/
theorem decodable_sendAll_sample :
    let net : Network := fun n => if n = 2 then some 1 else none
    let run := sendAll net [[1], [2, 3]] (createClient false {}).2
    run.1.map Sent.result = [true, false] ∧ run.2.stream = [1, 0, 0, 0, 1, 2] ∧
      Decodable [[1], [2, 3]] run.1 run.2 :=
  ⟨by decide, by decide, decodable_sendAll _ false (by decide)⟩

end TcpClient

end ScionInt
