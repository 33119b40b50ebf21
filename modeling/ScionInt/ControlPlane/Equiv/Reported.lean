import ScionInt.ControlPlane.Equiv.Installed
import ScionInt.ControlPlane.Equiv.PacketIns
import ScionInt.ControlPlane.Equiv.ReportStream

/-!
# From the frames to the reports

`sent` are the packet-ins for the frames of a run.  The controller handles them in the order of the frames,
none of them twice, and what it reports is what it decodes from them (`Handles`).  With what is installed in
the switch when a frame arrives, a report goes back to a frame for the host.

Main results: `reports_of_frames`, the reports of a run are about different frames for the host, in their
order, and `reports_received`, so are the messages that the receiver reads from the TCP stream.
-/

namespace ScionInt

open Wire Wire.Scan Wire.Protobuf

/-- What is taken from the pieces of a list, where a piece has at most one element, is taken from different
pieces. -/
theorem exists_sublist_of_flatMap {α β : Type} {f : α → List β} {xs : List α} {ys : List β}
    (h : List.Sublist ys (xs.flatMap f)) (hf : ∀ x ∈ xs, (f x).length ≤ 1) :
    ∃ zs, List.Sublist zs xs ∧ List.Forall₂ (fun z y => y ∈ f z) zs ys := by
  induction xs generalizing ys with
  | nil =>
    rw [List.flatMap_nil, List.sublist_nil] at h
    exact ⟨[], .slnil, h ▸ .nil⟩
  | cons x xs ih =>
    rw [List.flatMap_cons] at h
    obtain ⟨first, others, rfl, hfirst, hothers⟩ := List.sublist_append_iff.mp h
    obtain ⟨zs, hzs, hmem⟩ := ih hothers fun x' hx' => hf x' (List.mem_cons_of_mem x hx')
    have hlen := hfirst.length_le.trans (hf x List.mem_cons_self)
    match first, hlen with
    | [], _ => exact ⟨zs, hzs.cons x, hmem⟩
    | [y], _ => exact ⟨x :: zs, hzs.cons_cons x, .cons (hfirst.subset List.mem_cons_self) hmem⟩

/-- Two lists that go with the same list go with each other. -/
theorem forall₂_exists {α β γ : Type} {R : α → γ → Prop} {S : β → γ → Prop} {xs : List α} {ys : List β}
    {zs : List γ} (h : List.Forall₂ R xs zs) (h' : List.Forall₂ S ys zs) :
    List.Forall₂ (fun x y => ∃ z, R x z ∧ S y z) xs ys := by
  induction h generalizing ys with
  | nil =>
    cases h'
    exact .nil
  | cons hR _ ih =>
    cases h' with
    | cons hS hSs => exact .cons ⟨_, hR, hS⟩ (ih hSs)

namespace System

open IntController TcpClient

variable {id : BitVec 32} {c : IntController.Config} {s s' : System}

/-! ### The packet-ins of a run -/

/-- The packet-ins for the frames received so far. -/
def sent (s : System) : List (List Byte) := s.history.flatMap fun r => r.switch.packetIns r.arrival

/-- What the controller has handled and what it has made of it. -/
structure Handles (c : IntController.Config) (s : System) : Prop where
  sublist : List.Sublist (s.handled ++ s.packetIns) s.sent
  length : (s.handled ++ s.packetIns).length + s.lost = s.sent.length
  reports : s.reports = publishedAll c.nodeID s.handled

theorem publishedAll_append (nodeID : BitVec 32) (payloads : List (List Byte)) (payload : List Byte) :
    publishedAll nodeID (payloads ++ [payload]) = publishedAll nodeID payloads ++
      (result (handlePacketIn nodeID) payload).toOption.toList := by
  unfold publishedAll
  rw [List.filterMap_append, List.filterMap_cons, List.filterMap_nil]
  cases (result (handlePacketIn nodeID) payload).toOption with
  | none => rfl
  | some p => rfl

theorem Handles.receive (h : Handles c s) (a : Arrival) : Handles c (s.receive id a) := by
  have hsent : (s.receive id a).sent = s.sent ++ s.switch.packetIns a := by
    unfold sent System.receive
    rw [List.flatMap_append, List.flatMap_singleton]
  have hqueue : (s.receive id a).handled ++ (s.receive id a).packetIns =
      (s.handled ++ s.packetIns) ++ s.switch.packetIns a := (List.append_assoc _ _ _).symm
  constructor
  · rw [hsent, hqueue]
    exact h.sublist.append_right _
  · rw [hsent, hqueue, List.length_append, @List.length_append _ s.sent, ← h.length]
    show _ + s.lost = _
    omega
  · exact h.reports

theorem Handles.transition (h : Handles c s) (hstep : Transition id c s s') : Handles c s' := by
  cases hstep with
  | idle => exact h
  | receive => exact h.receive _
  | update | learn | elected | refused => exact ⟨h.sublist, h.length, h.reports⟩
  | lose hpacketIns =>
    -- one payload less in the queue, one more that is lost
    obtain ⟨hsublist, hlength, hreports⟩ := h
    rw [hpacketIns] at hsublist hlength
    refine ⟨List.Sublist.trans ?_ hsublist, ?_, hreports⟩
    · exact ((List.sublist_cons_self _ _).append_left _).append_left _
    · simp only [List.length_append, List.length_cons] at hlength ⊢
      show _ + (s.lost + 1) = s.sent.length
      omega
  | report hpacketIns hresult =>
    obtain ⟨hsublist, hlength, hreports⟩ := h
    rw [hpacketIns, List.append_cons] at hsublist hlength
    refine ⟨hsublist, hlength, ?_⟩
    show s.reports ++ _ = publishedAll c.nodeID (s.handled ++ _)
    rw [publishedAll_append, hresult, hreports]
    rfl
  | reject hpacketIns hresult | stop hpacketIns hresult =>
    -- handled, but without a report
    obtain ⟨hsublist, hlength, hreports⟩ := h
    rw [hpacketIns, List.append_cons] at hsublist hlength
    refine ⟨hsublist, hlength, ?_⟩
    show s.reports = publishedAll c.nodeID (s.handled ++ _)
    rw [publishedAll_append, hresult, hreports]
    exact (List.append_nil _).symm

theorem Reachable.handles (h : Reachable id c s) : Handles c s :=
  h.invariant ⟨.slnil, rfl, rfl⟩ fun _ _ _ hhandles hstep => hhandles.transition hstep

/-- If no packet-in is lost then every packet-in has been handled or waits for it. -/
theorem Handles.handled_eq (h : Handles c s) (hlost : s.lost = 0) :
    s.handled ++ s.packetIns = s.sent := by
  refine h.sublist.eq_of_length ?_
  have hlength := h.length
  omega

/-! ### The switches of a run -/

theorem Reachable.avoidsCpu (h : Reachable id c s) : s.switch.AvoidsCpu where
  forwardTable mac hlookup := by
    obtain ⟨r, -, hport, hne, -⟩ := h.forwardTable hlookup
    exact hne (ForwardAction.forward.inj hport).symm
  mcastGroups group replicas hreplicas r hr := by
    have hall : ∀ e ∈ LearningState.floodGroups.entries, ∀ r ∈ e.2, r.egressPort ≠ CPU_PORT := by decide
    exact hall _ (Table.mem_entries_of_lookup (h.within.mcastGroups group replicas hreplicas)) r hr

/-- Every frame met a switch with a part of the configuration, and without a way to the CPU port but
cloning. -/
theorem Reachable.receptions (h : Reachable id c s) :
    ∀ r ∈ s.history, Within c r.switch ∧ r.switch.AvoidsCpu := by
  refine h.invariant (P := fun s => ∀ r ∈ s.history, Within c r.switch ∧ r.switch.AvoidsCpu) ?_ ?_
  · exact fun r hr => by cases hr
  · intro s s' hreach hs hstep
    cases hstep with
    | receive =>
      intro r hr
      rcases List.mem_append.mp hr with hr | hr
      · exact hs r hr
      · rw [List.mem_singleton.mp hr]
        exact ⟨hreach.within, hreach.avoidsCpu⟩
    | idle | lose | report | reject | stop | update | learn | elected | refused => exact hs

theorem Reachable.packetIns (h : Reachable id c s) {r : Reception} (hr : r ∈ s.history) :
    r.switch.packetIns r.arrival =
      if r.switch.Cloned r.arrival ∧ (r.switch.cloneSessions.lookup 1).isSome then
        [(r.switch.cpuCopy r.arrival).wire]
      else [] := by
  obtain ⟨hwithin, havoids⟩ := h.receptions r hr
  exact Switch.packetIns_eq havoids hwithin.cloneSessions r.arrival

/-- When the configuration is installed, a frame for the host causes one packet-in. -/
theorem Reachable.packetIns_host (h : Reachable id c s) (hidle : s.updates = []) {a : Arrival}
    {q : ScionFrame}
    {intShim : IntShimH} {intMd : IntMdH} {v : Option PreIntStackH} {payload : Option PayloadH}
    (hhdr : (parse a.frame).hdr = q.withInt ⟨some intShim, some intMd, { preIntStack := v }⟩ payload)
    (hcpuHdrLen : (parse a.frame).metadata.cpuHdrLen = q.cpuHdrLen + 16) (hdst : q.dst = c.host) :
    s.switch.packetIns a = [cpuPayload q intShim intMd (VarBits.emitOpt v ++ (parse a.frame).rest)] := by
  have hinstalled := h.installed hidle
  have hcloned : s.switch.Cloned a := by
    unfold Switch.Cloned Switch.RunsClone INTSwitchIngress.RunsClone
    rw [hhdr]
    refine ⟨⟨rfl, rfl, ?_⟩, rfl⟩
    rw [hinstalled.scionInt]
    exact if_pos hdst
  have hsession : s.switch.cloneSessions.lookup 1 = some [Switch.cpuReplica] := hinstalled.cloneSessions 1
  obtain ⟨hmem, hclone⟩ := Switch.cpuCopy_mem hcloned hsession
  rw [Switch.packetIns_eq h.avoidsCpu h.within.cloneSessions, if_pos ⟨hcloned, by rw [hsession]; rfl⟩,
    wire_clone hhdr hcpuHdrLen hmem hclone]

/-- The packet-in for a frame with one record is decoded into a report on this record. -/
theorem Reachable.report_record (h : Reachable id c s) (hidle : s.updates = []) {a : Arrival}
    {q : ScionFrame}
    (hport : q.udpScion.dstPort = UDP_PORT) (hdst : q.dst = c.host) {intShim : IntShimH} {intMd : IntMdH}
    (htype : intShim.type = INTType.MD) (hhopML : intMd.hopML ≠ 0)
    (hsize : recordSize intMd.instructionBitmap intMd.domainInstructions = 4 * intMd.hopML.toNat)
    (hlength : intShim.length.toNat = 3 + intMd.hopML.toNat) (v : HopValues) {rest : List Byte}
    (hframe : a.frame = q.emit ++ (emit intShim ++ (emit intMd ++
      ((v.record intMd.instructionBitmap intMd.domainInstructions).emitHop ++ rest)))) :
    ∃ payload p, s.switch.packetIns a = [payload] ∧ result (handlePacketIn c.nodeID) payload = .ok p ∧
      p.report.hops = [(v.record intMd.instructionBitmap intMd.domainInstructions).reported] := by
  have hstack := length_emitHop_record v intMd.instructionBitmap intMd.domainInstructions
  have hmax : 8 * (v.record intMd.instructionBitmap intMd.domainInstructions).emitHop.length ≤
      SPACE_FOR_HOPS := by
    have hle := recordSize_le intMd.instructionBitmap intMd.domainInstructions
    rw [SPACE_FOR_HOPS]
    omega
  -- the parser takes the record for the stack
  have hwords : 4 * intShim.length.toNat =
      12 + (v.record intMd.instructionBitmap intMd.domainInstructions).emitHop.length := by omega
  obtain ⟨v', payload, accepted, stackLen, rest', hparse, hv', -⟩ := parse_int q hport htype intMd
    (v := ⟨_, hmax⟩) hwords rest
  rw [← hframe] at hparse
  have hpacketIns := h.packetIns_host hidle (congrArg ParsedPacket.hdr hparse)
    (congrArg (fun r => r.metadata.cpuHdrLen) hparse) hdst
  obtain ⟨p, hok, hhops, -⟩ := result_record c.nodeID q v (parse a.frame).rest hhopML hsize hlength
  rw [hv'] at hpacketIns
  exact ⟨_, p, hpacketIns, hok, hhops⟩

/-! ### The reports of a run -/

/-- The report `p` comes from the clone that the switch has sent for a received frame. -/
def FromClone (c : IntController.Config) (r : Reception) (p : Published) : Prop :=
  r.switch.cpuCopy r.arrival ∈ r.switch.process r.arrival ∧ (r.switch.cpuCopy r.arrival).isClone ∧
    result (handlePacketIn c.nodeID) (r.switch.cpuCopy r.arrival).wire = .ok p ∧ ReportsOn c r.arrival p

theorem Reachable.fromClone (h : Reachable id c s) {r : Reception} (hr : r ∈ s.history) {p : Published}
    (hp : p ∈ publishedAll c.nodeID (r.switch.packetIns r.arrival)) : FromClone c r p := by
  obtain ⟨hwithin, -⟩ := h.receptions r hr
  obtain ⟨payload, hpayload, hresult⟩ := exists_payload hp
  rw [h.packetIns hr] at hpayload
  split_ifs at hpayload with hcloned
  · rw [List.mem_singleton.mp hpayload] at hresult
    obtain ⟨hcloned, hsome⟩ := hcloned
    obtain ⟨replicas, hreplicas⟩ := Option.isSome_iff_exists.mp hsome
    obtain rfl := (hwithin.cloneSessions 1 replicas hreplicas).2
    obtain ⟨hmem, hclone⟩ := Switch.cpuCopy_mem hcloned hreplicas
    exact ⟨hmem, hclone, hresult, reports_clone hcloned hwithin.scionInt hresult⟩
  · cases hpayload

/-- The reports go back to different frames, in the order of the frames. -/
theorem Reachable.exists_receptions (h : Reachable id c s) :
    ∃ receptions, List.Sublist receptions s.history ∧ List.Forall₂ (FromClone c) receptions s.reports := by
  have hhandles := h.handles
  have hhandled : List.Sublist s.handled s.sent :=
    (List.sublist_append_left _ _).trans hhandles.sublist
  have hreports : List.Sublist s.reports
      (s.history.flatMap fun r => publishedAll c.nodeID (r.switch.packetIns r.arrival)) := by
    rw [hhandles.reports, show (s.history.flatMap fun r => publishedAll c.nodeID
      (r.switch.packetIns r.arrival)) = publishedAll c.nodeID s.sent from List.filterMap_flatMap.symm]
    exact hhandled.filterMap _
  obtain ⟨receptions, hsublist, hmem⟩ := exists_sublist_of_flatMap hreports fun r hr => by
    rw [h.packetIns hr]
    split_ifs
    · exact List.length_filterMap_le _ _
    · exact Nat.zero_le 1
  have hall : List.Forall₂ (fun r p => r ∈ s.history ∧
      p ∈ publishedAll c.nodeID (r.switch.packetIns r.arrival)) receptions s.reports :=
    (List.forall₂_and_left _ _).mpr ⟨fun r hr => hsublist.subset hr, hmem⟩
  exact ⟨receptions, hsublist, hall.imp fun r p hrp => h.fromClone hrp.1 hrp.2⟩

/-- The reports of a run are about different frames for the host, in the order in which these arrived, and
if no packet-in is lost then every packet-in has been handled or waits for it. -/
theorem reports_of_frames (h : Reachable id c s) :
    (∃ receptions, List.Sublist receptions s.history ∧
      List.Forall₂ (FromClone c) receptions s.reports) ∧
    (s.lost = 0 → s.handled ++ s.packetIns = s.sent) ∧ s.reports = publishedAll c.nodeID s.handled :=
  ⟨h.exists_receptions, h.handles.handled_eq, h.handles.reports⟩

/-- Frames that have arrived stay in the history. -/
theorem history_isPrefix (hrun : Relation.ReflTransGen (Step id c) s s') :
    List.IsPrefix s.history s'.history := by
  induction hrun with
  | refl => exact List.prefix_refl _
  | tail _ hstep ih =>
    cases hstep.transition with
    | receive => exact ih.trans (List.prefix_append _ _)
    | idle | lose | report | reject | stop | update | learn | elected | refused => exact ih

/-- If no packet-in is lost and none waits, all packet-ins that can be decoded have been reported. -/
theorem Reachable.mem_reports (h : Reachable id c s) (hlost : s.lost = 0) (hempty : s.packetIns = [])
    {r : Reception} (hr : r ∈ s.history) {payload : List Byte}
    (hpayload : payload ∈ r.switch.packetIns r.arrival) {p : Published}
    (hresult : result (handlePacketIn c.nodeID) payload = .ok p) : p ∈ s.reports := by
  have hhandled := h.handles.handled_eq hlost
  rw [hempty, List.append_nil] at hhandled
  rw [h.handles.reports, publishedAll, hhandled, List.mem_filterMap]
  refine ⟨payload, List.mem_flatMap.mpr ⟨r, hr, hpayload⟩, ?_⟩
  rw [hresult]
  rfl

/-- The controller handles a packet-in and reports on it. -/
theorem step_report (hidle : s.updates = []) (hrunning : s.exit = none) {payload : List Byte}
    {after : List (List Byte)} (hpacketIns : s.packetIns = payload :: after) {p : Published}
    (hresult : result (handlePacketIn c.nodeID) payload = .ok p) :
    Step id c s { s with
      packetIns := after
      handled := s.handled ++ [payload]
      reports := s.reports ++ [p] } := by
  have hstep := @Step.packetIn id c s payload after hidle hrunning hpacketIns
  rw [handle_packet, hresult] at hstep
  exact hstep

/-- If no other packet-in waits, the controller can report on a frame at once. -/
theorem run_report (id : BitVec 32) (hidle : s.updates = []) (hrunning : s.exit = none)
    (hempty : s.packetIns = [])
    {a : Arrival} {payload : List Byte} (hsent : s.switch.packetIns a = [payload]) {p : Published}
    (hresult : result (handlePacketIn c.nodeID) payload = .ok p) :
    ∃ s', Relation.ReflTransGen (Step id c) (s.receive id a) s' ∧
      s'.history = (s.receive id a).history ∧ s'.reports = s.reports ++ [p] := by
  have hqueue : (s.receive id a).packetIns = [payload] := by
    unfold System.receive
    rw [hsent, hempty]
    rfl
  exact ⟨_, .single (step_report (s := s.receive id a) hidle hrunning hqueue hresult), rfl, rfl⟩

/-- A frame for AS `1-ff00:0:112` with a stack of one record, which consists of a node ID. -/
def sampleReportFrame : List Byte :=
  (sampleFrame.setPort UDP_PORT).emit ++ (emit ((sourceShim 40001).addWords 1) ++
    (emit ((sourceMd 0x8000 0).addWords 1) ++ ([0, 0, 0, 9] ++ samplePayload)))

/-- The frame arrives, and the controller reports on it. -/
theorem exists_sampleReported : ∃ s, Reachable 1 sampleSink s ∧
    s.history.map Reception.arrival = [sampleArrival sampleReportFrame] ∧ s.reports.length = 1 := by
  have hsettled := settled_sampleSettled
  rw [start_eq] at hsettled
  have hhop : (HopValues.record { (default : HopValues) with nodeID := 9 } 0x8000 0).emitHop =
      [0, 0, 0, 9] := by
    decide
  have hframe : (sampleArrival sampleReportFrame).frame = (sampleFrame.setPort UDP_PORT).emit ++
      (emit ((sourceShim 40001).addWords 1) ++ (emit ((sourceMd 0x8000 0).addWords 1) ++
        ((HopValues.record { (default : HopValues) with nodeID := 9 } 0x8000 0).emitHop ++ samplePayload))) := by
    rw [hhop, frame_sampleArrival]
    rfl
  obtain ⟨payload, p, hsent, hok, -⟩ := reachable_sampleSettled.report_record hsettled.updates rfl rfl rfl
    (by decide) (by decide) (by decide) { (default : HopValues) with nodeID := 9 } hframe
  obtain ⟨s, hrun, hhistory, hreports⟩ := run_report 1 hsettled.updates hsettled.exit hsettled.packetIns
    hsent hok
  rw [hsettled.reports] at hreports
  refine ⟨s, (reachable_sampleSettled.step (.receive sampleSettled (ingressPort_sampleArrival_ne _))).trans hrun, ?_, ?_⟩
  · rw [hhistory, System.receive, List.map_append, hsettled.history]
    rfl
  · rw [hreports]
    rfl

theorem length_le_of_arrivals {s : System}
    (harrivals : s.history.map Reception.arrival = [sampleArrival sampleReportFrame]) :
    ∀ r ∈ s.history, r.arrival.frame.length ≤ 2 ^ 16 := by
  intro r hr
  have hmem := List.mem_map_of_mem (f := Reception.arrival) hr
  rw [harrivals, List.mem_singleton] at hmem
  rw [hmem, frame_sampleArrival]
  decide +kernel

theorem reports_of_frames_sample : ∃ s : System, s.reports.length = 1 ∧
    (∃ receptions, List.Sublist receptions s.history ∧
      List.Forall₂ (FromClone sampleSink) receptions s.reports) ∧
    (s.lost = 0 → s.handled ++ s.packetIns = s.sent) ∧
    s.reports = publishedAll sampleSink.nodeID s.handled := by
  obtain ⟨s, hs, -, hreports⟩ := exists_sampleReported
  exact ⟨s, hreports, reports_of_frames hs⟩

/-! ### The receiver -/

theorem Reachable.length_le (h : Reachable id c s) {n : ℕ}
    (hframes : ∀ r ∈ s.history, r.arrival.frame.length ≤ n) {payload : List Byte}
    (hpayload : payload ∈ s.handled) :
    payload.length ≤ n + 16 := by
  have hmem := h.handles.sublist.subset (List.mem_append_left _ hpayload)
  obtain ⟨r, hr, hmem⟩ := List.mem_flatMap.mp hmem
  rw [h.packetIns hr] at hmem
  split_ifs at hmem with hcloned
  · rw [List.mem_singleton.mp hmem]
    have hlen := length_wire_cpuCopy r.switch hcloned.1.2
    have hframe := hframes r hr
    omega
  · cases hmem

/-- The messages that the receiver reads from a client represent reports on different frames. -/
theorem Reachable.received (rt : Runtime) (net : Network) {client : TcpClient}
    (hstart : client.writes = []) (h : Reachable id c s)
    (hframes : ∀ r ∈ s.history, r.arrival.frame.length ≤ 2 ^ 16) {messages : List Telemetry.Report}
    (hmessages : List.Forall₂ (fun m (p : Published) => m.Represents p.report) messages s.reports) :
    ∃ strings received receptions,
      List.Forall₂ (fun m string => m.serializeToString rt = some string) messages strings ∧
      List.Forall₂ (fun string m => Telemetry.Report.parseFromString rt string = some m)
        (splitFrames 4 (sendAll net strings client).2.stream) received ∧
      List.Sublist receptions s.history ∧
      List.Forall₂ (fun r m => ∃ p, FromClone c r p ∧ m.Represents p.report) receptions received ∧
      ((sendAll net strings client).1.map Sent.result).count true ≤ received.length := by
  -- a frame is far too short for a report that the library refuses
  have hbound : ∀ m ∈ messages, m.byteSizeLong rt ≤ maxSize :=
    Telemetry.forall_mem_of_forall₂ hmessages fun m p hm hp => by
      rw [h.handles.reports] at hp
      obtain ⟨payload, hmem, hresult⟩ := exists_payload hp
      have hlen := h.length_le hframes hmem
      exact hm.byteSizeLong_le_maxSize hresult (by omega)
  obtain ⟨strings, received, n, hstrings, hreceived, hsame, hcount⟩ :=
    Telemetry.received_messages rt net hstart hbound
  have hrepresents := Telemetry.represents_of_same hsame (List.forall₂_take n hmessages)
  obtain ⟨receptions, hsublist, hfrom⟩ := h.exists_receptions
  refine ⟨strings, received, receptions.take n, hstrings, hreceived,
    (List.take_sublist n receptions).trans hsublist, ?_, ?_⟩
  · exact forall₂_exists (List.forall₂_take n hfrom) hrepresents
  · -- no more than were sent, and no more than there are
    have hreports := congrArg List.length (map_report_sendAll net strings client)
    have hall := List.count_le_length (a := true)
      (l := (sendAll net strings client).1.map Sent.result)
    have hreceivedLen := hsame.length_eq
    have hstringsLen := hstrings.length_eq
    rw [List.length_map] at hreports hall
    rw [List.length_take] at hreceivedLen
    omega

/-- From the switch to the receiver: whatever arrives and in whatever order the switch and the controller
take their steps, however the maps of the messages are ordered and whatever the network does, the messages
that the receiver reads represent reports on different frames for the host, in the order in which these
arrived, and no report that was sent is missing. -/
theorem reports_received (rt : Runtime) (net : Network) (err : Bool) (h : Reachable id c s)
    (hframes : ∀ r ∈ s.history, r.arrival.frame.length ≤ 2 ^ 16) {messages : List Telemetry.Report}
    (hmessages : List.Forall₂ (fun m (p : Published) => m.Represents p.report) messages s.reports) :
    ∃ strings received receptions,
      List.Forall₂ (fun m string => m.serializeToString rt = some string) messages strings ∧
      List.Forall₂ (fun string m => Telemetry.Report.parseFromString rt string = some m)
        (splitFrames 4 (sendAll net strings (createClient err {}).2).2.stream) received ∧
      List.Sublist receptions s.history ∧
      List.Forall₂ (fun r m => ∃ p, FromClone c r p ∧ m.Represents p.report) receptions received ∧
      ((sendAll net strings (createClient err {}).2).1.map Sent.result).count true ≤ received.length :=
  h.received rt net (writes_createClient err) hframes hmessages

/-- The connection breaks in the only report. -/
theorem reports_received_sample : ∃ s : System, s.reports.length = 1 ∧
    ∃ (strings : List (List Byte)) (received : List Telemetry.Report) (receptions : List Reception),
      List.Forall₂ (fun (m : Telemetry.Report) string => m.serializeToString base128 = some string)
        (s.reports.map fun p => Telemetry.Report.of p.report) strings ∧
      List.Forall₂ (fun string m => Telemetry.Report.parseFromString base128 string = some m)
        (splitFrames 4 (sendAll (fun n => if n = 1 then some 5 else none) strings
          (createClient false {}).2).2.stream) received ∧
      List.Sublist receptions s.history ∧
      List.Forall₂ (fun r (m : Telemetry.Report) => ∃ p, FromClone sampleSink r p ∧
        m.Represents p.report) receptions received ∧
      ((sendAll (fun n => if n = 1 then some 5 else none) strings (createClient false {}).2).1.map
        Sent.result).count true ≤ received.length := by
  obtain ⟨s, hs, harrivals, hreports⟩ := exists_sampleReported
  exact ⟨s, hreports, reports_received base128 _ false hs (length_le_of_arrivals harrivals)
    (Telemetry.represents_of_reports s.reports)⟩

end System

end ScionInt
