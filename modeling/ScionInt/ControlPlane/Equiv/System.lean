import ScionInt.ControlPlane.System
import ScionInt.ControlPlane.Equiv.MacLearn

/-!
# Runs of the switch and its controller

`Transition` says once what a step does, and the invariants of a run are proved from it.
-/

namespace ScionInt

open Wire Wire.Scan

namespace System

variable {id : BitVec 32} {c : IntController.Config} {s s' : System}

/-! ### What the controller does -/

/-- The updates of an election. -/
def electionUpdates (id : BitVec 32) (c : IntController.Config) : List Entity :=
  MacLearningCtrl.updates id 0 ++ IntController.updates c 0

theorem foldl_request_insert (s : System) (es : List Entity) :
    (es.map Request.insert).foldl request s = { s with updates := s.updates ++ es } := by
  induction es generalizing s with
  | nil => rw [List.append_nil]; rfl
  | cons e es ih =>
    rw [List.map_cons, List.foldl_cons, ih, request, List.append_assoc, List.singleton_append]

theorem handle_arbitration (s : System) (arbUpdate : ArbitrationUpdate) :
    s.handle id c (.arbitration arbUpdate) =
      if arbUpdate.code = 0 then
        { s.request (.setPipelineConfig arbUpdate.pipelineSet) with
          updates := s.updates ++ electionUpdates id c }
      else s := by
  rw [handle, ControlPlane.handle_arbitration]
  dsimp only
  by_cases hcode : arbUpdate.code = 0
  · rw [if_pos hcode, if_pos hcode, hcode, List.singleton_append, List.foldl_cons, foldl_request_insert]
    rfl
  · have hmac : MacLearningCtrl.updates id arbUpdate.code = [] := by
      rw [MacLearningCtrl.updates, MacLearningCtrl.handleArbitrationUpdate, if_neg hcode,
        List.flatten_nil]
    have hint : IntController.updates c arbUpdate.code = [] := if_neg hcode
    rw [if_neg hcode, if_neg hcode, hmac, hint]
    rfl

theorem handle_packet (s : System) (payload : List Byte) :
    s.handle id c (.packet payload) =
      match result (IntController.handlePacketIn c.nodeID) payload with
      | .ok report => { s with reports := s.reports ++ [report] }
      | .error .rejected => s
      | .error .divisionByZero => { s with exit := some .divisionByZero } := by
  rw [handle, ControlPlane.handle_packet]
  cases result (IntController.handlePacketIn c.nodeID) payload with
  | ok report => rfl
  | error stop =>
    cases stop with
    | rejected => rfl
    | divisionByZero => rfl

theorem handle_digest (s : System) {digestList : DigestList} {msgs : List MacLearnMsgT}
    (hid : digestList.digestId = id) (hdata : List.Forall₂ LearningState.Encodes digestList.data msgs) :
    s.handle id c (.digest digestList) =
      { s with updates := s.updates ++ LearningState.learnedUpdates msgs } := by
  rw [handle, ControlPlane.handle_digest, LearningState.handleDigest_of_encodes hdata, if_pos hid]
  dsimp only
  rw [List.foldl_append, foldl_request_insert]
  rfl

theorem handle_other (s : System) {msg : StreamMessage}
    (hmsg : msg = .idleTimeoutNotification ∨ msg = .error ∨ msg = .other) : s.handle id c msg = s := by
  rcases hmsg with rfl | rfl | rfl
  · rfl
  · rfl
  · rfl

/-- What a step does. -/
inductive Transition (id : BitVec 32) (c : IntController.Config) (s : System) : System → Prop
  | idle : Transition id c s s
  | receive {a : Arrival} (hport : a.ingressPort ≠ CPU_PORT) : Transition id c s (s.receive id a)
  | lose {before after : List (List Byte)} {payload : List Byte}
    (hpacketIns : s.packetIns = before ++ payload :: after) :
    Transition id c s { s with packetIns := before ++ after, lost := s.lost + 1 }
  | update {e : Entity} {es : List Entity} (hupdates : s.updates = e :: es) :
    Transition id c s { s.insert e with updates := es }
  | report {payload : List Byte} {after : List (List Byte)} {p : IntController.Published}
    (hpacketIns : s.packetIns = payload :: after)
    (hresult : result (IntController.handlePacketIn c.nodeID) payload = .ok p) :
    Transition id c s { s with
      packetIns := after
      handled := s.handled ++ [payload]
      reports := s.reports ++ [p] }
  | reject {payload : List Byte} {after : List (List Byte)} (hpacketIns : s.packetIns = payload :: after)
    (hresult : result (IntController.handlePacketIn c.nodeID) payload = .error .rejected) :
    Transition id c s { s with packetIns := after, handled := s.handled ++ [payload] }
  | stop {payload : List Byte} {after : List (List Byte)} (hpacketIns : s.packetIns = payload :: after)
    (hresult : result (IntController.handlePacketIn c.nodeID) payload = .error .divisionByZero) :
    Transition id c s { s with
      packetIns := after
      handled := s.handled ++ [payload]
      exit := some .divisionByZero }
  | learn {msgs : List MacLearnMsgT} (hidle : s.updates = []) (hreported : ∀ m ∈ msgs, s.Reported m) :
    Transition id c s { s with
      learned := s.learned ++ msgs
      updates := LearningState.learnedUpdates msgs }
  | elected (hidle : s.updates = []) :
    Transition id c s { s with
      switch := {}
      digestEntries := {}
      learned := []
      updates := electionUpdates id c }
  | refused (hidle : s.updates = []) : Transition id c s { s with updates := electionUpdates id c }

theorem Step.transition (h : Step id c s s') : Transition id c s s' := by
  cases h with
  | receive hport => exact .receive hport
  | lose hpacketIns => exact .lose hpacketIns
  | update hupdates => exact .update hupdates
  | packetIn hidle hrunning hpacketIns =>
    rename_i payload after
    rw [handle_packet]
    cases hresult : result (IntController.handlePacketIn c.nodeID) payload with
    | ok p => exact .report hpacketIns hresult
    | error stop =>
      cases stop with
      | rejected => exact .reject hpacketIns hresult
      | divisionByZero => exact .stop hpacketIns hresult
  | digest hidle hrunning hid hreported hdata =>
    rw [handle_digest _ hid hdata]
    dsimp only
    rw [hidle, List.nil_append]
    exact .learn hidle hreported
  | arbitration hidle hrunning arbUpdate =>
    rw [handle_arbitration, hidle, List.nil_append]
    split_ifs with hcode
    · cases hset : arbUpdate.pipelineSet with
      | true => exact .elected hidle
      | false => exact .refused hidle
    · exact .idle
  | other hidle hrunning hmsg =>
    rw [handle_other _ hmsg]
    exact .idle

theorem start_eq : start id c = { updates := electionUpdates id c } := by
  rw [start, handle_arbitration, if_pos rfl]
  rfl

/-- What holds at the start and is kept by every transition holds in every state of a run. -/
theorem Reachable.invariant {P : System → Prop} (h : Reachable id c s)
    (hstart : P { updates := electionUpdates id c })
    (hstep : ∀ s s', Reachable id c s → P s → Transition id c s s' → P s') : P s := by
  induction h with
  | refl => rwa [start_eq]
  | tail hrun hlast ih => exact hstep _ _ hrun ih hlast.transition

end System

/-! ### The learning switch -/

/-- Entries of the tables of the INT controls, and clone sessions. -/
def Entity.IsInt : Entity → Prop
  | .tableEntry e => e.tableId = TABLE_SCION_INT ∨ e.tableId = TABLE_INT_NODE_ID ∨
      e.tableId = TABLE_INT_TX_UTIL ∨ e.tableId = TABLE_INT_AS_ADDR
  | .cloneSessionEntry _ => True
  | .multicastGroupEntry _ => False
  | .digestEntry _ => False

/-- The updates in front of the clone session. -/
theorem IntController.isInt_static {c : Config} {e : Entity}
    (he : e ∈ (installStaticTableEntries c).flatten) : ∃ entry, e = .tableEntry entry ∧ e.IsInt := by
  obtain ⟨request, hrequest, he⟩ := List.mem_flatten.mp he
  rcases List.mem_cons.mp hrequest with rfl | hrequest
  · rw [List.mem_singleton.mp he]
    exact ⟨_, rfl, .inl rfl⟩
  · rcases List.mem_append.mp hrequest with hrequest | hrequest
    · -- a line of the INT table
      obtain ⟨line, -, rfl⟩ := List.mem_map.mp hrequest
      unfold scionIntRequest at he
      split_ifs at he
      · cases he
      · rw [List.mem_singleton.mp he]
        exact ⟨_, rfl, .inl rfl⟩
    · rw [List.mem_singleton.mp hrequest] at he
      rcases List.mem_cons.mp he with rfl | he
      · exact ⟨_, rfl, .inr (.inl rfl)⟩
      · rcases List.mem_cons.mp he with rfl | he
        · exact ⟨_, rfl, .inr (.inr (.inr rfl))⟩
        · obtain ⟨i, -, rfl⟩ := List.mem_map.mp he
          exact ⟨_, rfl, .inr (.inr (.inl rfl))⟩

theorem IntController.updates_eq (c : Config) :
    updates c 0 = (installStaticTableEntries c).flatten ++ [buildCloneSessionEntry 1] := by
  rw [updates, if_pos rfl, List.flatten_append]
  rfl

theorem IntController.isInt_updates {c : Config} {e : Entity} (he : e ∈ updates c 0) : e.IsInt := by
  rw [updates_eq] at he
  rcases List.mem_append.mp he with he | he
  · obtain ⟨entry, rfl, hint⟩ := isInt_static he
    exact hint
  · rw [List.mem_singleton.mp he]
    exact trivial

namespace LearningState

variable {id : BitVec 32} {s : LearningState}

theorem control_insert_of_isInt (s : LearningState) {e : Entity} (he : e.IsInt) :
    (s.insert e).control = s.control := by
  unfold control insert Switch.insert
  cases e with
  | tableEntry e =>
    dsimp only
    rcases he with he | he | he | he
    · rw [s.switch.insertTableEntry_scionInt he]
    · rw [s.switch.insertTableEntry_intNodeId he]
    · rw [s.switch.insertTableEntry_intTxUtil he]
    · rw [s.switch.insertTableEntry_sciAsAddr he]
  | cloneSessionEntry e => rfl
  | multicastGroupEntry e => exact he.elim
  | digestEntry e => exact he.elim

theorem insert_of_isSome {K A : Type} [DecidableEq K] {t : Table K A} {k : K} (h : (t.lookup k).isSome)
    (a : A) : t.insert k a = t := if_pos (.inl h)

/-- Between two requests the updates of an election are there already, so that inserting them again has no
effect. -/
theorem Inv.control_insert_initial (h : Inv id s) (hidle : s.pending = []) {e : Entity}
    (he : e ∈ initialUpdates id) : (s.insert e).control = s.control := by
  have hlearns := h.learns_idle hidle
  rw [initialUpdates_eq, staticUpdates, List.mem_append, List.mem_append] at he
  rcases he with (he | he) | he
  · obtain ⟨i, hi, rfl⟩ := List.mem_map.mp he
    have hkey : (floodGroups.lookup ((BitVec.ofNat 32 i + 1).setWidth 16)).isSome := by
      have hall : ∀ i < 8, (floodGroups.lookup ((BitVec.ofNat 32 i + 1).setWidth 16)).isSome := by decide
      exact hall i (List.mem_range.mp hi)
    rw [← show s.switch.mcastGroups = floodGroups from hlearns.mcastGroups] at hkey
    unfold control insert MacLearningCtrl.buildFloodMcastGrpEntity Switch.insert Switch.insertMulticastGroup
    dsimp only
    split_ifs
    · rw [insert_of_isSome hkey]
    · rfl
  · have hkey : (s.control.l2.learnTable.lookup ((0xFFFFFFFFFFFF : BitVec 64).setWidth 48)).isSome :=
      Option.isSome_iff_exists.mpr ⟨_, h.learnTable_broadcast (h.digest_idle hidle)⟩
    rw [List.mem_singleton.mp he, control_insert_buildLearnTableEntry s (by decide),
      insert_of_isSome hkey]
  · have hkey : (s.control.digestEntries.lookup id).isSome := h.digest_idle hidle
    rw [List.mem_singleton.mp he, control_insert_buildDigestEntity, insert_of_isSome hkey]

end LearningState

namespace System

variable {id : BitVec 32} {c : IntController.Config} {s s' : System}

/-- What the learning switch is of a state, with the given updates still to be applied. -/
def learning (s : System) (pending : List Entity) : LearningState where
  switch := s.switch
  digestEntries := s.digestEntries
  pending := pending
  history := s.history.map fun r => (r.arrival, r.digests)
  handled := s.learned

/-- The learning switch of a state is in a reachable state: of the updates that wait the first ones are
its own, and those behind them have no effect on it. -/
def Refines (id : BitVec 32) (c : IntController.Config) (s : System) : Prop :=
  ∃ pending others, s.updates = pending ++ others ∧ others ⊆ electionUpdates id c ∧
    LearningState.Reachable id (s.learning pending)

theorem Reported.learning {m : MacLearnMsgT} (h : s.Reported m) (pending : List Entity) :
    (s.learning pending).Reported m := by
  obtain ⟨r, hr, hm⟩ := h
  exact ⟨_, List.mem_map_of_mem hr, hm⟩

theorem Refines.idle (h : Refines id c s) (hidle : s.updates = []) :
    LearningState.Reachable id (s.learning []) := by
  obtain ⟨pending, others, hupdates, -, hreach⟩ := h
  rw [hidle] at hupdates
  obtain ⟨rfl, -⟩ := List.append_eq_nil_iff.mp hupdates.symm
  exact hreach

/-- The switch applies an update that is not for the learning switch. -/
theorem Refines.update (h : Refines id c s) {e : Entity} {es : List Entity}
    (hupdates : s.updates = e :: es) :
    Refines id c { s.insert e with updates := es } := by
  obtain ⟨pending, others, hsplit, hothers, hreach⟩ := h
  rw [hupdates] at hsplit
  cases pending with
  | nil =>
    rw [List.nil_append] at hsplit
    rw [← hsplit] at hothers
    have hcontrol : ((s.learning []).insert e).control = (s.learning []).control := by
      rcases List.mem_append.mp (hothers List.mem_cons_self) with he | he
      · exact hreach.inv.control_insert_initial rfl he
      · exact LearningState.control_insert_of_isInt _ (IntController.isInt_updates he)
    injection hcontrol with hl2 hgroups hdigests
    refine ⟨[], es, rfl, fun e' he' => hothers (List.mem_cons_of_mem e he'), ?_⟩
    have hl2' : (s.switch.insert e).l2 = (s.learning []).switch.l2 := hl2
    have hstep := hreach.step (.other (s.learning []) hl2' hgroups)
    rw [show ({ s.learning [] with switch := s.switch.insert e } : LearningState) =
      { s.learning [] with
        switch := s.switch.insert e
        digestEntries := ((s.learning []).insert e).digestEntries } by rw [hdigests]] at hstep
    exact hstep
  | cons e' pending =>
    obtain ⟨rfl, rfl⟩ := List.cons_eq_cons.mp hsplit
    exact ⟨pending, others, rfl, hothers, hreach.step (.write rfl)⟩

theorem Refines.receive (h : Refines id c s) (a : Arrival) : Refines id c (s.receive id a) := by
  obtain ⟨pending, others, hsplit, hothers, hreach⟩ := h
  refine ⟨pending, others, hsplit, hothers, ?_⟩
  have hstep := hreach.step (.receive (s.learning pending) a)
  unfold System.receive learning
  rw [List.map_append]
  exact hstep

theorem Refines.learn (h : Refines id c s) (hidle : s.updates = []) {msgs : List MacLearnMsgT}
    (hreported : ∀ m ∈ msgs, s.Reported m) :
    Refines id c { s with
      learned := s.learned ++ msgs
      updates := LearningState.learnedUpdates msgs } := by
  have hdata : List.Forall₂ LearningState.Encodes (msgs.map MacLearnMsgT.encode) msgs := by
    rw [List.forall₂_map_left_iff]
    exact List.forall₂_same.mpr fun m _ => LearningState.encodes_encode m
  have hreply : MacLearningCtrl.handleDigest id ⟨id, 0, msgs.map MacLearnMsgT.encode⟩ =
      .ok (some ⟨LearningState.learnedUpdates msgs, id, 0⟩) := by
    rw [LearningState.handleDigest_of_encodes hdata, if_pos rfl]
  exact ⟨_, [], (List.append_nil _).symm, List.nil_subset _, (h.idle hidle).step
    (.handleDigest rfl (fun m hm => (hreported m hm).learning []) hdata hreply)⟩

theorem Refines.transition (h : Refines id c s) (hstep : Transition id c s s') : Refines id c s' := by
  cases hstep with
  | idle => exact h
  | receive => exact h.receive _
  | lose | report | reject | stop => exact h
  | update hupdates => exact h.update hupdates
  | learn hidle hreported => exact h.learn hidle hreported
  | elected hidle =>
    exact ⟨MacLearningCtrl.updates id 0, IntController.updates c 0, rfl, List.subset_append_right _ _,
      (h.idle hidle).arbitration rfl 0⟩
  | refused hidle => exact ⟨[], electionUpdates id c, rfl, List.Subset.refl _, h.idle hidle⟩

theorem Reachable.refines (h : Reachable id c s) : Refines id c s :=
  h.invariant ⟨MacLearningCtrl.updates id 0, IntController.updates c 0, rfl, List.subset_append_right _ _,
    .start⟩ fun _ _ _ hrefines hstep => hrefines.transition hstep

/-! ### Runs -/

theorem Reachable.step (h : Reachable id c s) (hstep : Step id c s s') : Reachable id c s' := h.tail hstep

/-- The switch applies updates, of which the first one waits. -/
def applyAll (s : System) : List Entity → System
  | [] => s
  | e :: es => applyAll { s.insert e with updates := es } es

/-- The switch applies all updates that wait. -/
def settle (s : System) : System := s.applyAll s.updates

/-- Nothing but the switch changes. -/
structure Settled (s s' : System) : Prop where
  updates : s'.updates = []
  history : s'.history = s.history
  packetIns : s'.packetIns = s.packetIns
  lost : s'.lost = s.lost
  handled : s'.handled = s.handled
  reports : s'.reports = s.reports
  exit : s'.exit = s.exit

/-- The updates that wait can be applied. -/
theorem run_settle (id : BitVec 32) (c : IntController.Config) (s : System) :
    Relation.ReflTransGen (Step id c) s s.settle ∧ Settled s s.settle := by
  unfold settle
  generalize hupdates : s.updates = es
  induction es generalizing s with
  | nil => exact ⟨.refl, hupdates, rfl, rfl, rfl, rfl, rfl, rfl⟩
  | cons e es ih =>
    obtain ⟨hrun, hsettled⟩ := ih { s.insert e with updates := es } rfl
    exact ⟨.head (.update hupdates) hrun, hsettled.updates, hsettled.history, hsettled.packetIns,
      hsettled.lost, hsettled.handled, hsettled.reports, hsettled.exit⟩

/-! ### Delivery -/

/-- The digest is configured when no update waits. -/
theorem Reachable.digest_idle (h : Reachable id c s) (hidle : s.updates = []) :
    (s.digestEntries.lookup id).isSome := (h.refines.idle hidle).inv.digest_idle rfl

/-- No frame comes from the controller. -/
theorem Reachable.ingressPort_ne (h : Reachable id c s) :
    ∀ r ∈ s.history, r.arrival.ingressPort ≠ CPU_PORT := by
  refine h.invariant (P := fun s => ∀ r ∈ s.history, r.arrival.ingressPort ≠ CPU_PORT) ?_ ?_
  · exact fun r hr => by cases hr
  · intro s s' _ hs hstep
    cases hstep with
    | receive hport =>
      intro r hr
      rcases List.mem_append.mp hr with hr | hr
      · exact hs r hr
      · rw [List.mem_singleton.mp hr]
        exact hport
    | idle | lose | report | reject | stop | update | learn | elected | refused => exact hs

/-- A forwarding entry leads to a port on which a frame from its address has arrived. -/
theorem Reachable.forwardTable (h : Reachable id c s) {mac : BitVec 48} {action : ForwardAction}
    (haction : s.switch.l2.forwardTable.lookup mac = some action) :
    ∃ r ∈ s.history, action = .forward r.arrival.ingressPort ∧ r.arrival.ingressPort ≠ CPU_PORT ∧
      ∃ (eth : EthernetH) (rest : List Byte), r.arrival.frame = emit eth ++ rest ∧ eth.srcAddr = mac := by
  obtain ⟨pending, -, -, -, hreach⟩ := h.refines
  have hinv := hreach.inv
  obtain ⟨m, hm, he⟩ := hinv.forwardTable (Table.mem_entries_of_lookup haction)
  obtain ⟨rfl, rfl⟩ := Prod.mk.inj he
  obtain ⟨r, hr, -, ⟨hport, hframe⟩, -⟩ := hinv.handled_names hm
  obtain ⟨r, hr', rfl⟩ := List.mem_map.mp hr
  exact ⟨r, hr', congrArg _ hport, h.ingressPort_ne r hr', hframe⟩

/-- Where the copies of a frame to `dstAddr` go: to the port on which a frame from that address has
arrived, or else to all other ports. -/
structure Delivers (s : System) (a : Arrival) (dstAddr : BitVec 48) : Prop where
  known : ∀ action, s.switch.l2.forwardTable.lookup dstAddr = some action →
    ∃ r ∈ s.history, action = .forward r.arrival.ingressPort ∧ r.arrival.ingressPort ≠ CPU_PORT ∧
      (∃ (eth : EthernetH) (rest : List Byte), r.arrival.frame = emit eth ++ rest ∧
        eth.srcAddr = dstAddr) ∧
      s.switch.copyPorts a =
        if r.arrival.ingressPort = DROP_PORT then [] else [r.arrival.ingressPort]
  unknown : s.switch.l2.forwardTable.lookup dstAddr = none →
    s.switch.copyPorts a = LearningState.otherPorts a.ingressPort

theorem Reachable.delivers_arrival (h : Reachable id c s) (hdigest : (s.digestEntries.lookup id).isSome)
    {a : Arrival} {eth : EthernetH} {rest : List Byte} (hframe : a.frame = emit eth ++ rest)
    (hport : a.ingressPort.toNat < 8) : Delivers s a eth.dstAddr := by
  constructor
  · intro action haction
    obtain ⟨r, hr, rfl, hne, hsource⟩ := h.forwardTable haction
    exact ⟨r, hr, rfl, hne, hsource, Switch.copyPorts_forward hframe haction⟩
  · intro hunknown
    obtain ⟨pending, -, -, -, hreach⟩ := h.refines
    exact hreach.inv.copyPorts_flood hdigest hframe hport hunknown

/-- With `IntController` on top of the stack, and whatever elections there are, the switch and its
controller refine the learning switch, and with the digest configured the frames are delivered by what has
been learned. -/
theorem delivers (h : Reachable id c s) :
    Refines id c s ∧ ((s.digestEntries.lookup id).isSome → ∀ (a : Arrival) (eth : EthernetH)
      (rest : List Byte), a.frame = emit eth ++ rest → a.ingressPort.toNat < 8 →
        Delivers s a eth.dstAddr) :=
  ⟨h.refines, fun hdigest _ _ _ hframe hport => h.delivers_arrival hdigest hframe hport⟩

/-- The controller of a sink, the host of which is AS `1-ff00:0:112`. -/
def sampleSink : IntController.Config := ⟨1, 0xff0000000112, 7, []⟩

/-- The election has been dealt with. -/
def sampleSettled : System := (start 1 sampleSink).settle

theorem reachable_sampleSettled : Reachable 1 sampleSink sampleSettled :=
  (run_settle 1 sampleSink (start 1 sampleSink)).1

theorem settled_sampleSettled : Settled (start 1 sampleSink) sampleSettled :=
  (run_settle 1 sampleSink (start 1 sampleSink)).2

theorem exit_sampleSettled : sampleSettled.exit = none := by
  rw [settled_sampleSettled.exit, start_eq]

theorem packetIns_sampleSettled : sampleSettled.packetIns = [] := by
  rw [settled_sampleSettled.packetIns, start_eq]

theorem digest_sampleSettled : (sampleSettled.digestEntries.lookup 1).isSome :=
  reachable_sampleSettled.digest_idle settled_sampleSettled.updates

theorem ingressPort_sampleArrival (frame : List Byte) : (sampleArrival frame).ingressPort = 1 := rfl

theorem ingressPort_sampleArrival_ne (frame : List Byte) :
    (sampleArrival frame).ingressPort ≠ CPU_PORT := by
  rw [ingressPort_sampleArrival]
  decide

theorem delivers_sample : Refines 1 sampleSink sampleSettled ∧
    Delivers sampleSettled (sampleArrival sampleBytes) sampleFrame.ethernet.dstAddr := by
  obtain ⟨hrefines, hdelivers⟩ := delivers reachable_sampleSettled
  exact ⟨hrefines, hdelivers digest_sampleSettled _ _ _
    ((frame_sampleArrival sampleBytes).trans (List.append_assoc _ _ _)) (by decide)⟩

end System

end ScionInt
