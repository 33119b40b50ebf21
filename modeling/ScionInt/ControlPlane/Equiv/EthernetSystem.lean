import ScionInt.ControlPlane.EthernetSystem
import ScionInt.ControlPlane.Equiv.System
import ScionInt.DataPlane.Equiv.L2SwitchGrpc
import ScionInt.Wire.Simulation

/-!
# The INT switch is a learning switch

`System.ethernet` forgets INT: the tables of the INT controls, the clone sessions, the updates for them, and
everything about packet-ins.  Every step of `int_switch` then becomes a run of `l2_switch_grpc`
(`Transition.ethernet`), and every step of `l2_switch_grpc` can be taken by `int_switch` as soon as the
updates for the INT controls that are in the way have been applied (`simulates_ethernet`).

Main results: `reachable_ethernet_iff`, the two switches have the same runs, and `forwards_alike`, in these
runs they treat every frame alike.
-/

namespace ScionInt

open Wire Relation

/-! ### Updates -/

instance (e : Entity) : Decidable e.IsInt :=
  match e with
  | .tableEntry _ => inferInstanceAs (Decidable (_ ∨ _ ∨ _ ∨ _))
  | .cloneSessionEntry _ => isTrue trivial
  | .multicastGroupEntry _ => isFalse id
  | .digestEntry _ => isFalse id

namespace Switch

theorem learning_insert_of_isInt (sw : Switch) {e : Entity} (he : e.IsInt) :
    (sw.insert e).learning = sw.learning := by
  unfold insert
  cases e with
  | tableEntry e =>
    dsimp only
    rcases he with he | he | he | he
    · rw [sw.insertTableEntry_scionInt he]
      rfl
    · rw [sw.insertTableEntry_intNodeId he]
      rfl
    · rw [sw.insertTableEntry_intTxUtil he]
      rfl
    · rw [sw.insertTableEntry_sciAsAddr he]
      rfl
  | cloneSessionEntry e => rfl
  | multicastGroupEntry e => exact he.elim
  | digestEntry e => exact he.elim

theorem learning_insert (sw : Switch) {e : Entity} (he : ¬ e.IsInt) :
    (sw.insert e).learning = sw.learning.insert e := by
  unfold insert EthernetSwitch.insert
  cases e with
  | tableEntry e =>
    obtain ⟨h1, h2, h3, h4⟩ : e.tableId ≠ TABLE_SCION_INT ∧ e.tableId ≠ TABLE_INT_NODE_ID ∧
        e.tableId ≠ TABLE_INT_TX_UTIL ∧ e.tableId ≠ TABLE_INT_AS_ADDR := by
      simpa only [Entity.IsInt, not_or] using he
    dsimp only
    rw [insertTableEntry, if_neg h1, if_neg h2, if_neg h3, if_neg h4]
    split_ifs
    · rfl
    · rfl
    · rfl
  | cloneSessionEntry e => exact absurd trivial he
  | multicastGroupEntry e =>
    unfold insertMulticastGroup
    dsimp only
    split_ifs
    · rfl
    · rfl
  | digestEntry e => rfl

end Switch

theorem Entity.not_isInt_learn {e : TableEntry} (he : e.tableId = TABLE_LEARN) :
    ¬ (Entity.tableEntry e).IsInt := by
  rw [IsInt, he]
  decide

theorem Entity.not_isInt_forward {e : TableEntry} (he : e.tableId = TABLE_FORWARD) :
    ¬ (Entity.tableEntry e).IsInt := by
  rw [IsInt, he]
  decide

/-- The updates that are not for the INT controls. -/
def learningUpdates (es : List Entity) : List Entity := es.filter fun e => ¬ e.IsInt

theorem learningUpdates_cons (e : Entity) (es : List Entity) :
    learningUpdates (e :: es) = if e.IsInt then learningUpdates es else e :: learningUpdates es := by
  unfold learningUpdates
  rw [List.filter_cons]
  by_cases he : e.IsInt
  · simp [he]
  · simp [he]

theorem learningUpdates_eq_nil {es : List Entity} (h : ∀ e ∈ es, e.IsInt) : learningUpdates es = [] := by
  unfold learningUpdates
  rw [List.filter_eq_nil_iff]
  intro e he
  simpa using h e he

theorem learningUpdates_eq_self {es : List Entity} (h : ∀ e ∈ es, ¬ e.IsInt) :
    learningUpdates es = es := by
  unfold learningUpdates
  rw [List.filter_eq_self]
  intro e he
  simpa using h e he

theorem learningUpdates_learnedUpdates (msgs : List MacLearnMsgT) :
    learningUpdates (LearningState.learnedUpdates msgs) = LearningState.learnedUpdates msgs := by
  refine learningUpdates_eq_self fun e he => ?_
  obtain ⟨m, -, he⟩ := List.mem_flatMap.mp he
  rcases List.mem_cons.mp he with rfl | he
  · exact Entity.not_isInt_learn rfl
  · rw [List.mem_singleton.mp he]
    exact Entity.not_isInt_forward rfl

theorem MacLearningCtrl.not_isInt_updates {id : BitVec 32} {e : Entity} (he : e ∈ updates id 0) :
    ¬ e.IsInt := by
  rw [show updates id 0 = LearningState.initialUpdates id from rfl, LearningState.initialUpdates_eq,
    LearningState.staticUpdates] at he
  rcases List.mem_append.mp he with he | he
  · rcases List.mem_append.mp he with he | he
    · obtain ⟨i, -, rfl⟩ := List.mem_map.mp he
      exact fun h => h
    · rw [List.mem_singleton.mp he]
      exact Entity.not_isInt_learn rfl
  · rw [List.mem_singleton.mp he]
    exact fun h => h

theorem learningUpdates_electionUpdates (id : BitVec 32) (c : IntController.Config) :
    learningUpdates (System.electionUpdates id c) = MacLearningCtrl.updates id 0 := by
  have hmac : learningUpdates (MacLearningCtrl.updates id 0) = MacLearningCtrl.updates id 0 :=
    learningUpdates_eq_self fun e => MacLearningCtrl.not_isInt_updates
  have hint : learningUpdates (IntController.updates c 0) = [] :=
    learningUpdates_eq_nil fun e => IntController.isInt_updates
  unfold learningUpdates at hmac hint ⊢
  rw [System.electionUpdates, List.filter_append, hmac, hint, List.append_nil]

/-! ### The learning switch -/

namespace EthernetSystem

variable {id : BitVec 32} {l l' : EthernetSystem}

theorem foldl_request_insert (l : EthernetSystem) (es : List Entity) :
    (es.map Request.insert).foldl request l = { l with updates := l.updates ++ es } := by
  induction es generalizing l with
  | nil => rw [List.append_nil]; rfl
  | cons e es ih =>
    rw [List.map_cons, List.foldl_cons, ih, request, List.append_assoc, List.singleton_append]

theorem request_accepted (l : EthernetSystem) : l.request (.setPipelineConfig true) =
    { l with switch := {}, digestEntries := {}, learned := [] } := rfl

theorem request_refused (l : EthernetSystem) : l.request (.setPipelineConfig false) = l := rfl

theorem handle_arbitration (l : EthernetSystem) (arbUpdate : ArbitrationUpdate) :
    l.handle id (.arbitration arbUpdate) =
      if arbUpdate.code = 0 then
        { l.request (.setPipelineConfig arbUpdate.pipelineSet) with
          updates := (l.request (.setPipelineConfig arbUpdate.pipelineSet)).updates ++
            MacLearningCtrl.updates id 0 }
      else l := by
  have hhandle : ControlPlane.handle (ControlPlane.l2SwitchCtrls id) (.arbitration arbUpdate) =
      .ok ((if arbUpdate.code = 0 then [.setPipelineConfig arbUpdate.pipelineSet] else []) ++
        (MacLearningCtrl.updates id arbUpdate.code).map .insert) := by
    rw [ControlPlane.handle, ControlPlane.l2SwitchCtrls, List.flatMap_cons, List.flatMap_singleton]
    rfl
  rw [handle, hhandle]
  dsimp only
  by_cases hcode : arbUpdate.code = 0
  · rw [if_pos hcode, if_pos hcode, hcode, List.singleton_append, List.foldl_cons, foldl_request_insert]
  · have hmac : MacLearningCtrl.updates id arbUpdate.code = [] := by
      rw [MacLearningCtrl.updates, MacLearningCtrl.handleArbitrationUpdate, if_neg hcode,
        List.flatten_nil]
    rw [if_neg hcode, if_neg hcode, hmac]
    rfl

theorem handle_digest (l : EthernetSystem) {digestList : DigestList} {msgs : List MacLearnMsgT}
    (hid : digestList.digestId = id) (hdata : List.Forall₂ LearningState.Encodes digestList.data msgs) :
    l.handle id (.digest digestList) =
      { l with updates := l.updates ++ LearningState.learnedUpdates msgs } := by
  have hhandle : ControlPlane.handle (ControlPlane.l2SwitchCtrls id) (.digest digestList) =
      .ok ((LearningState.learnedUpdates msgs).map .insert ++
        [.ackDigestList digestList.digestId digestList.listId]) := by
    rw [ControlPlane.handle, show (ControlPlane.l2SwitchCtrls id).reverse =
      [MacLearningCtrl.controller id, DefaultController.controller] from rfl, ControlPlane.firstHandled,
      MacLearningCtrl.controller]
    dsimp only
    rw [LearningState.handleDigest_of_encodes hdata, if_pos hid]
    rfl
  rw [handle, hhandle]
  dsimp only
  rw [List.foldl_append, foldl_request_insert]
  rfl

/-- What a step does. -/
inductive Transition (id : BitVec 32) (l : EthernetSystem) : EthernetSystem → Prop
  | idle : Transition id l l
  | receive {a : Arrival} (hport : a.ingressPort ≠ CPU_PORT) : Transition id l (l.receive id a)
  | update {e : Entity} {es : List Entity} (hupdates : l.updates = e :: es) :
    Transition id l { l.insert e with updates := es }
  | learn {msgs : List MacLearnMsgT} (hidle : l.updates = []) (hreported : ∀ m ∈ msgs, l.Reported m) :
    Transition id l { l with
      learned := l.learned ++ msgs
      updates := LearningState.learnedUpdates msgs }
  | elected (hidle : l.updates = []) :
    Transition id l { l with
      switch := {}
      digestEntries := {}
      learned := []
      updates := MacLearningCtrl.updates id 0 }
  | refused (hidle : l.updates = []) : Transition id l { l with updates := MacLearningCtrl.updates id 0 }

theorem Step.transition (h : Step id l l') : Transition id l l' := by
  cases h with
  | receive hport => exact .receive hport
  | update hupdates => exact .update hupdates
  | digest hidle hrunning hid hreported hdata =>
    rw [handle_digest _ hid hdata]
    dsimp only
    rw [hidle, List.nil_append]
    exact .learn hidle hreported
  | arbitration hidle hrunning arbUpdate =>
    rw [handle_arbitration]
    split_ifs with hcode
    · cases hset : arbUpdate.pipelineSet with
      | true =>
        rw [request_accepted]
        dsimp only
        rw [hidle, List.nil_append]
        exact .elected hidle
      | false =>
        rw [request_refused, hidle, List.nil_append]
        exact .refused hidle
    · exact .idle

/-- While the process runs every transition is a run. -/
theorem Transition.run (h : Transition id l l') (hrunning : l.exit = none) :
    ReflTransGen (Step id) l l' := by
  cases h with
  | idle => exact .refl
  | receive hport => exact .single (.receive l hport)
  | update hupdates => exact .single (.update hupdates)
  | learn hidle hreported =>
    -- a digest list with these messages brings about the transition
    rename_i msgs
    have hdata : List.Forall₂ LearningState.Encodes (msgs.map MacLearnMsgT.encode) msgs := by
      rw [List.forall₂_map_left_iff]
      exact List.forall₂_same.mpr fun m _ => LearningState.encodes_encode m
    let digestList : DigestList := ⟨id, 0, msgs.map MacLearnMsgT.encode⟩
    have hid : digestList.digestId = id := rfl
    have hstep := Step.digest hidle hrunning hid hreported hdata
    rw [handle_digest _ hid hdata] at hstep
    dsimp only at hstep
    rw [hidle, List.nil_append] at hstep
    exact .single hstep
  | elected hidle =>
    have hstep := @Step.arbitration id l hidle hrunning ⟨0, true⟩
    rw [handle_arbitration, if_pos rfl, request_accepted] at hstep
    dsimp only at hstep
    rw [hidle, List.nil_append] at hstep
    exact .single hstep
  | refused hidle =>
    have hstep := @Step.arbitration id l hidle hrunning ⟨0, false⟩
    rw [handle_arbitration, if_pos rfl, request_refused, hidle, List.nil_append] at hstep
    exact .single hstep

theorem start_eq : start id = { updates := MacLearningCtrl.updates id 0 } := by
  rw [start, handle_arbitration, if_pos rfl]
  rfl

end EthernetSystem

/-! ### Forgetting INT -/

/-- A reception of the learning switch. -/
def Reception.ethernet (r : Reception) : EthernetReception := ⟨r.switch.learning, r.arrival, r.digests⟩

namespace System

variable {id : BitVec 32} {c : IntController.Config} {s s' : System}

/-- What a state is without INT. -/
def ethernet (s : System) : EthernetSystem where
  switch := s.switch.learning
  digestEntries := s.digestEntries
  updates := learningUpdates s.updates
  history := s.history.map Reception.ethernet
  learned := s.learned

theorem digestEntries_ethernet (s : System) : s.ethernet.digestEntries = s.digestEntries := rfl

theorem ethernet_start (id : BitVec 32) (c : IntController.Config) :
    (start id c).ethernet = EthernetSystem.start id := by
  rw [start_eq, EthernetSystem.start_eq, ethernet, learningUpdates_electionUpdates]
  rfl

theorem reported_ethernet_iff {m : MacLearnMsgT} : s.ethernet.Reported m ↔ s.Reported m := by
  constructor
  · rintro ⟨r, hr, hm⟩
    obtain ⟨r', hr', rfl⟩ := List.mem_map.mp hr
    exact ⟨r', hr', hm⟩
  · rintro ⟨r, hr, hm⟩
    exact ⟨r.ethernet, List.mem_map_of_mem hr, hm⟩

theorem ethernet_receive (s : System) (a : Arrival) :
    (s.receive id a).ethernet = s.ethernet.receive id a := by
  have hdigests := (s.switch.ingress_learning a).2.2
  unfold receive EthernetSystem.receive ethernet
  rw [List.map_append, List.map_singleton, Reception.ethernet, hdigests]

/-- An update for the INT controls. -/
theorem ethernet_insert_of_isInt {e : Entity} {es : List Entity} (hupdates : s.updates = e :: es)
    (he : e.IsInt) : ({ s.insert e with updates := es } : System).ethernet = s.ethernet := by
  have hdigests : (s.insert e).digestEntries = s.digestEntries := by
    cases e with
    | digestEntry => exact he.elim
    | tableEntry | cloneSessionEntry | multicastGroupEntry => rfl
  have hswitch := s.switch.learning_insert_of_isInt he
  unfold ethernet
  dsimp only
  rw [hdigests, hupdates, learningUpdates_cons, if_pos he]
  unfold insert
  dsimp only
  rw [hswitch]

/-- An update for the learning switch. -/
theorem ethernet_insert {e : Entity} (es : List Entity) (he : ¬ e.IsInt) :
    ({ s.insert e with updates := es } : System).ethernet =
      { s.ethernet.insert e with updates := learningUpdates es } := by
  have hswitch := s.switch.learning_insert he
  exact congrArg (fun sw => { s.ethernet.insert e with
    switch := sw
    updates := learningUpdates es }) hswitch

theorem ethernet_learn (s : System) (msgs : List MacLearnMsgT) :
    ({ s with
      learned := s.learned ++ msgs
      updates := LearningState.learnedUpdates msgs } : System).ethernet =
    { s.ethernet with
      learned := s.ethernet.learned ++ msgs
      updates := LearningState.learnedUpdates msgs } := by
  rw [ethernet, learningUpdates_learnedUpdates]
  rfl

theorem ethernet_elected (s : System) (id : BitVec 32) (c : IntController.Config) :
    ({ s with
      switch := {}
      digestEntries := {}
      learned := []
      updates := electionUpdates id c } : System).ethernet =
    { s.ethernet with
      switch := {}
      digestEntries := {}
      learned := []
      updates := MacLearningCtrl.updates id 0 } := by
  rw [ethernet, learningUpdates_electionUpdates]
  rfl

theorem ethernet_refused (s : System) (id : BitVec 32) (c : IntController.Config) :
    ({ s with updates := electionUpdates id c } : System).ethernet =
      { s.ethernet with updates := MacLearningCtrl.updates id 0 } := by
  rw [ethernet, learningUpdates_electionUpdates]
  rfl

theorem ethernet_idle (hidle : s.updates = []) : s.ethernet.updates = [] := by
  rw [ethernet, hidle]
  rfl

/-- Without INT a step is a step of the learning switch or none at all. -/
theorem Transition.ethernet (h : Transition id c s s') :
    EthernetSystem.Transition id s.ethernet s'.ethernet := by
  cases h with
  | idle | lose | report | reject | stop => exact .idle
  | receive hport =>
    rw [ethernet_receive]
    exact .receive hport
  | update hupdates =>
    rename_i e es
    by_cases he : e.IsInt
    · rw [ethernet_insert_of_isInt hupdates he]
      exact .idle
    · rw [ethernet_insert es he]
      refine .update ?_
      rw [System.ethernet, hupdates, learningUpdates_cons, if_neg he]
  | learn hidle hreported =>
    rw [ethernet_learn]
    exact .learn (ethernet_idle hidle) fun m hm => reported_ethernet_iff.mpr (hreported m hm)
  | elected hidle =>
    rw [ethernet_elected]
    exact .elected (ethernet_idle hidle)
  | refused hidle =>
    rw [ethernet_refused]
    exact .refused (ethernet_idle hidle)

/-! ### Adding INT -/

/-- The switch applies the updates for the INT controls that are in the way. -/
theorem run_ints (id : BitVec 32) (c : IntController.Config) {ints others : List Entity}
    (hupdates : s.updates = ints ++ others) (hints : ∀ e ∈ ints, e.IsInt) :
    ∃ s', ReflTransGen (Step id c) s s' ∧ s'.updates = others ∧ s'.ethernet = s.ethernet ∧
      s'.exit = s.exit := by
  induction ints generalizing s with
  | nil => exact ⟨s, .refl, hupdates, rfl, rfl⟩
  | cons e ints ih =>
    have hint := ethernet_insert_of_isInt hupdates (hints e List.mem_cons_self)
    obtain ⟨s', hrun, hothers, hethernet, hexit⟩ :=
      ih (s := { s.insert e with updates := ints ++ others }) rfl
      fun e' he' => hints e' (List.mem_cons_of_mem e he')
    exact ⟨s', .head (.update hupdates) hrun, hothers, hethernet.trans hint, hexit⟩

/-- The same if no update for the learning switch waits. -/
theorem run_idle (id : BitVec 32) (c : IntController.Config) (hidle : s.ethernet.updates = []) :
    ∃ s', ReflTransGen (Step id c) s s' ∧ s'.updates = [] ∧ s'.ethernet = s.ethernet ∧
    s'.exit = s.exit := by
  refine run_ints id c (List.append_nil _).symm fun e he => ?_
  have hnone := List.filter_eq_nil_iff.mp hidle e he
  simpa using hnone

theorem step_learn (hidle : s.updates = []) (hrunning : s.exit = none) {msgs : List MacLearnMsgT}
    (hreported : ∀ m ∈ msgs, s.Reported m) :
    Step id c s { s with
      learned := s.learned ++ msgs
      updates := LearningState.learnedUpdates msgs } := by
  have hdata : List.Forall₂ LearningState.Encodes (msgs.map MacLearnMsgT.encode) msgs := by
    rw [List.forall₂_map_left_iff]
    exact List.forall₂_same.mpr fun m _ => LearningState.encodes_encode m
  let digestList : DigestList := ⟨id, 0, msgs.map MacLearnMsgT.encode⟩
  have hid : digestList.digestId = id := rfl
  have hstep := @Step.digest id c s digestList msgs hidle hrunning hid hreported hdata
  rw [handle_digest _ hid hdata] at hstep
  dsimp only at hstep
  rw [hidle, List.nil_append] at hstep
  exact hstep

theorem step_elected (hidle : s.updates = []) (hrunning : s.exit = none) :
    Step id c s { s with
      switch := {}
      digestEntries := {}
      learned := []
      updates := electionUpdates id c } := by
  have hstep := @Step.arbitration id c s hidle hrunning ⟨0, true⟩
  rw [handle_arbitration, if_pos rfl, hidle, List.nil_append] at hstep
  exact hstep

theorem step_refused (hidle : s.updates = []) (hrunning : s.exit = none) :
    Step id c s { s with updates := electionUpdates id c } := by
  have hstep := @Step.arbitration id c s hidle hrunning ⟨0, false⟩
  rw [handle_arbitration, if_pos rfl, hidle, List.nil_append] at hstep
  exact hstep

/-- The INT switch can take every step of the learning switch. -/
theorem simulates_ethernet (id : BitVec 32) (c : IntController.Config) :
    Simulates (EthernetSystem.Step id) (Step id c) fun l s => s.ethernet = l ∧ s.exit = none := by
  rintro _ l' s ⟨rfl, hrunning⟩ hstep
  cases hstep.transition with
  | idle => exact ⟨s, .refl, rfl, hrunning⟩
  | receive hport => exact ⟨_, .single (.receive s hport), ethernet_receive s _, hrunning⟩
  | update hupdates =>
    -- the updates in front of it are for the INT controls
    obtain ⟨ints, others, hs, hints, he, rfl⟩ := List.filter_eq_cons_iff.mp hupdates
    obtain ⟨s1, hrun, hupdates1, hethernet1, hexit1⟩ := run_ints id c hs fun e' he' => by
      simpa using hints e' he'
    have hint := ethernet_insert (s := s1) others (by simpa using he)
    refine ⟨_, hrun.tail (.update hupdates1), ?_, hexit1.trans hrunning⟩
    rw [hint, hethernet1]
    rfl
  | learn hidle hreported =>
    obtain ⟨s1, hrun, hidle1, hethernet1, hexit1⟩ := run_idle id c hidle
    rw [← hethernet1] at hreported
    refine ⟨_, hrun.tail (step_learn hidle1 (hexit1.trans hrunning) fun m hm =>
      reported_ethernet_iff.mp (hreported m hm)), ?_, hexit1.trans hrunning⟩
    rw [ethernet_learn, hethernet1]
  | elected hidle =>
    obtain ⟨s1, hrun, hidle1, hethernet1, hexit1⟩ := run_idle id c hidle
    refine ⟨_, hrun.tail (step_elected hidle1 (hexit1.trans hrunning)), ?_, hexit1.trans hrunning⟩
    rw [ethernet_elected, hethernet1]
  | refused hidle =>
    obtain ⟨s1, hrun, hidle1, hethernet1, hexit1⟩ := run_idle id c hidle
    refine ⟨_, hrun.tail (step_refused hidle1 (hexit1.trans hrunning)), ?_, hexit1.trans hrunning⟩
    rw [ethernet_refused, hethernet1]

/-- The runs of the learning switch are those of the INT switch without INT, whatever its configuration. -/
theorem reachable_ethernet_iff (id : BitVec 32) (c : IntController.Config) (l : EthernetSystem) :
    EthernetSystem.Reachable id l ↔ ∃ s, Reachable id c s ∧ s.ethernet = l := by
  unfold EthernetSystem.Reachable
  rw [← ethernet_start id c]
  have hexit : (start id c).exit = none := by rw [start_eq]
  exact reachable_iff hexit (fun s s' hstep => hstep.transition.ethernet.run rfl) (simulates_ethernet id c)

/-! ### The frames -/

/-- The switches treat a frame alike: they report the same and send copies to the same ports, and the same
bytes if the INT controls leave the frame alone and its checksums verify. -/
structure Alike (r : Reception) (r' : EthernetReception) : Prop where
  arrival : r'.arrival = r.arrival
  digests : r'.digests = r.digests
  ports : (r.switch.sent r.arrival).map Prod.fst = (r'.switch.sent r'.arrival).map Prod.fst
  bytes : r.switch.Passes r.arrival → SelfChecked r.arrival.frame →
    r.switch.sent r.arrival = r'.switch.sent r'.arrival

theorem alike_ethernet (r : Reception) : Alike r r.ethernet where
  arrival := rfl
  digests := rfl
  ports := r.switch.sent_map_fst r.arrival
  bytes hpasses hself := (Switch.sent_eq_learning_iff hpasses).mpr (.inr hself)

/-- Whatever frames arrive and whatever the controllers are told, what the INT switch does with the frames of
a run the learning switch can do with them, and the other way round. -/
theorem forwards_alike (id : BitVec 32) (c : IntController.Config) :
    (∀ s, Reachable id c s → ∃ l, EthernetSystem.Reachable id l ∧ List.Forall₂ Alike s.history l.history) ∧
    (∀ l, EthernetSystem.Reachable id l → ∃ s, Reachable id c s ∧ List.Forall₂ Alike s.history l.history) := by
  have halike (s : System) : List.Forall₂ Alike s.history s.ethernet.history :=
    List.forall₂_map_right_iff.mpr (List.forall₂_same.mpr fun r _ => alike_ethernet r)
  constructor
  · intro s hs
    exact ⟨s.ethernet, (reachable_ethernet_iff id c _).mpr ⟨s, hs, rfl⟩, halike s⟩
  · intro l hl
    obtain ⟨s, hs, rfl⟩ := (reachable_ethernet_iff id c l).mp hl
    exact ⟨s, hs, halike s⟩

end System

namespace EthernetSystem

variable {id : BitVec 32} {l : EthernetSystem}

/-- What the learning switch sends for a frame to `dstAddr`: the frame itself, to the port on which a frame
from that address has arrived, or else to all other ports. -/
structure SendsTo (l : EthernetSystem) (a : Arrival) (dstAddr : BitVec 48) : Prop where
  known : ∀ action, l.switch.l2.forwardTable.lookup dstAddr = some action →
    ∃ r ∈ l.history, action = .forward r.arrival.ingressPort ∧
      (∃ (eth : EthernetH) (rest : List Byte), r.arrival.frame = emit eth ++ rest ∧
        eth.srcAddr = dstAddr) ∧
      l.switch.sent a =
        if r.arrival.ingressPort = DROP_PORT then [] else [(r.arrival.ingressPort, a.frame)]
  unknown : l.switch.l2.forwardTable.lookup dstAddr = none →
    l.switch.sent a = (LearningState.otherPorts a.ingressPort).map fun port => (port, a.frame)

/-- In every run of the learning switch the frames are sent unchanged, where they belong. -/
theorem sends_unchanged (h : Reachable id l) (hdigest : (l.digestEntries.lookup id).isSome) {a : Arrival}
    {eth : EthernetH} {rest : List Byte} (hframe : a.frame = emit eth ++ rest)
    (hport : a.ingressPort.toNat < 8) : SendsTo l a eth.dstAddr := by
  -- a run of the INT switch with any configuration does the same
  obtain ⟨s, hs, rfl⟩ := (System.reachable_ethernet_iff id System.sampleSink l).mp h
  have hdelivers := hs.delivers_arrival hdigest hframe hport
  have hsent : s.ethernet.switch.sent a = (s.switch.copyPorts a).map fun port => (port, a.frame) :=
    s.switch.sent_learning_eq a
  constructor
  · intro action haction
    obtain ⟨r, hr, haction', -, hsource, hports⟩ := hdelivers.known action haction
    refine ⟨r.ethernet, List.mem_map_of_mem hr, haction', hsource, ?_⟩
    rw [hsent, hports]
    show _ = if r.arrival.ingressPort = DROP_PORT then [] else [(r.arrival.ingressPort, a.frame)]
    split_ifs
    · rfl
    · rfl
  · intro hunknown
    rw [hsent, hdelivers.unknown hunknown]

theorem reachable_ethernet_sampleSettled : Reachable 1 System.sampleSettled.ethernet :=
  (System.reachable_ethernet_iff 1 System.sampleSink System.sampleSettled.ethernet).mpr
    ⟨System.sampleSettled, System.reachable_sampleSettled, rfl⟩

theorem sends_unchanged_sample : SendsTo System.sampleSettled.ethernet (sampleArrival sampleBytes)
    sampleFrame.ethernet.dstAddr := by
  have hdigest : (System.sampleSettled.ethernet.digestEntries.lookup 1).isSome := by
    rw [System.digestEntries_ethernet]
    exact System.digest_sampleSettled
  exact sends_unchanged reachable_ethernet_sampleSettled hdigest
    ((frame_sampleArrival sampleBytes).trans (List.append_assoc _ _ _)) (by decide)

end EthernetSystem

end ScionInt
