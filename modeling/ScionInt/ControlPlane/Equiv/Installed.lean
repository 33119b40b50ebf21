import ScionInt.ControlPlane.Equiv.Policy
import ScionInt.ControlPlane.Equiv.System

/-!
# What is installed in a run

Six of the tables of the switch are filled by elections only (`StaticTable`).  For each of them, what it
holds and what the waiting updates are going to insert make up what an election inserts, in every state of a
run (`Reachable.lookup_or`).  So it never holds anything else, and holds all of it when no update waits.

Main result: `configuration`, in every state in which no update waits the switch is the one that the
configuration asks for, and before that it holds nothing else.
-/

namespace ScionInt

open Wire

/-! ### Tables that an election fills -/

/-- A table of the switch, with the entries for it that the switch decodes from an update. -/
structure StaticTable (K A : Type) [DecidableEq K] where
  table : Switch → Table K A
  entries : Entity → List (K × A)
  table_empty : table {} = {}
  table_insert : ∀ sw e, table (sw.insert e) = (table sw).insertList (entries e)
  entries_learnEntry : ∀ m, entries (LearningState.learnEntry m) = []
  entries_forwardEntry : ∀ m, entries (LearningState.forwardEntry m) = []

/-- The entries of one of the tables in `TableEntry.tableId`. -/
def Entity.tableEntries {K A : Type} (tableId : BitVec 32) (decode : TableEntry → Option (K × A)) :
    Entity → List (K × A)
  | .tableEntry e => if e.tableId = tableId then (decode e).toList else []
  | .cloneSessionEntry _ | .multicastGroupEntry _ | .digestEntry _ => []

namespace StaticTable

variable {K A : Type} [DecidableEq K]

/-- A table that `insertTableEntry` fills. -/
def ofTableEntry (table : Switch → Table K A) (tableId : BitVec 32) (decode : TableEntry → Option (K × A))
    (hempty : table {} = {})
    (hdecode : ∀ (sw : Switch) (e : TableEntry), table (sw.insertTableEntry e) =
      if e.tableId = tableId then insertDecoded (table sw) (decode e) else table sw)
    (hcloneSessions : ∀ (sw : Switch) (t : Table (BitVec 32) (List Replica)),
      table { sw with cloneSessions := t } = table sw)
    (hmcastGroups : ∀ (sw : Switch) (t : Table (BitVec 16) (List Replica)),
      table { sw with mcastGroups := t } = table sw)
    (hlearn : TABLE_LEARN ≠ tableId) (hforward : TABLE_FORWARD ≠ tableId) : StaticTable K A where
  table := table
  entries := Entity.tableEntries tableId decode
  table_empty := hempty
  table_insert sw e := by
    unfold Switch.insert Entity.tableEntries
    cases e with
    | tableEntry e =>
      dsimp only
      rw [hdecode]
      split_ifs
      · exact insertDecoded_eq_insertList _ _
      · rfl
    | cloneSessionEntry e => exact hcloneSessions sw _
    | multicastGroupEntry e =>
      unfold Switch.insertMulticastGroup
      dsimp only
      split_ifs
      · exact hmcastGroups sw _
      · rfl
    | digestEntry e => rfl
  entries_learnEntry _ := if_neg hlearn
  entries_forwardEntry _ := if_neg hforward

def scionInt : StaticTable (BitVec 16 × BitVec 48) ScionIntAction :=
  ofTableEntry Switch.scionInt TABLE_SCION_INT TableEntry.scionInt rfl
    (by
      intro sw e
      split_ifs with h
      · rw [sw.insertTableEntry_scionInt h]
      · unfold Switch.insertTableEntry
        split_ifs
        all_goals rfl)
    (fun _ _ => rfl) (fun _ _ => rfl) (by decide) (by decide)

def intNodeId : StaticTable (BitVec 1) IntNodeIdAction :=
  ofTableEntry (fun sw => sw.egress.intNodeIdTable) TABLE_INT_NODE_ID TableEntry.intNodeId rfl
    (by
      intro sw e
      split_ifs with h
      · rw [sw.insertTableEntry_intNodeId h]
      · unfold Switch.insertTableEntry
        split_ifs
        all_goals rfl)
    (fun _ _ => rfl) (fun _ _ => rfl) (by decide) (by decide)

def intTxUtil : StaticTable (BitVec 1 × BitVec 9) IntEgIfUtilAction :=
  ofTableEntry (fun sw => sw.egress.intEgIfUtilTable) TABLE_INT_TX_UTIL TableEntry.intTxUtil rfl
    (by
      intro sw e
      split_ifs with h
      · rw [sw.insertTableEntry_intTxUtil h]
      · unfold Switch.insertTableEntry
        split_ifs
        all_goals rfl)
    (fun _ _ => rfl) (fun _ _ => rfl) (by decide) (by decide)

def sciAsAddr : StaticTable (BitVec 1) SciAsAddrAction :=
  ofTableEntry (fun sw => sw.egress.sciAsAddrTable) TABLE_INT_AS_ADDR TableEntry.sciAsAddr rfl
    (by
      intro sw e
      split_ifs with h
      · rw [sw.insertTableEntry_sciAsAddr h]
      · unfold Switch.insertTableEntry
        split_ifs
        all_goals rfl)
    (fun _ _ => rfl) (fun _ _ => rfl) (by decide) (by decide)

/-- No entry of a table changes the packet replication engine. -/
theorem replication_insertTableEntry (sw : Switch) (e : TableEntry) :
    (sw.insertTableEntry e).cloneSessions = sw.cloneSessions ∧
    (sw.insertTableEntry e).mcastGroups = sw.mcastGroups := by
  unfold Switch.insertTableEntry
  split_ifs
  all_goals exact ⟨rfl, rfl⟩

def cloneSessions : StaticTable (BitVec 32) (List Replica) where
  table := Switch.cloneSessions
  entries
    | .cloneSessionEntry e => [(e.sessionId, e.replicas)]
    | .tableEntry _ | .multicastGroupEntry _ | .digestEntry _ => []
  table_empty := rfl
  table_insert sw e := by
    unfold Switch.insert
    cases e with
    | tableEntry e => exact (replication_insertTableEntry sw e).1
    | cloneSessionEntry e => rfl
    | multicastGroupEntry e =>
      unfold Switch.insertMulticastGroup
      dsimp only
      split_ifs
      · rfl
      · rfl
    | digestEntry e => rfl
  entries_learnEntry _ := rfl
  entries_forwardEntry _ := rfl

def mcastGroups : StaticTable (BitVec 16) (List Replica) where
  table := Switch.mcastGroups
  entries
    | .multicastGroupEntry e =>
      if e.multicastGroupId.toNat < 2 ^ 16 then [(e.multicastGroupId.setWidth 16, e.replicas)] else []
    | .tableEntry _ | .cloneSessionEntry _ | .digestEntry _ => []
  table_empty := rfl
  table_insert sw e := by
    unfold Switch.insert
    cases e with
    | tableEntry e => exact (replication_insertTableEntry sw e).2
    | cloneSessionEntry e => rfl
    | multicastGroupEntry e =>
      unfold Switch.insertMulticastGroup
      dsimp only
      split_ifs
      · rfl
      · rfl
    | digestEntry e => rfl
  entries_learnEntry _ := rfl
  entries_forwardEntry _ := rfl

/-- A table after write requests. -/
theorem table_write (t : StaticTable K A) (sw : Switch) (request : List Entity) :
    t.table (sw.write request) = (t.table sw).insertList (request.flatMap t.entries) := by
  induction request generalizing sw with
  | nil => rfl
  | cons e request ih =>
    rw [Switch.write, List.foldl_cons, ← Switch.write, ih, t.table_insert, List.flatMap_cons,
      Table.insertList_append]

theorem entries_learnedUpdates (t : StaticTable K A) (msgs : List MacLearnMsgT) :
    (LearningState.learnedUpdates msgs).flatMap t.entries = [] := by
  induction msgs with
  | nil => rfl
  | cons m msgs ih =>
    rw [LearningState.learnedUpdates_cons, List.flatMap_cons, List.flatMap_cons, ih, t.entries_learnEntry,
      t.entries_forwardEntry]
    rfl

end StaticTable

/-! ### The invariant -/

namespace System

variable {id : BitVec 32} {c : IntController.Config} {s s' : System} {K A : Type} [DecidableEq K]

/-- What a table holds and what waits for it make up what an election inserts. -/
structure Fills (t : StaticTable K A) (id : BitVec 32) (c : IntController.Config) (s : System) :
    Prop where
  size : (t.table s.switch).size = none
  lookup_or : ∀ k, ((t.table s.switch).lookup k).or ((s.updates.flatMap t.entries).lookup k) =
    ((electionUpdates id c).flatMap t.entries).lookup k

variable {t : StaticTable K A}

/-- A table without entries, into which the updates of an election are inserted. -/
theorem Fills.elected (hswitch : s.switch = {}) (hupdates : s.updates = electionUpdates id c) :
    Fills t id c s where
  size := by rw [hswitch, t.table_empty]
  lookup_or k := by rw [hswitch, hupdates, t.table_empty, Table.lookup_empty, Option.none_or]

theorem Fills.idle (h : Fills t id c s) (hidle : s.updates = []) (k : K) :
    (t.table s.switch).lookup k = ((electionUpdates id c).flatMap t.entries).lookup k := by
  rw [← h.lookup_or k, hidle, List.flatMap_nil, List.lookup_nil, Option.or_none]

theorem Fills.update (h : Fills t id c s) {e : Entity} {es : List Entity}
    (hupdates : s.updates = e :: es) :
    Fills t id c { s.insert e with updates := es } where
  size := by
    show (t.table (s.switch.insert e)).size = none
    rw [t.table_insert, Table.size_insertList, h.size]
  lookup_or k := by
    show ((t.table (s.switch.insert e)).lookup k).or _ = _
    rw [← h.lookup_or k, hupdates, t.table_insert, Table.lookup_insertList h.size, List.flatMap_cons,
      List.lookup_append, Option.or_assoc]

theorem Fills.transition (h : Fills t id c s) (hstep : Transition id c s s') : Fills t id c s' := by
  cases hstep with
  | idle | receive | lose | report | reject | stop => exact ⟨h.size, h.lookup_or⟩
  | update hupdates => exact h.update hupdates
  | learn hidle hreported =>
    refine ⟨h.size, fun k => ?_⟩
    dsimp only
    rw [h.idle hidle, t.entries_learnedUpdates, List.lookup_nil, Option.or_none]
  | elected hidle => exact Fills.elected rfl rfl
  | refused hidle =>
    refine ⟨h.size, fun k => ?_⟩
    dsimp only
    rw [h.idle hidle, Option.or_self]

theorem Reachable.fills (h : Reachable id c s) (t : StaticTable K A) : Fills t id c s :=
  h.invariant (Fills.elected rfl rfl) fun _ _ _ hfills hstep => hfills.transition hstep

/-- The switch that an election on an empty switch leads to. -/
def configured (id : BitVec 32) (c : IntController.Config) : Switch :=
  ControlPlane.arbitration id c {} ⟨0, true⟩

theorem configured_eq (id : BitVec 32) (c : IntController.Config) :
    configured id c = ({} : Switch).write (electionUpdates id c) := by
  have hwrite (sw : Switch) (requests : List (List Entity)) :
      requests.foldl Switch.write sw = sw.write requests.flatten := List.foldl_flatten.symm
  unfold configured ControlPlane.arbitration electionUpdates
  rw [IntController.handleArbitrationUpdate, if_pos rfl, hwrite, hwrite, Switch.write, Switch.write,
    ← List.foldl_append]
  rfl

/-- A table holds nothing but what an election inserts, and all of it when no update waits. -/
theorem Reachable.table (h : Reachable id c s) (t : StaticTable K A) :
    (∀ k a, (t.table s.switch).lookup k = some a → (t.table (configured id c)).lookup k = some a) ∧
    (s.updates = [] → ∀ k, (t.table s.switch).lookup k = (t.table (configured id c)).lookup k) := by
  have hconfigured (k : K) : (t.table (configured id c)).lookup k =
      ((electionUpdates id c).flatMap t.entries).lookup k := by
    rw [configured_eq, t.table_write, t.table_empty, Table.lookup_insertList_empty]
    rfl
  constructor
  · intro k a ha
    rw [hconfigured, ← (h.fills t).lookup_or, ha, Option.some_or]
  · intro hidle k
    rw [hconfigured, (h.fills t).idle hidle]

/-! ### The configuration -/

/-- The switch as the configuration asks for it: the policy, the entries of the egress control, the clone
session for the CPU port and the flooding groups. -/
structure Installed (c : IntController.Config) (sw : Switch) : Prop where
  scionInt : ∀ dst, sw.scionInt.lookup dst = c.policy dst
  egress : StaticEntries sw.egress c.nodeID c.hostAS fun _ => 0
  cloneSessions : ∀ session, sw.cloneSessions.lookup session =
    if session = 1 then some [{ egressPort := CPU_PORT, inst := 1 }] else none
  mcastGroups : sw.mcastGroups.lookup = LearningState.floodGroups.lookup

/-- Nothing but a part of this is installed. -/
structure Within (c : IntController.Config) (sw : Switch) : Prop where
  scionInt : ∀ dst action, sw.scionInt.lookup dst = some action → c.policy dst = some action
  nodeID : ∀ flag action, sw.egress.intNodeIdTable.lookup flag = some action →
    flag = 1 ∧ action = .insert_int_node_id c.nodeID
  txUtil : ∀ key action, sw.egress.intEgIfUtilTable.lookup key = some action →
    key.1 = 1 ∧ action = .insert_int_eg_if_util 0
  asAddr : ∀ flag action, sw.egress.sciAsAddrTable.lookup flag = some action →
    flag = 1 ∧ action = .insert_sci_as_addr c.hostAS
  cloneSessions : ∀ session replicas, sw.cloneSessions.lookup session = some replicas →
    session = 1 ∧ replicas = [{ egressPort := CPU_PORT, inst := 1 }]
  mcastGroups : ∀ group replicas, sw.mcastGroups.lookup group = some replicas →
    LearningState.floodGroups.lookup group = some replicas

theorem configured_write (id : BitVec 32) (c : IntController.Config) : configured id c =
    (({} : Switch).write (MacLearningCtrl.updates id 0)).write (IntController.updates c 0) := by
  rw [configured_eq, electionUpdates, Switch.write, Switch.write, Switch.write, List.foldl_append]

theorem cloneSessions_configured (id : BitVec 32) (c : IntController.Config) (session : BitVec 32) :
    (configured id c).cloneSessions.lookup session =
      if session = 1 then some [{ egressPort := CPU_PORT, inst := 1 }] else none := by
  have hmac : (({} : Switch).write (MacLearningCtrl.updates id 0)).cloneSessions = {} := rfl
  have hstatic : (IntController.installStaticTableEntries c).flatten.flatMap
      StaticTable.cloneSessions.entries = [] := by
    rw [List.flatMap_eq_nil_iff]
    intro e he
    obtain ⟨entry, rfl, -⟩ := IntController.isInt_static he
    rfl
  have htable : (configured id c).cloneSessions =
      ({} : Table (BitVec 32) (List Replica)).insertList [(1, [{ egressPort := CPU_PORT, inst := 1 }])] := by
    rw [configured_write]
    refine (StaticTable.cloneSessions.table_write _ (IntController.updates c 0)).trans ?_
    rw [IntController.updates_eq, List.flatMap_append, hstatic, List.nil_append,
      show StaticTable.cloneSessions.table = Switch.cloneSessions from rfl, hmac]
    rfl
  rw [htable, Table.lookup_insertList_empty, Table.lookup_cons]
  rfl

theorem mcastGroups_configured (id : BitVec 32) (c : IntController.Config) :
    (configured id c).mcastGroups = LearningState.floodGroups := by
  have hint : (IntController.updates c 0).flatMap StaticTable.mcastGroups.entries = [] := by
    rw [List.flatMap_eq_nil_iff]
    intro e he
    have hisInt := IntController.isInt_updates he
    cases e with
    | multicastGroupEntry e => exact hisInt.elim
    | tableEntry | cloneSessionEntry | digestEntry => rfl
  rw [configured_write]
  refine (StaticTable.mcastGroups.table_write _ (IntController.updates c 0)).trans ?_
  rw [hint]
  rfl

theorem installed_configured (id : BitVec 32) (c : IntController.Config) :
    Installed c (configured id c) where
  scionInt dst := by
    have htable : (configured id c).scionInt = ControlPlane.policyTable c :=
      ControlPlane.scionInt_arbitration id c {} ⟨0, true⟩
    rw [htable, (ControlPlane.policyInstalled_policyTable c).lookup]
  egress := by
    have hmac : ((MacLearningCtrl.handleArbitrationUpdate id 0).foldl Switch.write {}).egress = {} := rfl
    unfold configured ControlPlane.arbitration ControlPlane.handleArbitrationUpdate
    rw [if_pos rfl]
    exact IntController.staticEntries_handleArbitrationUpdate c hmac
  cloneSessions := cloneSessions_configured id c
  mcastGroups := by rw [mcastGroups_configured]

theorem Reachable.within (h : Reachable id c s) : Within c s.switch := by
  have hinstalled := installed_configured id c
  have hegress := hinstalled.egress
  -- the entries of the egress tables are for the flag 1, and none is configured for the flag 0
  have hbit : ∀ flag : BitVec 1, flag = 0 ∨ flag = 1 := by decide
  constructor
  · intro dst action haction
    rw [← hinstalled.scionInt]
    exact (h.table StaticTable.scionInt).1 dst action haction
  · intro flag action haction
    have hconfigured := (h.table StaticTable.intNodeId).1 flag action haction
    rcases hbit flag with rfl | rfl
    · exact absurd (hconfigured.symm.trans hegress.nodeID_zero) (by simp)
    · exact ⟨rfl, Option.some.inj (hconfigured.symm.trans hegress.nodeID_one)⟩
  · rintro ⟨flag, port⟩ action haction
    have hconfigured := (h.table StaticTable.intTxUtil).1 (flag, port) action haction
    rcases hbit flag with rfl | rfl
    · exact absurd (hconfigured.symm.trans (hegress.txUtil_zero port)) (by simp)
    · exact ⟨rfl, Option.some.inj (hconfigured.symm.trans (hegress.txUtil_one port))⟩
  · intro flag action haction
    have hconfigured := (h.table StaticTable.sciAsAddr).1 flag action haction
    rcases hbit flag with rfl | rfl
    · exact absurd (hconfigured.symm.trans hegress.asAddr_zero) (by simp)
    · exact ⟨rfl, Option.some.inj (hconfigured.symm.trans hegress.asAddr_one)⟩
  · intro session replicas hreplicas
    have hconfigured := (h.table StaticTable.cloneSessions).1 session replicas hreplicas
    have hlookup := hconfigured.symm.trans (hinstalled.cloneSessions session)
    split_ifs at hlookup with hsession
    exact ⟨hsession, Option.some.inj hlookup⟩
  · intro group replicas hreplicas
    rw [← hinstalled.mcastGroups]
    exact (h.table StaticTable.mcastGroups).1 group replicas hreplicas

theorem Reachable.installed (h : Reachable id c s) (hidle : s.updates = []) : Installed c s.switch := by
  have hinstalled := installed_configured id c
  have hegress := hinstalled.egress
  have hnodeID := (h.table StaticTable.intNodeId).2 hidle
  have htxUtil := (h.table StaticTable.intTxUtil).2 hidle
  have hasAddr := (h.table StaticTable.sciAsAddr).2 hidle
  constructor
  · intro dst
    rw [← hinstalled.scionInt]
    exact (h.table StaticTable.scionInt).2 hidle dst
  · constructor
    · exact (hnodeID 1).trans hegress.nodeID_one
    · exact (hnodeID 0).trans hegress.nodeID_zero
    · exact fun port => (htxUtil (1, port)).trans (hegress.txUtil_one port)
    · exact fun port => (htxUtil (0, port)).trans (hegress.txUtil_zero port)
    · exact (hasAddr 1).trans hegress.asAddr_one
    · exact (hasAddr 0).trans hegress.asAddr_zero
  · intro session
    rw [← hinstalled.cloneSessions]
    exact (h.table StaticTable.cloneSessions).2 hidle session
  · ext1 group
    rw [← hinstalled.mcastGroups]
    exact (h.table StaticTable.mcastGroups).2 hidle group

/-- Whatever happens, nothing but the configuration is installed, and all of it when the updates that wait have
been applied. -/
theorem configuration (h : Reachable id c s) :
    Within c s.switch ∧ (s.updates = [] → Installed c s.switch) ∧
    Relation.ReflTransGen (Step id c) s s.settle ∧ Settled s s.settle ∧ Installed c s.settle.switch := by
  obtain ⟨hrun, hsettled⟩ := run_settle id c s
  have hsettle : Reachable id c s.settle := h.trans hrun
  exact ⟨h.within, h.installed, hrun, hsettled, hsettle.installed hsettled.updates⟩

theorem configuration_sample : Within sampleSink sampleSettled.switch ∧
    (sampleSettled.updates = [] → Installed sampleSink sampleSettled.switch) ∧
    Relation.ReflTransGen (Step 1 sampleSink) sampleSettled sampleSettled.settle ∧
    Settled sampleSettled sampleSettled.settle ∧ Installed sampleSink sampleSettled.settle.switch :=
  configuration reachable_sampleSettled

end System

end ScionInt
