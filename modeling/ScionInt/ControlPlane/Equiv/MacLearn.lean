import ScionInt.ControlPlane.MacLearn
import ScionInt.ControlPlane.Equiv.StaticEntries
import ScionInt.DataPlane.Equiv.L2Switch

/-!
# The tables of the learning switch over a run

The state that the controller writes is always the one after a part of its updates: those of
`handleArbitrationUpdate` and, for every message in the digest lists that it has handled, one INSERT into
each of the two tables (`Inv.written`).  From this follow the phases of a run, `Inv.cases`: before the
digest is configured nothing is learned, and afterwards the entries are the initial ones and those for
handled messages.
-/

namespace ScionInt

open Wire

def BROADCAST : BitVec 48 := 0xFFFFFFFFFFFF

/-- The part of the state that the controller writes. -/
structure Control where
  l2 : L2Switch.Tables := {}
  mcastGroups : Table (BitVec 16) (List Replica) := {}
  digestEntries : Table (BitVec 32) DigestEntry := {}

namespace LearningState

def control (s : LearningState) : Control := ⟨s.switch.l2, s.switch.mcastGroups, s.digestEntries⟩

/-- What an update does to this part depends on this part only. -/
theorem control_insert_congr {s s' : LearningState} (h : s.control = s'.control) (e : Entity) :
    (s.insert e).control = (s'.insert e).control := by
  unfold control at h
  injection h with hl2 hgroups hdigests
  unfold control insert
  cases e with
  | tableEntry e =>
    unfold Switch.insert Switch.insertTableEntry
    dsimp only
    split_ifs
    all_goals simp only [hl2, hgroups, hdigests]
  | cloneSessionEntry e =>
    unfold Switch.insert
    simp only [hl2, hgroups, hdigests]
  | multicastGroupEntry e =>
    unfold Switch.insert Switch.insertMulticastGroup
    dsimp only
    split_ifs
    · simp only [hl2, hgroups, hdigests]
    · simp only [hl2, hgroups, hdigests]
  | digestEntry e =>
    unfold Switch.insert
    simp only [hl2, hgroups, hdigests]

theorem write_append (s : LearningState) (es es' : List Entity) :
    s.write (es ++ es') = (s.write es).write es' := List.foldl_append

theorem write_cons (s : LearningState) (e : Entity) (es : List Entity) :
    s.write (e :: es) = (s.insert e).write es := rfl

/-! ### The updates of the controller -/

section

open MacLearningCtrl

variable (s : LearningState)

theorem control_insert_buildLearnTableEntry {mac : BitVec 64} (hmac : mac.toNat < 2 ^ 48) :
    (s.insert (buildLearnTableEntry mac)).control = { s.control with
      l2.learnTable := s.control.l2.learnTable.insert (mac.setWidth 48) .no_action } := by
  have hkey : decodeValue 48 (toBitstring MAC_ADDR_BYTES mac) = some (mac.setWidth 48) :=
    decodeValue_toBitstring (by decide) hmac hmac
  unfold control insert buildLearnTableEntry Switch.insert
  dsimp only
  rw [s.switch.insertTableEntry_learn rfl, TableEntry.learn_mk hkey, insertDecoded]

theorem control_insert_buildForwardTableEntry {mac : BitVec 64} {outPort : BitVec 32}
    (hmac : mac.toNat < 2 ^ 48) (hport : outPort.toNat < 2 ^ 9) :
    (s.insert (buildForwardTableEntry mac outPort)).control = { s.control with
      l2.forwardTable := s.control.l2.forwardTable.insert (mac.setWidth 48)
        (.forward (outPort.setWidth 9)) } := by
  have hkey : decodeValue 48 (toBitstring MAC_ADDR_BYTES mac) = some (mac.setWidth 48) :=
    decodeValue_toBitstring (by decide) hmac hmac
  have hvalue : decodeValue 9 (toBitstring PORT_BYTES outPort) = some (outPort.setWidth 9) :=
    decodeValue_toBitstring (by decide) (Nat.lt_trans hport (by decide)) hport
  unfold control insert buildForwardTableEntry Switch.insert
  dsimp only
  rw [s.switch.insertTableEntry_forward rfl, TableEntry.forward_mk hkey hvalue, insertDecoded]

/-- The entries for a message. -/
def learnEntry (m : MacLearnMsgT) : Entity := buildLearnTableEntry (m.srcAddr.setWidth 64)
def forwardEntry (m : MacLearnMsgT) : Entity :=
  buildForwardTableEntry (m.srcAddr.setWidth 64) (m.ingressPort.setWidth 32)

/-- The updates for handled messages. -/
def learnedUpdates (msgs : List MacLearnMsgT) : List Entity :=
  msgs.flatMap fun m => [learnEntry m, forwardEntry m]

theorem learnedUpdates_cons (m : MacLearnMsgT) (msgs : List MacLearnMsgT) :
    learnedUpdates (m :: msgs) = learnEntry m :: forwardEntry m :: learnedUpdates msgs :=
  List.flatMap_cons

theorem learnedUpdates_append (msgs msgs' : List MacLearnMsgT) :
    learnedUpdates (msgs ++ msgs') = learnedUpdates msgs ++ learnedUpdates msgs' :=
  List.flatMap_append

theorem control_insert_learnEntry (m : MacLearnMsgT) :
    (s.insert (learnEntry m)).control = { s.control with
      l2.learnTable := s.control.l2.learnTable.insert m.srcAddr .no_action } := by
  have hmac : (m.srcAddr.setWidth 64).toNat < 2 ^ 48 := by
    rw [BitVec.toNat_setWidth_of_le (by decide)]
    exact m.srcAddr.isLt
  rw [learnEntry, control_insert_buildLearnTableEntry s hmac,
    BitVec.setWidth_setWidth_of_le m.srcAddr (by decide), BitVec.setWidth_eq]

theorem control_insert_forwardEntry (m : MacLearnMsgT) :
    (s.insert (forwardEntry m)).control = { s.control with
      l2.forwardTable := s.control.l2.forwardTable.insert m.srcAddr (.forward m.ingressPort) } := by
  have hmac : (m.srcAddr.setWidth 64).toNat < 2 ^ 48 := by
    rw [BitVec.toNat_setWidth_of_le (by decide)]
    exact m.srcAddr.isLt
  have hport : (m.ingressPort.setWidth 32).toNat < 2 ^ 9 := by
    rw [BitVec.toNat_setWidth_of_le (by decide)]
    exact m.ingressPort.isLt
  rw [forwardEntry, control_insert_buildForwardTableEntry s hmac hport,
    BitVec.setWidth_setWidth_of_le m.srcAddr (by decide), BitVec.setWidth_eq,
    BitVec.setWidth_setWidth_of_le m.ingressPort (by decide), BitVec.setWidth_eq]

/-- The controller reads a message as it was reported. -/
theorem handleData_of_encodes {d : P4Data} {m : MacLearnMsgT} (h : Encodes d m) :
    handleData d = .ok [learnEntry m, forwardEntry m] := by
  obtain ⟨srcAddr, ingressPort, rfl, hsrcAddr, hport⟩ := h
  have hmac : (fromBitstring MAC_ADDR_BYTES srcAddr : BitVec 64) = m.srcAddr.setWidth 64 := by
    apply BitVec.eq_of_toNat_eq
    rw [toNat_fromBitstring (by decide), hsrcAddr, BitVec.toNat_setWidth_of_le (by decide)]
    exact Nat.mod_eq_of_lt m.srcAddr.isLt
  have hportValue : (fromBitstring PORT_BYTES ingressPort : BitVec 32) = m.ingressPort.setWidth 32 := by
    apply BitVec.eq_of_toNat_eq
    rw [toNat_fromBitstring (by decide), hport, BitVec.toNat_setWidth_of_le (by decide)]
    exact Nat.mod_eq_of_lt (Nat.lt_trans m.ingressPort.isLt (by decide))
  unfold handleData P4Data.bytes
  dsimp only
  rw [hmac, hportValue]
  rfl

theorem mapM_handleData {data : List P4Data} {msgs : List MacLearnMsgT}
    (h : List.Forall₂ Encodes data msgs) :
    data.mapM handleData = .ok (msgs.map fun m => [learnEntry m, forwardEntry m]) := by
  induction h with
  | nil => rfl
  | cons hd _ ih =>
    rw [List.mapM_cons, handleData_of_encodes hd, ih]
    rfl

/-- The reply to a digest list: the updates for its messages, in order. -/
theorem handleDigest_of_encodes {id : BitVec 32} {l : DigestList} {msgs : List MacLearnMsgT}
    (h : List.Forall₂ Encodes l.data msgs) :
    handleDigest id l =
      if l.digestId = id then .ok (some ⟨learnedUpdates msgs, l.digestId, l.listId⟩)
      else .ok none := by
  unfold handleDigest
  split_ifs
  · rw [mapM_handleData h]
    rfl
  · rfl

end

/-! ### The phases of a run -/

/-- The updates of `handleArbitrationUpdate`. -/
def initialUpdates (id : BitVec 32) : List Entity :=
  (MacLearningCtrl.handleArbitrationUpdate id 0).flatten

/-- The initial updates in front of the digest. -/
def staticUpdates : List Entity :=
  MacLearningCtrl.createFloodMulticastGroup ++ MacLearningCtrl.installStaticTableEntries

theorem initialUpdates_eq (id : BitVec 32) :
    initialUpdates id = staticUpdates ++ [MacLearningCtrl.buildDigestEntity id] := by
  unfold initialUpdates MacLearningCtrl.handleArbitrationUpdate staticUpdates
  rw [if_pos rfl, List.flatten_cons, List.flatten_cons, List.flatten_cons, List.flatten_nil,
    List.append_nil, List.append_assoc]
  rfl

/-- The ports of the switch other than `exclude`, with their instances. -/
def floodReplicas (exclude : ℕ) : List Replica :=
  ((List.range 8).filter (· ≠ exclude)).mapIdx fun inst i =>
    { egressPort := BitVec.ofNat 9 i, inst := BitVec.ofNat 16 inst }

/-- The flooding group of every port. -/
def floodGroups : Table (BitVec 16) (List Replica) where
  entries := (List.range 8).map fun i => (BitVec.ofNat 16 i + 1, floodReplicas i)

/-- What the controller has written when the digest is configured. -/
def installed (id : BitVec 32) : Control where
  l2 := { learnTable := { entries := [(BROADCAST, .no_action)], size := some 1024 } }
  mcastGroups := floodGroups
  digestEntries := { entries := [(id, ⟨id, 0, 1, 1000 * 1000⟩)] }

theorem control_write_createFloodMulticastGroup :
    (({} : LearningState).write MacLearningCtrl.createFloodMulticastGroup).control =
      { mcastGroups := floodGroups } := by
  rfl

theorem control_insert_buildDigestEntity (s : LearningState) (id : BitVec 32) :
    (s.insert (MacLearningCtrl.buildDigestEntity id)).control = { s.control with
      digestEntries := s.control.digestEntries.insert id ⟨id, 0, 1, 1000 * 1000⟩ } := rfl

theorem control_write_initialUpdates (id : BitVec 32) :
    (({} : LearningState).write (initialUpdates id)).control = installed id := by
  have hmac : (0xFFFFFFFFFFFF : BitVec 64).toNat < 2 ^ 48 := by decide
  rw [initialUpdates_eq, write_append, staticUpdates, write_append]
  show (LearningState.insert (LearningState.insert _ _) _).control = _
  rw [control_insert_buildDigestEntity, control_insert_buildLearnTableEntry _ hmac,
    control_write_createFloodMulticastGroup]
  rfl

/-- A static update neither configures a digest nor forwards anything. -/
theorem control_insert_static (s : LearningState) {e : Entity} (he : e ∈ staticUpdates) :
    (s.insert e).control.digestEntries = s.control.digestEntries ∧
    (s.insert e).control.l2.forwardTable = s.control.l2.forwardTable := by
  rcases List.mem_append.mp he with he | he
  · obtain ⟨i, -, rfl⟩ := List.mem_map.mp he
    unfold control insert MacLearningCtrl.buildFloodMcastGrpEntity Switch.insert
      Switch.insertMulticastGroup
    dsimp only
    split_ifs
    · exact ⟨rfl, rfl⟩
    · exact ⟨rfl, rfl⟩
  · rw [List.mem_singleton.mp he, control_insert_buildLearnTableEntry s (by decide)]
    exact ⟨rfl, rfl⟩

theorem control_write_static (s : LearningState) {es : List Entity} (hes : es ⊆ staticUpdates) :
    (s.write es).control.digestEntries = s.control.digestEntries ∧
    (s.write es).control.l2.forwardTable = s.control.l2.forwardTable := by
  refine List.foldlRecOn (motive := fun s' : LearningState =>
    s'.control.digestEntries = s.control.digestEntries ∧
      s'.control.l2.forwardTable = s.control.l2.forwardTable) es insert ⟨rfl, rfl⟩ ?_
  rintro s' ⟨hdigests, hforward⟩ e he
  obtain ⟨hdigests', hforward'⟩ := control_insert_static s' (hes he)
  exact ⟨hdigests'.trans hdigests, hforward'.trans hforward⟩

/-- What updates for the messages `msgs` do. -/
structure Learns (msgs : List MacLearnMsgT) (c c' : Control) : Prop where
  mcastGroups : c'.mcastGroups = c.mcastGroups
  digestEntries : c'.digestEntries = c.digestEntries
  learnTable : ∀ mac action, c.l2.learnTable.lookup mac = some action →
    c'.l2.learnTable.lookup mac = some action
  forwardTable : ∀ e ∈ c'.l2.forwardTable.entries, e ∈ c.l2.forwardTable.entries ∨
    ∃ m ∈ msgs, e = (m.srcAddr, .forward m.ingressPort)

theorem Learns.refl (msgs : List MacLearnMsgT) (c : Control) : Learns msgs c c :=
  ⟨rfl, rfl, fun _ _ h => h, fun _ he => .inl he⟩

theorem Learns.trans {msgs : List MacLearnMsgT} {c1 c2 c3 : Control} (h12 : Learns msgs c1 c2)
    (h23 : Learns msgs c2 c3) : Learns msgs c1 c3 where
  mcastGroups := h23.mcastGroups.trans h12.mcastGroups
  digestEntries := h23.digestEntries.trans h12.digestEntries
  learnTable mac action h := h23.learnTable mac action (h12.learnTable mac action h)
  forwardTable e he := (h23.forwardTable e he).elim (h12.forwardTable e) .inr

theorem learns_insert (s : LearningState) {msgs : List MacLearnMsgT} {e : Entity}
    (he : e ∈ learnedUpdates msgs) : Learns msgs s.control (s.insert e).control := by
  obtain ⟨m, hm, he⟩ := List.mem_flatMap.mp he
  rcases List.mem_pair.mp he with rfl | rfl
  · rw [control_insert_learnEntry]
    exact ⟨rfl, rfl, fun mac action h => Table.lookup_insert_of_some h, fun e he => .inl he⟩
  · rw [control_insert_forwardEntry]
    refine ⟨rfl, rfl, fun mac action h => h, fun e he => ?_⟩
    exact (Table.mem_entries_insert he).imp id fun he => ⟨m, hm, he⟩

theorem learns_write (s : LearningState) {msgs : List MacLearnMsgT} {es : List Entity}
    (hes : es ⊆ learnedUpdates msgs) : Learns msgs s.control (s.write es).control := by
  refine List.foldlRecOn (motive := fun s' : LearningState => Learns msgs s.control s'.control) es
    insert (Learns.refl msgs s.control) ?_
  intro s' h e he
  exact h.trans (learns_insert s' (hes he))

/-! ### The invariant -/

/-- The message names the source address and the port of the frame. -/
def Names (m : MacLearnMsgT) (a : Arrival) : Prop :=
  m.ingressPort = a.ingressPort ∧
  ∃ (eth : EthernetH) (rest : List Byte), a.frame = emit eth ++ rest ∧ eth.srcAddr = m.srcAddr

structure Inv (id : BitVec 32) (s : LearningState) : Prop where
  written : ∃ done, done ++ s.pending = initialUpdates id ++ learnedUpdates s.handled ∧
    s.control = (({} : LearningState).write done).control
  handled : ∀ m ∈ s.handled, s.Reported m
  reported : ∀ r ∈ s.history, ∀ m ∈ r.2, Names m r.1 ∧ m.srcAddr ≠ BROADCAST

variable {id : BitVec 32} {s s' : LearningState}

/-- A part of the initial updates, without the digest, or all of them and a part of the others. -/
theorem initialUpdates_cases {done pending learned : List Entity}
    (h : done ++ pending = initialUpdates id ++ learned) :
    done ⊆ staticUpdates ∧ pending ≠ [] ∨
    ∃ es, done = initialUpdates id ++ es ∧ es ++ pending = learned := by
  rw [initialUpdates_eq, List.append_assoc] at h
  rcases List.append_eq_append_iff.mp h with ⟨es, hstatic, hpending⟩ | ⟨es, hes, hlearned⟩
  · refine .inl ⟨?_, ?_⟩
    · rw [hstatic]
      exact List.subset_append_left done es
    · simp [hpending]
  · cases es with
    | nil =>
      refine .inl ⟨?_, ?_⟩
      · rw [hes, List.append_nil]
        exact List.Subset.refl staticUpdates
      · rw [List.nil_append] at hlearned
        simp [← hlearned]
    | cons e es =>
      rw [List.singleton_append, List.cons_append, List.cons.injEq] at hlearned
      obtain ⟨rfl, hlearned⟩ := hlearned
      refine .inr ⟨es, ?_, hlearned.symm⟩
      rw [hes, initialUpdates_eq, List.append_assoc, List.singleton_append]

/-- Either the digest is still to be configured, and nothing is forwarded, or the initial updates and a
part of those for the handled messages have been applied. -/
theorem Inv.cases (h : Inv id s) :
    s.pending ≠ [] ∧ s.control.digestEntries = {} ∧
      s.control.l2.forwardTable = { size := some 1024 } ∨
    ∃ done, done ++ s.pending = learnedUpdates s.handled ∧
      s.control = ((({} : LearningState).write (initialUpdates id)).write done).control := by
  obtain ⟨done, hdone, hcontrol⟩ := h.written
  rcases initialUpdates_cases hdone with ⟨hstatic, hpending⟩ | ⟨es, rfl, hes⟩
  · obtain ⟨hdigests, hforward⟩ := control_write_static {} hstatic
    rw [hcontrol, hdigests, hforward]
    exact .inl ⟨hpending, rfl, rfl⟩
  · rw [write_append] at hcontrol
    exact .inr ⟨es, hes, hcontrol⟩

/-- What the applied part of the updates does. -/
theorem learns_installed {msgs : List MacLearnMsgT} {done pending : List Entity}
    (h : done ++ pending = learnedUpdates msgs) :
    Learns msgs (installed id)
      ((({} : LearningState).write (initialUpdates id)).write done).control := by
  rw [← control_write_initialUpdates]
  refine learns_write _ ?_
  rw [← h]
  exact List.subset_append_left done pending

/-- The entries before and after the digest is configured. -/
theorem Inv.learns (h : Inv id s) :
    s.control.digestEntries = {} ∧ s.control.l2.forwardTable = { size := some 1024 } ∨
    Learns s.handled (installed id) s.control := by
  rcases h.cases with ⟨-, hinstalling⟩ | ⟨done, hdone, hcontrol⟩
  · exact .inl hinstalling
  · rw [hcontrol]
    exact .inr (learns_installed hdone)

/-- Between two requests. -/
theorem Inv.learns_idle (h : Inv id s) (hidle : s.pending = []) :
    Learns s.handled (installed id) s.control := by
  rcases h.cases with ⟨hpending, -⟩ | ⟨done, hdone, hcontrol⟩
  · exact absurd hidle hpending
  · rw [hcontrol]
    exact learns_installed hdone

theorem lookup_digestEntries_installed (id : BitVec 32) :
    ((installed id).digestEntries.lookup id).isSome := by
  unfold installed Table.lookup
  rw [List.lookup_cons_self]
  rfl

theorem Inv.digest_idle (h : Inv id s) (hidle : s.pending = []) :
    (s.digestEntries.lookup id).isSome := by
  show (s.control.digestEntries.lookup id).isSome
  rw [(h.learns_idle hidle).digestEntries]
  exact lookup_digestEntries_installed id

theorem Inv.learns_of_digest (h : Inv id s) (hdigest : (s.digestEntries.lookup id).isSome) :
    Learns s.handled (installed id) s.control := by
  refine h.learns.resolve_left ?_
  rintro ⟨hdigests, -⟩
  have hnone : s.digestEntries.lookup id = none := by
    show s.control.digestEntries.lookup id = none
    rw [hdigests, Table.lookup_empty]
  rw [hnone] at hdigest
  cases hdigest

/-- While the digest is configured the broadcast address is in `learn_table`. -/
theorem Inv.learnTable_broadcast (h : Inv id s) (hdigest : (s.digestEntries.lookup id).isSome) :
    s.switch.l2.learnTable.lookup BROADCAST = some .no_action :=
  (h.learns_of_digest hdigest).learnTable BROADCAST .no_action rfl

/-- Every forwarding entry is for a handled message. -/
theorem Inv.forwardTable (h : Inv id s) {e : BitVec 48 × ForwardAction}
    (he : e ∈ s.switch.l2.forwardTable.entries) :
    ∃ m ∈ s.handled, e = (m.srcAddr, .forward m.ingressPort) := by
  rcases h.learns with ⟨-, hforward⟩ | hlearns
  · have hnone : s.switch.l2.forwardTable.entries = [] := by
      show s.control.l2.forwardTable.entries = []
      rw [hforward]
    rw [hnone] at he
    cases he
  · exact (hlearns.forwardTable e he).resolve_left List.not_mem_nil

/-! ### The steps -/

theorem reported_append {r : Arrival × List MacLearnMsgT} {m : MacLearnMsgT} (h : s.Reported m) :
    ({ s with history := s.history ++ [r] } : LearningState).Reported m := by
  obtain ⟨r', hr', hm⟩ := h
  exact ⟨r', List.mem_append_left _ hr', hm⟩

theorem Inv.receive (h : Inv id s) (a : Arrival) : Inv id (s.receive id a) where
  written := h.written
  handled m hm := reported_append (h.handled m hm)
  reported := by
    intro r hr m hm
    rcases List.mem_append.mp hr with hr | hr
    · exact h.reported r hr m hm
    · rw [List.mem_singleton] at hr
      subst hr
      dsimp only at hm ⊢
      split_ifs at hm with hdigest
      · obtain ⟨hport, hlookup, hframe⟩ := Switch.mem_digests_ingress hm
        refine ⟨⟨hport, hframe⟩, fun hbroadcast => hlookup ?_⟩
        rw [hbroadcast]
        exact h.learnTable_broadcast hdigest
      · cases hm

theorem Inv.handleDigest (h : Inv id s) {l : DigestList} {msgs : List MacLearnMsgT}
    {reply : DigestReply} (hidle : s.pending = []) (hreported : ∀ m ∈ msgs, s.Reported m)
    (hdata : List.Forall₂ Encodes l.data msgs)
    (hreply : MacLearningCtrl.handleDigest id l = .ok (some reply)) :
    Inv id { s with pending := reply.request, handled := s.handled ++ msgs } where
  written := by
    obtain ⟨done, hdone, hcontrol⟩ := h.written
    rw [hidle, List.append_nil] at hdone
    refine ⟨done, ?_, hcontrol⟩
    rw [handleDigest_of_encodes hdata] at hreply
    split_ifs at hreply
    · obtain rfl := Option.some.inj (Except.ok.inj hreply)
      rw [hdone]
      show initialUpdates id ++ learnedUpdates s.handled ++ learnedUpdates msgs =
        initialUpdates id ++ learnedUpdates (s.handled ++ msgs)
      rw [learnedUpdates_append, List.append_assoc]
    · exact absurd (Except.ok.inj hreply) (by simp)
  handled m hm := (List.mem_append.mp hm).elim (h.handled m) (hreported m)
  reported := h.reported

theorem Inv.write (h : Inv id s) {e : Entity} {es : List Entity} (hpending : s.pending = e :: es) :
    Inv id { s.insert e with pending := es } where
  written := by
    obtain ⟨done, hdone, hcontrol⟩ := h.written
    refine ⟨done ++ [e], ?_, ?_⟩
    · rw [List.append_assoc, List.singleton_append, ← hpending]
      exact hdone
    · rw [write_append]
      exact control_insert_congr hcontrol e
  handled := h.handled
  reported := h.reported

theorem Inv.step (h : Inv id s) (hstep : Step id s s') : Inv id s' := by
  cases hstep with
  | receive a => exact h.receive a
  | handleDigest hidle hreported hdata hreply => exact h.handleDigest hidle hreported hdata hreply
  | write hpending => exact h.write hpending
  | other hl2 hmcastGroups =>
    obtain ⟨done, hdone, hcontrol⟩ := h.written
    refine ⟨⟨done, hdone, ?_⟩, h.handled, h.reported⟩
    rw [← hcontrol]
    unfold control
    rw [hl2, hmcastGroups]

theorem Inv.arbitration (h : Inv id s) (code : ℕ) : Inv id (s.handleArbitrationUpdate id code) := by
  unfold handleArbitrationUpdate
  split_ifs with hcode
  · refine ⟨⟨[], ?_, rfl⟩, fun m hm => absurd hm List.not_mem_nil, h.reported⟩
    rw [hcode]
    exact (List.append_nil _).symm
  · exact h

theorem Reachable.inv (h : Reachable id s) : Inv id s := by
  induction h with
  | start =>
    refine ⟨⟨[], (List.append_nil _).symm, rfl⟩, ?_, ?_⟩
    · exact fun m hm => absurd hm List.not_mem_nil
    · exact fun r hr => absurd hr List.not_mem_nil
  | step _ hstep ih => exact ih.step hstep
  | arbitration _ _ code ih => exact ih.arbitration code

/-- A handled message was reported for a frame that it names, never for the broadcast address. -/
theorem Inv.handled_names (h : Inv id s) {m : MacLearnMsgT} (hm : m ∈ s.handled) :
    ∃ r ∈ s.history, m ∈ r.2 ∧ Names m r.1 ∧ m.srcAddr ≠ BROADCAST := by
  obtain ⟨r, hr, hmr⟩ := h.handled m hm
  exact ⟨r, hr, hmr, h.reported r hr m hmr⟩

/-! ### The tables between two requests -/

theorem l2_write_learnedUpdates (s : LearningState) (msgs : List MacLearnMsgT) :
    (s.write (learnedUpdates msgs)).control.l2 = {
      learnTable := s.control.l2.learnTable.insertList
        (msgs.map fun m => (m.srcAddr, .no_action))
      forwardTable := s.control.l2.forwardTable.insertList
        (msgs.map fun m => (m.srcAddr, .forward m.ingressPort)) } := by
  induction msgs generalizing s with
  | nil => rfl
  | cons m msgs ih =>
    have hstep : ((s.insert (learnEntry m)).insert (forwardEntry m)).control.l2 = {
        learnTable := s.control.l2.learnTable.insert m.srcAddr .no_action
        forwardTable := s.control.l2.forwardTable.insert m.srcAddr (.forward m.ingressPort) } := by
      rw [control_insert_forwardEntry, control_insert_learnEntry]
    rw [learnedUpdates_cons, write_cons, write_cons, ih, hstep]
    rfl

/-- Between two requests all updates for the handled messages have been applied. -/
theorem Inv.l2_idle (h : Inv id s) (hidle : s.pending = []) :
    s.switch.l2 = {
      learnTable := (installed id).l2.learnTable.insertList
        (s.handled.map fun m => (m.srcAddr, .no_action))
      forwardTable := (installed id).l2.forwardTable.insertList
        (s.handled.map fun m => (m.srcAddr, .forward m.ingressPort)) } := by
  rcases h.cases with ⟨hpending, -⟩ | ⟨done, hdone, hcontrol⟩
  · exact absurd hidle hpending
  · rw [hidle, List.append_nil] at hdone
    show s.control.l2 = _
    rw [hcontrol, hdone, l2_write_learnedUpdates, control_write_initialUpdates]

/-! ### Flooding -/

/-- The ports of the switch without the given one. -/
def otherPorts (port : BitVec 9) : List (BitVec 9) :=
  ((List.range NUM_SWITCH_PORTS).map (BitVec.ofNat 9)).filter (· ≠ port)

theorem mem_otherPorts {port q : BitVec 9} : q ∈ otherPorts port ↔ q.toNat < 8 ∧ q ≠ port := by
  have hrange : q ∈ (List.range NUM_SWITCH_PORTS).map (BitVec.ofNat 9) ↔ q.toNat < 8 := by
    rw [List.mem_map]
    constructor
    · rintro ⟨i, hi, rfl⟩
      have hlt : i < 8 := List.mem_range.mp hi
      rw [BitVec.toNat_ofNat]
      omega
    · intro hq
      exact ⟨q.toNat, List.mem_range.mpr hq, by rw [BitVec.ofNat_toNat, BitVec.setWidth_eq]⟩
  rw [otherPorts, List.mem_filter, hrange, decide_eq_true_eq]

/-- The group `port + 1` leads to all ports but `port`. -/
theorem lookup_floodGroups {port : BitVec 9} (hport : port.toNat < 8) :
    (port + 1).setWidth 16 ≠ 0 ∧
    floodGroups.lookup ((port + 1).setWidth 16) = some (floodReplicas port.toNat) ∧
    (floodReplicas port.toNat).map (fun r => r.egressPort) = otherPorts port := by
  obtain ⟨i, hi, rfl⟩ : ∃ i < 8, port = BitVec.ofNat 9 i :=
    ⟨port.toNat, hport, by rw [BitVec.ofNat_toNat, BitVec.setWidth_eq]⟩
  clear hport
  revert i
  decide

/-- A frame from one of the ports whose destination address is not in `forward_table` leaves on the
other ones. -/
theorem Inv.copyPorts_flood (h : Inv id s) (hdigest : (s.digestEntries.lookup id).isSome)
    {a : Arrival} {eth : EthernetH} {rest : List Byte} (hframe : a.frame = emit eth ++ rest)
    (hport : a.ingressPort.toNat < 8) (hdst : s.switch.l2.forwardTable.lookup eth.dstAddr = none) :
    s.switch.copyPorts a = otherPorts a.ingressPort := by
  obtain ⟨hne, hgroup, hports⟩ := lookup_floodGroups hport
  have hgroups : s.switch.mcastGroups = floodGroups := (h.learns_of_digest hdigest).mcastGroups
  rw [← hgroups] at hgroup
  rw [Switch.copyPorts_flood hframe hdst hne hgroup, hports]

/-! ### Runs -/

/-- The pending updates can be applied. -/
theorem Reachable.drain (h : Reachable id s) :
    ∃ s', Reachable id s' ∧ s'.pending = [] ∧ s'.history = s.history ∧ s'.handled = s.handled := by
  induction hpending : s.pending generalizing s with
  | nil => exact ⟨s, h, hpending, rfl, rfl⟩
  | cons e es ih =>
    obtain ⟨s', hs', hidle, hhistory, hhandled⟩ := ih (h.step (.write hpending)) rfl
    exact ⟨s', hs', hidle, hhistory, hhandled⟩

theorem foldl_receive (s : LearningState) (as : List Arrival) :
    as.foldl (LearningState.receive id) s = { s with
      history := s.history ++ as.map fun a => (a,
        if (s.digestEntries.lookup id).isSome then (s.switch.ingress a).digests else []) } := by
  induction as generalizing s with
  | nil => simp
  | cons a as ih =>
    rw [List.foldl_cons, ih, List.map_cons]
    unfold LearningState.receive
    simp only [List.append_assoc, List.singleton_append]

/-- Frames can arrive one after the other. -/
theorem Reachable.receive (h : Reachable id s) (as : List Arrival) :
    Reachable id (as.foldl (LearningState.receive id) s) := by
  induction as generalizing s with
  | nil => exact h
  | cons a as ih => exact ih (h.step (.receive s a))

end LearningState

/-- A frame without payload. -/
def etherFrame (dstAddr srcAddr : BitVec 48) (port : BitVec 9) : Arrival where
  ingressPort := port
  frame := emit { dstAddr := dstAddr, srcAddr := srcAddr, etherType := 0 : EthernetH }
  ingressTimestamp := 0
  egressTimestamp _ _ := 0

theorem frame_etherFrame (dstAddr srcAddr : BitVec 48) (port : BitVec 9) :
    (etherFrame dstAddr srcAddr port).frame =
      emit { dstAddr := dstAddr, srcAddr := srcAddr, etherType := 0 : EthernetH } ++ [] :=
  (List.append_nil _).symm

/-- The digest for a message. -/
def MacLearnMsgT.encode (m : MacLearnMsgT) : P4Data :=
  .struct [.bitstring (toBytes 6 m.srcAddr.toNat), .bitstring (toBytes 2 m.ingressPort.toNat)]

namespace LearningState

variable {id : BitVec 32}

theorem encodes_encode (m : MacLearnMsgT) : Encodes m.encode m := by
  refine ⟨_, _, rfl, ?_, ?_⟩
  · rw [ofBytes_toBytes]
    exact Nat.mod_eq_of_lt m.srcAddr.isLt
  · rw [ofBytes_toBytes]
    exact Nat.mod_eq_of_lt (Nat.lt_trans m.ingressPort.isLt (by decide))

/-- Any messages can come to the controller, except for the broadcast address. -/
theorem exists_handled (id : BitVec 32) {msgs : List MacLearnMsgT}
    (hmsgs : ∀ m ∈ msgs, m.srcAddr ≠ BROADCAST) :
    ∃ s, Reachable id s ∧ s.pending = [] ∧ s.handled = msgs := by
  have hstart : Reachable id (handleArbitrationUpdate id 0 {}) := .start
  obtain ⟨s1, h1, hidle, -, hhandled⟩ := hstart.drain
  have hinv := h1.inv
  -- the frames that cause the messages
  have h2 := h1.receive (msgs.map fun m => etherFrame BROADCAST m.srcAddr m.ingressPort)
  rw [foldl_receive, List.map_map] at h2
  have hreported : ∀ m ∈ msgs, ({ s1 with
      history := s1.history ++ msgs.map ((fun a => (a,
        if (s1.digestEntries.lookup id).isSome then (s1.switch.ingress a).digests else [])) ∘
          fun m => etherFrame BROADCAST m.srcAddr m.ingressPort) } : LearningState).Reported m := by
    intro m hm
    refine ⟨_, List.mem_append_right _ (List.mem_map_of_mem hm), ?_⟩
    have hnew : s1.switch.l2.learnTable.lookup m.srcAddr ≠ some .no_action := by
      intro hlookup
      have hmem := Table.mem_entries_of_lookup hlookup
      rw [hinv.l2_idle hidle, hhandled] at hmem
      exact hmsgs m hm (congrArg Prod.fst (List.mem_singleton.mp hmem))
    dsimp only [Function.comp_apply]
    rw [if_pos (hinv.digest_idle hidle), Switch.digests_ingress _ (frame_etherFrame _ _ _),
      if_neg hnew]
    exact List.mem_singleton.mpr rfl
  -- one digest list with all of them
  have hdata : List.Forall₂ Encodes (msgs.map MacLearnMsgT.encode) msgs := by
    rw [List.forall₂_map_left_iff]
    exact List.forall₂_same.mpr fun m _ => encodes_encode m
  have hreply : MacLearningCtrl.handleDigest id ⟨id, 0, msgs.map MacLearnMsgT.encode⟩ =
      .ok (some ⟨learnedUpdates msgs, id, 0⟩) := by
    rw [handleDigest_of_encodes hdata, if_pos rfl]
  obtain ⟨s3, h3, hidle3, -, hhandled3⟩ :=
    Reachable.drain (h2.step (.handleDigest hidle hreported hdata hreply))
  refine ⟨s3, h3, hidle3, ?_⟩
  rw [hhandled3]
  show s1.handled ++ msgs = msgs
  rw [hhandled]
  rfl

/-- A run in which `02:00:00:00:00:01` is learned behind port 3. -/
theorem exists_sampleHost : ∃ s, Reachable 1 s ∧ (s.digestEntries.lookup 1).isSome ∧
    s.switch.l2.forwardTable.lookup 0x020000000001 = some (.forward 3) := by
  obtain ⟨s, h, hidle, hhandled⟩ := exists_handled 1
    (show ∀ m ∈ [MacLearnMsgT.mk 0x020000000001 3], m.srcAddr ≠ BROADCAST by decide)
  refine ⟨s, h, h.inv.digest_idle hidle, ?_⟩
  rw [h.inv.l2_idle hidle, hhandled]
  rfl

end LearningState

end ScionInt
