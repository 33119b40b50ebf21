import ScionInt.ControlPlane.Equiv.MacLearn

/-!
# What the switch learns

`justified`: every forwarding entry goes back to a frame that was reported, and it stays.  `agree_iff`:
`learn_table` and `forward_table` are declared with the same size, but `learn_table` also holds the entry
for the broadcast address, so that the tables agree exactly if at most 1023 addresses were learned.
-/

namespace ScionInt

open Wire

namespace LearningState

variable {id : BitVec 32} {s s' : LearningState}

/-! ### The forwarding table -/

theorem lookup_insertDecoded_of_some {K A : Type} [DecidableEq K] {t : Table K A}
    (e : Option (K × A)) {k : K} {a : A} (h : t.lookup k = some a) :
    (insertDecoded t e).lookup k = some a := by
  cases e with
  | none => exact h
  | some e => exact Table.lookup_insert_of_some h

/-- No update changes a forwarding entry. -/
theorem lookup_forwardTable_insert (sw : Switch) (e : Entity) {mac : BitVec 48} {action : ForwardAction}
    (h : sw.l2.forwardTable.lookup mac = some action) :
    (sw.insert e).l2.forwardTable.lookup mac = some action := by
  unfold Switch.insert
  cases e with
  | tableEntry e =>
    unfold Switch.insertTableEntry
    dsimp only
    split_ifs
    case pos => exact h
    case pos => exact h
    case pos => exact h
    case pos => exact h
    case pos => exact h
    case pos => exact lookup_insertDecoded_of_some _ h
    case neg => exact h
  | cloneSessionEntry e => exact h
  | multicastGroupEntry e =>
    unfold Switch.insertMulticastGroup
    dsimp only
    split_ifs
    · exact h
    · exact h
  | digestEntry e => exact h

theorem Step.lookup_forwardTable (hstep : Step id s s') {mac : BitVec 48} {action : ForwardAction}
    (h : s.switch.l2.forwardTable.lookup mac = some action) :
    s'.switch.l2.forwardTable.lookup mac = some action := by
  cases hstep with
  | receive a => exact h
  | handleDigest => exact h
  | write hpending => exact lookup_forwardTable_insert s.switch _ h
  | other hl2 hmcastGroups =>
    show Table.lookup _ mac = _
    rw [hl2]
    exact h

/-- What the switch forwards by: every entry goes back to a frame that was reported, no step that keeps
the pipeline changes an entry, and the broadcast address has none. -/
structure Justified (id : BitVec 32) (s : LearningState) : Prop where
  entries : ∀ mac action, s.switch.l2.forwardTable.lookup mac = some action →
    ∃ port : BitVec 9, action = .forward port ∧ ⟨mac, port⟩ ∈ s.handled ∧
    ∃ r ∈ s.history, ⟨mac, port⟩ ∈ r.2 ∧ r.1.ingressPort = port ∧
    ∃ (eth : EthernetH) (rest : List Byte), r.1.frame = emit eth ++ rest ∧ eth.srcAddr = mac
  stable : ∀ s', Relation.ReflTransGen (Step id) s s' →
    ∀ mac action, s.switch.l2.forwardTable.lookup mac = some action →
    s'.switch.l2.forwardTable.lookup mac = some action
  broadcast : s.switch.l2.forwardTable.lookup BROADCAST = none
  flooded : ∀ (a : Arrival) (eth : EthernetH) (rest : List Byte), a.frame = emit eth ++ rest →
    eth.dstAddr = BROADCAST →
    (s.switch.ingress a).packet.stdMeta.mcastGrp = (a.ingressPort + 1).setWidth 16 ∧
    ((s.digestEntries.lookup id).isSome → a.ingressPort.toNat < 8 →
      s.switch.copyPorts a = otherPorts a.ingressPort)

theorem Inv.lookup_broadcast (h : Inv id s) :
    s.switch.l2.forwardTable.lookup BROADCAST = none := by
  by_contra hne
  obtain ⟨action, haction⟩ := Option.ne_none_iff_exists'.mp hne
  obtain ⟨m, hm, he⟩ := h.forwardTable (Table.mem_entries_of_lookup haction)
  obtain ⟨-, -, -, -, hbroadcast⟩ := h.handled_names hm
  exact hbroadcast (congrArg Prod.fst he).symm

theorem justified (h : Reachable id s) : Justified id s := by
  have hinv := h.inv
  constructor
  · intro mac action haction
    obtain ⟨m, hm, he⟩ := hinv.forwardTable (Table.mem_entries_of_lookup haction)
    obtain ⟨rfl, rfl⟩ := Prod.mk.inj he
    obtain ⟨r, hr, hmr, ⟨hport, hframe⟩, -⟩ := hinv.handled_names hm
    exact ⟨m.ingressPort, rfl, hm, r, hr, hmr, hport.symm, hframe⟩
  · intro s' hrun mac action haction
    induction hrun with
    | refl => exact haction
    | tail _ hstep ih => exact hstep.lookup_forwardTable ih
  · exact hinv.lookup_broadcast
  · intro a eth rest hframe hdst
    have hlookup := hinv.lookup_broadcast
    rw [← hdst] at hlookup
    exact ⟨Switch.mcastGrp_flood hframe hlookup, fun hdigest hport =>
      hinv.copyPorts_flood hdigest hframe hport hlookup⟩

/-- A run in which the host `02:00:00:00:00:01` is learned behind port 3. -/
theorem justified_sample : ∃ s, Reachable 1 s ∧
    s.switch.l2.forwardTable.lookup 0x020000000001 = some (.forward 3) ∧ Justified 1 s := by
  obtain ⟨s, h, -, hlookup⟩ := exists_sampleHost
  exact ⟨s, h, hlookup, justified h⟩

/-! ### The capacity of the tables -/

/-- The addresses in the digest lists that the controller has handled. -/
def addresses (s : LearningState) : List (BitVec 48) := s.handled.map fun m => m.srcAddr

theorem Inv.records_forwardTable (h : Inv id s) (hidle : s.pending = []) :
    s.switch.l2.forwardTable.Records 1024 s.addresses := by
  have hrecords := (Table.records_empty 1024 (A := ForwardAction)).insertList
    (s.handled.map fun m => (m.srcAddr, .forward m.ingressPort))
  rw [List.map_map] at hrecords
  rw [h.l2_idle hidle]
  exact hrecords

theorem Inv.records_learnTable (h : Inv id s) (hidle : s.pending = []) :
    s.switch.l2.learnTable.Records 1024 (BROADCAST :: s.addresses) := by
  have hrecords := ((Table.records_empty 1024 (A := LearnAction)).insert BROADCAST
    .no_action).insertList (s.handled.map fun m => (m.srcAddr, .no_action))
  rw [List.map_map] at hrecords
  rw [h.l2_idle hidle]
  exact hrecords

/-- The broadcast address is not learned. -/
theorem Inv.broadcast_notMem (h : Inv id s) : BROADCAST ∉ s.addresses := by
  intro hmem
  obtain ⟨m, hm, hsrc⟩ := List.mem_map.mp hmem
  obtain ⟨-, -, -, -, hbroadcast⟩ := h.handled_names hm
  exact hbroadcast hsrc

/-- The sizes of the tables. -/
theorem Inv.length_keys (h : Inv id s) (hidle : s.pending = []) :
    s.switch.l2.learnTable.keys.length = min 1024 (s.addresses.dedup.length + 1) ∧
    s.switch.l2.forwardTable.keys.length = min 1024 s.addresses.dedup.length := by
  rw [(h.records_learnTable hidle).length_keys, (h.records_forwardTable hidle).length_keys,
    List.dedup_cons_of_notMem h.broadcast_notMem, List.length_cons]
  exact ⟨rfl, rfl⟩

/-! ### Agreement -/

/-- The learning switch does not report what it forwards by: the addresses in `learn_table` are the
broadcast address and those in `forward_table`, and no frame from one of the latter causes a digest. -/
structure Agree (s : LearningState) : Prop where
  keys : ∀ mac, mac ∈ s.switch.l2.learnTable.keys ↔
    mac ∈ s.switch.l2.forwardTable.keys ∨ mac = BROADCAST
  silent : ∀ (a : Arrival) (eth : EthernetH) (rest : List Byte), a.frame = emit eth ++ rest →
    eth.srcAddr ∈ s.switch.l2.forwardTable.keys → (s.switch.ingress a).digests = []

theorem Inv.lookup_learnTable (h : Inv id s) (hidle : s.pending = []) {mac : BitVec 48}
    (hmac : mac ∈ s.switch.l2.learnTable.keys) :
    s.switch.l2.learnTable.lookup mac = some .no_action := by
  obtain ⟨action, haction⟩ := Option.ne_none_iff_exists'.mp (Table.lookup_ne_none_iff.mpr hmac)
  have hmem := Table.mem_entries_of_lookup haction
  rw [h.l2_idle hidle] at hmem
  rcases Table.mem_entries_insertList hmem with hmem | hmem
  · exact haction.trans (congrArg (fun e => some e.2) (List.mem_singleton.mp hmem))
  · obtain ⟨m, -, hm⟩ := List.mem_map.mp hmem
    exact haction.trans (congrArg (fun e => some e.2) hm.symm)

/-- Tables that agree differ by one entry. -/
theorem Inv.length_keys_of_agree (h : Inv id s) (hidle : s.pending = []) (hagree : Agree s) :
    s.switch.l2.learnTable.keys.length = s.switch.l2.forwardTable.keys.length + 1 := by
  have hforward := h.records_forwardTable hidle
  have hnew : BROADCAST ∉ s.switch.l2.forwardTable.keys :=
    fun hmem => h.broadcast_notMem (hforward.subset hmem)
  have hperm : List.Perm s.switch.l2.learnTable.keys
      (BROADCAST :: s.switch.l2.forwardTable.keys) := by
    refine (List.perm_ext_iff_of_nodup (h.records_learnTable hidle).nodup
      (List.nodup_cons.mpr ⟨hnew, hforward.nodup⟩)).mpr ?_
    intro mac
    rw [hagree.keys, List.mem_cons, or_comm]
  exact hperm.length_eq

/-- Between two requests the tables agree exactly if the controller has handled at most 1023
addresses. -/
theorem agree_iff (h : Reachable id s) (hidle : s.pending = []) :
    Agree s ↔ s.addresses.dedup.length ≤ 1023 := by
  have hinv := h.inv
  have hlearn := hinv.records_learnTable hidle
  have hforward := hinv.records_forwardTable hidle
  constructor
  · intro hagree
    -- from 1024 addresses on both tables hold 1024 keys
    have hlen := hinv.length_keys_of_agree hidle hagree
    obtain ⟨hlearnLen, hforwardLen⟩ := hinv.length_keys hidle
    omega
  · intro hfit
    -- no INSERT has failed
    have hlearnFit : (BROADCAST :: s.addresses).dedup.length ≤ 1024 := by
      rw [List.dedup_cons_of_notMem hinv.broadcast_notMem, List.length_cons]
      omega
    have hkeys : ∀ mac, mac ∈ s.switch.l2.learnTable.keys ↔
        mac ∈ s.switch.l2.forwardTable.keys ∨ mac = BROADCAST := by
      intro mac
      rw [hlearn.mem_keys_iff hlearnFit, hforward.mem_keys_iff (by omega), List.mem_cons, or_comm]
    refine ⟨hkeys, ?_⟩
    intro a eth rest hframe hsrc
    have hlookup := hinv.lookup_learnTable hidle ((hkeys eth.srcAddr).mpr (.inl hsrc))
    rw [Switch.digests_ingress _ hframe, if_pos hlookup]

/-- `n` hosts behind port 0. -/
def sampleHosts (n : ℕ) : List MacLearnMsgT := (List.range n).map fun i => ⟨BitVec.ofNat 48 i, 0⟩

theorem srcAddr_sampleHosts {n : ℕ} (hn : n ≤ 1024) {m : MacLearnMsgT} (hm : m ∈ sampleHosts n) :
    m.srcAddr ≠ BROADCAST := by
  obtain ⟨i, hi, rfl⟩ := List.mem_map.mp hm
  have hlt := List.mem_range.mp hi
  intro h
  have hnat := congrArg BitVec.toNat h
  rw [BitVec.toNat_ofNat, Nat.mod_eq_of_lt (by omega)] at hnat
  have hmax : BROADCAST.toNat = 2 ^ 48 - 1 := by decide
  omega

theorem length_addresses_sampleHosts {n : ℕ} (hn : n ≤ 1024) (hhandled : s.handled = sampleHosts n) :
    s.addresses.dedup.length = n := by
  have hnodup : s.addresses.Nodup := by
    unfold addresses
    rw [hhandled, sampleHosts, List.map_map]
    refine List.Nodup.map_on ?_ List.nodup_range
    intro i hi j hj h
    have hi' := List.mem_range.mp hi
    have hj' := List.mem_range.mp hj
    have hnat := congrArg BitVec.toNat h
    simp only [Function.comp_apply, BitVec.toNat_ofNat] at hnat
    omega
  rw [hnodup.dedup, addresses, hhandled, sampleHosts, List.length_map, List.length_map,
    List.length_range]

theorem agree_iff_sample : ∃ s, Reachable 1 s ∧ s.pending = [] ∧ s.handled = sampleHosts 1023 ∧
    (Agree s ↔ s.addresses.dedup.length ≤ 1023) := by
  obtain ⟨s, h, hidle, hhandled⟩ := exists_handled 1 fun m => srcAddr_sampleHosts (n := 1023) (by decide)
  exact ⟨s, h, hidle, hhandled, agree_iff h hidle⟩

/-- With 1024 hosts both tables are full, `learn_table` with one host less. -/
theorem agree_counterexample : ∃ s, Reachable 1 s ∧ s.pending = [] ∧ s.handled = sampleHosts 1024 ∧
    s.switch.l2.learnTable.keys.length = 1024 ∧ s.switch.l2.forwardTable.keys.length = 1024 ∧
    ¬ Agree s := by
  obtain ⟨s, h, hidle, hhandled⟩ := exists_handled 1 fun m => srcAddr_sampleHosts (n := 1024) (by decide)
  have hsize := length_addresses_sampleHosts (Nat.le_refl 1024) hhandled
  obtain ⟨hlearn, hforward⟩ := h.inv.length_keys hidle
  rw [hsize] at hlearn hforward
  refine ⟨s, h, hidle, hhandled, hlearn, hforward, ?_⟩
  intro hagree
  have hlen := h.inv.length_keys_of_agree hidle hagree
  omega

end LearningState

end ScionInt
