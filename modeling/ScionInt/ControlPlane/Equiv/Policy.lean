import ScionInt.ControlPlane.Arbitration
import ScionInt.ControlPlane.Equiv.StaticEntries

/-!
# The policy in `scion_int`

`Config.policy` is what the address of the host and the INT table say about a destination, and
`PolicyInstalled` says that `scion_int` holds this and nothing else.  An update concerns `scion_int` by
the entries that the switch decodes from it (`Entity.scionIntEntries`), so that the table after any
write requests is one `insertList` (`scionInt_writes`).

Main result: `policy_installed`, from the first election with a new pipeline on the table is one that
depends on the configuration only and holds the policy.
-/

namespace ScionInt

open Wire

/-- An entry of `scion_int`. -/
abbrev ScionIntEntry := (BitVec 16 × BitVec 48) × ScionIntAction

/-! ### The policy -/

/-- The destination of a line of the INT table: the ISD in the upper 16 bits and the AS in the lower 48. -/
def IntTableLine.dst (line : IntTableLine) : BitVec 16 × BitVec 48 :=
  (BitVec.ofNat 16 (line.addr.toNat / 2 ^ 48), BitVec.ofNat 48 line.addr.toNat)

def IntTableLine.action (line : IntTableLine) : ScionIntAction :=
  .insert_int line.bitmapInt line.bitmapScion

namespace IntController

/-- The destination that the host serves as a sink. -/
def Config.host (c : Config) : BitVec 16 × BitVec 48 := (c.hostISD, BitVec.ofNat 48 c.hostAS.toNat)

/-- The action for a destination: the host is a sink, and of the lines for another destination the first
one counts. -/
def Config.policy (c : Config) (dst : BitVec 16 × BitVec 48) : Option ScionIntAction :=
  if dst = c.host then some .clone_int
  else (c.intTable.find? fun line => line.dst = dst).map IntTableLine.action

/-- The table holds the policy, with one entry for each destination. -/
structure PolicyInstalled (c : Config) (t : INTSwitchIngress.ScionIntTable) : Prop where
  lookup : ∀ dst, t.lookup dst = c.policy dst
  nodup : t.keys.Nodup

end IntController

/-! ### Updates of `scion_int` -/

/-- The entries of `scion_int` that the switch decodes from an entity. -/
def Entity.scionIntEntries : Entity → List ScionIntEntry
  | .tableEntry e => if e.tableId = TABLE_SCION_INT then e.scionInt.toList else []
  | .cloneSessionEntry _ | .multicastGroupEntry _ | .digestEntry _ => []

theorem insertDecoded_eq_insertList {K A : Type} [DecidableEq K] (t : Table K A)
    (e : Option (K × A)) : insertDecoded t e = t.insertList e.toList := by
  cases e with
  | none => rfl
  | some e => rfl

theorem Switch.scionInt_insert (sw : Switch) (e : Entity) :
    (sw.insert e).scionInt = sw.scionInt.insertList e.scionIntEntries := by
  unfold Switch.insert Entity.scionIntEntries
  cases e with
  | tableEntry e =>
    unfold Switch.insertTableEntry
    dsimp only
    split_ifs
    case pos => exact insertDecoded_eq_insertList sw.scionInt e.scionInt
    all_goals rfl
  | cloneSessionEntry e => rfl
  | multicastGroupEntry e =>
    unfold Switch.insertMulticastGroup
    dsimp only
    split_ifs
    · rfl
    · rfl
  | digestEntry e => rfl

theorem Switch.scionInt_write (sw : Switch) (request : List Entity) :
    (sw.write request).scionInt =
      sw.scionInt.insertList (request.flatMap Entity.scionIntEntries) := by
  induction request generalizing sw with
  | nil => rfl
  | cons e request ih =>
    rw [Switch.write, List.foldl_cons, ← Switch.write, ih, Switch.scionInt_insert,
      List.flatMap_cons, Table.insertList_append]

/-- `scion_int` after write requests. -/
theorem Switch.scionInt_writes (sw : Switch) (requests : List (List Entity)) :
    (requests.foldl Switch.write sw).scionInt = sw.scionInt.insertList
      (requests.flatMap fun request => request.flatMap Entity.scionIntEntries) := by
  induction requests generalizing sw with
  | nil => rfl
  | cons request requests ih =>
    rw [List.foldl_cons, ih, Switch.scionInt_write, List.flatMap_cons, Table.insertList_append]

/-! ### The entries of the requests -/

theorem TableEntry.scionInt_mk {isd as : List Byte} {dstISD : BitVec 16} {dstAS : BitVec 48}
    {action : Action} (hisd : decodeValue 16 isd = some dstISD) (has : decodeValue 48 as = some dstAS) :
    (TableEntry.mk TABLE_SCION_INT [⟨1, isd⟩, ⟨2, as⟩] (some action)).scionInt =
      if action.actionId = ACTION_INSERT_INT then do
        let instructionBits ← action.param 1 16
        let domainBits ← action.param 2 16
        some ((dstISD, dstAS), .insert_int instructionBits domainBits)
      else if action.actionId = ACTION_CLONE_INT then some ((dstISD, dstAS), .clone_int)
      else none := by
  rw [scionInt, key_cons, if_pos rfl, hisd, key_cons, if_neg (by simp), key_cons, if_pos rfl, has]
  rfl

theorem ofNat_mod_two_pow (w n : ℕ) : BitVec.ofNat w (n % 2 ^ w) = BitVec.ofNat w n := by
  apply BitVec.eq_of_toNat_eq
  rw [BitVec.toNat_ofNat, BitVec.toNat_ofNat, Nat.mod_mod]

/-- The low bytes of a number arrive in a field of their size. -/
theorem decodeValue_toBitstring_low {w w' bytes : ℕ} (hw : 8 ≤ w) (hbytes : 256 ^ bytes = 2 ^ w')
    (value : BitVec w) :
    decodeValue w' (toBitstring bytes value) = some (BitVec.ofNat w' value.toNat) := by
  have hlt : value.toNat % 2 ^ w' < 2 ^ w' := Nat.mod_lt _ (Nat.two_pow_pos w')
  rw [decodeValue, ofBytes_toBitstring hw, hbytes, if_pos hlt, ofNat_mod_two_pow]

namespace IntController

/-- The entry of `scion_int` for an own address, and for a line of the INT table. -/
theorem scionIntEntries_clone (isd as : BitVec 64) (bitmapInt bitmapScion : BitVec 16) :
    (buildScionIntTableEntry isd as bitmapInt bitmapScion ACTION_CLONE_INT).scionIntEntries =
      [((BitVec.ofNat 16 isd.toNat, BitVec.ofNat 48 as.toNat), .clone_int)] := by
  rw [buildScionIntTableEntry, Entity.scionIntEntries, if_pos rfl,
    if_neg (show ACTION_CLONE_INT ≠ ACTION_INSERT_INT by decide), if_pos rfl,
    TableEntry.scionInt_mk (decodeValue_toBitstring_low (by decide) (by decide) isd)
      (decodeValue_toBitstring_low (by decide) (by decide) as)]
  rfl

theorem scionIntEntries_insert (isd as : BitVec 64) (bitmapInt bitmapScion : BitVec 16) :
    (buildScionIntTableEntry isd as bitmapInt bitmapScion ACTION_INSERT_INT).scionIntEntries =
      [((BitVec.ofNat 16 isd.toNat, BitVec.ofNat 48 as.toNat),
        .insert_int bitmapInt bitmapScion)] := by
  have hbitmap (bitmap : BitVec 16) : decodeValue 16 (toBitstring 2 bitmap) = some bitmap :=
    decodeValue_toBitstring_self (by decide) (by decide) bitmap
  rw [buildScionIntTableEntry, Entity.scionIntEntries, if_pos rfl, if_pos rfl,
    TableEntry.scionInt_mk (decodeValue_toBitstring_low (by decide) (by decide) isd)
      (decodeValue_toBitstring_low (by decide) (by decide) as), if_pos rfl, Action.param_cons,
    if_pos rfl, Action.param_cons, if_neg (by simp), Action.param_cons, if_pos rfl,
    hbitmap bitmapInt, hbitmap bitmapScion]
  rfl

/-- The two fields into which a line is split. -/
theorem dst_eq (line : IntTableLine) :
    (BitVec.ofNat 16 (line.addr >>> 48).toNat,
      BitVec.ofNat 48 (line.addr &&& 0xffffffffffff).toNat) = line.dst := by
  have hmask : (0xffffffffffff : BitVec 64).toNat = 2 ^ 48 - 1 := by decide
  rw [BitVec.toNat_ushiftRight, Nat.shiftRight_eq_div_pow, BitVec.toNat_and, hmask,
    Nat.and_two_pow_sub_one_eq_mod, IntTableLine.dst, ofNat_mod_two_pow]

/-- The entries of the request for a line of the INT table. -/
def Config.lineEntries (c : Config) (line : IntTableLine) : List ScionIntEntry :=
  (scionIntRequest c line).flatMap Entity.scionIntEntries

/-- Only a line for the host is left out. -/
theorem lineEntries_cases (c : Config) (line : IntTableLine) :
    c.lineEntries line = [(line.dst, line.action)] ∨ c.lineEntries line = [] ∧ line.dst = c.host := by
  have hdst := dst_eq line
  unfold Config.lineEntries scionIntRequest
  split_ifs with hhost
  · refine .inr ⟨rfl, ?_⟩
    rw [hhost.1, hhost.2, BitVec.toNat_setWidth_of_le (by decide), BitVec.ofNat_toNat,
      BitVec.setWidth_eq] at hdst
    exact hdst.symm
  · refine .inl ?_
    rw [List.flatMap_singleton, scionIntEntries_insert, hdst]
    rfl

/-- For another destination than the host the first line counts. -/
theorem lookup_lineEntries (c : Config) {dst : BitVec 16 × BitVec 48} (hdst : dst ≠ c.host)
    (lines : List IntTableLine) :
    ({ entries := lines.flatMap c.lineEntries } : INTSwitchIngress.ScionIntTable).lookup dst =
      (lines.find? fun line => line.dst = dst).map IntTableLine.action := by
  induction lines with
  | nil => rfl
  | cons line lines ih =>
    rw [List.flatMap_cons, List.find?_cons]
    rcases lineEntries_cases c line with hline | ⟨hline, hhost⟩
    · rw [hline, List.singleton_append, Table.lookup_cons, ih]
      by_cases h : line.dst = dst
      · simp [h]
      · simp [h, Ne.symm h]
    · have hne : line.dst ≠ dst := by
        rw [hhost]
        exact hdst.symm
      rw [hline, List.nil_append, ih]
      simp [hne]

/-- The entries that the controller inserts when it becomes master. -/
def Config.entries (c : Config) : List ScionIntEntry :=
  (c.host, .clone_int) :: c.intTable.flatMap c.lineEntries

theorem lookup_entries (c : Config) (dst : BitVec 16 × BitVec 48) :
    ({ entries := c.entries } : INTSwitchIngress.ScionIntTable).lookup dst = c.policy dst := by
  rw [Config.entries, Config.policy, Table.lookup_cons]
  split_ifs with hdst
  · rfl
  · exact lookup_lineEntries c hdst c.intTable

/-- The requests for the other tables. -/
theorem flatMap_hostEntries (c : Config) :
    (buildIntNodeIdTableEntry c.nodeID :: buildSciAsAddrTableEntry c.hostAS ::
      (List.range 512).map fun i => buildIntTxUtilTableEntry (BitVec.ofNat 32 i) 0).flatMap
        Entity.scionIntEntries = [] := by
  rw [List.flatMap_cons, List.flatMap_cons, List.flatMap_map, List.append_eq_nil_iff,
    List.append_eq_nil_iff]
  refine ⟨rfl, rfl, ?_⟩
  rw [List.flatMap_eq_nil_iff]
  exact fun i _ => rfl

theorem scionInt_handleArbitrationUpdate (c : Config) (sw : Switch) :
    (handleArbitrationUpdate c 0 sw).scionInt = sw.scionInt.insertList c.entries := by
  have hhost : (BitVec.ofNat 16 (c.hostISD.setWidth 64).toNat, BitVec.ofNat 48 c.hostAS.toNat) =
      c.host := by
    rw [BitVec.toNat_setWidth_of_le (by decide), BitVec.ofNat_toNat, BitVec.setWidth_eq]
    rfl
  have hclone : (buildCloneSessionEntry 1).scionIntEntries = [] := rfl
  rw [handleArbitrationUpdate, if_pos rfl, Switch.scionInt_writes, installStaticTableEntries,
    configCloneSession, List.cons_append, List.flatMap_cons, List.flatMap_append, List.flatMap_append,
    List.flatMap_map, List.flatMap_singleton, List.flatMap_singleton, List.flatMap_singleton,
    List.flatMap_singleton, flatMap_hostEntries, hclone, List.append_nil, List.append_nil,
    scionIntEntries_clone, hhost]
  rfl

end IntController

/-! ### Arbitration updates -/

theorem MacLearningCtrl.scionIntEntries_handleArbitrationUpdate (macLearnDigestId : BitVec 32)
    (code : ℕ) : ((handleArbitrationUpdate macLearnDigestId code).flatMap fun request =>
      request.flatMap Entity.scionIntEntries) = [] := by
  unfold handleArbitrationUpdate
  split_ifs
  · rfl
  · rfl

namespace ControlPlane

/-- `scion_int` after an arbitration update. -/
theorem scionInt_arbitration (macLearnDigestId : BitVec 32) (c : IntController.Config) (sw : Switch)
    (arbUpdate : ArbitrationUpdate) : (arbitration macLearnDigestId c sw arbUpdate).scionInt =
      if arbUpdate.code = 0 then
        (if arbUpdate.pipelineSet then {} else sw.scionInt).insertList c.entries
      else sw.scionInt := by
  unfold arbitration handleArbitrationUpdate
  by_cases hcode : arbUpdate.code = 0
  · rw [hcode, IntController.scionInt_handleArbitrationUpdate, Switch.scionInt_writes,
      MacLearningCtrl.scionIntEntries_handleArbitrationUpdate, if_pos rfl, if_pos rfl,
      SwitchConnection.setPipelineConfig]
    split_ifs
    · rfl
    · rfl
  · have hint : ∀ sw, IntController.handleArbitrationUpdate c arbUpdate.code sw = sw :=
      fun sw => if_neg hcode
    rw [hint, Switch.scionInt_writes, MacLearningCtrl.scionIntEntries_handleArbitrationUpdate,
      if_neg hcode, if_neg hcode]
    rfl

/-- The table that the configuration determines. -/
def policyTable (c : IntController.Config) : INTSwitchIngress.ScionIntTable :=
  ({} : INTSwitchIngress.ScionIntTable).insertList c.entries

theorem policyInstalled_policyTable (c : IntController.Config) :
    IntController.PolicyInstalled c (policyTable c) where
  lookup dst := by
    rw [policyTable, Table.lookup_insertList_empty, IntController.lookup_entries]
  nodup := Table.nodup_keys_insertList (t := {}) List.nodup_nil c.entries

/-- An update keeps the table: it is built again, or every INSERT fails. -/
theorem scionInt_arbitration_policyTable (macLearnDigestId : BitVec 32) {c : IntController.Config}
    {sw : Switch} (h : sw.scionInt = policyTable c) (arbUpdate : ArbitrationUpdate) :
    (arbitration macLearnDigestId c sw arbUpdate).scionInt = policyTable c := by
  rw [scionInt_arbitration, h]
  split_ifs
  · rfl
  · exact Table.insertList_eq_self fun e he => Table.mem_keys_insertList rfl he
  · rfl

/-- In every run of arbitration updates, from the first election with a new pipeline on, `scion_int` holds
the policy of the configuration, and it is the same table every time. -/
theorem policy_installed (macLearnDigestId : BitVec 32) (c : IntController.Config) :
    IntController.PolicyInstalled c (policyTable c) ∧
    ∀ (sw : Switch) (before after : List ArbitrationUpdate),
      ((before ++ ⟨0, true⟩ :: after).foldl (arbitration macLearnDigestId c) sw).scionInt =
        policyTable c := by
  refine ⟨policyInstalled_policyTable c, fun sw before after => ?_⟩
  rw [List.foldl_append, List.foldl_cons]
  generalize before.foldl (arbitration macLearnDigestId c) sw = sw'
  have helected : (arbitration macLearnDigestId c sw' ⟨0, true⟩).scionInt = policyTable c :=
    scionInt_arbitration macLearnDigestId c sw' ⟨0, true⟩
  exact List.foldlRecOn (motive := fun sw : Switch => sw.scionInt = policyTable c) after _ helected
    fun sw h arbUpdate _ => scionInt_arbitration_policyTable macLearnDigestId h arbUpdate

end ControlPlane

end ScionInt
