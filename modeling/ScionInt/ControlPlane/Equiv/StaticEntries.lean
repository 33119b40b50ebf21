import ScionInt.ControlPlane.StaticEntries

/-!
# The egress tables after `handleArbitrationUpdate`

`StaticEntries` says what the egress control finds in its tables: the node ID and the AS address under
the flag 1, a utilisation for the flag 1 and every port, and nothing under the flag 0.  Main result:
`staticEntries_handleArbitrationUpdate`, the controller brings the empty tables into this state.
-/

namespace ScionInt

open Wire

/-- The contents of the egress tables that the controller installs, whatever the utilisations are. -/
structure StaticEntries (t : INTSwitchEgress.Tables) (nodeID : BitVec 32) (asAddr : BitVec 64)
    (txUtil : BitVec 9 → BitVec 32) : Prop where
  nodeID_one : t.intNodeIdTable.lookup 1 = some (.insert_int_node_id nodeID)
  nodeID_zero : t.intNodeIdTable.lookup 0 = none
  txUtil_one : ∀ port, t.intEgIfUtilTable.lookup (1, port) =
    some (.insert_int_eg_if_util (txUtil port))
  txUtil_zero : ∀ port, t.intEgIfUtilTable.lookup (0, port) = none
  asAddr_one : t.sciAsAddrTable.lookup 1 = some (.insert_sci_as_addr asAddr)
  asAddr_zero : t.sciAsAddrTable.lookup 0 = none

/-- A number that fits the field arrives in the switch. -/
theorem decodeValue_toBitstring {w w' bytes : ℕ} (hw : 8 ≤ w) {value : BitVec w}
    (hbytes : value.toNat < 256 ^ bytes) (hfit : value.toNat < 2 ^ w') :
    decodeValue w' (toBitstring bytes value) = some (value.setWidth w') := by
  rw [decodeValue, ofBytes_toBitstring hw, Nat.mod_eq_of_lt hbytes, if_pos hfit,
    BitVec.ofNat_toNat]

/-- A number that has the width of the field. -/
theorem decodeValue_toBitstring_self {w bytes : ℕ} (hw : 8 ≤ w) (hbytes : 256 ^ bytes = 2 ^ w)
    (value : BitVec w) : decodeValue w (toBitstring bytes value) = some value := by
  rw [decodeValue_toBitstring hw (hbytes ▸ value.isLt) value.isLt, BitVec.setWidth_eq]

namespace IntController

/-! ### Single entries -/

/-- The flag 1 of the match fields. -/
theorem decodeValue_flag : decodeValue 1 (toBitstring FLAG_BYTES (1 : BitVec 8)) = some 1 := by
  decide

theorem insert_buildIntNodeIdTableEntry (sw : Switch) (nodeID : BitVec 32) :
    sw.insert (buildIntNodeIdTableEntry nodeID) = { sw with
      egress.intNodeIdTable := sw.egress.intNodeIdTable.insert 1 (.insert_int_node_id nodeID) } := by
  have hvalue : decodeValue 32 (toBitstring NODE_ID_BYTES nodeID) = some nodeID :=
    decodeValue_toBitstring_self (by decide) (by decide) nodeID
  rw [buildIntNodeIdTableEntry, Switch.insert, sw.insertTableEntry_intNodeId rfl,
    TableEntry.intNodeId_mk decodeValue_flag hvalue, insertDecoded]

theorem insert_buildSciAsAddrTableEntry (sw : Switch) (as : BitVec 64) :
    sw.insert (buildSciAsAddrTableEntry as) = { sw with
      egress.sciAsAddrTable := sw.egress.sciAsAddrTable.insert 1 (.insert_sci_as_addr as) } := by
  have hvalue : decodeValue 64 (toBitstring 8 as) = some as :=
    decodeValue_toBitstring_self (by decide) (by decide) as
  rw [buildSciAsAddrTableEntry, Switch.insert, sw.insertTableEntry_sciAsAddr rfl,
    TableEntry.sciAsAddr_mk decodeValue_flag hvalue, insertDecoded]

/-- The utilisation of a port of the switch. -/
theorem insert_buildIntTxUtilTableEntry (sw : Switch) {port : BitVec 32} (hport : port.toNat < 512)
    (txCount : BitVec 32) :
    sw.insert (buildIntTxUtilTableEntry port txCount) = { sw with
      egress.intEgIfUtilTable := sw.egress.intEgIfUtilTable.insert (1, port.setWidth 9)
        (.insert_int_eg_if_util txCount) } := by
  have hkey : decodeValue 9 (toBitstring PORT_BYTES port) = some (port.setWidth 9) :=
    decodeValue_toBitstring (by decide) (Nat.lt_trans hport (by decide)) hport
  have hvalue : decodeValue 32 (toBitstring LINK_UTIL_BYTES txCount) = some txCount :=
    decodeValue_toBitstring_self (by decide) (by decide) txCount
  rw [buildIntTxUtilTableEntry, Switch.insert, sw.insertTableEntry_intTxUtil rfl,
    TableEntry.intTxUtil_mk decodeValue_flag hkey hvalue, insertDecoded]

/-- Entries of `scion_int` do not concern the egress tables. -/
theorem egress_insert_buildScionIntTableEntry (sw : Switch) (isd as : BitVec 64)
    (bitmapInt bitmapScion : BitVec 16) (defAction : BitVec 32) :
    (sw.insert (buildScionIntTableEntry isd as bitmapInt bitmapScion defAction)).egress =
      sw.egress := by
  rw [buildScionIntTableEntry, Switch.insert, sw.insertTableEntry_scionInt rfl]

/-! ### The requests -/

/-- The utilisations of a list of ports. -/
theorem write_buildIntTxUtilTableEntry (sw : Switch) (txCount : BitVec 32) {ports : List ℕ}
    (hports : ∀ i ∈ ports, i < 512) :
    sw.write (ports.map fun i => buildIntTxUtilTableEntry (BitVec.ofNat 32 i) txCount) = { sw with
      egress.intEgIfUtilTable := sw.egress.intEgIfUtilTable.insertList
        (ports.map fun i => ((1, BitVec.ofNat 9 i), .insert_int_eg_if_util txCount)) } := by
  induction ports generalizing sw with
  | nil => rfl
  | cons i ports ih =>
    have hi : i < 512 := hports i List.mem_cons_self
    have hport : (BitVec.ofNat 32 i).toNat < 512 := by
      rw [BitVec.toNat_ofNat]
      omega
    have hwidth : (BitVec.ofNat 32 i).setWidth 9 = BitVec.ofNat 9 i :=
      BitVec.setWidth_ofNat_of_le (by decide) i
    have hstep := insert_buildIntTxUtilTableEntry sw hport txCount
    rw [hwidth] at hstep
    rw [List.map_cons, Switch.write, List.foldl_cons, hstep]
    exact ih _ fun j hj => hports j (List.mem_cons_of_mem i hj)

theorem egress_write_scionIntRequest (c : Config) (sw : Switch) (lines : List IntTableLine) :
    ((lines.map (scionIntRequest c)).foldl Switch.write sw).egress = sw.egress := by
  induction lines generalizing sw with
  | nil => rfl
  | cons line lines ih =>
    rw [List.map_cons, List.foldl_cons, ih, scionIntRequest]
    split_ifs
    · rfl
    · exact egress_insert_buildScionIntTableEntry sw _ _ _ _ _

/-- The request for the node ID, the AS address and the utilisations of a list of ports. -/
theorem egress_write_hostEntries (c : Config) (sw : Switch) {ports : List ℕ}
    (hports : ∀ i ∈ ports, i < 512) :
    (sw.write (buildIntNodeIdTableEntry c.nodeID :: buildSciAsAddrTableEntry c.hostAS ::
      ports.map fun i => buildIntTxUtilTableEntry (BitVec.ofNat 32 i) 0)).egress = {
        intNodeIdTable := sw.egress.intNodeIdTable.insert 1 (.insert_int_node_id c.nodeID)
        sciAsAddrTable := sw.egress.sciAsAddrTable.insert 1 (.insert_sci_as_addr c.hostAS)
        intEgIfUtilTable := sw.egress.intEgIfUtilTable.insertList
          (ports.map fun i => ((1, BitVec.ofNat 9 i), .insert_int_eg_if_util 0)) } := by
  have hutil := write_buildIntTxUtilTableEntry ((sw.insert (buildIntNodeIdTableEntry c.nodeID)).insert
    (buildSciAsAddrTableEntry c.hostAS)) 0 hports
  rw [Switch.write] at hutil
  rw [Switch.write, List.foldl_cons, List.foldl_cons, hutil, insert_buildIntNodeIdTableEntry,
    insert_buildSciAsAddrTableEntry]

theorem egress_write_configCloneSession (sw : Switch) :
    (configCloneSession.foldl Switch.write sw).egress = sw.egress := rfl

/-- The egress tables after `handleArbitrationUpdate`. -/
theorem egress_handleArbitrationUpdate (c : Config) (sw : Switch) :
    (handleArbitrationUpdate c 0 sw).egress = {
      intNodeIdTable := sw.egress.intNodeIdTable.insert 1 (.insert_int_node_id c.nodeID)
      sciAsAddrTable := sw.egress.sciAsAddrTable.insert 1 (.insert_sci_as_addr c.hostAS)
      intEgIfUtilTable := sw.egress.intEgIfUtilTable.insertList ((List.range 512).map fun i =>
        ((1, BitVec.ofNat 9 i), .insert_int_eg_if_util 0)) } := by
  have hports : ∀ i ∈ List.range 512, i < 512 := fun i hi => List.mem_range.mp hi
  have hfirst : (sw.write [buildScionIntTableEntry (c.hostISD.setWidth 64) c.hostAS 0 0
      ACTION_CLONE_INT]).egress = sw.egress :=
    egress_insert_buildScionIntTableEntry sw _ _ _ _ _
  rw [handleArbitrationUpdate, if_pos rfl, List.foldl_append, egress_write_configCloneSession,
    installStaticTableEntries, List.foldl_cons, List.foldl_append, List.foldl_cons, List.foldl_nil,
    egress_write_hostEntries c _ hports, egress_write_scionIntRequest, hfirst]

/-! ### The lookups -/

/-- The entries for the first `n` ports. -/
def txUtilEntries (n : ℕ) (txUtil : BitVec 32) : Table (BitVec 1 × BitVec 9) IntEgIfUtilAction where
  entries := (List.range n).map fun i => ((1, BitVec.ofNat 9 i), .insert_int_eg_if_util txUtil)

theorem lookup_txUtilEntries_one {n : ℕ} (hn : n ≤ 512) (txUtil : BitVec 32) {port : BitVec 9}
    (hport : port.toNat < n) :
    (txUtilEntries n txUtil).lookup (1, port) = some (.insert_int_eg_if_util txUtil) := by
  have hlookup := Table.lookup_map (f := fun i => ((1 : BitVec 1), BitVec.ofNat 9 i))
    (g := fun _ => IntEgIfUtilAction.insert_int_eg_if_util txUtil) ?_ (List.mem_range.mpr hport)
  · rw [BitVec.ofNat_toNat, BitVec.setWidth_eq] at hlookup
    exact hlookup
  · intro i hi h
    have hi' := List.mem_range.mp hi
    have hnat := congrArg (fun k : BitVec 1 × BitVec 9 => k.2.toNat) h
    simp only [BitVec.toNat_ofNat] at hnat
    omega

theorem lookup_txUtilEntries_zero (n : ℕ) (txUtil : BitVec 32) (port : BitVec 9) :
    (txUtilEntries n txUtil).lookup (0, port) = none :=
  Table.lookup_map_of_ne fun i _ h => absurd (congrArg Prod.fst h) (by simp)

/-- The egress tables of a switch without entries, after its controller has become master. -/
theorem staticEntries_handleArbitrationUpdate (c : Config) {sw : Switch} (hsw : sw.egress = {}) :
    StaticEntries (handleArbitrationUpdate c 0 sw).egress c.nodeID c.hostAS fun _ => 0 := by
  rw [egress_handleArbitrationUpdate, hsw]
  constructor
  · exact Table.lookup_insert rfl _ _ _
  · exact Table.lookup_insert rfl _ _ _
  · intro port
    dsimp only
    rw [Table.lookup_insertList_empty, ← txUtilEntries,
      lookup_txUtilEntries_one (Nat.le_refl 512) 0 port.isLt]
  · intro port
    dsimp only
    rw [Table.lookup_insertList_empty, ← txUtilEntries, lookup_txUtilEntries_zero]
  · exact Table.lookup_insert rfl _ _ _
  · exact Table.lookup_insert rfl _ _ _

/-- The egress tables of node 7 in AS `1-ff00:0:111`, as they are installed. -/
def sampleTables : INTSwitchEgress.Tables where
  intNodeIdTable := { entries := [(1, .insert_int_node_id 7)] }
  intEgIfUtilTable := txUtilEntries 512 0
  sciAsAddrTable := { entries := [(1, .insert_sci_as_addr 0xff0000000111)] }

theorem staticEntries_sampleTables :
    StaticEntries sampleTables 7 0xff0000000111 fun _ => 0 where
  nodeID_one := rfl
  nodeID_zero := rfl
  txUtil_one port := lookup_txUtilEntries_one (Nat.le_refl 512) 0 port.isLt
  txUtil_zero := lookup_txUtilEntries_zero 512 0
  asAddr_one := rfl
  asAddr_zero := rfl

end IntController

end ScionInt
