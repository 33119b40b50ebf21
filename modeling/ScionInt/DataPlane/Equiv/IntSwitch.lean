import ScionInt.DataPlane.IntSwitch

/-!
# What the INT controls do to a packet

`hopRecord` is the record that the five egress tables add for a packet: each table contributes its
field exactly when it hits with its inserting action, and adds the size of that field to `addLen`.
`insertStack_eq` puts the tables together: the stack gets the record, the length fields grow by
`addLen` and the word counts by `words`, the size of the record in words of four bytes.
-/

namespace ScionInt

open Wire

theorem length_emitOpt {H : Type} [Header H] (o : Option H) :
    (emitOpt o).length = if o.isSome then Header.size H else 0 := by
  cases o with
  | none => rfl
  | some h => simp

/-! ### The record of a hop -/

namespace INTSwitchEgress

/-- The fields that the egress tables add for a packet. -/
def hopRecord (t : Tables) (p : Packet) : IntStackT where
  nodeID := match t.intNodeIdTable.lookup p.metadata.intNodeID with
    | some (.insert_int_node_id nodeID) => some ⟨nodeID⟩
    | some .NoAction | none => none
  ingressTime :=
    if p.metadata.intIngressTime = 1 then some ⟨p.stdMeta.ingressGlobalTimestamp.setWidth 64⟩
    else none
  egressTime :=
    if p.metadata.intEgressTime = 1 then some ⟨p.stdMeta.egressGlobalTimestamp.setWidth 64⟩
    else none
  egressIFUtilization :=
    match t.intEgIfUtilTable.lookup (p.metadata.intEgIfUtil, p.stdMeta.egressPort) with
    | some (.insert_int_eg_if_util txUtil) => some ⟨txUtil⟩
    | some .NoAction | none => none
  sciAsAddr := match t.sciAsAddrTable.lookup p.metadata.sciAsAddr with
    | some (.insert_sci_as_addr asAddr) => some ⟨asAddr⟩
    | some .NoAction | none => none

/-- The size of the record in words of four bytes. -/
def words (r : IntStackT) : ℕ := r.emitHop.length / 4

variable (t : Tables) (p : Packet)

theorem emitHop_hopRecord :
    (hopRecord t p).emitHop =
      emitOpt (hopRecord t p).nodeID ++ (emitOpt (hopRecord t p).ingressTime ++
        (emitOpt (hopRecord t p).egressTime ++ (emitOpt (hopRecord t p).egressIFUtilization ++
          emitOpt (hopRecord t p).sciAsAddr))) := by
  simp [IntStackT.emitHop, hopRecord]

/-- A record has at most eight words. -/
theorem length_hopRecord :
    (hopRecord t p).emitHop.length = 4 * words (hopRecord t p) ∧ words (hopRecord t p) ≤ 8 := by
  have hlen : (hopRecord t p).emitHop.length % 4 = 0 ∧ (hopRecord t p).emitHop.length ≤ 32 := by
    simp only [emitHop_hopRecord, List.length_append, length_emitOpt, ScalarH.size_eq]
    split_ifs <;> omega
  rw [words]
  omega

/-- The size of the record in bytes, from the contents of the tables, the flags and the port. -/
def recordLen (t : Tables) (m : MetadataT) (egressPort : BitVec 9) : ℕ :=
  (match t.intNodeIdTable.lookup m.intNodeID with
    | some (.insert_int_node_id _) => 4
    | some .NoAction | none => 0) +
  (if m.intIngressTime = 1 then 8 else 0) +
  (if m.intEgressTime = 1 then 8 else 0) +
  (match t.intEgIfUtilTable.lookup (m.intEgIfUtil, egressPort) with
    | some (.insert_int_eg_if_util _) => 4
    | some .NoAction | none => 0) +
  (match t.sciAsAddrTable.lookup m.sciAsAddr with
    | some (.insert_sci_as_addr _) => 8
    | some .NoAction | none => 0)

theorem length_emitHop_hopRecord :
    (hopRecord t p).emitHop.length = recordLen t p.metadata p.stdMeta.egressPort := by
  simp only [emitHop_hopRecord, List.length_append, length_emitOpt, ScalarH.size_eq, recordLen,
    ← Nat.add_assoc]
  congr 1
  · congr 1
    · congr 1
      · congr 1
        · rw [hopRecord]
          rcases t.intNodeIdTable.lookup p.metadata.intNodeID with _ | (nodeID | _)
          all_goals rfl
        · rw [hopRecord]
          split_ifs
          all_goals simp_all
      · rw [hopRecord]
        split_ifs
        all_goals simp_all
    · rw [hopRecord]
      rcases t.intEgIfUtilTable.lookup (p.metadata.intEgIfUtil, p.stdMeta.egressPort) with
        _ | (txUtil | _)
      all_goals rfl
  · rw [hopRecord]
    rcases t.sciAsAddrTable.lookup p.metadata.sciAsAddr with _ | (asAddr | _)
    all_goals rfl

/-! ### The egress tables -/

theorem intNodeIdTable_eq : intNodeIdTable t p = { p with
    metadata.addLen := p.metadata.addLen +
      BitVec.ofNat 16 (emitOpt (hopRecord t p).nodeID).length
    hdr.intStack.nodeID := (hopRecord t p).nodeID.or p.hdr.intStack.nodeID } := by
  rw [intNodeIdTable, hopRecord]
  rcases t.intNodeIdTable.lookup p.metadata.intNodeID with _ | (nodeID | _)
  · simp
  · rfl
  · simp

theorem intIgTimestampTable_eq : intIgTimestampTable p = { p with
    metadata.addLen := p.metadata.addLen +
      BitVec.ofNat 16 (emitOpt (hopRecord t p).ingressTime).length
    hdr.intStack.ingressTime := (hopRecord t p).ingressTime.or p.hdr.intStack.ingressTime } := by
  by_cases h : p.metadata.intIngressTime = 1
  · simp only [intIgTimestampTable, hopRecord, if_pos h]
    rfl
  · simp only [intIgTimestampTable, hopRecord, if_neg h, emitOpt_none, List.length_nil,
      Option.none_or, BitVec.add_zero]

theorem intEgTimestampTable_eq : intEgTimestampTable p = { p with
    metadata.addLen := p.metadata.addLen +
      BitVec.ofNat 16 (emitOpt (hopRecord t p).egressTime).length
    hdr.intStack.egressTime := (hopRecord t p).egressTime.or p.hdr.intStack.egressTime } := by
  by_cases h : p.metadata.intEgressTime = 1
  · simp only [intEgTimestampTable, hopRecord, if_pos h]
    rfl
  · simp only [intEgTimestampTable, hopRecord, if_neg h, emitOpt_none, List.length_nil,
      Option.none_or, BitVec.add_zero]

theorem intEgIfUtilTable_eq : intEgIfUtilTable t p = { p with
    metadata.addLen := p.metadata.addLen +
      BitVec.ofNat 16 (emitOpt (hopRecord t p).egressIFUtilization).length
    hdr.intStack.egressIFUtilization :=
      (hopRecord t p).egressIFUtilization.or p.hdr.intStack.egressIFUtilization } := by
  rw [intEgIfUtilTable, hopRecord]
  rcases t.intEgIfUtilTable.lookup (p.metadata.intEgIfUtil, p.stdMeta.egressPort) with
    _ | (txUtil | _)
  · simp
  · rfl
  · simp

theorem sciAsAddrTable_eq : sciAsAddrTable t p = { p with
    metadata.addLen := p.metadata.addLen +
      BitVec.ofNat 16 (emitOpt (hopRecord t p).sciAsAddr).length
    hdr.intStack.sciAsAddr := (hopRecord t p).sciAsAddr.or p.hdr.intStack.sciAsAddr } := by
  rw [sciAsAddrTable, hopRecord]
  rcases t.sciAsAddrTable.lookup p.metadata.sciAsAddr with _ | (asAddr | _)
  · simp
  · rfl
  · simp

/-! A table does not change the record. -/

theorem hopRecord_intNodeIdTable : hopRecord t (intNodeIdTable t p) = hopRecord t p := by
  rw [intNodeIdTable_eq]
  rfl

theorem hopRecord_intIgTimestampTable : hopRecord t (intIgTimestampTable p) = hopRecord t p := by
  rw [intIgTimestampTable_eq t]
  rfl

theorem hopRecord_intEgTimestampTable : hopRecord t (intEgTimestampTable p) = hopRecord t p := by
  rw [intEgTimestampTable_eq t]
  rfl

theorem hopRecord_intEgIfUtilTable : hopRecord t (intEgIfUtilTable t p) = hopRecord t p := by
  rw [intEgIfUtilTable_eq]
  rfl

/-- The five tables and the refresh of the lengths, for a packet whose stack has no fields of this
hop yet. -/
theorem insertStack_eq {v : Option PreIntStackH} (hstack : p.hdr.intStack = { preIntStack := v })
    (hstate : p.metadata.intState = 1) :
    insertStack t p = intRefreshLength { p with
      hdr.intStack := { hopRecord t p with preIntStack := v }
      metadata.addLen := p.metadata.addLen +
        BitVec.ofNat 16 (hopRecord t p).emitHop.length } := by
  have hsum : BitVec.ofNat 16 (hopRecord t p).emitHop.length =
      BitVec.ofNat 16 (emitOpt (hopRecord t p).nodeID).length +
      BitVec.ofNat 16 (emitOpt (hopRecord t p).ingressTime).length +
      BitVec.ofNat 16 (emitOpt (hopRecord t p).egressTime).length +
      BitVec.ofNat 16 (emitOpt (hopRecord t p).egressIFUtilization).length +
      BitVec.ofNat 16 (emitOpt (hopRecord t p).sciAsAddr).length := by
    simp only [emitHop_hopRecord, List.length_append, BitVec.ofNat_add, BitVec.add_assoc]
  have hnodeId := hopRecord_intNodeIdTable t p
  have hingress := (hopRecord_intIgTimestampTable t _).trans hnodeId
  have hegress := (hopRecord_intEgTimestampTable t _).trans hingress
  have hutil := (hopRecord_intEgIfUtilTable t _).trans hegress
  -- from the last table to the first, so that each record is that of a packet without updates
  rw [insertStack, sciAsAddrTable_eq, hutil, intEgIfUtilTable_eq, hegress, intEgTimestampTable_eq t,
    hingress, intIgTimestampTable_eq t, hnodeId, intNodeIdTable_eq, scionIntLength, if_pos hstate, hsum]
  simp only [hstack, Option.or_none, ← BitVec.add_assoc]
  rfl

end INTSwitchEgress

end ScionInt
