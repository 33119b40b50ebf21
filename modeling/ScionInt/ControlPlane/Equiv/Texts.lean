import ScionInt.ControlPlane.Equiv.ReadIntTable
import ScionInt.ControlPlane.Equiv.Reported

/-!
# From the texts of the configuration to the switch

The address of the host and the INT table are texts.  `actions_of_texts` says what the switch does with a
destination and where the reports go in terms of these texts, in every run of the controller that is made of
them.  A blank line of the INT table, which becomes an entry for the address 0, concerns no other address.
-/

namespace ScionInt

open Wire

/-- The destination of an address. -/
def ScionAddressText.dst (t : ScionAddressText) : BitVec 16 × BitVec 48 :=
  (t.isdAddress, BitVec.ofNat 48 t.asAddress.toNat)

theorem ScionAddressText.asAddress_lt (t : ScionAddressText) : t.asAddress.toNat < 2 ^ 48 := by
  have h1 := t.g1.value_lt
  have h2 := t.g2.value_lt
  have h3 := t.g3.value_lt
  rw [t.toNat_asAddress]
  omega

/-- The address is taken apart again for the match fields. -/
theorem EntryText.dst_line (e : EntryText) : e.line.dst = e.address.dst := by
  have hlt := e.address.asAddress_lt
  have hisd : e.address.isdAddress.toNat < 2 ^ 16 := e.address.isdAddress.isLt
  have haddr : e.line.addr.toNat = e.address.isdAddress.toNat * 2 ^ 48 + e.address.asAddress.toNat := by
    unfold line
    dsimp only
    rw [BitVec.toNat_add, BitVec.toNat_shiftLeft, BitVec.toNat_setWidth, Nat.shiftLeft_eq]
    omega
  have hdiv : e.line.addr.toNat / 2 ^ 48 = e.address.isdAddress.toNat := by omega
  unfold IntTableLine.dst ScionAddressText.dst
  rw [hdiv, BitVec.ofNat_toNat, BitVec.setWidth_eq, haddr]
  congr 1
  apply BitVec.eq_of_toNat_eq
  rw [BitVec.toNat_ofNat, BitVec.toNat_ofNat]
  omega

def FileLine.entryText? : FileLine → Option EntryText
  | comment _ _ => none
  | blank _ => none
  | entry e => some e

/-- The first entry of the file for a destination. -/
def IntTableFile.entryFor (f : IntTableFile) (dst : BitVec 16 × BitVec 48) : Option EntryText :=
  (f.allLines.filterMap FileLine.entryText?).find? fun e => e.address.dst = dst

/-- The lines of the configuration for an address are the entries of the file. -/
theorem find?_read {dst : BitVec 16 × BitVec 48} {lines : List FileLine}
    (h : dst ≠ (0, 0) ∨ ∀ line ∈ lines, ¬ line.isBlank) :
    (lines.filterMap FileLine.read).find? (fun line => line.dst = dst) =
      ((lines.filterMap FileLine.entryText?).find? fun e => e.address.dst = dst).map EntryText.line := by
  induction lines with
  | nil => rfl
  | cons line lines ih =>
    have ih' := ih (h.imp id fun hall line' hline' => hall line' (List.mem_cons_of_mem line hline'))
    cases line with
    | comment rest hrest => exact ih'
    | blank b =>
      rw [List.filterMap_cons_some (f := FileLine.read) rfl,
        List.filterMap_cons_none (f := FileLine.entryText?) rfl, List.find?_cons_of_neg]
      · exact ih'
      · -- the entry is for the address 0
        rw [decide_eq_true_eq]
        intro hdst
        rcases h with hne | hall
        · exact hne hdst.symm
        · exact hall _ List.mem_cons_self rfl
    | entry e =>
      rw [List.filterMap_cons_some (f := FileLine.read) rfl,
        List.filterMap_cons_some (f := FileLine.entryText?) rfl]
      by_cases hdst : e.address.dst = dst
      · have hline : decide (e.line.dst = dst) = true := by rw [e.dst_line, decide_eq_true_eq, hdst]
        have htext : decide (e.address.dst = dst) = true := decide_eq_true hdst
        rw [List.find?_cons_of_pos (p := fun line : IntTableLine => decide (line.dst = dst)) hline,
          List.find?_cons_of_pos (p := fun e : EntryText => decide (e.address.dst = dst)) htext,
          Option.map_some]
      · have hline : ¬ decide (e.line.dst = dst) = true := by rwa [e.dst_line, decide_eq_true_eq]
        have htext : ¬ decide (e.address.dst = dst) = true := by rwa [decide_eq_true_eq]
        rw [List.find?_cons_of_neg (p := fun line : IntTableLine => decide (line.dst = dst)) hline,
          List.find?_cons_of_neg (p := fun e : EntryText => decide (e.address.dst = dst)) htext, ih']

theorem isSome_find?_blank {lines : List FileLine} (h : ∃ line ∈ lines, line.isBlank) :
    ((lines.filterMap FileLine.read).find? fun line => line.dst = (0, 0)).isSome := by
  obtain ⟨line, hline, hblank⟩ := h
  rw [List.find?_isSome]
  refine ⟨⟨0, 0, 0⟩, List.mem_filterMap.mpr ⟨line, hline, ?_⟩, by decide⟩
  cases line with
  | comment | entry => cases hblank
  | blank b => rfl

namespace System

/-- The controller that is made of two texts: in every run the switch is a sink for the address of the host,
inserts what the first entry of the INT table for an address says, and leaves all other addresses alone but
possibly the address 0.  All reports go to the topic with the name of the host. -/
theorem actions_of_texts (host : ScionAddressText) (nodeId : BitVec 32) (f : IntTableFile) :
    ∃ c, IntController.create host.text nodeId (some f.text) = .ok c ∧
      ∀ (id : BitVec 32) (s : System), Reachable id c s →
        (s.updates = [] → ∀ dst, dst ≠ (0, 0) ∨ (∀ line ∈ f.allLines, ¬ line.isBlank) →
          s.switch.scionInt.lookup dst = if dst = host.dst then some .clone_int
            else (f.entryFor dst).map fun e => e.line.action) ∧
        (s.updates = [] → (∃ line ∈ f.allLines, line.isBlank) →
          (s.switch.scionInt.lookup (0, 0)).isSome) ∧
        (host.IsPrinted → ∀ p ∈ s.reports, p.topic = host.topic nodeId) := by
  refine ⟨_, create_text host nodeId f, ?_⟩
  intro id s h
  refine ⟨?_, ?_, ?_⟩
  · intro hidle dst hdst
    rw [(h.installed hidle).scionInt, IntController.Config.policy, find?_read hdst, Option.map_map]
    rfl
  · intro hidle hblank
    rw [(h.installed hidle).scionInt, IntController.Config.policy]
    split_ifs with hhost
    · rfl
    · rw [Option.isSome_map]
      exact isSome_find?_blank hblank
  · intro hprinted
    -- every report comes from a clone for the host
    obtain ⟨receptions, -, hfrom⟩ := h.exists_receptions
    refine Telemetry.forall_mem_of_forall₂ hfrom.flip ?_
    rintro p r ⟨-, -, -, -, htopic⟩ -
    rw [htopic]
    exact IntController.topicName_eq_topic hprinted (Nat.mod_eq_of_lt host.asAddress_lt) nodeId

end System

end ScionInt
