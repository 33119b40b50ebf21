import ScionInt.DataPlane.Equiv.Accumulation
import ScionInt.DataPlane.Equiv.Confinement
import ScionInt.DataPlane.Equiv.L2Switch
import ScionInt.DataPlane.Equiv.Verification

/-!
# Switches that a frame passes

A switch leaves the headers of a frame alone, whether there is INT among them or not, unless `insert_int`
runs on it or `clone_int` runs on it and finds INT (`process_passes`).  Then it changes nothing but wrong
checksums, and what it sends has none.

Main result: `passes_path`, behind the first one of any number of such switches nothing changes any more.
-/

namespace ScionInt

open Wire

namespace Switch

variable {sw : Switch} {a : Arrival} {c : Packet}

/-- Neither action changes the INT headers of the frame. -/
structure Passes (sw : Switch) (a : Arrival) : Prop where
  insert : ¬ sw.RunsInsert a
  clone : sw.RunsClone a → (parse a.frame).hdr.intShim = none

/-- The ingress control reads no byte behind the headers. -/
theorem rest_ingress (sw : Switch) (a : Arrival) : (sw.ingress a).packet.rest = (parse a.frame).rest := by
  obtain ⟨p, -, hrest, hpacket, -⟩ := sw.ingress_apply a
  rw [hpacket, ← hrest]
  unfold INTSwitchIngress.apply INTSwitchIngress.scionInt
  dsimp only
  split_ifs
  · split
    · rfl
    · rfl
    · rfl
    · rfl
  · rfl

theorem ingress_passes (h : sw.Passes a) : (sw.ingress a).packet.hdr = (parse a.frame).hdr := by
  by_cases hclone : sw.RunsClone a
  · exact (ingress_packet_clone hclone).1
  · exact (ingress_packet_none hclone h.insert).1

/-- The egress control leaves a copy alone. -/
theorem apply_passes (h : sw.Passes a) {p : Packet} (hp : p ∈ sw.originals a) :
    INTSwitchEgress.apply sw.egress p = p := by
  obtain ⟨r, instanceType, hinst, rfl⟩ := mem_originals hp
  by_cases hclone : sw.RunsClone a
  · -- there are no INT headers to remove
    obtain ⟨hhdr, -, hstate⟩ := ingress_packet_clone hclone
    have hshim := h.clone hclone
    rw [← hhdr] at hshim
    obtain ⟨hethernet, hudpScion, -⟩ := hclone
    rw [← hhdr] at hethernet hudpScion
    exact (INTSwitchEgress.apply_noShim sw.egress
      (p := toEgress a (sw.ingress a).packet instanceType r) hethernet hudpScion hshim hstate).trans
        (if_neg hinst)
  · exact INTSwitchEgress.apply_alone sw.egress
      (p := toEgress a (sw.ingress a).packet instanceType r)
      (ingress_packet_none hclone h.insert).2 hinst

/-- A copy has the headers of the frame. -/
theorem process_passes (h : sw.Passes a) (hc : c ∈ sw.process a) (horig : ¬ c.isClone) :
    c.hdr = (parse a.frame).hdr ∧ c.rest = (parse a.frame).rest := by
  obtain ⟨p, hp, rfl⟩ := mem_process hc
  rcases List.mem_append.mp hp with hp | hp
  · obtain ⟨r, rfl, -⟩ := mem_clones hp
    exact absurd (INTSwitchEgress.instanceType_apply _ _) horig
  · rw [apply_passes h hp]
    obtain ⟨r, instanceType, -, rfl⟩ := mem_originals hp
    exact ⟨ingress_passes h, sw.rest_ingress a⟩

/-- A switch leaves a frame alone if it has no entry for the destination. -/
theorem passes_of_lookup {dst : BitVec 16 × BitVec 48} (hdst : (parse a.frame).hdr.scionDst = dst)
    (hinsert : ∀ instructionBits domainBits : BitVec 16,
      sw.scionInt.lookup dst ≠ some (.insert_int instructionBits domainBits))
    (hclone : sw.scionInt.lookup dst ≠ some .clone_int) : sw.Passes a ∧ ¬ sw.RunsClone a := by
  have hruns : ¬ sw.RunsClone a := by
    rintro ⟨-, -, hentry⟩
    rw [hdst] at hentry
    exact hclone hentry
  refine ⟨⟨?_, fun hrun => absurd hrun hruns⟩, hruns⟩
  rintro ⟨-, -, instructionBits, domainBits, hentry⟩
  rw [hdst] at hentry
  exact hinsert _ _ hentry

/-- There are no clones if `clone_int` does not run. -/
theorem not_isClone_of_not_runsClone (hruns : ¬ sw.RunsClone a) (hc : c ∈ sw.process a) :
    ¬ c.isClone := by
  intro hisClone
  obtain ⟨r, -, hsome⟩ := mem_process_clone hc hisClone
  rw [ingress_noClone hruns] at hsome
  cases hsome

/-- A copy is the frame exactly if the checksums of the frame verify. -/
theorem wire_passes_iff (h : sw.Passes a) (hc : c ∈ sw.process a) (horig : ¬ c.isClone) :
    c.wire = a.frame ↔ SelfChecked a.frame := by
  obtain ⟨hhdr, hrest⟩ := process_passes h hc horig
  refine wire_eq_iff ?_ ?_
  · rw [hhdr, hrest]
    exact layers a.frame
  · rw [hhdr, hrest]
    exact (parse_outcome a.frame).emit_eq

end Switch

/-! ### Paths -/

/-- A frame goes from switch to switch; none of them changes its INT headers. -/
def PassingRun : List Byte → List PathHop → Prop
  | _, [] => True
  | frame, h :: hops => h.arrival.frame = frame ∧ h.sw.Passes h.arrival ∧
    h.copy ∈ h.sw.process h.arrival ∧ ¬ h.copy.isClone ∧ PassingRun h.copy.wire hops

/-- A frame whose checksums verify stays as it is. -/
theorem PassingRun.wire_eq {frame : List Byte} {hops : List PathHop} (hrun : PassingRun frame hops)
    (hself : SelfChecked frame) : ∀ h ∈ hops, h.copy.wire = frame := by
  induction hops generalizing frame with
  | nil => exact fun h hh => by cases hh
  | cons first hops ih =>
    obtain ⟨hframe, hpasses, hmem, horig, hafter⟩ := hrun
    rw [← hframe] at hself
    have hwire := (Switch.wire_passes_iff hpasses hmem horig).mpr hself
    rw [hwire] at hafter
    intro h hh
    rcases List.mem_cons.mp hh with rfl | hh
    · rw [hwire, hframe]
    · rw [ih hafter hself h hh, hframe]

/-- All switches of a path send the same bytes: what the first one makes of the frame, which is the frame
itself exactly if the checksums of the frame verify. -/
theorem passes_path {frame : List Byte} {first : PathHop} {hops : List PathHop}
    (hrun : PassingRun frame (first :: hops)) :
    (∀ h ∈ hops, h.copy.wire = first.copy.wire) ∧ SelfChecked first.copy.wire ∧
    (first.copy.wire = frame ↔ SelfChecked frame) := by
  obtain ⟨hframe, hpasses, hmem, horig, hafter⟩ := hrun
  have hself := selfChecked_wire hmem horig
  refine ⟨hafter.wire_eq hself, hself, ?_⟩
  rw [← hframe]
  exact Switch.wire_passes_iff hpasses hmem horig

/-- The copy that a second switch with this entry emits for the first one. -/
@[irreducible] def sampleRepassed : Packet := (sampleCopies .NoAction samplePassed.wire).getD 0 default

theorem samplePassed_copies :
    ¬ samplePassed.isClone ∧
    sampleRepassed ∈ (sampleSwitch .NoAction).process (sampleArrival samplePassed.wire) ∧
    ¬ sampleRepassed.isClone ∧ (parse samplePassed.wire).hdr.scionDst = sampleFrame.dst := by
  decide +kernel

/-- The entry `NoAction` for the destination. -/
theorem passes_sampleSwitch {frame : List Byte} (hdst : (parse frame).hdr.scionDst = sampleFrame.dst) :
    (sampleSwitch .NoAction).Passes (sampleArrival frame) := by
  have hentry := lookup_sampleSwitch .NoAction
  refine (Switch.passes_of_lookup (a := sampleArrival frame) hdst ?_ ?_).1
  · intro instructionBits domainBits hinsert
    rw [hentry] at hinsert
    cases hinsert
  · intro hclone
    rw [hentry] at hclone
    cases hclone

def samplePassingHop : PathHop := ⟨sampleSwitch .NoAction, sampleArrival sampleBytes, samplePassed⟩

def samplePassingHop2 : PathHop :=
  ⟨sampleSwitch .NoAction, sampleArrival samplePassed.wire, sampleRepassed⟩

theorem passes_path_sample :
    (∀ h ∈ [samplePassingHop2], h.copy.wire = samplePassingHop.copy.wire) ∧
    SelfChecked samplePassingHop.copy.wire ∧
    (samplePassingHop.copy.wire = sampleBytes ↔ SelfChecked sampleBytes) := by
  obtain ⟨horig, hmem2, horig2, hdst2⟩ := samplePassed_copies
  have hdst : (parse sampleBytes).hdr.scionDst = sampleFrame.dst := by
    rw [hdr_parse_sampleBytes]
    rfl
  exact passes_path ⟨frame_sampleArrival _, passes_sampleSwitch hdst, samplePassed_mem, horig,
    frame_sampleArrival _, passes_sampleSwitch hdst2, hmem2, horig2, trivial⟩

end ScionInt
