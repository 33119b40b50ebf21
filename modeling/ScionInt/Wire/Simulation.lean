import Mathlib.Logic.Relation

/-!
# Simulations

A system is the relation between a state and those that can follow it, and its runs are the reflexive
transitive closure of this relation.  A relation between the states of two systems is a simulation if
every step of the one is answered by a run of the other, which may be empty (`Simulates`); then every run is
answered by a run (`Simulates.run`).  `reachable_iff` is about two systems of which one forgets a part of
the state of the other.
-/

namespace Wire

open Relation

variable {S T : Type} {step : S → S → Prop} {step' : T → T → Prop}

/-- Every step between states of the first system is answered by a run of the second one. -/
def Simulates (step : S → S → Prop) (step' : T → T → Prop) (R : S → T → Prop) : Prop :=
  ∀ s s' t, R s t → step s s' → ∃ t', ReflTransGen step' t t' ∧ R s' t'

namespace Simulates

variable {R : S → T → Prop}

/-- Every run is answered by a run. -/
theorem run (h : Simulates step step' R) {s s' : S} {t : T} (hrun : ReflTransGen step s s') (hR : R s t) :
    ∃ t', ReflTransGen step' t t' ∧ R s' t' := by
  induction hrun with
  | refl => exact ⟨t, .refl, hR⟩
  | tail _ hstep ih =>
    obtain ⟨t', hbefore, hR'⟩ := ih
    obtain ⟨t'', hlast, hR''⟩ := h _ _ t' hR' hstep
    exact ⟨t'', hbefore.trans hlast, hR''⟩

/-- A function that takes steps to runs. -/
theorem of_map {f : S → T} (h : ∀ s s', step s s' → ReflTransGen step' (f s) (f s')) :
    Simulates step step' fun s t => f s = t := by
  rintro s s' _ rfl hstep
  exact ⟨f s', h s s' hstep, rfl⟩

end Simulates

/-- If a function takes steps to runs and if every step of the image is answered from a state with the
property `good`, then the reachable states of the image are the images of the reachable states. -/
theorem reachable_iff {f : S → T} {good : S → Prop} {s₀ : S} {t : T} (hgood : good s₀)
    (hmap : ∀ s s', step s s' → ReflTransGen step' (f s) (f s'))
    (hback : Simulates step' step fun t s => f s = t ∧ good s) :
    ReflTransGen step' (f s₀) t ↔ ∃ s, ReflTransGen step s₀ s ∧ f s = t := by
  constructor
  · intro hrun
    obtain ⟨s, hrun', hs, -⟩ := hback.run hrun ⟨rfl, hgood⟩
    exact ⟨s, hrun', hs⟩
  · rintro ⟨s, hrun, rfl⟩
    obtain ⟨_, hrun', rfl⟩ := (Simulates.of_map hmap).run hrun rfl
    exact hrun'

end Wire
