import ScionInt.ControlPlane.Equiv.MacLearn

/-!
# Delivery

`flood` and `forward` between them send a frame where it belongs, with one exception: `forward` does not
look at the ingress port, so that a frame whose destination was learned behind that port goes back there.
-/

namespace ScionInt

open Wire

namespace LearningState

variable {id : BitVec 32} {s : LearningState}

/-- A frame to an unknown address leaves once on every other port, one to a known address once on its
port, unless it came from there; nothing else leaves, apart from the clones for the controller. -/
structure Delivered (s : LearningState) (a : Arrival) (dstAddr : BitVec 48) : Prop where
  flooded : s.switch.l2.forwardTable.lookup dstAddr = none → ∀ port,
    (s.switch.copyPorts a).count port = if port.toNat < 8 ∧ port ≠ a.ingressPort then 1 else 0
  forwarded : ∀ q, s.switch.l2.forwardTable.lookup dstAddr = some (.forward q) → ∀ port,
    (s.switch.copyPorts a).count port = if port = q ∧ q ≠ a.ingressPort then 1 else 0
  notReflected : a.ingressPort ∉ s.switch.copyPorts a

theorem count_otherPorts (port q : BitVec 9) :
    (otherPorts port).count q = if q.toNat < 8 ∧ q ≠ port then 1 else 0 := by
  have hnodup : (otherPorts port).Nodup := by
    refine List.Nodup.filter _ ?_
    decide
  rw [hnodup.count]
  simp only [mem_otherPorts]

/-- A frame to an unknown address leaves on the ports of the flood group of its ingress port. -/
theorem delivered_flood (h : Reachable id s) (hdigest : (s.digestEntries.lookup id).isSome) {a : Arrival}
    {eth : EthernetH} {rest : List Byte} (hframe : a.frame = emit eth ++ rest)
    (hport : a.ingressPort.toNat < 8) (hdst : s.switch.l2.forwardTable.lookup eth.dstAddr = none) :
    Delivered s a eth.dstAddr := by
  have hports := h.inv.copyPorts_flood hdigest hframe hport hdst
  constructor
  · intro _ port
    rw [hports, count_otherPorts]
  · intro q hq
    rw [hdst] at hq
    cases hq
  · rw [hports, mem_otherPorts]
    exact fun hmem => hmem.2 rfl

/-- A frame to a known address leaves on the port of the entry, whether it came from there or not, unless
this is the drop port. -/
theorem delivered_forward_iff {a : Arrival} {eth : EthernetH} {rest : List Byte}
    (hframe : a.frame = emit eth ++ rest) (hport : a.ingressPort.toNat < 8) {q : BitVec 9}
    (hdst : s.switch.l2.forwardTable.lookup eth.dstAddr = some (.forward q)) :
    Delivered s a eth.dstAddr ↔ q ≠ a.ingressPort ∧ q ≠ DROP_PORT := by
  have hports := Switch.copyPorts_forward hframe hdst
  have hdrop : a.ingressPort ≠ DROP_PORT := by
    intro h
    rw [h] at hport
    exact absurd hport (by decide)
  constructor
  · intro hdelivered
    have hback : q ≠ a.ingressPort := by
      intro hback
      refine hdelivered.notReflected ?_
      rw [hports, hback, if_neg hdrop]
      exact List.mem_singleton.mpr rfl
    refine ⟨hback, ?_⟩
    intro hlost
    have hcount := hdelivered.forwarded _ hdst q
    rw [hports, if_pos hlost, if_pos ⟨rfl, hback⟩] at hcount
    cases hcount
  · rintro ⟨hback, hlost⟩
    rw [if_neg hlost] at hports
    constructor
    · intro hnone
      rw [hdst] at hnone
      cases hnone
    · intro q' hq port
      rw [hdst] at hq
      obtain rfl := ForwardAction.forward.inj (Option.some.inj hq)
      rw [hports, List.count_singleton]
      by_cases hsame : q = port
      · rw [if_pos (beq_iff_eq.mpr hsame), if_pos (And.intro hsame.symm hback)]
      · have hbeq : ¬ (q == port) = true := fun h => hsame (beq_iff_eq.mp h)
        rw [if_neg hbeq, if_neg (fun h : _ ∧ _ => hsame h.1.symm)]
    · rw [hports, List.mem_singleton]
      exact fun h => hback h.symm

/-- In a state after the initialisation a frame from a port of the switch is delivered exactly if
`forward_table` does not lead back to that port, or to the drop port. -/
theorem delivered_iff (h : Reachable id s) (hdigest : (s.digestEntries.lookup id).isSome)
    {a : Arrival} {eth : EthernetH} {rest : List Byte} (hframe : a.frame = emit eth ++ rest)
    (hport : a.ingressPort.toNat < 8) :
    Delivered s a eth.dstAddr ↔
      s.switch.l2.forwardTable.lookup eth.dstAddr ≠ some (.forward a.ingressPort) ∧
      s.switch.l2.forwardTable.lookup eth.dstAddr ≠ some (.forward DROP_PORT) := by
  cases hdst : s.switch.l2.forwardTable.lookup eth.dstAddr with
  | none => exact iff_of_true (delivered_flood h hdigest hframe hport hdst) ⟨by simp, by simp⟩
  | some action =>
    -- the port is the `ingressPort` of the digest entry for the address
    obtain ⟨m, -, hentry⟩ := h.inv.forwardTable (Table.mem_entries_of_lookup hdst)
    obtain ⟨-, rfl⟩ := Prod.mk.inj hentry
    simp only [ne_eq, Option.some.injEq, ForwardAction.forward.injEq]
    exact delivered_forward_iff hframe hport hdst

theorem delivered_iff_sample : ∃ s, Reachable 1 s ∧
    s.switch.l2.forwardTable.lookup 0x020000000001 = some (.forward 3) ∧
    (Delivered s (etherFrame 0x020000000001 0x020000000002 5) 0x020000000001 ↔
      s.switch.l2.forwardTable.lookup 0x020000000001 ≠ some (.forward 5) ∧
      s.switch.l2.forwardTable.lookup 0x020000000001 ≠ some (.forward DROP_PORT)) := by
  obtain ⟨s, h, hdigest, hlookup⟩ := exists_sampleHost
  exact ⟨s, h, hlookup, delivered_iff h hdigest (frame_etherFrame _ _ _) (by decide)⟩

/-- A frame for this host that arrives on port 3 leaves on port 3. -/
theorem delivered_counterexample : ∃ s, Reachable 1 s ∧ (s.digestEntries.lookup 1).isSome ∧
    s.switch.l2.forwardTable.lookup 0x020000000001 = some (.forward 3) ∧
    3 ∈ s.switch.copyPorts (etherFrame 0x020000000001 0x020000000002 3) ∧
    ¬ Delivered s (etherFrame 0x020000000001 0x020000000002 3) 0x020000000001 := by
  obtain ⟨s, h, hdigest, hlookup⟩ := exists_sampleHost
  have hback : 3 ∈ s.switch.copyPorts (etherFrame 0x020000000001 0x020000000002 3) := by
    rw [Switch.copyPorts_forward (frame_etherFrame _ _ _) hlookup, if_neg (by decide)]
    exact List.mem_singleton.mpr rfl
  exact ⟨s, h, hdigest, hlookup, hback, fun hdelivered => hdelivered.notReflected hback⟩

end LearningState

end ScionInt
