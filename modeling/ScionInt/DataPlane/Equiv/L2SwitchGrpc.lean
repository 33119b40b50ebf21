import ScionInt.DataPlane.Equiv.Passing
import ScionInt.DataPlane.L2SwitchGrpc

/-!
# INT and the learning switch

`Switch.learning` is the learning switch of `l2_switch_grpc.p4` with the tables and groups of a switch of
`int_switch.p4`.  Both report the same messages for a frame and send its copies to the same ports, though
one parses the whole frame and the other the Ethernet header only.

Main result: `sent_learning`, where the INT controls leave a frame alone they also send the same bytes,
unless its checksums are wrong.
-/

namespace ScionInt

open Wire Wire.Parser

/-! ### `L2Switch` -/

/-- `L2Switch` decides by the Ethernet header and the ingress port. -/
theorem L2Switch.apply_congr (t : Tables) {p p' : Packet} (hethernet : p.hdr.ethernet = p'.hdr.ethernet)
    (hport : p.stdMeta.ingressPort = p'.stdMeta.ingressPort)
    (hmcastGrp : p.stdMeta.mcastGrp = p'.stdMeta.mcastGrp)
    (hegressSpec : p.stdMeta.egressSpec = p'.stdMeta.egressSpec) :
    (apply t p).1.stdMeta.mcastGrp = (apply t p').1.stdMeta.mcastGrp ∧
    (apply t p).1.stdMeta.egressSpec = (apply t p').1.stdMeta.egressSpec ∧
    (apply t p).2 = (apply t p').2 := by
  unfold apply forwardOrFlood learn learnSource
  rw [hethernet, hport]
  split_ifs
  · refine ⟨?_, ?_, rfl⟩
    · split
      · exact hmcastGrp
      · exact congrArg (fun port => BitVec.setWidth 16 (port + 1)) hport
      · exact congrArg (fun port => BitVec.setWidth 16 (port + 1)) hport
    · split
      · rfl
      · exact hegressSpec
      · exact hegressSpec
  · exact ⟨hmcastGrp, hegressSpec, rfl⟩

namespace EthernetSwitch

/-- The parser finds the Ethernet header that the parser of `int_switch.p4` finds, and loses no byte. -/
theorem receive_ethernet (a : Arrival) :
    (receive a).hdr.ethernet = (parse a.frame).hdr.ethernet ∧ wire (receive a) = a.frame := by
  unfold receive EthernetSwitchParser.start EthernetSwitchParser.parse_ethernet extractOut wire
  rcases extractInto_cases (fun (h : EthernetH) (s : ParserVars HeadersT) =>
    { s with out := { s.out with ethernet := some h } }) { out := {} } a.frame with ⟨eth, rest, hframe⟩ | ⟨hlen, hx⟩
  · rw [hframe, parse_ethernet, extractInto_bind_emit]
    exact ⟨rfl, rfl⟩
  · rw [bind_reject hx]
    rcases parse_ethernet_cases a.frame with ⟨-, hnone⟩ | ⟨eth, rest, hframe, -⟩
    · exact ⟨hnone.symm, rfl⟩
    · rw [hframe, List.length_append, length_emit] at hlen
      omega

theorem hdr_ingress (sw : EthernetSwitch) (a : Arrival) :
    (sw.ingress a).1.hdr = (receive a).hdr ∧ (sw.ingress a).1.rest = (receive a).rest := by
  unfold ingress L2Switch.apply L2Switch.forwardOrFlood
  split_ifs
  · split
    · exact ⟨rfl, rfl⟩
    · exact ⟨rfl, rfl⟩
    · exact ⟨rfl, rfl⟩
  · exact ⟨rfl, rfl⟩

/-- The learning switch sends what it has received. -/
theorem wire_process {sw : EthernetSwitch} {a : Arrival} {c : Packet} (hc : c ∈ sw.process a) :
    wire c = a.frame := by
  obtain ⟨hhdr, hrest⟩ := sw.hdr_ingress a
  have hcopy : c.hdr = (sw.ingress a).1.hdr ∧ c.rest = (sw.ingress a).1.rest := by
    unfold process at hc
    dsimp only at hc
    split_ifs at hc
    · obtain ⟨r, -, rfl⟩ := List.mem_map.mp hc
      exact ⟨rfl, rfl⟩
    · rw [List.mem_singleton.mp hc]
      exact ⟨rfl, rfl⟩
    · cases hc
  rw [← (receive_ethernet a).2, wire, wire, hcopy.1, hcopy.2, hhdr, hrest]

end EthernetSwitch

/-! ### The two switches -/

namespace Switch

variable {sw : Switch} {a : Arrival}

/-- The part of a switch that `L2Switch` and the replication engine use. -/
def learning (sw : Switch) : EthernetSwitch := ⟨sw.l2, sw.mcastGroups⟩

/-- What is sent, with the ports; the copies for the controller apart. -/
def sent (sw : Switch) (a : Arrival) : List (BitVec 9 × List Byte) :=
  ((sw.process a).filter fun c => ¬ c.isClone).map fun c => (c.stdMeta.egressPort, c.wire)

/-- The ingress controls agree on where the frame goes and on what is reported. -/
theorem ingress_learning (sw : Switch) (a : Arrival) :
    (sw.ingress a).packet.stdMeta.mcastGrp = (sw.learning.ingress a).1.stdMeta.mcastGrp ∧
    (sw.ingress a).packet.stdMeta.egressSpec = (sw.learning.ingress a).1.stdMeta.egressSpec ∧
    (sw.ingress a).digests = (sw.learning.ingress a).2 := by
  obtain ⟨e, hverify⟩ := MyVerifyChecksum_checksumError (receive a)
  have hstdMeta : (sw.ingress a).packet.stdMeta =
      (L2Switch.apply sw.l2 (MyVerifyChecksum (receive a))).1.stdMeta :=
      INTSwitchIngress.stdMeta_apply _ _
  have hdigests : (sw.ingress a).digests = (L2Switch.apply sw.l2 (MyVerifyChecksum (receive a))).2 := rfl
  rw [hstdMeta, hdigests, hverify]
  exact L2Switch.apply_congr sw.l2 (EthernetSwitch.receive_ethernet a).1.symm rfl rfl rfl

theorem ports_learning (sw : Switch) (a : Arrival) :
    ((sw.learning.process a).map fun c => c.stdMeta.egressPort) = sw.copyPorts a := by
  obtain ⟨hmcastGrp, hegressSpec, -⟩ := sw.ingress_learning a
  rw [copyPorts_eq]
  unfold originals EthernetSwitch.process
  dsimp only
  rw [hmcastGrp, hegressSpec]
  split_ifs
  · rw [List.map_map, List.map_map]
    rfl
  · rfl
  · rfl

theorem sent_learning_eq (sw : Switch) (a : Arrival) :
    sw.learning.sent a = (sw.copyPorts a).map fun port => (port, a.frame) := by
  rw [← ports_learning, List.map_map]
  refine List.map_congr_left fun c hc => ?_
  rw [EthernetSwitch.wire_process hc]
  rfl

/-- All copies are the same bytes, and these are the frame exactly if its checksums verify. -/
theorem sent_passes (h : sw.Passes a) : ∃ bytes,
    sw.sent a = (sw.copyPorts a).map (fun port => (port, bytes)) ∧
    (sw.copyPorts a ≠ [] → (bytes = a.frame ↔ SelfChecked a.frame)) := by
  refine ⟨(MyComputeChecksum (parse a.frame).hdr (parse a.frame).rest).emit ++ (parse a.frame).rest,
    ?_, ?_⟩
  · unfold sent copyPorts
    rw [List.map_map]
    refine List.map_congr_left fun c hc => ?_
    obtain ⟨hmem, horig⟩ := List.mem_filter.mp hc
    obtain ⟨hhdr, hrest⟩ := process_passes h hmem (of_decide_eq_true horig)
    rw [Packet.wire, hhdr, hrest]
    rfl
  · intro hne
    unfold copyPorts at hne
    rw [Ne, List.map_eq_nil_iff] at hne
    obtain ⟨c, hc⟩ := List.exists_mem_of_ne_nil _ hne
    obtain ⟨hmem, horig⟩ := List.mem_filter.mp hc
    obtain ⟨hhdr, hrest⟩ := process_passes h hmem (of_decide_eq_true horig)
    rw [← wire_passes_iff h hmem (of_decide_eq_true horig), Packet.wire, hhdr, hrest]

/-- The copies leave on the same ports. -/
theorem sent_map_fst (sw : Switch) (a : Arrival) :
    (sw.sent a).map Prod.fst = (sw.learning.sent a).map Prod.fst := by
  rw [sw.sent_learning_eq, sent, List.map_map, List.map_map]
  exact (List.map_id _).symm

/-- What is sent is the same exactly if there are no copies or the checksums of the frame verify. -/
theorem sent_eq_learning_iff (h : sw.Passes a) :
    sw.sent a = sw.learning.sent a ↔ sw.copyPorts a = [] ∨ SelfChecked a.frame := by
  obtain ⟨bytes, hsent, hbytes⟩ := sent_passes h
  rw [hsent, sent_learning_eq]
  by_cases hnil : sw.copyPorts a = []
  · rw [hnil]
    exact iff_of_true rfl (.inl rfl)
  · rw [← hbytes hnil, or_iff_right hnil, List.map_inj_left]
    constructor
    · intro hall
      obtain ⟨port, hport⟩ := List.exists_mem_of_ne_nil _ hnil
      exact (Prod.mk.inj (hall port hport)).2
    · rintro rfl port -
      rfl

/-- The switch is the learning switch, apart from INT: it reports the same messages and sends copies to the
same ports, and the same bytes exactly if there are no copies or the checksums of the frame verify, wherever
the INT controls leave the frame alone. -/
theorem sent_learning (sw : Switch) (a : Arrival) :
    (sw.ingress a).digests = (sw.learning.ingress a).2 ∧
    (sw.sent a).map Prod.fst = (sw.learning.sent a).map Prod.fst ∧
    (sw.Passes a → (sw.sent a = sw.learning.sent a ↔ sw.copyPorts a = [] ∨ SelfChecked a.frame)) :=
  ⟨(sw.ingress_learning a).2.2, sw.sent_map_fst a, sent_eq_learning_iff⟩

theorem sent_learning_sample :
    (sampleSwitch .NoAction).sent (sampleArrival sampleBytes) =
        (sampleSwitch .NoAction).learning.sent (sampleArrival sampleBytes) ↔
      (sampleSwitch .NoAction).copyPorts (sampleArrival sampleBytes) = [] ∨ SelfChecked sampleBytes := by
  have hdst : (parse sampleBytes).hdr.scionDst = sampleFrame.dst := by
    rw [hdr_parse_sampleBytes]
    rfl
  exact (sent_learning (sampleSwitch .NoAction) (sampleArrival sampleBytes)).2.2
    (passes_sampleSwitch hdst)

end Switch

end ScionInt
