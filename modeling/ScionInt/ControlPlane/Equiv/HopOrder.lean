import ScionInt.ControlPlane.Equiv.Report
import ScionInt.DataPlane.Equiv.Accumulation
import ScionInt.Wire.Repetition

/-!
# The order of the hops

A report should start with the data of the switch next to the sink and end with that of the source, so
that a switch should put its record in front of the stack it finds.  It puts the record behind it
(`putsInFront_iff`), so that the order is right only where it makes no difference.

Main result: `InsertPath.keepsOrder_iff`, for paths of any number of switches.
-/

namespace ScionInt

open Wire Wire.Scan INTSwitchEgress

/-! ### One switch -/

/-- A switch with the entries of its controller that inserts INT, for the given line of the INT table. -/
structure InsertHop extends PathHop where
  nodeID : BitVec 32
  asAddr : BitVec 64
  txUtil : BitVec 9 → BitVec 32
  instructionBits : BitVec 16
  domainBits : BitVec 16
  static : StaticEntries sw.egress nodeID asAddr txUtil
  udpScion : (parse arrival.frame).hdr.udpScion.isSome
  entry : sw.scionInt.lookup (parse arrival.frame).hdr.scionDst =
    some (.insert_int instructionBits domainBits)
  mem : copy ∈ sw.process arrival

namespace InsertHop

variable (h : InsertHop)

/-- The INT stack of the frame that the switch has received. -/
def stack : List Byte := VarBits.emitOpt (parse h.arrival.frame).hdr.intStack.preIntStack

/-- The fields of the switch for this frame. -/
def inserted : IntStackT :=
  (hopValues h.nodeID h.asAddr h.txUtil h.copy.stdMeta).record (honoured h.instructionBits)
    h.domainBits

/-- The switch has put its record in front of the stack. -/
def PutsInFront : Prop :=
  ∃ (q : ScionFrame) (intShim : IntShimH) (intMd : IntMdH) (rest : List Byte),
    h.copy.wire =
      q.emit ++ (emit intShim ++ (emit intMd ++ (h.inserted.emitHop ++ (h.stack ++ rest))))

/-- The fields are the record of the packet on which the egress tables have run. -/
theorem inserted_eq {p : Packet} (hcopy : h.copy = insertStack h.sw.egress p)
    (hmeta : p.metadata = Switch.insertMetadata (parse h.arrival.frame).metadata h.instructionBits
      h.domainBits) : hopRecord h.sw.egress p = h.inserted := by
  obtain ⟨q, intShim, intMd, v, payload, cpuHdrLen, stackLen, -, hmeta'⟩ := parse_udpScion h.udpScion
  rw [hmeta'] at hmeta
  obtain ⟨n, hstd⟩ := stdMeta_insertStack h.sw.egress p
  rw [hopRecord_eq h.static hmeta, inserted, hcopy, hstd]
  rfl

/-- The headers that the switch has parsed, the entry that it finds for them and the stack among them. -/
theorem exists_hdr : ∃ (q : ScionFrame) (intShim : Option IntShimH) (intMd : Option IntMdH)
    (v : Option PreIntStackH) (payload : Option PayloadH),
    (parse h.arrival.frame).hdr = q.withInt ⟨intShim, intMd, { preIntStack := v }⟩ payload ∧
    h.sw.scionInt.lookup q.dst = some (.insert_int h.instructionBits h.domainBits) ∧
    h.stack = VarBits.emitOpt v := by
  obtain ⟨q, intShim, intMd, v, payload, cpuHdrLen, stackLen, hparse, -⟩ := parse_udpScion h.udpScion
  have hentry := h.entry
  rw [hparse] at hentry
  refine ⟨q, intShim, intMd, v, payload, hparse, hentry, ?_⟩
  rw [stack, hparse]
  rfl

/-- The frame behind the switch: the record stands behind the stack. -/
theorem wire_eq : ∃ (q : ScionFrame) (intShim : IntShimH) (intMd : IntMdH) (rest : List Byte),
    h.copy.wire =
      q.emit ++ (emit intShim ++ (emit intMd ++ (h.stack ++ (h.inserted.emitHop ++ rest)))) := by
  obtain ⟨q, intShim, intMd, v, payload, hparse, hentry, hstack⟩ := h.exists_hdr
  obtain ⟨p, q', hcopy, -, -, hmeta, -, hwire⟩ := wire_insert hparse hentry h.mem
  rw [h.inserted_eq hcopy hmeta, ← hstack] at hwire
  exact ⟨q', _, _, _, hwire⟩

/-- The payload of the packet-in for the clone at the sink: as many bytes of the stack as the record
has, from the front. -/
theorem wire_clone {sink : Switch} {a : Arrival} {c : Packet} (hframe : a.frame = h.copy.wire)
    (hc : c ∈ sink.process a) (hclone : c.isClone) :
    ∃ (q : ScionFrame) (intShim : IntShimH) (intMd : IntMdH) (behind : List Byte),
      c.wire = cpuPayload q intShim intMd
        ((h.stack ++ h.inserted.emitHop).take h.inserted.emitHop.length ++ behind) ∧
      intMd.instructionBitmap = h.instructionBits ∧ intMd.domainInstructions = h.domainBits ∧
      4 * intMd.hopML.toNat = h.inserted.emitHop.length ∧
      intShim.length.toNat = 3 + intMd.hopML.toNat := by
  obtain ⟨q, intShim, intMd, v, payload, hparse, hentry, hstack⟩ := h.exists_hdr
  obtain ⟨p, q', behind, hcopy, -, -, hmeta, hpayload⟩ :=
    wire_clone_source hparse hentry h.mem hframe hc hclone
  obtain ⟨hlen, hwords⟩ := length_hopRecord h.sw.egress p
  have hhopML := toNat_hopML_addWords h.instructionBits h.domainBits hwords
  rw [h.inserted_eq hcopy hmeta] at hlen hhopML hwords hpayload
  rw [← hstack, ← hlen] at hpayload
  refine ⟨q', _, _, behind, hpayload, rfl, rfl, ?_, ?_⟩
  · rw [hhopML, hlen]
  · rw [hhopML, toNat_length_addWords _ hwords]

theorem putsInFront_iff : h.PutsInFront ↔ Repetitions h.stack h.inserted.emitHop := by
  obtain ⟨q, intShim, intMd, rest, hwire⟩ := h.wire_eq
  rw [← append_comm_iff]
  constructor
  · rintro ⟨q', intShim', intMd', rest', hwire'⟩
    rw [hwire] at hwire'
    obtain ⟨rfl, hint⟩ := ScionFrame.emit_append_inj hwire'
    obtain ⟨rfl, hmd⟩ := emit_append_inj hint
    obtain ⟨rfl, hbytes⟩ := emit_append_inj hmd
    rw [← List.append_assoc, ← List.append_assoc] at hbytes
    exact (List.append_inj hbytes (by rw [List.length_append, List.length_append, Nat.add_comm])).1
  · intro hcomm
    refine ⟨q, intShim, intMd, rest, ?_⟩
    rw [hwire, ← List.append_assoc h.stack, hcomm, List.append_assoc]

end InsertHop

namespace IntController

/-- Of a stack of one hop one hop is read. -/
theorem hops_of_result_cpuPayload {nodeID : BitVec 32} {q : ScionFrame} {intShim : IntShimH}
    {intMd : IntMdH} {behind : List Byte} {p : Published} (hhopML : intMd.hopML ≠ 0)
    (hlength : intShim.length.toNat = 3 + intMd.hopML.toNat)
    (hp : result (handlePacketIn nodeID) (cpuPayload q intShim intMd behind) = .ok p) :
    ∃ c : Cursor Hop, result (readHop intMd.instructionBitmap intMd.domainInstructions
        ⟨stackPos (cpuPayload q intShim intMd behind), {}⟩) (cpuPayload q intShim intMd behind) = .ok c ∧
      p.report.hops = [c.value] := by
  obtain ⟨hop, hhop⟩ := (walks_readHop intMd.instructionBitmap intMd.domainInstructions).result_eq
    ⟨stackPos (cpuPayload q intShim intMd behind), {}⟩ (cpuPayload q intShim intMd behind)
  refine ⟨_, hhop, ?_⟩
  obtain ⟨pos, hstack⟩ : ∃ pos, result (readHops intMd.instructionBitmap intMd.domainInstructions 1
      ⟨stackPos (cpuPayload q intShim intMd behind), []⟩) (cpuPayload q intShim intMd behind) =
        .ok ⟨pos, [hop]⟩ := by
    have hadd := result_bind_ok (f := fun c : Cursor Hop =>
      (pure ⟨c.pos, [] ++ [c.value]⟩ : Scan Stop (Cursor (List Hop)))) hhop
    rw [readHops, addHop, result_bind_ok hadd]
    exact ⟨_, rfl⟩
  have hresult := result_cpuPayload nodeID q hhopML (by rw [Nat.one_mul]; exact hlength) hstack
  rw [hp] at hresult
  obtain rfl : p = published nodeID _ _ := Except.ok.inj hresult
  rfl

end IntController

/-! ### The report on one switch -/

/-- The hop that a record is reported as has the metadata that the bitmap selects. -/
theorem HopValues.isSome_metadata_reported (v : HopValues) (instructionBits domainBits : BitVec 16)
    (key : MetadataType) :
    ((v.record instructionBits domainBits).reported.metadata key).isSome =
      instructionBits.getLsbD key.bit := by
  rw [← HopValues.hop_eq]
  cases key
  all_goals
    simp only [HopValues.hop, HopValues.metadata, MetadataType.bit]
    split_ifs with hbit
    · exact hbit.symm
    · exact (eq_false_of_ne_true hbit).symm

/-- The controller asks for no more metadata than the switch inserts. -/
theorem unhonoured_eq_zero {instructionBits : BitVec 16} (h : ∀ key : MetadataType,
    instructionBits.getLsbD key.bit = (honoured instructionBits).getLsbD key.bit) :
    instructionBits &&& 0x7280 = 0 := by
  have h14 : instructionBits.getLsbD 14 = false :=
    (h .INTERFACE_LEVEL1).trans (getLsbD_and_mask_of_not rfl)
  have h13 : instructionBits.getLsbD 13 = false := (h .HOP_LATENCY).trans (getLsbD_and_mask_of_not rfl)
  have h12 : instructionBits.getLsbD 12 = false :=
    (h .QUEUE_OCCUPANCY).trans (getLsbD_and_mask_of_not rfl)
  have h9 : instructionBits.getLsbD 9 = false :=
    (h .INTERFACE_LEVEL2).trans (getLsbD_and_mask_of_not rfl)
  have h7 : instructionBits.getLsbD 7 = false :=
    (h .BUFFER_OCCUPANCY).trans (getLsbD_and_mask_of_not rfl)
  have hmask : ∀ bit < 16, (0x7280 : BitVec 16).getLsbD bit = true →
      bit = 14 ∨ bit = 13 ∨ bit = 12 ∨ bit = 9 ∨ bit = 7 := by decide
  refine BitVec.eq_of_getLsbD_eq fun bit hbit => ?_
  rw [BitVec.getLsbD_and, show (0 : BitVec 16).getLsbD bit = false from BitVec.getLsbD_zero]
  by_contra hne
  obtain ⟨hset, hin⟩ := Bool.and_eq_true_iff.mp (eq_true_of_ne_false hne)
  rcases hmask bit hbit hin with rfl | rfl | rfl | rfl | rfl
  · exact absurd hset (by rw [h14]; decide)
  · exact absurd hset (by rw [h13]; decide)
  · exact absurd hset (by rw [h12]; decide)
  · exact absurd hset (by rw [h9]; decide)
  · exact absurd hset (by rw [h7]; decide)

namespace InsertHop

variable (h : InsertHop) {sink : Switch} {a : Arrival} {c : Packet}

theorem length_inserted : h.inserted.emitHop.length =
    IntController.recordSize (honoured h.instructionBits) h.domainBits :=
  IntController.length_emitHop_record _ _ _

theorem hopML_ne_zero_iff {intMd : IntMdH} (hhopML : 4 * intMd.hopML.toNat = h.inserted.emitHop.length) :
    intMd.hopML ≠ 0 ↔ h.inserted.emitHop ≠ [] := by
  rw [Ne, Ne, not_iff_not, ← List.length_eq_zero_iff, ← hhopML]
  constructor
  · intro hzero
    rw [hzero]
    rfl
  · intro hzero
    apply BitVec.eq_of_toNat_eq
    show intMd.hopML.toNat = 0
    omega

/-- A published report has one hop. -/
theorem hops_of_result (hframe : a.frame = h.copy.wire) (hc : c ∈ sink.process a) (hclone : c.isClone)
    {sinkID : BitVec 32} {p : IntController.Published}
    (hp : result (IntController.handlePacketIn sinkID) c.wire = .ok p) :
    ∃ hop : Hop, p.report.hops = [hop] ∧ h.inserted.emitHop ≠ [] ∧
      ∀ key, (hop.metadata key).isSome = h.instructionBits.getLsbD key.bit := by
  obtain ⟨q, intShim, intMd, behind, hwire, hint, hdomain, hhopML, hlength⟩ :=
    h.wire_clone hframe hc hclone
  rw [hwire] at hp
  have hne := IntController.hopML_ne_of_result_cpuPayload hp
  obtain ⟨hop, hhop, hhops⟩ := IntController.hops_of_result_cpuPayload hne hlength hp
  refine ⟨hop.value, hhops, (h.hopML_ne_zero_iff hhopML).mp hne, ?_⟩
  rw [← hint]
  exact IntController.isSome_metadata_readHop hhop

/-- Where the order makes no difference, the report is the record of the last switch exactly for the
bitmaps for which it is with one switch. -/
theorem reports_iff (hframe : a.frame = h.copy.wire) (hc : c ∈ sink.process a) (hclone : c.isClone)
    (hcomm : Repetitions h.stack h.inserted.emitHop) (sinkID : BitVec 32) :
    (∃ p : IntController.Published, result (IntController.handlePacketIn sinkID) c.wire = .ok p ∧
      p.report.hops = [h.inserted.reported]) ↔
    h.instructionBits &&& 0x7280 = 0 ∧ (h.instructionBits &&& 0x8d00 ≠ 0 ∨ h.domainBits &&& 1 ≠ 0) := by
  have hzero := IntController.recordSize_eq_zero_iff h.instructionBits h.domainBits
  rw [← h.length_inserted, List.length_eq_zero_iff] at hzero
  constructor
  · rintro ⟨p, hp, hhops⟩
    obtain ⟨hop, hhop, hne, hmetadata⟩ := h.hops_of_result hframe hc hclone hp
    obtain rfl : hop = h.inserted.reported := by
      rw [hhop] at hhops
      exact List.singleton_inj.mp hhops
    refine ⟨unhonoured_eq_zero fun key => ?_, ?_⟩
    · rw [← hmetadata, inserted, HopValues.isSome_metadata_reported]
    · rw [← not_and_or, ← hzero]
      exact hne
  · rintro ⟨hnone, hsome⟩
    rw [← not_and_or, ← hzero] at hsome
    obtain ⟨q, intShim, intMd, behind, hwire, hint, hdomain, hhopML, hlength⟩ :=
      h.wire_clone hframe hc hclone
    -- the bytes that the sink takes for the stack are the record
    rw [append_comm_iff.mpr hcomm, List.take_left' rfl] at hwire
    have hne := (h.hopML_ne_zero_iff hhopML).mpr hsome
    have hrecord : h.inserted = (hopValues h.nodeID h.asAddr h.txUtil h.copy.stdMeta).record
        intMd.instructionBitmap intMd.domainInstructions := by
      rw [hint, hdomain, inserted, HopValues.record_honoured _ hnone]
    have hsize : IntController.recordSize intMd.instructionBitmap intMd.domainInstructions =
        4 * intMd.hopML.toNat := by
      rw [hhopML, hrecord, IntController.length_emitHop_record]
    obtain ⟨p, hp, hhops, -⟩ := IntController.result_record sinkID q
      (hopValues h.nodeID h.asAddr h.txUtil h.copy.stdMeta) behind hne hsize hlength
    rw [← hrecord] at hp hhops
    rw [← hwire] at hp
    exact ⟨p, hp, hhops⟩

end InsertHop

/-! ### Paths -/

/-- The switches of a path that insert INT, one after the other, and the frames between them. -/
structure InsertPath where
  hops : List InsertHop
  hops_ne : hops ≠ []
  chain : hops.IsChain fun h h' => h'.arrival.frame = h.copy.wire

namespace InsertPath

variable (path : InsertPath)

def source : InsertHop := path.hops.head path.hops_ne

/-- The switch closest to the sink. -/
def last : InsertHop := path.hops.getLast path.hops_ne

/-- The report that the controller publishes for `payload`: data of switches of the path, those closer to
the sink first, from the switch closest to the sink to the source. -/
def SinkFirst (nodeID : BitVec 32) (payload : List Byte) : Prop :=
  ∃ p : IntController.Published, result (IntController.handlePacketIn nodeID) payload = .ok p ∧
    p.report.hops.Sublist (path.hops.reverse.map fun h => h.inserted.reported) ∧
    p.report.hops.head? = some path.last.inserted.reported ∧
    p.report.hops.getLast? = some path.source.inserted.reported

/-- Every switch has put its record in front of the stack, and the report has the order of the path. -/
def KeepsOrder (nodeID : BitVec 32) (payload : List Byte) : Prop :=
  (∀ h ∈ path.hops, h.PutsInFront) ∧ path.SinkFirst nodeID payload

theorem last_mem : path.last ∈ path.hops := List.getLast_mem path.hops_ne

/-- The order is right exactly if it makes no difference. -/
theorem keepsOrder_iff {sink : Switch} {a : Arrival} {c : Packet} (hframe : a.frame = path.last.copy.wire)
    (hc : c ∈ sink.process a) (hclone : c.isClone) (sinkID : BitVec 32) :
    path.KeepsOrder sinkID c.wire ↔
      (∀ h ∈ path.hops, Repetitions h.stack h.inserted.emitHop) ∧
      path.source.inserted.reported = path.last.inserted.reported ∧
      path.last.instructionBits &&& 0x7280 = 0 ∧
      (path.last.instructionBits &&& 0x8d00 ≠ 0 ∨ path.last.domainBits &&& 1 ≠ 0) := by
  constructor
  · rintro ⟨hfront, p, hp, -, hhead, hlast⟩
    have hcomm : ∀ h ∈ path.hops, Repetitions h.stack h.inserted.emitHop :=
      fun h hh => h.putsInFront_iff.mp (hfront h hh)
    obtain ⟨hop, hhops, -⟩ := path.last.hops_of_result hframe hc hclone hp
    rw [hhops] at hhead hlast
    obtain rfl : hop = path.last.inserted.reported := Option.some.inj hhead
    exact ⟨hcomm, (Option.some.inj hlast).symm,
      (path.last.reports_iff hframe hc hclone (hcomm _ path.last_mem) sinkID).mp ⟨p, hp, hhops⟩⟩
  · rintro ⟨hcomm, hsame, hbits⟩
    obtain ⟨p, hp, hhops⟩ :=
      (path.last.reports_iff hframe hc hclone (hcomm _ path.last_mem) sinkID).mpr hbits
    refine ⟨fun h hh => h.putsInFront_iff.mpr (hcomm h hh), p, hp, ?_, ?_, ?_⟩
    · rw [hhops, List.singleton_sublist]
      exact List.mem_map_of_mem (List.mem_reverse.mpr path.last_mem)
    · rw [hhops, List.head?_singleton]
    · rw [hhops, List.getLast?_singleton, hsame]

end InsertPath

/-! ### A sample path -/

/-- The sample source, whose node ID is 7. -/
def reportHop : InsertHop where
  sw := reportSource 0x8d00 0x0001
  arrival := sampleArrival sampleBytes
  copy := reportSent 0x8d00 0x0001
  nodeID := 7
  asAddr := 0xff0000000111
  txUtil _ := 0
  instructionBits := 0x8d00
  domainBits := 0x0001
  static := IntController.staticEntries_sampleTables
  udpScion := by
    rw [frame_sampleArrival, hdr_parse_sampleBytes]
    rfl
  entry := by
    rw [frame_sampleArrival, hdr_parse_sampleBytes]
    exact lookup_reportSource 0x8d00 0x0001
  mem := reports_sample.1

/-- The same switch with the node ID 8. -/
def nextSource : Switch :=
  { reportSource 0x8d00 0x0001 with
    egress := { IntController.sampleTables with
      intNodeIdTable := { entries := [(1, .insert_int_node_id 8)] } } }

/-- The copy that it emits for the frame of the source. -/
@[irreducible] def nextSent : Packet :=
  (nextSource.process (sampleArrival (reportSent 0x8d00 0x0001).wire)).getD 0 default

/-- The clone of this copy that the sample sink emits. -/
@[irreducible] def nextClone : Packet := (sampleCopies .clone_int nextSent.wire).getD 0 default

theorem next_copies :
    nextSent ∈ nextSource.process (sampleArrival (reportSent 0x8d00 0x0001).wire) ∧
    nextClone ∈ (sampleSwitch .clone_int).process (sampleArrival nextSent.wire) ∧
    nextClone.isClone := by
  decide +kernel

def nextHop : InsertHop where
  sw := nextSource
  arrival := sampleArrival (reportSent 0x8d00 0x0001).wire
  copy := nextSent
  nodeID := 8
  asAddr := 0xff0000000111
  txUtil _ := 0
  instructionBits := 0x8d00
  domainBits := 0x0001
  static := { IntController.staticEntries_sampleTables with nodeID_one := rfl, nodeID_zero := rfl }
  udpScion := by decide +kernel
  entry := by decide +kernel
  mem := next_copies.1

/-- The path through both switches. -/
def orderPath : InsertPath :=
  ⟨[reportHop, nextHop], List.cons_ne_nil _ _, .cons_cons rfl (.singleton _)⟩

theorem keepsOrder_iff_sample : orderPath.KeepsOrder 9 nextClone.wire ↔
    (∀ h ∈ orderPath.hops, Repetitions h.stack h.inserted.emitHop) ∧
    orderPath.source.inserted.reported = orderPath.last.inserted.reported ∧
    orderPath.last.instructionBits &&& 0x7280 = 0 ∧
    (orderPath.last.instructionBits &&& 0x8d00 ≠ 0 ∨ orderPath.last.domainBits &&& 1 ≠ 0) := by
  have hframe : (sampleArrival nextSent.wire).frame = orderPath.last.copy.wire :=
    frame_sampleArrival nextSent.wire
  exact orderPath.keepsOrder_iff hframe next_copies.2.1 next_copies.2.2 9

/-- The switch 8 puts its record behind that of the source, and the one hop of the report is the
source. -/
theorem keepsOrder_counterexample :
    orderPath.last.copy.wire = nextSent.wire ∧
    nextClone ∈ (sampleSwitch .clone_int).process (sampleArrival nextSent.wire) ∧
    nextClone.isClone ∧ ¬ nextHop.PutsInFront ∧ ¬ orderPath.SinkFirst 9 nextClone.wire := by
  refine ⟨rfl, next_copies.2.1, next_copies.2.2, ?_, ?_⟩
  · rw [nextHop.putsInFront_iff, ← append_comm_iff]
    decide +kernel
  · rintro ⟨p, hp, -, hhead, -⟩
    have hnodes : (result (IntController.handlePacketIn 9) nextClone.wire).toOption.map
        (fun r => r.report.hops.head?.map Hop.nodeId) = some (some 7) := by decide +kernel
    have hlast : orderPath.last.inserted.reported.nodeId = 8 := by decide +kernel
    rw [hp] at hnodes
    have hnode := congrArg (Option.map Hop.nodeId) hhead
    rw [Option.map_some, hlast] at hnode
    exact absurd ((Option.some.inj hnodes).symm.trans hnode) (by decide)

end ScionInt
