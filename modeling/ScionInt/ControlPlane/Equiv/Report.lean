import ScionInt.ControlPlane.Equiv.StaticEntries
import ScionInt.ControlPlane.Equiv.HopLoop
import ScionInt.ControlPlane.Equiv.Clone
import ScionInt.DataPlane.Equiv.SourceSink

/-!
# From the source to the report

A source inserts a record, a sink clones the frame and its controller decodes the clone.  With the
static entries of its controller a source inserts exactly the fields of `HopValues.record` for the bits
that the switch honours (`hopRecord_eq`), while the controller honours four bits more.

Main results: `reported_iff`, the bitmaps for which the report is the inserted record, and
`divides_iff`, the bitmaps for which the controller does not divide by zero.
-/

namespace ScionInt

open Wire Wire.Scan INTSwitchEgress

/-! ### The record of a source -/

theorem and_twoPow_eq_iff (bitmap : BitVec 16) {bit : ℕ} (hbit : bit < 16) :
    bitmap &&& BitVec.twoPow 16 bit = BitVec.twoPow 16 bit ↔ bitmap.getLsbD bit = true := by
  rw [BitVec.and_twoPow]
  split_ifs with h
  · simp [h]
  · simp only [h, Bool.false_eq_true, iff_false]
    intro hzero
    have hone := congrArg (BitVec.getLsbD · bit) hzero
    simp [hbit] at hone

/-- `markBit` sets a flag that is not set exactly if the bitmap has the bit. -/
theorem markBit_twoPow (bitmap : BitVec 16) (bit : ℕ) (hbit : bit < 16) :
    INTSwitchIngress.markBit bitmap (BitVec.twoPow 16 bit) 0 =
      if bitmap.getLsbD bit then 1 else 0 := by
  rw [INTSwitchIngress.markBit]
  exact if_congr (and_twoPow_eq_iff bitmap hbit) rfl rfl

/-- The bits of an instruction bitmap that `INTSwitchEgress` honours. -/
def honoured (instructionBits : BitVec 16) : BitVec 16 := instructionBits &&& 0x8d00

/-- The values that a source with the static entries inserts. -/
def hopValues (nodeID : BitVec 32) (asAddr : BitVec 64) (txUtil : BitVec 9 → BitVec 32)
    (s : StandardMetadataT) : HopValues where
  nodeID := nodeID
  l1InterfaceInID := 0
  l1InterfaceEgID := 0
  hopLatency := 0
  queueID := 0
  queueOccu := 0
  ingressTime := s.ingressGlobalTimestamp.setWidth 64
  egressTime := s.egressGlobalTimestamp.setWidth 64
  l2InterfaceInID := 0
  l2InterfaceEgID := 0
  egressIFUtilization := txUtil s.egressPort
  bufferID := 0
  bufferOccu := 0
  sciAsAddr := asAddr

theorem getLsbD_and_mask {bitmap mask : BitVec 16} {bit : ℕ} (h : mask.getLsbD bit = true) :
    (bitmap &&& mask).getLsbD bit = bitmap.getLsbD bit := by
  rw [BitVec.getLsbD_and, h, Bool.and_true]

theorem getLsbD_and_mask_of_not {bitmap mask : BitVec 16} {bit : ℕ} (h : mask.getLsbD bit = false) :
    (bitmap &&& mask).getLsbD bit = false := by
  rw [BitVec.getLsbD_and, h, Bool.and_false]

theorem selected_of_not (n : ℕ) {bitmap : BitVec 16} {bit : ℕ} (h : bitmap.getLsbD bit = false)
    (value : BitVec (8 * n)) : selected n bitmap bit value = none := by
  rw [selected, if_neg (by rw [h]; exact Bool.false_ne_true)]

section

variable {t : Tables} {nodeID : BitVec 32} {asAddr : BitVec 64} {txUtil : BitVec 9 → BitVec 32}
  {p : Packet} {b : Bool}

theorem nodeID_hopRecord (h : StaticEntries t nodeID asAddr txUtil)
    (hflag : p.metadata.intNodeID = if b then 1 else 0) :
    (hopRecord t p).nodeID = if b then some ⟨nodeID⟩ else none := by
  rw [hopRecord, hflag]
  cases b with
  | true => simp only [if_true, h.nodeID_one]
  | false => simp only [Bool.false_eq_true, if_false, h.nodeID_zero]

theorem ingressTime_hopRecord (hflag : p.metadata.intIngressTime = if b then 1 else 0) :
    (hopRecord t p).ingressTime =
      if b then some ⟨p.stdMeta.ingressGlobalTimestamp.setWidth 64⟩ else none := by
  rw [hopRecord, hflag]
  cases b with
  | true => rfl
  | false => rfl

theorem egressTime_hopRecord (hflag : p.metadata.intEgressTime = if b then 1 else 0) :
    (hopRecord t p).egressTime =
      if b then some ⟨p.stdMeta.egressGlobalTimestamp.setWidth 64⟩ else none := by
  rw [hopRecord, hflag]
  cases b with
  | true => rfl
  | false => rfl

theorem egressIFUtilization_hopRecord (h : StaticEntries t nodeID asAddr txUtil)
    (hflag : p.metadata.intEgIfUtil = if b then 1 else 0) :
    (hopRecord t p).egressIFUtilization =
      if b then some ⟨txUtil p.stdMeta.egressPort⟩ else none := by
  rw [hopRecord, hflag]
  cases b with
  | true => simp only [if_true, h.txUtil_one]
  | false => simp only [Bool.false_eq_true, if_false, h.txUtil_zero]

theorem sciAsAddr_hopRecord (h : StaticEntries t nodeID asAddr txUtil)
    (hflag : p.metadata.sciAsAddr = if b then 1 else 0) :
    (hopRecord t p).sciAsAddr = if b then some ⟨asAddr⟩ else none := by
  rw [hopRecord, hflag]
  cases b with
  | true => simp only [if_true, h.asAddr_one]
  | false => simp only [Bool.false_eq_true, if_false, h.asAddr_zero]

end

/-- A source with the static entries inserts the fields that the honoured bits select. -/
theorem hopRecord_eq {t : Tables} {nodeID : BitVec 32} {asAddr : BitVec 64}
    {txUtil : BitVec 9 → BitVec 32} (h : StaticEntries t nodeID asAddr txUtil) {p : Packet}
    {cpuHdrLen : BitVec 64} {stackLen : BitVec 32} {instructionBits domainBits : BitVec 16}
    (hmeta : p.metadata = Switch.insertMetadata
      { cpuHdrLen := cpuHdrLen, intStackLen := stackLen } instructionBits domainBits) :
    hopRecord t p =
      (hopValues nodeID asAddr txUtil p.stdMeta).record (honoured instructionBits) domainBits := by
  -- the flags of the tables are bits of the bitmaps
  have hnode : p.metadata.intNodeID = if instructionBits.getLsbD 15 then 1 else 0 := by
    rw [hmeta]
    exact markBit_twoPow instructionBits 15 (by decide)
  have hingress : p.metadata.intIngressTime = if instructionBits.getLsbD 11 then 1 else 0 := by
    rw [hmeta]
    exact markBit_twoPow instructionBits 11 (by decide)
  have hegress : p.metadata.intEgressTime = if instructionBits.getLsbD 10 then 1 else 0 := by
    rw [hmeta]
    exact markBit_twoPow instructionBits 10 (by decide)
  have hutil : p.metadata.intEgIfUtil = if instructionBits.getLsbD 8 then 1 else 0 := by
    rw [hmeta]
    exact markBit_twoPow instructionBits 8 (by decide)
  have has : p.metadata.sciAsAddr = if domainBits.getLsbD 0 then 1 else 0 := by
    rw [hmeta]
    exact markBit_twoPow domainBits 0 (by decide)
  have hfields : hopRecord t p = {
      nodeID := (hopRecord t p).nodeID
      ingressTime := (hopRecord t p).ingressTime
      egressTime := (hopRecord t p).egressTime
      egressIFUtilization := (hopRecord t p).egressIFUtilization
      sciAsAddr := (hopRecord t p).sciAsAddr } := rfl
  have hone (bit : ℕ) (hbit : (0x8d00 : BitVec 16).getLsbD bit = true) :
      (honoured instructionBits).getLsbD bit = instructionBits.getLsbD bit := getLsbD_and_mask hbit
  -- no table inserts the fields of the other bits
  have hzero (bit n : ℕ) (hbit : (0x8d00 : BitVec 16).getLsbD bit = false)
      (value : BitVec (8 * n)) : selected n (honoured instructionBits) bit value = none :=
    selected_of_not n (getLsbD_and_mask_of_not hbit) value
  rw [hfields, nodeID_hopRecord h hnode, ingressTime_hopRecord hingress, egressTime_hopRecord hegress,
    egressIFUtilization_hopRecord h hutil, sciAsAddr_hopRecord h has, HopValues.record,
    hzero 14 2 rfl, hzero 14 2 rfl, hzero 13 4 rfl, hzero 12 1 rfl, hzero 12 3 rfl, hzero 9 4 rfl,
    hzero 9 4 rfl, hzero 7 1 rfl, hzero 7 3 rfl]
  simp only [selected, hone 15 rfl, hone 11 rfl, hone 10 rfl, hone 8 rfl, hopValues]

/-- Without the bits that only the controller honours the record is the same on both sides. -/
theorem HopValues.record_honoured (v : HopValues) {instructionBits : BitVec 16}
    (h : instructionBits &&& 0x7280 = 0) (domainBits : BitVec 16) :
    v.record (honoured instructionBits) domainBits = v.record instructionBits domainBits := by
  have hin (bit : ℕ) (hbit : (0x8d00 : BitVec 16).getLsbD bit = true) :
      (honoured instructionBits).getLsbD bit = instructionBits.getLsbD bit := getLsbD_and_mask hbit
  have hout (bit : ℕ) (hbit : (0x8d00 : BitVec 16).getLsbD bit = false)
      (hbit' : (0x7280 : BitVec 16).getLsbD bit = true) :
      (honoured instructionBits).getLsbD bit = instructionBits.getLsbD bit := by
    rw [IntController.eq_false_of_and_eq_zero h hbit']
    exact getLsbD_and_mask_of_not hbit
  simp only [HopValues.record, selected, hin 15 rfl, hout 14 rfl rfl, hout 13 rfl rfl,
    hout 12 rfl rfl, hin 11 rfl, hin 10 rfl, hout 9 rfl rfl, hin 8 rfl, hout 7 rfl rfl]

/-! ### The sizes on both sides -/

namespace IntController

theorem sum_fieldWidth (bitmap : BitVec 16) (bit width : ℕ) :
    (fieldWidth bitmap bit width).sum = if bitmap.getLsbD bit then width else 0 := by
  rw [fieldWidth]
  split_ifs
  · rw [List.sum_singleton]
  · rfl

/-- The controller counts the fields of the honoured bits and those of the bits 14, 13, 12, 9 and 7. -/
theorem recordSize_eq (instructionBits domainBits : BitVec 16) :
    recordSize instructionBits domainBits =
      recordSize (honoured instructionBits) domainBits +
        recordSize (instructionBits &&& 0x7280) 0 := by
  have hin (mask : BitVec 16) (bit width : ℕ) (h : mask.getLsbD bit = true) :
      (fieldWidth (instructionBits &&& mask) bit width).sum =
        (fieldWidth instructionBits bit width).sum := by
    rw [sum_fieldWidth, sum_fieldWidth, getLsbD_and_mask h]
  have hout (mask : BitVec 16) (bit width : ℕ) (h : mask.getLsbD bit = false) :
      (fieldWidth (instructionBits &&& mask) bit width).sum = 0 := by
    rw [sum_fieldWidth, getLsbD_and_mask_of_not h]
    rfl
  have hzero : (fieldWidth 0 0 8).sum = 0 := rfl
  simp only [recordSize, hopWidths, List.sum_append, honoured]
  rw [hin _ 15 _ rfl, hout _ 14 _ rfl, hout _ 13 _ rfl, hout _ 12 _ rfl, hin _ 11 _ rfl,
    hin _ 10 _ rfl, hout _ 9 _ rfl, hin _ 8 _ rfl, hout _ 7 _ rfl, hout _ 15 _ rfl,
    hin _ 14 _ rfl, hin _ 13 _ rfl, hin _ 12 _ rfl, hout _ 11 _ rfl, hout _ 10 _ rfl,
    hin _ 9 _ rfl, hout _ 8 _ rfl, hin _ 7 _ rfl, hzero]
  omega

/-- Of the domain bitmap only the bit 0 counts. -/
theorem recordSize_domain (instructionBits domainBits : BitVec 16) :
    recordSize instructionBits domainBits = recordSize instructionBits (domainBits &&& 1) := by
  have hbit : (domainBits &&& 1).getLsbD 0 = domainBits.getLsbD 0 := getLsbD_and_mask rfl
  simp only [recordSize, hopWidths, List.sum_append, sum_fieldWidth, hbit]

/-- A record that selects nothing is empty, and no other one. -/
theorem recordSize_eq_zero_iff (instructionBits domainBits : BitVec 16) :
    recordSize (honoured instructionBits) domainBits = 0 ↔
      instructionBits &&& 0x8d00 = 0 ∧ domainBits &&& 1 = 0 := by
  have hint : honoured instructionBits &&& 0x007f = 0 := by
    rw [honoured, BitVec.and_assoc]
    exact BitVec.and_zero
  have hscion : domainBits &&& 1 &&& 0xfffe = 0 := by
    rw [BitVec.and_assoc]
    exact BitVec.and_zero
  rw [recordSize_domain]
  constructor
  · intro h
    by_contra hne
    have hpos := recordSize_pos hint hscion (by rw [← not_and_or]; exact hne)
    omega
  · rintro ⟨h, h'⟩
    rw [honoured, h, h']
    rfl

theorem unhonoured_eq_zero_iff (instructionBits : BitVec 16) :
    recordSize (instructionBits &&& 0x7280) 0 = 0 ↔ instructionBits &&& 0x7280 = 0 := by
  have hint : instructionBits &&& 0x7280 &&& 0x007f = 0 := by
    rw [BitVec.and_assoc]
    exact BitVec.and_zero
  constructor
  · intro h
    by_contra hne
    have hscion : (0 : BitVec 16) &&& 0xfffe = 0 := rfl
    have hpos := recordSize_pos hint hscion (.inl hne)
    omega
  · intro h
    rw [h]
    rfl

end IntController

/-- The words of a record that a source with the static entries inserts. -/
theorem words_hopRecord {t : Tables} {nodeID : BitVec 32} {asAddr : BitVec 64}
    {txUtil : BitVec 9 → BitVec 32} (h : StaticEntries t nodeID asAddr txUtil) {p : Packet}
    {cpuHdrLen : BitVec 64} {stackLen : BitVec 32} {instructionBits domainBits : BitVec 16}
    (hmeta : p.metadata = Switch.insertMetadata
      { cpuHdrLen := cpuHdrLen, intStackLen := stackLen } instructionBits domainBits) :
    4 * words (hopRecord t p) =
      IntController.recordSize (honoured instructionBits) domainBits := by
  rw [← (length_hopRecord t p).1, hopRecord_eq h hmeta, IntController.length_emitHop_record]

/-! ### What is reported -/

/-- The hop that reports the fields of a record and nothing else. -/
def IntStackT.reported (r : IntStackT) : Hop where
  asn := (r.sciAsAddr.map ScalarH.value).getD 0
  nodeId := (r.nodeID.map ScalarH.value).getD 0
  metadata
    | .INTERFACE_LEVEL1 => r.l1InterfaceInID.bind fun x => r.l1InterfaceEgID.map fun y =>
        toBytes 2 x.value.toNat ++ toBytes 2 y.value.toNat
    | .HOP_LATENCY => r.hopLatency.map fun x => toBytes 4 x.value.toNat
    | .QUEUE_OCCUPANCY => r.queueID.bind fun x => r.queueOccu.map fun y =>
        toBytes 1 x.value.toNat ++ toBytes 3 y.value.toNat
    | .INGRESS_TIMESTAMP => r.ingressTime.map fun x => toBytes 8 (x.value.toNat * 1000 % 2 ^ 64)
    | .EGRESS_TIMESTAMP => r.egressTime.map fun x => toBytes 8 (x.value.toNat * 1000 % 2 ^ 64)
    | .INTERFACE_LEVEL2 => r.l2InterfaceInID.bind fun x => r.l2InterfaceEgID.map fun y =>
        toBytes 4 x.value.toNat ++ toBytes 4 y.value.toNat
    | .EGRESS_TX_UTILIZATION => r.egressIFUtilization.map fun x => toBytes 4 x.value.toNat
    | .BUFFER_OCCUPANCY => r.bufferID.bind fun x => r.bufferOccu.map fun y =>
        toBytes 1 x.value.toNat ++ toBytes 3 y.value.toNat

/-- The hop of the controller's loop reports its record. -/
theorem HopValues.hop_eq (v : HopValues) (instructionBits domainBits : BitVec 16) :
    v.hop instructionBits domainBits = (v.record instructionBits domainBits).reported := by
  refine Hop.ext ?_ ?_ (funext fun k => ?_)
  · simp only [HopValues.hop, IntStackT.reported, HopValues.record, selected]
    split_ifs
    · rfl
    · rfl
  · simp only [HopValues.hop, IntStackT.reported, HopValues.record, selected]
    split_ifs
    · rfl
    · rfl
  · cases k
    all_goals
      simp only [HopValues.hop, HopValues.metadata, IntStackT.reported, HopValues.record, selected]
      split_ifs
      · rfl
      · rfl

/-! ### From the source to the controller -/

/-- The clone of a frame whose INT headers describe a stack of `w` words: the sink takes the first bytes
behind INT-MD for the stack. -/
theorem wire_clone_words {sink : Switch} {a : Arrival} {c : Packet} {q : ScionFrame}
    (hport : q.udpScion.dstPort = UDP_PORT) (port instructionBits domainBits : BitVec 16) {w : ℕ}
    (hw : w ≤ 8) {inside rest : List Byte} (hinside : 4 * w ≤ inside.length)
    (hframe : a.frame = q.emit ++ (emit ((sourceShim port).addWords w) ++
      (emit ((sourceMd instructionBits domainBits).addWords w) ++ (inside ++ rest))))
    (hc : c ∈ sink.process a) (hclone : c.isClone) :
    ∃ behind, c.wire = cpuPayload q ((sourceShim port).addWords w)
      ((sourceMd instructionBits domainBits).addWords w) (inside.take (4 * w) ++ behind) := by
  have hstack : (inside.take (4 * w)).length = 4 * w := by
    rw [List.length_take]
    omega
  have hmax : 8 * (inside.take (4 * w)).length ≤ SPACE_FOR_HOPS := by
    rw [hstack, SPACE_FOR_HOPS]
    omega
  have hlen : 4 * ((sourceShim port).addWords w).length.toNat =
      12 + (inside.take (4 * w)).length := by
    rw [toNat_length_addWords port hw, hstack]
    omega
  have htype : ((sourceShim port).addWords w).type = INTType.MD := rfl
  obtain ⟨v, pl, accepted, stackLen, rest', hparse, hv, -⟩ := parse_int q hport htype
    ((sourceMd instructionBits domainBits).addWords w) (v := ⟨_, hmax⟩) hlen
    (inside.drop (4 * w) ++ rest)
  -- the sink sees only the lengths: cut the bytes behind INT-MD where the shim says
  rw [← List.take_append_drop (4 * w) inside, List.append_assoc] at hframe
  rw [← hframe] at hparse
  have hwire := wire_clone (congrArg ParsedPacket.hdr hparse)
    (congrArg (fun r => r.metadata.cpuHdrLen) hparse) hc hclone
  rw [hv] at hwire
  exact ⟨_, hwire⟩

/-- The clone that a sink emits for a frame from a source: INT-MD and the shim describe a stack of the
size of the record, and it is the record if the source received a frame without INT. -/
theorem wire_clone_source {source sink : Switch} {a1 a2 : Arrival} {c1 c2 : Packet} {q : ScionFrame}
    {intShim : Option IntShimH} {intMd : Option IntMdH} {v : Option PreIntStackH}
    {payload : Option PayloadH} {instructionBits domainBits : BitVec 16}
    (hparse : (parse a1.frame).hdr = q.withInt ⟨intShim, intMd, { preIntStack := v }⟩ payload)
    (hsource : source.scionInt.lookup q.dst = some (.insert_int instructionBits domainBits))
    (hc1 : c1 ∈ source.process a1) (hwire : a2.frame = c1.wire) (hc2 : c2 ∈ sink.process a2)
    (hclone : c2.isClone) :
    ∃ (p : Packet) (q' : ScionFrame) (behind : List Byte), c1 = insertStack source.egress p ∧
      c1.hdr.intStack = { hopRecord source.egress p with preIntStack := v } ∧
      c1.hdr.intMd =
        some ((sourceMd instructionBits domainBits).addWords (words (hopRecord source.egress p))) ∧
      p.metadata = Switch.insertMetadata (parse a1.frame).metadata instructionBits domainBits ∧
      c2.wire = cpuPayload q'
        ((sourceShim q.udpScion.dstPort).addWords (words (hopRecord source.egress p)))
        ((sourceMd instructionBits domainBits).addWords (words (hopRecord source.egress p)))
        ((VarBits.emitOpt v ++ (hopRecord source.egress p).emitHop).take
          (4 * words (hopRecord source.egress p)) ++ behind) := by
  obtain ⟨p, q', hcopy, hstack, hintMd, hmeta, hport, hw1⟩ := wire_insert hparse hsource hc1
  obtain ⟨hlen, hwords⟩ := length_hopRecord source.egress p
  have hinside : 4 * words (hopRecord source.egress p) ≤
      (VarBits.emitOpt v ++ (hopRecord source.egress p).emitHop).length := by
    rw [List.length_append, hlen]
    omega
  rw [← hwire, ← List.append_assoc (VarBits.emitOpt v)] at hw1
  obtain ⟨behind, hc2wire⟩ := wire_clone_words hport q.udpScion.dstPort instructionBits domainBits
    hwords hinside hw1 hc2 hclone
  exact ⟨p, q', behind, hcopy, hstack, hintMd, hmeta, hc2wire⟩

/-- The controller `nodeID` reports what the packet `c` of a source carries when it decodes `payload`: one
hop with the values of the record and nothing else, from `4 * hopML` bytes of the stack. -/
def ReportsRecord (nodeID : BitVec 32) (c : Packet) (payload : List Byte) : Prop :=
  ∃ (intMd : IntMdH) (p : IntController.Published), c.hdr.intMd = some intMd ∧
    result (IntController.handlePacketIn nodeID) payload = .ok p ∧
    p.report.hops = [c.hdr.intStack.reported] ∧
    p.pos.toNat = (IntController.stackPos payload).toNat + 4 * intMd.hopML.toNat

namespace IntController

/-- The controller divides by zero exactly for a payload that passes its first checks and has a `hopML` of
zero. -/
theorem divisionByZero_iff (nodeID : BitVec 32) (payload : List Byte) :
    result (handlePacketIn nodeID) payload = .error .divisionByZero ↔
      HeadersPass payload ∧ (hopMLByte payload).toNat % 32 = 0 := by
  obtain ⟨stack, hstack⟩ := (walks_readHops (instructionBits payload) (domainBits payload)
    (numHops payload)).result_eq ⟨stackPos payload, []⟩ payload
  have hzero : intHopSize payload = 0 ↔ (hopMLByte payload).toNat % 32 = 0 := by
    rw [intHopSize]
    omega
  rw [result_handlePacketIn nodeID hstack, HeadersPass, ← hzero]
  split_ifs with h16 hidentifier hhdrLen hhop hrem
  · simp [hhop]
  · simp [hhop]
  · simp [h16, hidentifier, hhdrLen, not_not.mp hhop]
  · simp [hhdrLen]
  · simp [hidentifier]
  · simp [h16]

theorem headersPass_cpuPayload (q : ScionFrame) (intShim : IntShimH) (intMd : IntMdH)
    (behind : List Byte) : HeadersPass (cpuPayload q intShim intMd behind) := by
  have hlt := q.length_emitScion_lt
  refine ⟨?_, identifier_cpuPayload q intShim intMd behind, ?_⟩
  · rw [length_cpuPayload]
    omega
  · rw [hdrLen_cpuPayload, length_cpuPayload, BitVec.toNat_ofNat]
    omega

/-- The controller divides by zero on a packet-in whose INT-MD has a `hopML` of zero. -/
theorem divisionByZero_cpuPayload (nodeID : BitVec 32) (q : ScionFrame) (intShim : IntShimH)
    (intMd : IntMdH) (behind : List Byte) :
    result (handlePacketIn nodeID) (cpuPayload q intShim intMd behind) = .error .divisionByZero ↔
      intMd.hopML.toNat = 0 := by
  have hsize := intHopSize_cpuPayload q intShim intMd behind
  have hpass := headersPass_cpuPayload q intShim intMd behind
  rw [intHopSize] at hsize
  rw [divisionByZero_iff, and_iff_right hpass]
  omega

theorem hopML_ne_of_result_cpuPayload {nodeID : BitVec 32} {q : ScionFrame} {intShim : IntShimH}
    {intMd : IntMdH} {behind : List Byte} {p : Published}
    (hp : result (handlePacketIn nodeID) (cpuPayload q intShim intMd behind) = .ok p) :
    intMd.hopML ≠ 0 := by
  intro hzero
  have herror := (divisionByZero_cpuPayload nodeID q intShim intMd behind).mpr
    (congrArg BitVec.toNat hzero)
  rw [hp] at herror
  cases herror

theorem recordSize_le (bitmapInt bitmapScion : BitVec 16) : recordSize bitmapInt bitmapScion ≤ 56 := by
  have hle (bitmap : BitVec 16) (bit width : ℕ) : (fieldWidth bitmap bit width).sum ≤ width := by
    rw [sum_fieldWidth]
    split_ifs
    · exact Nat.le_refl width
    · exact Nat.zero_le width
  have h15 := hle bitmapInt 15 4
  have h14 := hle bitmapInt 14 4
  have h13 := hle bitmapInt 13 4
  have h12 := hle bitmapInt 12 4
  have h11 := hle bitmapInt 11 8
  have h10 := hle bitmapInt 10 8
  have h9 := hle bitmapInt 9 8
  have h8 := hle bitmapInt 8 4
  have h7 := hle bitmapInt 7 4
  have h0 := hle bitmapScion 0 8
  simp only [recordSize, hopWidths, List.sum_append]
  omega

/-- For a stack of one hop the cursor ends behind the fields that the bitmaps of INT-MD select, whatever
`hopML` says. -/
theorem pos_of_result_cpuPayload {nodeID : BitVec 32} {q : ScionFrame} {intShim : IntShimH}
    {intMd : IntMdH} {behind : List Byte} {p : Published} (hhopML : intMd.hopML ≠ 0)
    (hlength : intShim.length.toNat = 3 + intMd.hopML.toNat)
    (hp : result (handlePacketIn nodeID) (cpuPayload q intShim intMd behind) = .ok p) :
    p.pos.toNat = (stackPos (cpuPayload q intShim intMd behind)).toNat +
      recordSize intMd.instructionBitmap intMd.domainInstructions := by
  obtain ⟨hops, hstack⟩ := (walks_readHops intMd.instructionBitmap intMd.domainInstructions 1).result_eq
    ⟨stackPos (cpuPayload q intShim intMd behind), []⟩ (cpuPayload q intShim intMd behind)
  rw [List.replicate_one, List.flatten_singleton, ← recordSize] at hstack
  have hresult := result_cpuPayload nodeID q hhopML (by rw [Nat.one_mul]; exact hlength) hstack
  rw [hp] at hresult
  obtain rfl : p = published nodeID _ _ := Except.ok.inj hresult
  have hpos := toNat_stackPos_cpuPayload q intShim intMd behind
  have hlt := q.length_emitScion_lt
  have hle := recordSize_le intMd.instructionBitmap intMd.domainInstructions
  have hwrap : (stackPos (cpuPayload q intShim intMd behind)).toNat +
      recordSize intMd.instructionBitmap intMd.domainInstructions < 2 ^ 32 := by omega
  exact toNat_add_ofNat_of_lt hwrap

/-- A stack of one hop is reported as its record, and read up to the end of it. -/
theorem result_record (nodeID : BitVec 32) (q : ScionFrame) {intShim : IntShimH} {intMd : IntMdH}
    (v : HopValues) (behind : List Byte) (hhopML : intMd.hopML ≠ 0)
    (hsize : recordSize intMd.instructionBitmap intMd.domainInstructions = 4 * intMd.hopML.toNat)
    (hlength : intShim.length.toNat = 3 + intMd.hopML.toNat) :
    ∃ p : Published, result (handlePacketIn nodeID) (cpuPayload q intShim intMd
        ((v.record intMd.instructionBitmap intMd.domainInstructions).emitHop ++ behind)) = .ok p ∧
      p.report.hops = [(v.record intMd.instructionBitmap intMd.domainInstructions).reported] ∧
      p.pos.toNat = (stackPos (cpuPayload q intShim intMd
        ((v.record intMd.instructionBitmap intMd.domainInstructions).emitHop ++ behind))).toNat +
          4 * intMd.hopML.toNat := by
  have hencode : encodeStack intMd.instructionBitmap intMd.domainInstructions [v] =
      (v.record intMd.instructionBitmap intMd.domainInstructions).emitHop := List.append_nil _
  have hone : intShim.length.toNat = 3 + [v].length * intMd.hopML.toNat := by
    rw [hlength, List.length_singleton, Nat.one_mul]
  obtain ⟨p, hok, hhops, hend⟩ := result_encodeStack nodeID q behind hhopML hsize hone
  rw [hencode] at hok hend
  refine ⟨p, hok, ?_, ?_⟩
  · rw [hhops, List.map_singleton, HopValues.hop_eq]
  · rw [hend, toNat_stackPos_cpuPayload, length_emitHop_record, hsize]

end IntController

/-! ### A sample source -/

/-- A source with the entries that its controller installs. -/
def reportSource (instructionBits domainBits : BitVec 16) : Switch :=
  { sampleSwitch (.insert_int instructionBits domainBits) with egress := IntController.sampleTables }

/-- The copy that this source emits for the sample frame. -/
@[irreducible] def reportSent (instructionBits domainBits : BitVec 16) : Packet :=
  ((reportSource instructionBits domainBits).process (sampleArrival sampleBytes)).getD 0 default

/-- The clone of this copy that the sample sink emits. -/
@[irreducible] def reportClone (instructionBits domainBits : BitVec 16) : Packet :=
  (sampleCopies .clone_int (reportSent instructionBits domainBits).wire).getD 0 default

theorem lookup_reportSource (instructionBits domainBits : BitVec 16) :
    (reportSource instructionBits domainBits).scionInt.lookup sampleFrame.dst =
      some (.insert_int instructionBits domainBits) := rfl

/-- The source and the sink emit the two copies for this line of the INT table. -/
def Reports (instructionBits domainBits : BitVec 16) : Prop :=
  reportSent instructionBits domainBits ∈
    (reportSource instructionBits domainBits).process (sampleArrival sampleBytes) ∧
  reportClone instructionBits domainBits ∈
    (sampleSwitch .clone_int).process
      (sampleArrival (reportSent instructionBits domainBits).wire) ∧
  (reportClone instructionBits domainBits).isClone

instance (instructionBits domainBits : BitVec 16) : Decidable (Reports instructionBits domainBits) :=
  inferInstanceAs (Decidable (_ ∧ _ ∧ _))

theorem reports_sample : Reports 0x8d00 0x0001 := by
  decide +kernel

/-! ### The bitmaps -/

section

variable {source sink : Switch} {a1 a2 : Arrival} {c1 c2 : Packet} {nodeID : BitVec 32}
  {asAddr : BitVec 64} {txUtil : BitVec 9 → BitVec 32} {instructionBits domainBits : BitVec 16}

/-- The controller of a sink does not divide by zero on the clones of what a source emits exactly if the
bitmaps select a field that the source inserts; and for payloads of any other origin it is `hopML` alone
that decides. -/
theorem divides_iff (sinkID : BitVec 32) (hudpScion : (parse a1.frame).hdr.udpScion.isSome)
    (hstatic : StaticEntries source.egress nodeID asAddr txUtil)
    (hsource : source.scionInt.lookup (parse a1.frame).hdr.scionDst =
      some (.insert_int instructionBits domainBits))
    (hc1 : c1 ∈ source.process a1) (hwire : a2.frame = c1.wire) (hc2 : c2 ∈ sink.process a2)
    (hclone : c2.isClone) :
    (result (IntController.handlePacketIn sinkID) c2.wire ≠ .error .divisionByZero ↔
      instructionBits &&& 0x8d00 ≠ 0 ∨ domainBits &&& 1 ≠ 0) ∧
    ∀ payload, result (IntController.handlePacketIn sinkID) payload = .error .divisionByZero ↔
      IntController.HeadersPass payload ∧ (IntController.hopMLByte payload).toNat % 32 = 0 := by
  refine ⟨?_, IntController.divisionByZero_iff sinkID⟩
  obtain ⟨q, intShim, intMd, v, payload, cpuHdrLen, stackLen, hparse, hmeta⟩ :=
    parse_udpScion hudpScion
  rw [hparse] at hsource
  obtain ⟨p, q', behind, -, -, -, hmeta1, hpayload⟩ :=
    wire_clone_source hparse hsource hc1 hwire hc2 hclone
  rw [hmeta] at hmeta1
  have hsize := words_hopRecord hstatic hmeta1
  have hzero := IntController.recordSize_eq_zero_iff instructionBits domainBits
  rw [← hsize] at hzero
  rw [hpayload, Ne, IntController.divisionByZero_cpuPayload,
    toNat_hopML_addWords _ _ (length_hopRecord source.egress p).2]
  constructor
  · intro h
    rw [← not_and_or, ← hzero]
    omega
  · intro h hw
    rw [hw] at hzero
    exact not_and_or.mpr h (hzero.mp rfl)

theorem divides_iff_sample :
    (result (IntController.handlePacketIn 7) (reportClone 0x8d00 0x0001).wire ≠
        .error .divisionByZero ↔
      (0x8d00 : BitVec 16) &&& 0x8d00 ≠ 0 ∨ (0x0001 : BitVec 16) &&& 1 ≠ 0) ∧
    ∀ payload, result (IntController.handlePacketIn 7) payload = .error .divisionByZero ↔
      IntController.HeadersPass payload ∧ (IntController.hopMLByte payload).toNat % 32 = 0 :=
  have hudpScion : (parse (sampleArrival sampleBytes).frame).hdr.udpScion.isSome := by
    rw [frame_sampleArrival, hdr_parse_sampleBytes]
    rfl
  have hentry : (reportSource 0x8d00 0x0001).scionInt.lookup
      (parse (sampleArrival sampleBytes).frame).hdr.scionDst =
        some (.insert_int 0x8d00 0x0001) := by
    rw [frame_sampleArrival, hdr_parse_sampleBytes]
    exact lookup_reportSource 0x8d00 0x0001
  divides_iff 7 hudpScion IntController.staticEntries_sampleTables hentry reports_sample.1
    (frame_sampleArrival _) reports_sample.2.1 reports_sample.2.2

/-- The table line `0x0000 0x0000` stops the controller of the sink. -/
theorem divides_counterexample :
    reportSent 0 0 ∈ (reportSource 0 0).process (sampleArrival sampleBytes) ∧
    reportClone 0 0 ∈
      (sampleSwitch .clone_int).process (sampleArrival (reportSent 0 0).wire) ∧
    (reportClone 0 0).isClone ∧
    result (IntController.handlePacketIn 7) (reportClone 0 0).wire = .error .divisionByZero := by
  refine ⟨by decide +kernel, by decide +kernel, by decide +kernel, ?_⟩
  rw [IntController.divisionByZero_iff]
  exact ⟨⟨by decide +kernel, by decide +kernel, by decide +kernel⟩, by decide +kernel⟩

/-- The report is the record that a source inserts into a frame without INT exactly if the bitmaps select a
field that the source inserts and none that only the controller honours. -/
theorem reported_iff (sinkID : BitVec 32) {q : ScionFrame} {payload : List Byte}
    (hframe : a1.frame = q.emit ++ payload) (hport : q.udpScion.dstPort ≠ UDP_PORT)
    (hstatic : StaticEntries source.egress nodeID asAddr txUtil)
    (hsource : source.scionInt.lookup q.dst = some (.insert_int instructionBits domainBits))
    (hc1 : c1 ∈ source.process a1) (hwire : a2.frame = c1.wire) (hc2 : c2 ∈ sink.process a2)
    (hclone : c2.isClone) :
    ReportsRecord sinkID c1 c2.wire ↔
      instructionBits &&& 0x7280 = 0 ∧ (instructionBits &&& 0x8d00 ≠ 0 ∨ domainBits &&& 1 ≠ 0) := by
  -- the source parses the frame without INT and appends one record
  have hparse := parse_noInt q hport payload
  rw [← hframe] at hparse
  obtain ⟨p, q', behind, -, hstack, hintMd, hmeta, hpayload⟩ := wire_clone_source (v := none)
    (congrArg ParsedPacket.hdr hparse) hsource hc1 hwire hc2 hclone
  rw [hparse] at hmeta
  obtain ⟨hlen, hwords⟩ := length_hopRecord source.egress p
  have hsize := words_hopRecord hstatic hmeta
  have hrecord := hopRecord_eq hstatic hmeta
  -- `recordSize` counts the fields that both sides know, plus those of the controller only
  have hzero := IntController.recordSize_eq_zero_iff instructionBits domainBits
  have hboth := IntController.recordSize_eq instructionBits domainBits
  have hextra := IntController.unhonoured_eq_zero_iff instructionBits
  rw [← hsize] at hzero hboth
  rw [VarBits.emitOpt_none, List.nil_append, ← hlen, List.take_length] at hpayload
  have hhopML := toNat_hopML_addWords instructionBits domainBits hwords
  have hadds := hopML_addWords_ne_zero_iff instructionBits domainBits hwords
  have hlength := toNat_length_addWords q.udpScion.dstPort hwords
  rw [← not_and_or, ← hzero, ← hextra, ReportsRecord, hpayload]
  constructor
  · rintro ⟨intMd, r, hintMd', hok, -, hend⟩
    obtain rfl := Option.some.inj (hintMd.symm.trans hintMd')
    have hhopMLne := IntController.hopML_ne_of_result_cpuPayload hok
    have hne := hadds.mp hhopMLne
    have hend' := IntController.pos_of_result_cpuPayload hhopMLne (by rw [hlength, hhopML]) hok
    -- a report is published: the record is exactly what the controller reads
    have hcount : 4 * words (hopRecord source.egress p) =
        IntController.recordSize instructionBits domainBits := by
      rw [hend, hhopML] at hend'
      exact Nat.add_left_cancel hend'
    constructor
    · omega
    · omega
  · rintro ⟨hnone, hsome⟩
    -- no field of the controller only: the record has its layout
    have hhop : hopRecord source.egress p =
        (hopValues nodeID asAddr txUtil p.stdMeta).record instructionBits domainBits := by
      rw [hrecord]
      exact HopValues.record_honoured _ (hextra.mp hnone) domainBits
    have hne := hadds.mpr fun hw => hsome (by rw [hw])
    have hcount : IntController.recordSize instructionBits domainBits =
        4 * ((sourceMd instructionBits domainBits).addWords
          (words (hopRecord source.egress p))).hopML.toNat := by
      rw [hhopML]
      omega
    obtain ⟨r, hok, hhops, hend⟩ := IntController.result_record sinkID q'
      (hopValues nodeID asAddr txUtil p.stdMeta) behind hne hcount (by rw [hlength, hhopML])
    have hvalues : (hopValues nodeID asAddr txUtil p.stdMeta).record
        ((sourceMd instructionBits domainBits).addWords
          (words (hopRecord source.egress p))).instructionBitmap
        ((sourceMd instructionBits domainBits).addWords
          (words (hopRecord source.egress p))).domainInstructions = hopRecord source.egress p :=
      hhop.symm
    rw [hvalues] at hok hhops hend
    refine ⟨_, r, hintMd, hok, ?_, hend⟩
    rw [hhops, hstack]
    rfl

end

theorem reported_iff_sample :
    ReportsRecord 7 (reportSent 0x8d00 0x0001) (reportClone 0x8d00 0x0001).wire ↔
      (0x8d00 : BitVec 16) &&& 0x7280 = 0 ∧
        ((0x8d00 : BitVec 16) &&& 0x8d00 ≠ 0 ∨ (0x0001 : BitVec 16) &&& 1 ≠ 0) :=
  reported_iff 7 (frame_sampleArrival sampleBytes) (by decide)
    IntController.staticEntries_sampleTables (lookup_reportSource 0x8d00 0x0001) reports_sample.1
    (frame_sampleArrival _) reports_sample.2.1 reports_sample.2.2

/-- The table line `0xffff 0xffff`: the controller reads 24 bytes more than the source has inserted. -/
theorem reported_counterexample :
    reportSent 0xffff 0xffff ∈ (reportSource 0xffff 0xffff).process (sampleArrival sampleBytes) ∧
    reportClone 0xffff 0xffff ∈
      (sampleSwitch .clone_int).process (sampleArrival (reportSent 0xffff 0xffff).wire) ∧
    (reportClone 0xffff 0xffff).isClone ∧
    ¬ ReportsRecord 7 (reportSent 0xffff 0xffff) (reportClone 0xffff 0xffff).wire := by
  refine ⟨by decide +kernel, by decide +kernel, by decide +kernel, ?_⟩
  rintro ⟨intMd, p, hintMd, hok, -, hend⟩
  have hpos : (result (IntController.handlePacketIn 7) (reportClone 0xffff 0xffff).wire).toOption.map
      (fun r => r.pos) = some 164 := by decide +kernel
  have hhopML : (reportSent 0xffff 0xffff).hdr.intMd.map (fun h => h.hopML) = some 8 := by
    decide +kernel
  have hstart : (IntController.stackPos (reportClone 0xffff 0xffff).wire).toNat = 108 := by
    decide +kernel
  rw [hok] at hpos
  rw [hintMd] at hhopML
  have hpos' : p.pos = 164 := Option.some.inj hpos
  have hhopML' : intMd.hopML = 8 := Option.some.inj hhopML
  rw [hstart, hpos', hhopML'] at hend
  revert hend
  decide

end ScionInt
