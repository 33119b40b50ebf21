import ScionInt.DataPlane.Equiv.Switch

/-!
# INT source and INT sink

A switch whose entry for the destination is `insert_int` turns the frame `q.emit ++ payload` into
`(sourceFrame q w).emit ++ (sourceHeaders … ++ payload)`, up to the two checksums, where `w` is the
size of the record in words (`wire_insert`).  The parser of the next switch finds exactly these INT
headers, and a switch whose entry is `clone_int` removes them again.

Main results: `sink_source` (a source followed by a sink is the identity on the frame, the two
checksums apart) and `insert_lengths` (the source keeps every length field truthful).
-/

namespace ScionInt

open Wire INTSwitchEgress

/-! ### Equality up to the checksums -/

/-- Two frames that differ at most in the IPv4 header checksum (bytes 24 and 25) and in the outer UDP
checksum (bytes 40 and 41). -/
def SameUpToChecksums (x y : List Byte) : Prop :=
  x.length = y.length ∧ ∀ i ∉ [24, 25, 40, 41], x[i]? = y[i]?

theorem sameUpToChecksums_windows {A X X' B Y Y' : List Byte} (C : List Byte)
    (hA : A.length = 24) (hX : X.length = 2) (hX' : X'.length = 2) (hB : B.length = 14)
    (hY : Y.length = 2) (hY' : Y'.length = 2) :
    SameUpToChecksums (A ++ (X ++ (B ++ (Y ++ C)))) (A ++ (X' ++ (B ++ (Y' ++ C)))) := by
  constructor
  · simp only [List.length_append, hX, hX', hY, hY']
  · intro i hi
    simp only [List.mem_cons, List.not_mem_nil, or_false, not_or] at hi
    simp only [List.getElem?_append, hA, hX, hX', hB, hY, hY']
    split_ifs
    all_goals first | rfl | omega

/-- The checksums of a frame are where `SameUpToChecksums` allows a difference. -/
theorem ScionFrame.sameUpToChecksums (q : ScionFrame) (hdrChecksum checksum : BitVec 16)
    (rest : List Byte) :
    SameUpToChecksums ((q.withChecksums hdrChecksum checksum).emit ++ rest) (q.emit ++ rest) := by
  have hA : (Wire.emit q.ethernet ++ (ipv4Front q.ipv4 ++
      emitFields [8] (q.ipv4.protocol, ()))).length = 24 := by simp [ipv4Front]
  have hB : (emitFields [32, 32] (q.ipv4.srcAddr, q.ipv4.dstAddr, ()) ++
      (emitFields [16, 16] (q.udp.srcPort, q.udp.dstPort, ()) ++
        emitFields [16] (q.udp.len, ()))).length = 14 := by simp
  have hC : ∀ c : BitVec 16, (emitFields [16] (c, ())).length = 2 := by simp
  have h := sameUpToChecksums_windows (q.emitScion ++ rest) hA (hC hdrChecksum)
    (hC q.ipv4.hdrChecksum) hB (hC checksum) (hC q.udp.checksum)
  simp only [List.append_assoc] at h
  simp only [ScionFrame.emit, emit_ipv4, emit_udp, List.append_assoc]
  exact h

/-! ### The source -/

/-- The frame that a source with a record of `w` words emits, the checksums apart. -/
def sourceFrame (q : ScionFrame) (w : ℕ) : ScionFrame :=
  (q.setPort UDP_PORT).addLen (BitVec.ofNat 16 (16 + 4 * w))

/-- The INT headers that a source inserts in front of the payload. -/
def sourceHeaders (port instructionBits domainBits : BitVec 16) (record : IntStackT) :
    IntHeadersT where
  intShim := some ((sourceShim port).addWords (words record))
  intMd := some ((sourceMd instructionBits domainBits).addWords (words record))
  intStack := record

/-- The record of a switch has no `pre_int_stack`. -/
theorem emit_hopRecord (t : Tables) (p : Packet) : (hopRecord t p).emit = (hopRecord t p).emitHop := by
  have hnone : (hopRecord t p).preIntStack = none := rfl
  rw [IntStackT.emit, hnone, VarBits.emitOpt_none, List.nil_append]

theorem emit_sourceHeaders (port instructionBits domainBits : BitVec 16) (t : Tables) (p : Packet) :
    (sourceHeaders port instructionBits domainBits (hopRecord t p)).emit =
      emit ((sourceShim port).addWords (words (hopRecord t p))) ++
        (emit ((sourceMd instructionBits domainBits).addWords (words (hopRecord t p))) ++
          (hopRecord t p).emitHop) := by
  simp only [IntHeadersT.emit, sourceHeaders, emitOpt_some, emit_hopRecord]

/-- The bytes of a packet are those of a frame with the checksums of the checksum stage. -/
theorem wire_withInt {p : Packet} {q : ScionFrame} {x : IntHeadersT} {payload : Option PayloadH}
    (hp : p.hdr = q.withInt x payload) :
    ∃ hdrChecksum checksum : BitVec 16, p.wire = (q.withChecksums hdrChecksum checksum).emit ++
      (x.emit ++ (VarBits.emitOpt payload ++ p.rest)) := by
  obtain ⟨hdrChecksum, checksum, h⟩ := MyComputeChecksum_withInt q x payload p.rest
  refine ⟨hdrChecksum, checksum, ?_⟩
  rw [Packet.wire, hp, h, ScionFrame.emit_withInt, List.append_assoc, List.append_assoc]

/-- The copies of a switch that inserts INT: the record stands behind the stack that the frame carries. -/
theorem wire_insert {sw : Switch} {a : Arrival} {c : Packet} {q : ScionFrame}
    {intShim : Option IntShimH} {intMd : Option IntMdH} {v : Option PreIntStackH}
    {payload : Option PayloadH} {instructionBits domainBits : BitVec 16}
    (hparse : (parse a.frame).hdr = q.withInt ⟨intShim, intMd, { preIntStack := v }⟩ payload)
    (hentry : sw.scionInt.lookup q.dst = some (.insert_int instructionBits domainBits))
    (hc : c ∈ sw.process a) :
    ∃ (p : Packet) (q' : ScionFrame), c = insertStack sw.egress p ∧
      c.hdr.intStack = { hopRecord sw.egress p with preIntStack := v } ∧
      c.hdr.intMd =
        some ((sourceMd instructionBits domainBits).addWords (words (hopRecord sw.egress p))) ∧
      p.metadata = Switch.insertMetadata (parse a.frame).metadata instructionBits domainBits ∧
      q'.udpScion.dstPort = UDP_PORT ∧
      c.wire = q'.emit ++
        (emit ((sourceShim q.udpScion.dstPort).addWords (words (hopRecord sw.egress p))) ++
        (emit ((sourceMd instructionBits domainBits).addWords (words (hopRecord sw.egress p))) ++
        (VarBits.emitOpt v ++ ((hopRecord sw.egress p).emitHop ++
          (VarBits.emitOpt payload ++ (parse a.frame).rest))))) := by
  obtain ⟨p, r, rfl, hhdr, hrest, hmeta, -⟩ := Switch.process_insert hparse hentry hc
  have hstate : p.metadata.intState = 1 := by rw [hmeta]; rfl
  have haddLen : p.metadata.addLen = 0x10 := by rw [hmeta]; rfl
  have hhdr' := hdr_insertStack sw.egress hhdr hstate haddLen
  obtain ⟨hdrChecksum, checksum, hwire⟩ := wire_withInt hhdr'
  have hrest' : (insertStack sw.egress p).rest = (parse a.frame).rest := by
    rw [insertStack_eq sw.egress p (v := v) (by rw [hhdr]; rfl) hstate]
    exact hrest
  simp only [IntHeadersT.emit, IntStackT.emit, emitOpt_some, hrest', List.append_assoc] at hwire
  exact ⟨p, _, rfl, congrArg HeadersT.intStack hhdr', congrArg HeadersT.intMd hhdr', hmeta, rfl, hwire⟩

variable {sw : Switch} {a : Arrival} {c : Packet} {q : ScionFrame} {payload : List Byte}
  {instructionBits domainBits : BitVec 16}

/-- The copies of a source: INT headers with the record of the packet on which the egress tables
ran, in front of the payload. -/
theorem process_source (hframe : a.frame = q.emit ++ payload)
    (hport : q.udpScion.dstPort ≠ UDP_PORT)
    (hentry : sw.scionInt.lookup q.dst = some (.insert_int instructionBits domainBits))
    (hc : c ∈ sw.process a) :
    ∃ (p : Packet) (r : Replica), c = insertStack sw.egress p ∧
      c.hdr = (sourceFrame q (words (hopRecord sw.egress p))).withInt (sourceHeaders
        q.udpScion.dstPort instructionBits domainBits (hopRecord sw.egress p)) none ∧
      c.rest = payload ∧
      c.metadata.addLen = BitVec.ofNat 16 (16 + 4 * words (hopRecord sw.egress p)) ∧
      p.metadata = Switch.insertMetadata { cpuHdrLen := q.cpuHdrLen } instructionBits domainBits ∧
      p.stdMeta.ingressGlobalTimestamp = a.ingressTimestamp ∧
      p.stdMeta.egressGlobalTimestamp = a.egressTimestamp p.stdMeta.instanceType r ∧
      p.stdMeta.egressPort = r.egressPort ∧ ¬ c.isClone := by
  have hparse := parse_noInt q hport payload
  rw [← hframe] at hparse
  obtain ⟨p, r, hcp, hhdr, hrest, hmeta, h1, h2, h3, horig⟩ :=
    Switch.process_insert (q := q) (x := {}) (by rw [hparse]; rfl) hentry hc
  rw [hparse] at hrest hmeta
  have hadd : (16 : BitVec 16) + BitVec.ofNat 16 (hopRecord sw.egress p).emitHop.length =
      BitVec.ofNat 16 (16 + 4 * words (hopRecord sw.egress p)) := by
    rw [← (length_hopRecord sw.egress p).1, BitVec.ofNat_add]
    rfl
  have hstate : p.metadata.intState = 1 := by rw [hmeta]; rfl
  have haddLen : p.metadata.addLen = 0x10 := by rw [hmeta]; rfl
  have hstack := insertStack_eq sw.egress p (v := none) (by rw [hhdr]; rfl) hstate
  refine ⟨p, r, hcp, ?_, ?_, ?_, hmeta, h1, h2, h3, horig⟩
  · rw [hcp, hdr_insertStack sw.egress hhdr hstate haddLen, hadd]
    rfl
  · rw [hcp, hstack]
    exact hrest
  · rw [hcp, hstack, ← hadd, ← haddLen]
    rfl

/-! ### The sink -/

theorem toNat_length_addWords (port : BitVec 16) {w : ℕ} (hw : w ≤ 8) :
    ((sourceShim port).addWords w).length.toNat = 3 + w := by
  simp only [IntShimH.addWords, sourceShim, BitVec.toNat_add, BitVec.ofNat_eq_ofNat,
    BitVec.toNat_ofNat]
  omega

theorem toNat_hopML_addWords (instructionBits domainBits : BitVec 16) {w : ℕ} (hw : w ≤ 8) :
    ((sourceMd instructionBits domainBits).addWords w).hopML.toNat = w := by
  simp only [IntMdH.addWords, sourceMd, BitVec.toNat_add, BitVec.ofNat_eq_ofNat,
    BitVec.toNat_ofNat]
  omega

theorem hopML_addWords_ne_zero_iff (instructionBits domainBits : BitVec 16) {w : ℕ} (hw : w ≤ 8) :
    ((sourceMd instructionBits domainBits).addWords w).hopML ≠ 0 ↔ w ≠ 0 := by
  have hhopML := toNat_hopML_addWords instructionBits domainBits hw
  constructor
  · intro hne hzero
    exact hne (BitVec.eq_of_toNat_eq (hhopML.trans hzero))
  · intro hne hzero
    rw [hzero] at hhopML
    exact hne hhopML.symm

/-- The next switch finds the INT headers that a source inserted. -/
theorem parse_source (q : ScionFrame) (hport : q.udpScion.dstPort = UDP_PORT)
    (port instructionBits domainBits : BitVec 16) (t : Tables) (p : Packet) (rest : List Byte) :
    ∃ (v : Option PreIntStackH) (payload : Option PayloadH) (accepted : Bool)
      (stackLen : BitVec 32) (rest' : List Byte),
      parse (q.emit ++ ((sourceHeaders port instructionBits domainBits (hopRecord t p)).emit ++
          rest)) =
        ⟨accepted, q.withInt
            ⟨(sourceHeaders port instructionBits domainBits (hopRecord t p)).intShim,
              (sourceHeaders port instructionBits domainBits (hopRecord t p)).intMd,
              { preIntStack := v }⟩ payload,
          { cpuHdrLen := q.cpuHdrLen + 16, intStackLen := stackLen }, rest'⟩ ∧
      VarBits.emitOpt v = (hopRecord t p).emitHop ∧ VarBits.emitOpt payload ++ rest' = rest := by
  obtain ⟨hlen, hle⟩ := length_hopRecord t p
  have hmax : 8 * (hopRecord t p).emitHop.length ≤ SPACE_FOR_HOPS := by
    rw [SPACE_FOR_HOPS]; omega
  have hshim := toNat_length_addWords port hle
  rw [emit_sourceHeaders, List.append_assoc, List.append_assoc]
  exact parse_int q hport rfl _ (v := ⟨_, hmax⟩) (by rw [hshim, hlen]; omega) rest

/-- A sink that parses a frame with INT headers of the announced size gives back the frame without
them. -/
theorem wire_sink {sink : Switch} {a : Arrival} {c : Packet} {q : ScionFrame} {intShim : IntShimH}
    {intMd : Option IntMdH} {v : Option PreIntStackH} {payload : Option PayloadH}
    {hdrChecksum checksum : BitVec 16}
    (hparse : (parse a.frame).hdr =
      (((q.setPort UDP_PORT).addLen (subLen intShim)).withChecksums hdrChecksum checksum).withInt
        ⟨some intShim, intMd, { preIntStack := v }⟩ payload)
    (hudpPort : intShim.udpPort = q.udpScion.dstPort)
    (hentry : sink.scionInt.lookup q.dst = some .clone_int) (hc : c ∈ sink.process a)
    (horig : ¬ c.isClone) :
    ∃ hdrChecksum' checksum' : BitVec 16, c.wire =
      (q.withChecksums hdrChecksum' checksum').emit ++
        (VarBits.emitOpt payload ++ (parse a.frame).rest) := by
  obtain ⟨p, rfl, hp, hrest⟩ := Switch.process_delete hparse hentry hc horig
  have hback : ((((q.setPort UDP_PORT).addLen (subLen intShim)).withChecksums hdrChecksum
      checksum).setPort q.udpScion.dstPort).addLen (-subLen intShim) =
      q.withChecksums hdrChecksum checksum := by
    rw [ScionFrame.setPort_withChecksums, ScionFrame.setPort_addLen, ScionFrame.setPort_setPort,
      ScionFrame.setPort_self, ScionFrame.addLen_withChecksums, ScionFrame.addLen_addLen,
      BitVec.add_right_neg]
    exact congrArg (fun q' => ScionFrame.withChecksums q' hdrChecksum checksum) q.addLen_zero
  have hdel := hdr_deleteInt (hp.trans hparse)
  rw [hudpPort, hback] at hdel
  obtain ⟨hdrChecksum', checksum', hwire⟩ := wire_withInt hdel
  refine ⟨hdrChecksum', checksum', ?_⟩
  rw [hwire, show (deleteInt p).rest = p.rest from rfl, hrest, ScionFrame.withChecksums_withChecksums]
  rfl

/-- A source followed by a sink hands the frame on unchanged, except for the two checksums: for every
copy `c1` of the source and every copy `c2` of the sink that is not the clone for the controller. -/
theorem sink_source {source sink : Switch} {a1 a2 : Arrival} {c1 c2 : Packet} {q : ScionFrame}
    {payload : List Byte} {instructionBits domainBits : BitVec 16}
    (hframe : a1.frame = q.emit ++ payload) (hport : q.udpScion.dstPort ≠ UDP_PORT)
    (hsource : source.scionInt.lookup q.dst = some (.insert_int instructionBits domainBits))
    (hc1 : c1 ∈ source.process a1) (hwire : a2.frame = c1.wire)
    (hsink : sink.scionInt.lookup q.dst = some .clone_int)
    (hc2 : c2 ∈ sink.process a2) (horig : ¬ c2.isClone) :
    SameUpToChecksums c2.wire a1.frame := by
  obtain ⟨p1, -, -, hhdr1, hrest1, -⟩ := process_source hframe hport hsource hc1
  obtain ⟨hdrChecksum, checksum, hw1⟩ := wire_withInt hhdr1
  have hw := (length_hopRecord source.egress p1).2
  -- the sink parses the headers of the source
  obtain ⟨v, pl, accepted, stackLen, rest, hparse, -, hpl⟩ := parse_source
    ((sourceFrame q (words (hopRecord source.egress p1))).withChecksums hdrChecksum checksum)
    rfl q.udpScion.dstPort instructionBits domainBits source.egress p1 payload
  rw [VarBits.emitOpt_none, List.nil_append, hrest1] at hw1
  rw [← hw1, ← hwire] at hparse
  have hhdr2 := congrArg ParsedPacket.hdr hparse
  rw [sourceFrame, ← subLen_of_length (toNat_length_addWords q.udpScion.dstPort hw)] at hhdr2
  -- and removes them
  obtain ⟨hdrChecksum', checksum', hw2⟩ := wire_sink hhdr2 rfl hsink hc2 horig
  rw [hw2, hparse, hpl, hframe]
  exact q.sameUpToChecksums hdrChecksum' checksum' payload

theorem sink_source_sample : SameUpToChecksums sampleReceived.wire sampleBytes :=
  sink_source (frame_sampleArrival sampleBytes) (by decide) (lookup_sampleSwitch _) sampleSent_mem
    (frame_sampleArrival sampleSent.wire) (lookup_sampleSwitch _) sampleReceived_mem
    sample_copies.2.2.2

/-! ### The length fields -/

/-- The length fields of a frame with `n` bytes behind the SCION-UDP header are the byte counts they
describe. -/
structure ScionFrame.LengthsMatch (q : ScionFrame) (n : ℕ) : Prop where
  totalLen : q.ipv4.totalLen.toNat = 28 + q.emitScion.length + n
  len : q.udp.len.toNat = 8 + q.emitScion.length + n
  payloadLen : q.scionCommon.payloadLen.toNat = 8 + n
  udpScionLen : q.udpScion.len.toNat = 8 + n

theorem ScionFrame.LengthsMatch.addLen {q : ScionFrame} {n k : ℕ} (h : q.LengthsMatch n)
    (hfit : 28 + q.emitScion.length + n + k < 2 ^ 16) :
    (q.addLen (BitVec.ofNat 16 k)).LengthsMatch (n + k) := by
  have hadd : ∀ {x : BitVec 16} {m : ℕ}, x.toNat = m → m + k < 2 ^ 16 →
      (x + BitVec.ofNat 16 k).toNat = m + k := by
    intro x m hx hm
    rw [BitVec.toNat_add, BitVec.toNat_ofNat, hx]
    omega
  obtain ⟨h1, h2, h3, h4⟩ := h
  constructor
  · rw [length_emitScion_addLen]
    exact (hadd h1 (by omega)).trans (by omega)
  · rw [length_emitScion_addLen]
    exact (hadd h2 (by omega)).trans (by omega)
  · exact (hadd h3 (by omega)).trans (by omega)
  · exact (hadd h4 (by omega)).trans (by omega)

theorem ScionFrame.LengthsMatch.setPort {q : ScionFrame} {n : ℕ} (h : q.LengthsMatch n)
    (port : BitVec 16) : (q.setPort port).LengthsMatch n := by
  obtain ⟨h1, h2, h3, h4⟩ := h
  exact ⟨by rw [length_emitScion_setPort]; exact h1, by rw [length_emitScion_setPort]; exact h2,
    h3, h4⟩

theorem ScionFrame.LengthsMatch.withChecksums {q : ScionFrame} {n : ℕ} (h : q.LengthsMatch n)
    (hdrChecksum checksum : BitVec 16) : (q.withChecksums hdrChecksum checksum).LengthsMatch n :=
  ⟨h.totalLen, h.len, h.payloadLen, h.udpScionLen⟩

/-- A frame with INT-MD whose length fields are consistent: they count the INT headers, the stack and
the payload behind them, and the shim counts INT-MD and the stack. -/
structure ScionFrame.CarriesInt (q : ScionFrame) (intShim : IntShimH) (stack payload : List Byte) :
    Prop where
  dstPort : q.udpScion.dstPort = UDP_PORT
  type : intShim.type = INTType.MD
  length : 4 * intShim.length.toNat = 12 + stack.length
  lengths : q.LengthsMatch (16 + stack.length + payload.length)

/-- With consistent length fields the parser looks for the payload that is there. -/
theorem ScionFrame.CarriesInt.payloadFits_iff {q : ScionFrame} {intShim : IntShimH}
    {stack payload : List Byte} (h : q.CarriesInt intShim stack payload) (p : PayloadH) :
    q.scionCommon.PayloadFits (IntParser.intStackBits intShim) p ↔
      p.data.length = payload.length := by
  have hlen := h.length
  have hpayloadLen := h.lengths.payloadLen
  have hlt : q.scionCommon.payloadLen.toNat < 2 ^ 16 := q.scionCommon.payloadLen.isLt
  have hstack : (IntParser.intStackBits intShim).toNat = 8 * stack.length := by
    rw [IntParser.toNat_intStackBits (by omega)]
    omega
  have hbits : (IntSwitchParser.payloadBits q.scionCommon
      (IntParser.intStackBits intShim)).toNat = 8 * payload.length := by
    simp only [IntSwitchParser.payloadBits, BitVec.toNat_sub, BitVec.toNat_mul,
      BitVec.toNat_setWidth, BitVec.ofNat_eq_ofNat, BitVec.toNat_ofNat, hstack]
    omega
  have hmod : IntSwitchParser.payloadBits q.scionCommon (IntParser.intStackBits intShim) % 8 = 0 := by
    apply BitVec.eq_of_toNat_eq
    rw [BitVec.toNat_umod, hbits]
    exact Nat.mul_mod_right 8 payload.length
  rw [ScionCommonH.PayloadFits, hmod, BitVec.ofNat_eq_ofNat, BitVec.sub_zero, hbits]
  omega

/-- The shim of the frame that the sample source emits. -/
def sampleShim : IntShimH := ⟨INTType.MD, 1, 0, 8, 40001⟩

/-- The sample frame with INT headers in front of a payload of four bytes. -/
def sampleIntFrame (stack : List Byte) : ScionFrame :=
  (sampleFrame.setPort UDP_PORT).addLen (BitVec.ofNat 16 (16 + stack.length))

@[irreducible] def sampleIntBytes (intShim : IntShimH) (stack payload : List Byte) : List Byte :=
  (sampleIntFrame stack).emit ++
    (emit intShim ++ (emit (sourceMd 0x8d00 0x0001) ++ (stack ++ payload)))

theorem frame_sampleIntBytes (intShim : IntShimH) (stack payload : List Byte) :
    (sampleArrival (sampleIntBytes intShim stack payload)).frame = (sampleIntFrame stack).emit ++
      (emit intShim ++ (emit (sourceMd 0x8d00 0x0001) ++ (stack ++ payload))) := by
  rw [frame_sampleArrival, sampleIntBytes]

def sampleStack : List Byte := List.replicate 20 0x07

theorem carriesInt_sampleIntFrame (intShim : IntShimH) (stack payload : List Byte)
    (htype : intShim.type = INTType.MD) (hlength : 4 * intShim.length.toNat = 12 + stack.length)
    (hpayload : payload.length = 4) (hstack : stack.length ≤ 60000) :
    (sampleIntFrame stack).CarriesInt intShim stack payload where
  dstPort := rfl
  type := htype
  length := hlength
  lengths := by
    have h4 : sampleFrame.LengthsMatch 4 := ⟨by decide, by decide, by decide, by decide⟩
    have hscion : sampleFrame.emitScion.length = 76 := by decide
    have hadd := (h4.setPort UDP_PORT).addLen (k := 16 + stack.length) (by
      rw [ScionFrame.length_emitScion_setPort, hscion]
      omega)
    rw [hpayload, Nat.add_comm]
    exact hadd

/-- A source keeps the length fields truthful: the emitted frame is a frame `q'` with INT headers in
front of the same payload (and whatever follows it), its four length fields count them in, the shim
length and `hopML` count the words of the INT headers and of the record, and `addLen` is the number of
bytes by which the frame has grown. -/
theorem insert_lengths {sw : Switch} {a : Arrival} {c : Packet} {q : ScionFrame}
    {payload trailer : List Byte} {instructionBits domainBits : BitVec 16}
    (hframe : a.frame = q.emit ++ (payload ++ trailer)) (hport : q.udpScion.dstPort ≠ UDP_PORT)
    (hlengths : q.LengthsMatch payload.length)
    (hentry : sw.scionInt.lookup q.dst = some (.insert_int instructionBits domainBits))
    (hc : c ∈ sw.process a)
    (hfit : 28 + q.emitScion.length + payload.length + (c.wire.length - a.frame.length) < 2 ^ 16) :
    ∃ (q' : ScionFrame) (intShim : IntShimH) (intMd : IntMdH),
      c.hdr.intShim = some intShim ∧ c.hdr.intMd = some intMd ∧
      c.wire = q'.emit ++ (emit intShim ++ (emit intMd ++ (c.hdr.intStack.emit ++
        (payload ++ trailer)))) ∧
      q'.LengthsMatch (4 + 12 + c.hdr.intStack.emit.length + payload.length) ∧
      4 * (intShim.length.toNat + 1) = 4 + 12 + c.hdr.intStack.emit.length ∧
      4 * intMd.hopML.toNat = c.hdr.intStack.emit.length ∧
      c.metadata.addLen.toNat = c.wire.length - a.frame.length := by
  obtain ⟨p, r, -, hhdr, hrest, haddLen, -⟩ := process_source hframe hport hentry hc
  obtain ⟨hdrChecksum, checksum, hwire⟩ := wire_withInt hhdr
  obtain ⟨hlen, hw⟩ := length_hopRecord sw.egress p
  have hemit := emit_hopRecord sw.egress p
  have hheaders := emit_sourceHeaders q.udpScion.dstPort instructionBits domainBits sw.egress p
  generalize hopRecord sw.egress p = record at *
  have hstack : c.hdr.intStack = record := by rw [hhdr]; rfl
  have hbytes : c.wire = ((sourceFrame q (words record)).withChecksums hdrChecksum checksum).emit ++
      (emit ((sourceShim q.udpScion.dstPort).addWords (words record)) ++
        (emit ((sourceMd instructionBits domainBits).addWords (words record)) ++
          (record.emitHop ++ (payload ++ trailer)))) := by
    rw [hwire, hrest, hheaders, VarBits.emitOpt_none, List.nil_append, List.append_assoc,
      List.append_assoc]
  have hgrowth : c.wire.length - a.frame.length = 16 + 4 * words record := by
    rw [hbytes, hframe]
    simp only [List.length_append, ScionFrame.length_emit,
      ScionFrame.length_emitScion_withChecksums, sourceFrame, ScionFrame.length_emitScion_addLen,
      ScionFrame.length_emitScion_setPort, Wire.length_emit, IntShimH.size_eq, IntMdH.size_eq, hlen]
    omega
  have hmatch := ((hlengths.setPort UDP_PORT).addLen (k := 16 + 4 * words record)
    (by rw [ScionFrame.length_emitScion_setPort]; omega)).withChecksums hdrChecksum checksum
  rw [hstack, hemit, hlen]
  refine ⟨_, _, _, by rw [hhdr]; rfl, by rw [hhdr]; rfl, hbytes, ?_, ?_, ?_, ?_⟩
  · rw [show 4 + 12 + 4 * words record + payload.length =
      payload.length + (16 + 4 * words record) by omega]
    exact hmatch
  · rw [toNat_length_addWords _ hw]
    omega
  · rw [toNat_hopML_addWords _ _ hw]
  · rw [haddLen, hgrowth, BitVec.toNat_ofNat]
    omega

theorem insert_lengths_sample :
    ∃ (q' : ScionFrame) (intShim : IntShimH) (intMd : IntMdH),
      sampleSent.hdr.intShim = some intShim ∧ sampleSent.hdr.intMd = some intMd ∧
      sampleSent.wire = q'.emit ++ (emit intShim ++ (emit intMd ++
        (sampleSent.hdr.intStack.emit ++ (samplePayload ++ sampleTrailer)))) ∧
      q'.LengthsMatch (4 + 12 + sampleSent.hdr.intStack.emit.length + samplePayload.length) ∧
      4 * (intShim.length.toNat + 1) = 4 + 12 + sampleSent.hdr.intStack.emit.length ∧
      4 * intMd.hopML.toNat = sampleSent.hdr.intStack.emit.length ∧
      sampleSent.metadata.addLen.toNat =
        sampleSent.wire.length - (sampleArrival sampleBytes).frame.length :=
  insert_lengths (frame_sampleArrival sampleBytes) (by decide)
    ⟨by decide, by decide, by decide, by decide⟩ (lookup_sampleSwitch _) sampleSent_mem
    (by decide +kernel)

end ScionInt
