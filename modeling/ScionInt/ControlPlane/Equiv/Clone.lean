import ScionInt.ControlPlane.Equiv.Layout
import ScionInt.DataPlane.Equiv.Checksum
import ScionInt.DataPlane.Equiv.SourceSink

/-!
# The copy for the controller

An ingress clone carries the headers that the parser finds in the received frame and the `cpuHdrLen`
that the parser has counted; `keep_int_cpu` replaces the outer headers by `int_cpu` and drops the
payload behind the INT stack.  `wire_clone` computes the bytes of such a copy.

Main results: `clone_layout` and `cpuCopy_iff`.  The copy is a `cpuPayload`: `int_cpu` with the length of
the headers from the SCION common header to INT-MD, these headers, the stack, and what the parser has
left of the frame behind the payload.  So the controller reads the fields of the frame at its fixed
offsets (`HeadersRead`) and finds the stack at its cursor.  The parser extracts the payload, and
`keep_int_cpu` drops it, only behind a stack and up to 8130 bytes.
-/

namespace ScionInt

open Wire Wire.Scan INTSwitchEgress

/-! ### The bytes of a clone -/

/-- The headers of a clone behind `keep_int_cpu`. -/
theorem hdr_keepIntCpu {p : Packet} {q : ScionFrame} {x : IntHeadersT} {payload : Option PayloadH}
    (hp : p.hdr = q.withInt x payload) :
    (keepIntCpu p).hdr.emit =
      emit (IntCpuH.mk INT_IDENTIFIER p.metadata.cpuHdrLen) ++ (q.emitScion ++ x.emit) := by
  have hhdr : (keepIntCpu p).hdr = { q.withInt x none with
      intCpu := some ⟨INT_IDENTIFIER, p.metadata.cpuHdrLen⟩
      ethernet := none
      ipv4 := none
      udp := none } := by
    rw [keepIntCpu, hp]
    rfl
  rw [hhdr]
  simp [HeadersT.emit, HeadersT.emitBehindUdp, ScionFrame.withInt, ScionFrame.hdr,
    ScionFrame.emitScion, IntHeadersT.emit]

/-- The ingress control does not change `cpuHdrLen`. -/
theorem INTSwitchIngress.cpuHdrLen_apply (t : ScionIntTable) (p : Packet) :
    (apply t p).1.metadata.cpuHdrLen = p.metadata.cpuHdrLen := by
  rw [apply]
  split_ifs
  · rw [scionInt]
    simp only
    split
    all_goals rfl
  · rfl

/-- A clone of a frame with INT headers: what is sent to the controller. -/
theorem wire_clone {sw : Switch} {a : Arrival} {c : Packet} {q : ScionFrame} {intShim : IntShimH}
    {intMd : IntMdH} {v : Option PreIntStackH} {payload : Option PayloadH}
    (hhdr : (parse a.frame).hdr =
      q.withInt ⟨some intShim, some intMd, { preIntStack := v }⟩ payload)
    (hcpuHdrLen : (parse a.frame).metadata.cpuHdrLen = q.cpuHdrLen + 16) (hc : c ∈ sw.process a)
    (hclone : c.isClone) :
    c.wire = cpuPayload q intShim intMd (VarBits.emitOpt v ++ (parse a.frame).rest) := by
  obtain ⟨r, hc, -⟩ := Switch.mem_process_clone hc hclone
  obtain ⟨s, -, hpacket, -⟩ := sw.ingress_eq a
  have hingress := INTSwitchIngress.cpuHdrLen_apply sw.scionInt
    { Switch.receive a with stdMeta := s }
  rw [← hpacket] at hingress
  generalize hp : Switch.toEgress a { Switch.receive a with
    metadata.cpuHdrLen := (sw.ingress a).packet.metadata.cpuHdrLen } INGRESS_CLONE r = p at hc
  have hphdr : p.hdr = q.withInt ⟨some intShim, some intMd, { preIntStack := v }⟩ payload := by
    rw [← hp]
    exact hhdr
  have hplen : p.metadata.cpuHdrLen = q.cpuHdrLen + 16 := by
    rw [← hp]
    exact hingress.trans hcpuHdrLen
  have hprest : p.rest = (parse a.frame).rest := by
    rw [← hp]
    rfl
  have hstate : p.metadata.intState = 0 := by
    rw [← hp]
    exact intState_parse (by rw [hhdr]; rfl)
  have hinstance : p.stdMeta.instanceType = INGRESS_CLONE := by
    rw [← hp]
    rfl
  rw [apply_clone sw.egress (by rw [hphdr]; rfl) (by rw [hphdr]; rfl) (by rw [hphdr]; rfl) hstate,
    handleCloneInstances_clone hinstance] at hc
  have hlen : q.cpuHdrLen + 16 = BitVec.ofNat 64 (q.emitScion.length + 16) := by
    rw [BitVec.ofNat_add]
    rfl
  rw [hc, wire_other rfl rfl, hdr_keepIntCpu hphdr, hplen, hlen, cpuPayload,
    show (keepIntCpu p).rest = p.rest from rfl, hprest]
  simp [IntHeadersT.emit, IntStackT.emit, IntStackT.emitHop]

/-! ### The frames that are cloned -/

/-- The frames with INT-MD that the parser accepts: an empty stack, or a stack and a payload of the
length that the SCION common header gives. -/
theorem parse_accepted_md {frame : List Byte} {intShim : IntShimH}
    (haccepted : (parse frame).accepted = true) (hintShim : (parse frame).hdr.intShim = some intShim)
    (htype : intShim.type = INTType.MD) :
    ∃ (q : ScionFrame) (intMd : IntMdH) (v : Option PreIntStackH) (payload : Option PayloadH),
      (parse frame).hdr = q.withInt ⟨some intShim, some intMd, { preIntStack := v }⟩ payload ∧
      (parse frame).metadata.cpuHdrLen = q.cpuHdrLen + 16 ∧
      4 * intShim.length.toNat = 12 + (VarBits.emitOpt v).length ∧
      (v = none ∧ payload = none ∨ ∃ p, payload = some p ∧
        q.scionCommon.PayloadFits (IntParser.intStackBits intShim) p) := by
  have hout := parse_outcome frame
  generalize parse frame = r at hout haccepted hintShim
  cases hout with
  | noEthernet | noIpv4 | noUdp | noShim | noMd | badStack | badPayload => cases haccepted
  | notIpv4 | notUdp | noUdpScion | noInt => cases hintShim
  | notMd q intShim' rest hport htype' =>
    obtain rfl : intShim' = intShim := Option.some.inj hintShim
    exact absurd htype htype'
  | emptyStack q intShim' intMd rest hport htype' hlen =>
    obtain rfl : intShim' = intShim := Option.some.inj hintShim
    refine ⟨q, intMd, none, none, rfl, rfl, ?_, .inl ⟨rfl, rfl⟩⟩
    rw [hlen]
    rfl
  | payload q intShim' intMd v payload rest hport htype' hlen hbits hfits =>
    obtain rfl : intShim' = intShim := Option.some.inj hintShim
    refine ⟨q, intMd, some v, some payload, rfl, rfl, ?_, .inr ⟨payload, rfl, hfits⟩⟩
    have h3 := three_le_length_of_stack hbits
    rw [IntParser.toNat_intStackBits h3] at hbits
    rw [VarBits.emitOpt_some]
    omega

/-! ### What the controller finds -/

/-- What the controller reads of a payload are the fields of the given headers, and its cursor is where
the INT stack starts. -/
structure HeadersRead (q : ScionFrame) (intShim : IntShimH) (intMd : IntMdH) (payload : List Byte) :
    Prop where
  identifier : IntController.identifier payload = IntController.INT_IDENTIFIER
  hdrLen : (IntController.hdrLen payload).toNat = q.emitScion.length + 4 + 12
  flowID : (IntController.flowKeyMsg payload).toNat % 2 ^ 20 = q.scionCommon.flowID.toNat
  asAddr : (IntController.asAddr payload).toNat = q.dst.1.toNat * 2 ^ 48 + q.dst.2.toNat
  shimLength : IntController.shimLength payload = intShim.length
  hopML : IntController.intHopSize payload = intMd.hopML.toNat
  instructionBitmap : IntController.instructionBits payload = intMd.instructionBitmap
  domainInstructions : IntController.domainBits payload = intMd.domainInstructions
  stackPos : (IntController.stackPos payload).toNat = 16 + (q.emitScion.length + 4 + 12)

theorem headersRead_cpuPayload (q : ScionFrame) (intShim : IntShimH) (intMd : IntMdH)
    (behind : List Byte) : HeadersRead q intShim intMd (cpuPayload q intShim intMd behind) where
  identifier := IntController.identifier_cpuPayload q intShim intMd behind
  hdrLen := by
    have hlt := q.length_emitScion_lt
    rw [IntController.hdrLen_cpuPayload, BitVec.toNat_ofNat]
    omega
  flowID := IntController.flowKeyMsg_cpuPayload q intShim intMd behind
  asAddr := IntController.asAddr_cpuPayload q intShim intMd behind
  shimLength := IntController.shimLength_cpuPayload q intShim intMd behind
  hopML := IntController.intHopSize_cpuPayload q intShim intMd behind
  instructionBitmap := IntController.instructionBits_cpuPayload q intShim intMd behind
  domainInstructions := IntController.domainBits_cpuPayload q intShim intMd behind
  stackPos := by
    rw [IntController.toNat_stackPos_cpuPayload]
    omega

/-- The clone of an accepted frame with INT-MD: behind `int_cpu` it carries the received bytes from the
SCION common header to the end of the stack and then those behind the payload, if there is a stack (the
parser extracts the payload only then, and `keep_int_cpu` drops it). -/
theorem clone_layout {sw : Switch} {a : Arrival} {c : Packet} {intShim : IntShimH}
    (haccepted : (parse a.frame).accepted = true)
    (hintShim : (parse a.frame).hdr.intShim = some intShim) (htype : intShim.type = INTType.MD)
    (hc : c ∈ sw.process a) (hclone : c.isClone) :
    ∃ (q : ScionFrame) (intMd : IntMdH) (stack : List Byte) (payload : Option PayloadH)
      (rest : List Byte),
      a.frame = q.emit ++ (emit intShim ++ (emit intMd ++ (stack ++
        (VarBits.emitOpt payload ++ rest)))) ∧
      c.wire = emit (IntCpuH.mk INT_IDENTIFIER (BitVec.ofNat 64 (q.emitScion.length + 4 + 12))) ++
        (q.emitScion ++ (emit intShim ++ (emit intMd ++ (stack ++ rest)))) ∧
      4 * intShim.length.toNat = 12 + stack.length ∧
      (stack = [] ∧ payload = none ∨ ∃ p, payload = some p ∧
        q.scionCommon.PayloadFits (IntParser.intStackBits intShim) p) ∧
      HeadersRead q intShim intMd c.wire := by
  obtain ⟨q, intMd, v, payload, hhdr, hcpuHdrLen, hlen, hpayload⟩ :=
    parse_accepted_md haccepted hintShim htype
  have hwire := wire_clone hhdr hcpuHdrLen hc hclone
  have hframe := (parse_outcome a.frame).emit_eq
  rw [hhdr, ScionFrame.emit_withInt] at hframe
  simp only [IntHeadersT.emit, emitOpt_some, IntStackT.emit, List.append_assoc] at hframe
  refine ⟨q, intMd, VarBits.emitOpt v, payload, (parse a.frame).rest, hframe.symm, hwire, hlen, ?_,
    ?_⟩
  · rcases hpayload with ⟨rfl, hp⟩ | hp
    · exact .inl ⟨rfl, hp⟩
    · exact .inr hp
  · rw [hwire]
    exact headersRead_cpuPayload q intShim intMd _

/-- What a sink parses of the sample packet, and where its clone differs from it. -/
theorem parse_sampleSent :
    (parse (sampleArrival sampleSent.wire).frame).accepted = true ∧
    (parse (sampleArrival sampleSent.wire).frame).hdr.intShim = some sampleShim ∧
    ¬ sampleSent.wire.drop 42 <+: sampleClone.wire.drop 16 := by
  decide +kernel

theorem clone_layout_sample :
    ∃ (q : ScionFrame) (intMd : IntMdH) (stack : List Byte) (payload : Option PayloadH)
      (rest : List Byte),
      sampleSent.wire = q.emit ++ (emit sampleShim ++ (emit intMd ++ (stack ++
        (VarBits.emitOpt payload ++ rest)))) ∧
      sampleClone.wire =
        emit (IntCpuH.mk INT_IDENTIFIER (BitVec.ofNat 64 (q.emitScion.length + 4 + 12))) ++
          (q.emitScion ++ (emit sampleShim ++ (emit intMd ++ (stack ++ rest)))) ∧
      4 * sampleShim.length.toNat = 12 + stack.length ∧
      (stack = [] ∧ payload = none ∨ ∃ p, payload = some p ∧
        q.scionCommon.PayloadFits (IntParser.intStackBits sampleShim) p) ∧
      HeadersRead q sampleShim intMd sampleClone.wire :=
  clone_layout (a := sampleArrival sampleSent.wire) parse_sampleSent.1 parse_sampleSent.2.1 rfl
    sampleClone_mem sample_copies.2.1.2

/-- The copy of the sample frame lacks the payload: it does not go on with the received bytes. -/
theorem clone_layout_counterexample :
    (parse sampleSent.wire).accepted = true ∧ (parse sampleSent.wire).hdr.intShim = some sampleShim ∧
    sampleShim.type = INTType.MD ∧
    sampleClone ∈ (sampleSwitch .clone_int).process (sampleArrival sampleSent.wire) ∧
    sampleClone.isClone ∧ ¬ sampleSent.wire.drop 42 <+: sampleClone.wire.drop 16 :=
  ⟨parse_sampleSent.1, parse_sampleSent.2.1, rfl, sampleClone_mem, sample_copies.2.1.2,
    parse_sampleSent.2.2⟩

/-! ### The application payload -/

section

variable {sw : Switch} {a : Arrival} {c : Packet} {q : ScionFrame} {intShim : IntShimH}
  {intMd : IntMdH} {stack payload : List Byte}

/-- What a clone keeps of the payload behind the stack. -/
def payloadLeft (stack payload : List Byte) : List Byte :=
  if stack ≠ [] ∧ payload.length ≤ 8130 then [] else payload

/-- The clone of a frame with INT-MD: `payload` is extracted, and so dropped, only behind a stack and if
it fits into `payload_h`. -/
theorem wire_clone_payload (hint : q.CarriesInt intShim stack payload)
    (hspace : 8 * stack.length ≤ SPACE_FOR_HOPS)
    (hframe : a.frame = q.emit ++ (emit intShim ++ (emit intMd ++ (stack ++ payload))))
    (hc : c ∈ sw.process a) (hclone : c.isClone) :
    c.wire = cpuPayload q intShim intMd (stack ++ payloadLeft stack payload) := by
  have hlen := hint.length
  -- the parser looks at the length of the shim, not at the stack
  have hempty : intShim.length = 0x03 ↔ stack = [] := by
    rw [← BitVec.toNat_inj, ← List.length_eq_zero_iff]
    show intShim.length.toNat = 3 ↔ _
    omega
  by_cases hstack : stack = []
  · have hparse := parse_emptyStack q hint.dstPort hint.type (hempty.mpr hstack) intMd payload
    rw [hstack, List.nil_append] at hframe
    rw [← hframe] at hparse
    have hhdr := congrArg ParsedPacket.hdr hparse
    have hwire := wire_clone (v := none) hhdr (by rw [hparse]) hc hclone
    rw [hwire, hparse, VarBits.emitOpt_none, payloadLeft, if_neg fun h => h.1 hstack, hstack]
  · have hbits : (IntParser.intStackBits intShim).toNat = 8 * stack.length := by
      rw [IntParser.toNat_intStackBits (by omega)]
      omega
    have hparse := parse_stack q hint.dstPort hint.type (fun h => hstack (hempty.mp h)) intMd
      (v := ⟨stack, hspace⟩) hbits payload
    rw [← hframe] at hparse
    rcases hparse with ⟨p, rest, hpayload, hfits, hparse⟩ | ⟨hnone, hparse⟩
    · -- the payload is extracted: it is all that follows, and is dropped
      have hplen := (hint.payloadFits_iff p).mp hfits
      have hmax : 8 * p.data.length ≤ 65040 := p.length_le
      have hrest : rest = [] := by
        have hlength := congrArg List.length hpayload
        rw [List.length_append] at hlength
        exact List.length_eq_zero_iff.mp (by omega)
      have hwire := wire_clone (congrArg ParsedPacket.hdr hparse) (by rw [hparse]) hc hclone
      rw [hwire, hparse, VarBits.emitOpt_some, payloadLeft, if_pos ⟨hstack, by omega⟩, hrest]
    · -- it does not fit into `payload_h` and stays behind the headers
      have hlong : ¬ payload.length ≤ 8130 := by
        intro hle
        have hmax : 8 * payload.length ≤ 65040 := by omega
        exact hnone ⟨⟨payload, hmax⟩, [], (List.append_nil payload).symm,
          (hint.payloadFits_iff ⟨payload, hmax⟩).mpr rfl⟩
      have hwire := wire_clone (congrArg ParsedPacket.hdr hparse) (by rw [hparse]) hc hclone
      rw [hwire, hparse, VarBits.emitOpt_some, payloadLeft, if_neg fun h => hlong h.2]

end

theorem cpuPayload_inj {q : ScionFrame} {intShim : IntShimH} {intMd : IntMdH} {behind behind' : List Byte} :
    cpuPayload q intShim intMd behind = cpuPayload q intShim intMd behind' ↔ behind = behind' := by
  simp only [cpuPayload, List.append_cancel_left_eq]

/-- The clones of two frames that differ in the payload only are equal, and without payload, exactly if
there is a stack and the payload fits into `payload_h`. -/
theorem cpuCopy_iff {sw1 sw2 : Switch} {a1 a2 : Arrival} {c1 c2 : Packet} {q : ScionFrame}
    {intShim : IntShimH} {intMd : IntMdH} {stack payload1 payload2 : List Byte}
    (hint1 : q.CarriesInt intShim stack payload1) (hint2 : q.CarriesInt intShim stack payload2)
    (hspace : 8 * stack.length ≤ SPACE_FOR_HOPS)
    (hframe1 : a1.frame = q.emit ++ (emit intShim ++ (emit intMd ++ (stack ++ payload1))))
    (hframe2 : a2.frame = q.emit ++ (emit intShim ++ (emit intMd ++ (stack ++ payload2))))
    (hc1 : c1 ∈ sw1.process a1) (hclone1 : c1.isClone) (hc2 : c2 ∈ sw2.process a2)
    (hclone2 : c2.isClone) :
    (c1.wire = c2.wire ↔ payload1 = payload2 ∨ (stack ≠ [] ∧ payload1.length ≤ 8130)) ∧
    (c1.wire = cpuPayload q intShim intMd stack ↔
      payload1 = [] ∨ (stack ≠ [] ∧ payload1.length ≤ 8130)) := by
  have hwire1 := wire_clone_payload hint1 hspace hframe1 hc1 hclone1
  have hwire2 := wire_clone_payload hint2 hspace hframe2 hc2 hclone2
  have hlen : payload1.length = payload2.length := by
    have h1 := hint1.lengths.payloadLen
    have h2 := hint2.lengths.payloadLen
    omega
  have hstack : cpuPayload q intShim intMd stack = cpuPayload q intShim intMd (stack ++ []) := by
    rw [List.append_nil]
  rw [hstack, hwire1, hwire2, cpuPayload_inj, cpuPayload_inj, List.append_cancel_left_eq,
    List.append_cancel_left_eq, payloadLeft, payloadLeft, hlen]
  by_cases h : stack ≠ [] ∧ payload2.length ≤ 8130
  · rw [if_pos h, if_pos h]
    exact ⟨iff_of_true rfl (.inr h), iff_of_true rfl (.inr h)⟩
  · rw [if_neg h, if_neg h]
    exact ⟨(or_iff_left h).symm, (or_iff_left h).symm⟩

@[irreducible] def sampleIntClone (intShim : IntShimH) (stack payload : List Byte) : Packet :=
  (sampleCopies .clone_int (sampleIntBytes intShim stack payload)).getD 0 default

def samplePong : List Byte := [0x70, 0x6f, 0x6e, 0x67]

/-- The clones of two frames with a stack and of two without one; the latter differ. -/
theorem sampleIntClone_mem :
    ((sampleIntClone sampleShim sampleStack samplePayload ∈ (sampleSwitch .clone_int).process
        (sampleArrival (sampleIntBytes sampleShim sampleStack samplePayload)) ∧
      (sampleIntClone sampleShim sampleStack samplePayload).isClone) ∧
     (sampleIntClone sampleShim sampleStack samplePong ∈ (sampleSwitch .clone_int).process
        (sampleArrival (sampleIntBytes sampleShim sampleStack samplePong)) ∧
      (sampleIntClone sampleShim sampleStack samplePong).isClone)) ∧
    sampleIntClone (sourceShim 40001) [] samplePayload ∈ (sampleSwitch .clone_int).process
      (sampleArrival (sampleIntBytes (sourceShim 40001) [] samplePayload)) ∧
    sampleIntClone (sourceShim 40001) [] samplePong ∈ (sampleSwitch .clone_int).process
      (sampleArrival (sampleIntBytes (sourceShim 40001) [] samplePong)) ∧
    (sampleIntClone (sourceShim 40001) [] samplePayload).isClone ∧
    (sampleIntClone (sourceShim 40001) [] samplePong).isClone ∧
    (sampleIntClone (sourceShim 40001) [] samplePayload).wire ≠
      (sampleIntClone (sourceShim 40001) [] samplePong).wire := by
  decide +kernel

theorem cpuCopy_iff_sample :
    ((sampleIntClone sampleShim sampleStack samplePayload).wire =
        (sampleIntClone sampleShim sampleStack samplePong).wire ↔
      samplePayload = samplePong ∨ (sampleStack ≠ [] ∧ samplePayload.length ≤ 8130)) ∧
    ((sampleIntClone sampleShim sampleStack samplePayload).wire =
        cpuPayload (sampleIntFrame sampleStack) sampleShim (sourceMd 0x8d00 0x0001) sampleStack ↔
      samplePayload = [] ∨ (sampleStack ≠ [] ∧ samplePayload.length ≤ 8130)) :=
  have hint (payload : List Byte) (h : payload.length = 4) :=
    carriesInt_sampleIntFrame sampleShim sampleStack payload rfl (by decide) h (by decide)
  have hping := sampleIntClone_mem.1.1
  have hpong := sampleIntClone_mem.1.2
  cpuCopy_iff (hint samplePayload rfl) (hint samplePong rfl) (by decide)
    (frame_sampleIntBytes _ _ _) (frame_sampleIntBytes _ _ _) hping.1 hping.2 hpong.1 hpong.2

/-- Without a stack the copies for the controller carry the payloads. -/
theorem cpuCopy_counterexample :
    (sampleIntFrame []).CarriesInt (sourceShim 40001) [] samplePayload ∧
    (sampleIntFrame []).CarriesInt (sourceShim 40001) [] samplePong ∧
    sampleIntClone (sourceShim 40001) [] samplePayload ∈ (sampleSwitch .clone_int).process
      (sampleArrival (sampleIntBytes (sourceShim 40001) [] samplePayload)) ∧
    sampleIntClone (sourceShim 40001) [] samplePong ∈ (sampleSwitch .clone_int).process
      (sampleArrival (sampleIntBytes (sourceShim 40001) [] samplePong)) ∧
    (sampleIntClone (sourceShim 40001) [] samplePayload).isClone ∧
    (sampleIntClone (sourceShim 40001) [] samplePong).isClone ∧
    (sampleIntClone (sourceShim 40001) [] samplePayload).wire ≠
      (sampleIntClone (sourceShim 40001) [] samplePong).wire :=
  ⟨carriesInt_sampleIntFrame _ _ _ rfl (by decide) rfl (by decide),
    carriesInt_sampleIntFrame _ _ _ rfl (by decide) rfl (by decide), sampleIntClone_mem.2⟩

end ScionInt
