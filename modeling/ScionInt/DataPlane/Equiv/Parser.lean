import ScionInt.DataPlane.Equiv.ScionParser

/-!
# What `IntSwitchParser` does to a frame

A `ScionFrame` holds the headers of a UDP-over-SCION frame, from Ethernet to the SCION-UDP header,
together with the selections that lead the parser through them.  `start_scionFrame` runs the parser
to the end of these headers, where `cpuHdrLen` is the number of bytes from the SCION common header
on.  `parse_outcome` lists all outcomes of the parser: five that end in front of the outer UDP header
or in it, one that ends before the SCION-UDP header is complete, and those of a `ScionFrame`.

From it follow the facts that the later stages use: `ParseOutcome.emit_eq` (the extracted headers and
the rest are the frame, whether or not the parser accepted), `parse_udpScion`, `parse_noInt` and
`parse_int`.  Main result: `deparse_parse`.
-/

namespace ScionInt

open Wire Wire.Parser

/-! ### Frames -/

/-- The headers of a UDP-over-SCION frame up to the SCION-UDP header. -/
structure ScionFrame where
  ethernet : EthernetH
  ipv4 : Ipv4H
  udp : UdpH
  scionCommon : ScionCommonH
  scionAddr : ScionAddrT
  scionPath : ScionPathT
  udpScion : UdpH
  etherType : ethernet.etherType = EtherType.IPV4
  protocol : ipv4.protocol = Proto.UDP
  dstPort : udp.dstPort = 50000
  nextHdr : scionCommon.nextHdr = NextHdr.UDP_SCION
  addr_matches : scionAddr.Matches scionCommon
  path_matches : scionPath.Matches scionCommon.pathType

namespace ScionFrame

/-- The headers as the parser extracts them. -/
def hdr (q : ScionFrame) : HeadersT where
  ethernet := some q.ethernet
  ipv4 := some q.ipv4
  udp := some q.udp
  scionCommon := some q.scionCommon
  scionAddr := q.scionAddr
  scionPath := q.scionPath
  udpScion := some q.udpScion

/-- The bytes from the SCION common header to the end of the SCION-UDP header. -/
def emitScion (q : ScionFrame) : List Byte :=
  emit q.scionCommon ++ (q.scionAddr.emit ++ (q.scionPath.emit ++ emit q.udpScion))

/-- The bytes of all headers of the frame. -/
def emit (q : ScionFrame) : List Byte :=
  Wire.emit q.ethernet ++ (Wire.emit q.ipv4 ++ (Wire.emit q.udp ++ q.emitScion))

/-- `cpuHdrLen` behind the SCION-UDP header. -/
def cpuHdrLen (q : ScionFrame) : BitVec 64 := BitVec.ofNat 64 q.emitScion.length

theorem length_emitScion (q : ScionFrame) :
    q.emitScion.length = 20 + q.scionAddr.emit.length + q.scionPath.emit.length := by
  simp only [emitScion, List.length_append, length_emit, ScionCommonH.size_eq, UdpH.size_eq]
  omega

theorem length_emit (q : ScionFrame) : q.emit.length = 42 + q.emitScion.length := by
  simp only [emit, List.length_append, Wire.length_emit, EthernetH.size_eq, Ipv4H.size_eq,
    UdpH.size_eq]
  omega

end ScionFrame

/-- The bytes of the INT headers. -/
def IntHeadersT.emit (x : IntHeadersT) : List Byte :=
  emitOpt x.intShim ++ (emitOpt x.intMd ++ x.intStack.emit)

namespace ScionFrame

/-- The headers of a frame with INT headers and an extracted payload. -/
def withInt (q : ScionFrame) (x : IntHeadersT) (payload : Option PayloadH) : HeadersT :=
  { q.hdr with
    intShim := x.intShim
    intMd := x.intMd
    intStack := x.intStack
    payload := payload }

theorem emit_withInt (q : ScionFrame) (x : IntHeadersT) (payload : Option PayloadH) :
    (q.withInt x payload).emit = q.emit ++ (x.emit ++ VarBits.emitOpt payload) := by
  simp [withInt, hdr, HeadersT.emit, HeadersT.emitBehindUdp, IntHeadersT.emit, emit, emitScion]

theorem withInt_empty (q : ScionFrame) : q.withInt {} none = q.hdr := rfl

theorem emit_hdr (q : ScionFrame) : q.hdr.emit = q.emit := by
  rw [← withInt_empty, emit_withInt]
  exact List.append_nil _

/-- The headers of a frame are determined by its bytes. -/
theorem emit_append_inj {q q' : ScionFrame} {bs bs' : List Byte}
    (h : q.emit ++ bs = q'.emit ++ bs') : q = q' ∧ bs = bs' := by
  obtain ⟨ethernet, ipv4, udp, common, addr, path, udpScion, h1, h2, h3, h4, haddr, hpath⟩ := q
  obtain ⟨ethernet', ipv4', udp', common', addr', path', udpScion', h1', h2', h3', h4', haddr',
    hpath'⟩ := q'
  simp only [emit, emitScion, List.append_assoc] at h
  obtain ⟨rfl, hipv4⟩ := Wire.emit_append_inj h
  obtain ⟨rfl, hudp⟩ := Wire.emit_append_inj hipv4
  obtain ⟨rfl, hcommon⟩ := Wire.emit_append_inj hudp
  obtain ⟨rfl, haddrs⟩ := Wire.emit_append_inj hcommon
  -- the two sub-parsers are functions of the bytes
  have ha := ScionAdressParser.start_of_matches haddr {} (path.emit ++ (Wire.emit udpScion ++ bs))
  rw [haddrs, ScionAdressParser.start_of_matches haddr' {}] at ha
  simp only [Prod.mk.injEq, ParserVars.mk.injEq] at ha
  obtain ⟨-, ⟨rfl, -⟩, hpaths⟩ := ha
  have hp := ScionPathParser.start_of_matches hpath {} (Wire.emit udpScion ++ bs)
  rw [← hpaths, ScionPathParser.start_of_matches hpath' {}] at hp
  simp only [Prod.mk.injEq, ParserVars.mk.injEq] at hp
  obtain ⟨-, ⟨rfl, -⟩, hudpScion⟩ := hp
  obtain ⟨rfl, rfl⟩ := Wire.emit_append_inj hudpScion
  exact ⟨rfl, rfl⟩

end ScionFrame

/-! ### The INT headers -/

/-- Whether the stack that the shim announces can be extracted from the front of a packet. -/
def IntShimH.StackFits (intShim : IntShimH) (bs : List Byte) : Prop :=
  ∃ (v : PreIntStackH) (rest : List Byte), bs = v.data ++ rest ∧
    (IntParser.intStackBits intShim).toNat = 8 * v.data.length

namespace IntParser

/-- The outcomes of `IntParser`. -/
inductive Outcome (m : MetadataT) :
    List Byte → Option Unit × ParserVars IntHeadersT × List Byte → Prop
  | noShim (bs : List Byte) (hlen : bs.length < 4) : Outcome m bs (none, ⟨{}, m⟩, bs)
  | notMd (intShim : IntShimH) (rest : List Byte) (htype : intShim.type ≠ INTType.MD) :
    Outcome m (emit intShim ++ rest)
      (some (), ⟨{ intShim := some intShim }, m.addCpuHdrLen 4⟩, rest)
  | noMd (intShim : IntShimH) (rest : List Byte) (htype : intShim.type = INTType.MD)
    (hlen : rest.length < 12) :
    Outcome m (emit intShim ++ rest)
      (none, ⟨{ intShim := some intShim }, m.addCpuHdrLen 4⟩, rest)
  | emptyStack (intShim : IntShimH) (intMd : IntMdH) (rest : List Byte)
    (htype : intShim.type = INTType.MD) (hlen : intShim.length = 0x03) :
    Outcome m (emit intShim ++ (emit intMd ++ rest))
      (some (), ⟨{ intShim := some intShim, intMd := some intMd }, m.addCpuHdrLen 16⟩, rest)
  | badStack (intShim : IntShimH) (intMd : IntMdH) (rest : List Byte)
    (htype : intShim.type = INTType.MD) (hlen : intShim.length ≠ 0x03)
    (hfits : ¬ intShim.StackFits rest) :
    Outcome m (emit intShim ++ (emit intMd ++ rest))
      (none, ⟨{ intShim := some intShim, intMd := some intMd },
        { m.addCpuHdrLen 16 with intStackLen := intStackBits intShim }⟩, rest)
  | stack (intShim : IntShimH) (intMd : IntMdH) (v : PreIntStackH) (rest : List Byte)
    (htype : intShim.type = INTType.MD) (hlen : intShim.length ≠ 0x03)
    (hbits : (intStackBits intShim).toNat = 8 * v.data.length) :
    Outcome m (emit intShim ++ (emit intMd ++ (v.data ++ rest)))
      (some (), ⟨⟨some intShim, some intMd, { preIntStack := some v }⟩,
        { m.addCpuHdrLen 16 with intStackLen := intStackBits intShim }.clearFlags⟩, rest)

theorem start_md {intShim : IntShimH} (htype : intShim.type = INTType.MD) (intMd : IntMdH)
    (m : MetadataT) (rest : List Byte) :
    start ⟨{}, m⟩ (emit intShim ++ (emit intMd ++ rest)) =
      (if intShim.length = 0x03 then accept else int_stack_state intShim)
        ⟨{ intShim := some intShim, intMd := some intMd }, m.addCpuHdrLen 16⟩ rest := by
  rw [start, extractOut_bind_emit, addCpuHdrLen_bind_apply, if_pos htype, int_md_state,
    extractOut_bind_emit, addCpuHdrLen_bind_apply, MetadataT.addCpuHdrLen_addCpuHdrLen]
  rfl

theorem start_outcome (m : MetadataT) (bs : List Byte) : Outcome m bs (start ⟨{}, m⟩ bs) := by
  rcases extractOut_cases (fun h (x : IntHeadersT) => { x with intShim := some h }) ⟨{}, m⟩ bs with
    ⟨intShim, bs, rfl⟩ | ⟨hlen, hx⟩
  swap
  · rw [start, bind_reject hx]
    exact .noShim bs hlen
  rw [start, extractOut_bind_emit, addCpuHdrLen_bind_apply]
  by_cases htype : intShim.type = INTType.MD
  swap
  · rw [if_neg htype]
    exact .notMd intShim bs htype
  rw [if_pos htype, int_md_state]
  rcases extractOut_cases (fun h (x : IntHeadersT) => { x with intMd := some h })
      ⟨{ intShim := some intShim }, m.addCpuHdrLen 4⟩ bs with ⟨intMd, bs, rfl⟩ | ⟨hlen, hx⟩
  swap
  · rw [bind_reject hx]
    exact .noMd intShim bs htype hlen
  rw [extractOut_bind_emit, addCpuHdrLen_bind_apply, MetadataT.addCpuHdrLen_addCpuHdrLen]
  by_cases h3 : intShim.length = 0x03
  · rw [if_pos h3]
    exact .emptyStack intShim intMd bs htype h3
  rw [if_neg h3, int_stack_state, modify_bind_apply]
  by_cases hfits : intShim.StackFits bs
  · obtain ⟨v, rest, rfl, hbits⟩ := hfits
    rw [extractVarOut_bind_data v hbits]
    exact .stack intShim intMd v rest htype h3 hbits
  · rcases extractVarOut_cases (intStackBits intShim)
        (fun h (x : IntHeadersT) => { x with intStack.preIntStack := some h })
        ⟨{ intShim := some intShim, intMd := some intMd },
          { m.addCpuHdrLen (4 + 12) with intStackLen := intStackBits intShim }⟩ bs with h | hx
    · exact absurd h hfits
    · rw [bind_reject hx]
      exact .badStack intShim intMd bs htype h3 hfits

end IntParser

/-! ### The whole parser -/

/-- Whether the payload behind the INT stack can be extracted from the front of a packet. -/
def ScionCommonH.PayloadFits (c : ScionCommonH) (stackBits : BitVec 32) (payload : PayloadH) : Prop :=
  (IntSwitchParser.payloadBits c stackBits - IntSwitchParser.payloadBits c stackBits % 8).toNat =
    8 * payload.data.length

/-- The outcomes of `IntSwitchParser`. -/
inductive ParseOutcome : List Byte → ParsedPacket → Prop
  | noEthernet (bs : List Byte) (hlen : bs.length < 14) : ParseOutcome bs ⟨false, {}, {}, bs⟩
  | notIpv4 (ethernet : EthernetH) (rest : List Byte)
    (hetherType : ethernet.etherType ≠ EtherType.IPV4) :
    ParseOutcome (emit ethernet ++ rest) ⟨true, { ethernet := some ethernet }, {}, rest⟩
  | noIpv4 (ethernet : EthernetH) (rest : List Byte)
    (hetherType : ethernet.etherType = EtherType.IPV4) (hlen : rest.length < 20) :
    ParseOutcome (emit ethernet ++ rest) ⟨false, { ethernet := some ethernet }, {}, rest⟩
  | notUdp (ethernet : EthernetH) (ipv4 : Ipv4H) (rest : List Byte)
    (hetherType : ethernet.etherType = EtherType.IPV4) (hprotocol : ipv4.protocol ≠ Proto.UDP) :
    ParseOutcome (emit ethernet ++ (emit ipv4 ++ rest))
      ⟨true, { ethernet := some ethernet, ipv4 := some ipv4 }, {}, rest⟩
  | noUdp (ethernet : EthernetH) (ipv4 : Ipv4H) (rest : List Byte)
    (hetherType : ethernet.etherType = EtherType.IPV4) (hprotocol : ipv4.protocol = Proto.UDP)
    (hlen : rest.length < 8) :
    ParseOutcome (emit ethernet ++ (emit ipv4 ++ rest))
      ⟨false, { ethernet := some ethernet, ipv4 := some ipv4 }, {}, rest⟩
  | noUdpScion (ethernet : EthernetH) (ipv4 : Ipv4H) (udp : UdpH)
    (scionCommon : Option ScionCommonH) (scionAddr : ScionAddrT) (scionPath : ScionPathT)
    (accepted : Bool) (m : MetadataT) (rest : List Byte)
    (hetherType : ethernet.etherType = EtherType.IPV4) (hprotocol : ipv4.protocol = Proto.UDP) :
    ParseOutcome
      (emit ethernet ++ (emit ipv4 ++ (emit udp ++
        (emitOpt scionCommon ++ (scionAddr.emit ++ (scionPath.emit ++ rest))))))
      ⟨accepted,
        { ethernet := some ethernet
          ipv4 := some ipv4
          udp := some udp
          scionCommon := scionCommon
          scionAddr := scionAddr
          scionPath := scionPath }, m, rest⟩
  | noInt (q : ScionFrame) (rest : List Byte) (hport : q.udpScion.dstPort ≠ UDP_PORT) :
    ParseOutcome (q.emit ++ rest) ⟨true, q.hdr, { cpuHdrLen := q.cpuHdrLen }, rest⟩
  | noShim (q : ScionFrame) (rest : List Byte) (hport : q.udpScion.dstPort = UDP_PORT)
    (hlen : rest.length < 4) :
    ParseOutcome (q.emit ++ rest) ⟨false, q.hdr, { cpuHdrLen := q.cpuHdrLen }, rest⟩
  | notMd (q : ScionFrame) (intShim : IntShimH) (rest : List Byte)
    (hport : q.udpScion.dstPort = UDP_PORT) (htype : intShim.type ≠ INTType.MD) :
    ParseOutcome (q.emit ++ (emit intShim ++ rest))
      ⟨true, q.withInt { intShim := some intShim } none, { cpuHdrLen := q.cpuHdrLen + 4 }, rest⟩
  | noMd (q : ScionFrame) (intShim : IntShimH) (rest : List Byte)
    (hport : q.udpScion.dstPort = UDP_PORT) (htype : intShim.type = INTType.MD)
    (hlen : rest.length < 12) :
    ParseOutcome (q.emit ++ (emit intShim ++ rest))
      ⟨false, q.withInt { intShim := some intShim } none, { cpuHdrLen := q.cpuHdrLen + 4 }, rest⟩
  | emptyStack (q : ScionFrame) (intShim : IntShimH) (intMd : IntMdH) (rest : List Byte)
    (hport : q.udpScion.dstPort = UDP_PORT) (htype : intShim.type = INTType.MD)
    (hlen : intShim.length = 0x03) :
    ParseOutcome (q.emit ++ (emit intShim ++ (emit intMd ++ rest)))
      ⟨true, q.withInt { intShim := some intShim, intMd := some intMd } none,
        { cpuHdrLen := q.cpuHdrLen + 16 }, rest⟩
  | badStack (q : ScionFrame) (intShim : IntShimH) (intMd : IntMdH) (rest : List Byte)
    (hport : q.udpScion.dstPort = UDP_PORT) (htype : intShim.type = INTType.MD)
    (hlen : intShim.length ≠ 0x03) (hfits : ¬ intShim.StackFits rest) :
    ParseOutcome (q.emit ++ (emit intShim ++ (emit intMd ++ rest)))
      ⟨false, q.withInt { intShim := some intShim, intMd := some intMd } none,
        { cpuHdrLen := q.cpuHdrLen + 16, intStackLen := IntParser.intStackBits intShim }, rest⟩
  | badPayload (q : ScionFrame) (intShim : IntShimH) (intMd : IntMdH) (v : PreIntStackH)
    (rest : List Byte) (hport : q.udpScion.dstPort = UDP_PORT)
    (htype : intShim.type = INTType.MD) (hlen : intShim.length ≠ 0x03)
    (hbits : (IntParser.intStackBits intShim).toNat = 8 * v.data.length)
    (hfits : ¬ ∃ (payload : PayloadH) (rest' : List Byte), rest = payload.data ++ rest' ∧
      q.scionCommon.PayloadFits (IntParser.intStackBits intShim) payload) :
    ParseOutcome (q.emit ++ (emit intShim ++ (emit intMd ++ (v.data ++ rest))))
      ⟨false, q.withInt ⟨some intShim, some intMd, { preIntStack := some v }⟩ none,
        { cpuHdrLen := q.cpuHdrLen + 16, intStackLen := IntParser.intStackBits intShim }, rest⟩
  | payload (q : ScionFrame) (intShim : IntShimH) (intMd : IntMdH) (v : PreIntStackH)
    (payload : PayloadH) (rest : List Byte) (hport : q.udpScion.dstPort = UDP_PORT)
    (htype : intShim.type = INTType.MD) (hlen : intShim.length ≠ 0x03)
    (hbits : (IntParser.intStackBits intShim).toNat = 8 * v.data.length)
    (hfits : q.scionCommon.PayloadFits (IntParser.intStackBits intShim) payload) :
    ParseOutcome
      (q.emit ++ (emit intShim ++ (emit intMd ++ (v.data ++ (payload.data ++ rest)))))
      ⟨true, q.withInt ⟨some intShim, some intMd, { preIntStack := some v }⟩ (some payload),
        { cpuHdrLen := q.cpuHdrLen + 16, intStackLen := IntParser.intStackBits intShim }, rest⟩

/-- The result of a run of the parser as a packet. -/
def ParsedPacket.ofResult (r : Option Unit × ParserVars HeadersT × List Byte) : ParsedPacket :=
  ⟨r.1.isSome, r.2.1.out, r.2.1.metadata, r.2.2⟩

theorem parse_eq_ofResult (frame : List Byte) :
    parse frame = .ofResult (IntSwitchParser.start { out := {} } frame) := rfl

namespace IntSwitchParser

/-- The parser on a frame with an outer UDP header. -/
theorem start_udp {ethernet : EthernetH} {ipv4 : Ipv4H}
    (hetherType : ethernet.etherType = EtherType.IPV4) (hprotocol : ipv4.protocol = Proto.UDP)
    (udp : UdpH) (bs : List Byte) :
    start { out := {} } (emit ethernet ++ (emit ipv4 ++ (emit udp ++ bs))) =
      (if udp.dstPort = 50000 then scion else accept)
        ⟨{ ethernet := some ethernet, ipv4 := some ipv4, udp := some udp }, {}⟩ bs := by
  rw [start, extractOut_bind_emit, if_pos hetherType, IntSwitchParser.ipv4, extractOut_bind_emit,
    if_pos hprotocol, IntSwitchParser.udp, extractOut_bind_emit]

/-- The SCION states on the headers that the SCION common header announces. -/
theorem scion_of_matches {scionCommon : ScionCommonH} {scionAddr : ScionAddrT}
    {scionPath : ScionPathT} (haddr : scionAddr.Matches scionCommon)
    (hpath : scionPath.Matches scionCommon.pathType) (hdr : HeadersT) (bs : List Byte) :
    scion ⟨hdr, {}⟩ (emit scionCommon ++ (scionAddr.emit ++ (scionPath.emit ++ bs))) =
      (if scionCommon.nextHdr = NextHdr.UDP_SCION then udp_scion_state scionCommon else accept)
        ⟨{ hdr with
            scionCommon := some scionCommon, scionAddr := scionAddr, scionPath := scionPath },
          { cpuHdrLen := 12 + BitVec.ofNat 64 scionAddr.emit.length +
              BitVec.ofNat 64 scionPath.emit.length }⟩ bs := by
  rw [scion, extractOut_bind_emit, modify_bind_apply, applyParser_bind_apply]
  have h1 := ScionAdressParser.start_of_matches haddr { cpuHdrLen := 12 } (scionPath.emit ++ bs)
  rw [show (default : ScionAddrT) = {} from rfl, h1]
  simp only
  rw [path, applyParser_bind_apply]
  have h2 := ScionPathParser.start_of_matches hpath
    (MetadataT.addCpuHdrLen { cpuHdrLen := 12 } (BitVec.ofNat 64 scionAddr.emit.length)) bs
  rw [show (default : ScionPathT) = {} from rfl, h2]
  rfl

theorem start_scionFrame (q : ScionFrame) (bs : List Byte) :
    start { out := {} } (q.emit ++ bs) =
      (if q.udpScion.dstPort = UDP_PORT then int_shim q.scionCommon else accept)
        ⟨q.hdr, { cpuHdrLen := q.cpuHdrLen }⟩ bs := by
  have hlen : q.cpuHdrLen = 12 + BitVec.ofNat 64 q.scionAddr.emit.length +
      BitVec.ofNat 64 q.scionPath.emit.length + 8 := by
    have h20 : q.emitScion.length =
        12 + q.scionAddr.emit.length + q.scionPath.emit.length + 8 := by
      rw [q.length_emitScion]; omega
    rw [ScionFrame.cpuHdrLen, h20, BitVec.ofNat_add, BitVec.ofNat_add, BitVec.ofNat_add]
    rfl
  simp only [ScionFrame.emit, ScionFrame.emitScion, List.append_assoc]
  rw [start_udp q.etherType q.protocol, if_pos q.dstPort, scion_of_matches q.addr_matches
    q.path_matches, if_pos q.nextHdr, udp_scion_state, extractOut_bind_emit,
    addCpuHdrLen_bind_apply, hlen]
  rfl

/-- The payload behind the INT stack, or a packet that cannot hold it. -/
theorem get_payload_cases (c : ScionCommonH) (s : ParserVars HeadersT) (bs : List Byte) :
    (∃ (payload : PayloadH) (rest : List Byte), bs = payload.data ++ rest ∧
      c.PayloadFits s.metadata.intStackLen payload ∧
      get_payload c s bs = (some (), ⟨{ s.out with payload := some payload }, s.metadata⟩, rest)) ∨
    ((¬ ∃ (payload : PayloadH) (rest : List Byte), bs = payload.data ++ rest ∧
      c.PayloadFits s.metadata.intStackLen payload) ∧ get_payload c s bs = (none, s, bs)) := by
  by_cases h : ∃ (payload : PayloadH) (rest : List Byte), bs = payload.data ++ rest ∧
      c.PayloadFits s.metadata.intStackLen payload
  · left
    obtain ⟨payload, rest, rfl, hfits⟩ := h
    refine ⟨payload, rest, rfl, hfits, ?_⟩
    rw [get_payload, get_bind_apply]
    exact extractVarOut_bind_data payload hfits _
  · right
    refine ⟨h, ?_⟩
    rcases extractVarOut_cases
        (payloadBits c s.metadata.intStackLen - payloadBits c s.metadata.intStackLen % 8)
        (fun h (hdr : HeadersT) => { hdr with payload := some h }) s bs with h' | hx
    · exact absurd h' h
    · rw [get_payload, get_bind_apply, bind_reject hx]

/-- The state `int_shim` once the INT headers are extracted. -/
theorem int_shim_accept (c : ScionCommonH) (s : ParserVars HeadersT) {bs rest : List Byte}
    {x : IntHeadersT} {m : MetadataT}
    (hx : IntParser.start ⟨{}, s.metadata⟩ bs = (some (), ⟨x, m⟩, rest)) :
    int_shim c s bs = (if x.intStack.preIntStack.isSome then get_payload c else accept)
      ⟨{ s.out with intShim := x.intShim, intMd := x.intMd, intStack := x.intStack }, m⟩ rest := by
  rw [int_shim, applyParser_bind_apply, show (default : IntHeadersT) = {} from rfl, hx]
  rfl

/-- The state `int_shim` if the INT headers cannot be extracted. -/
theorem int_shim_reject (c : ScionCommonH) (s : ParserVars HeadersT) {bs rest : List Byte}
    {x : IntHeadersT} {m : MetadataT}
    (hx : IntParser.start ⟨{}, s.metadata⟩ bs = (none, ⟨x, m⟩, rest)) :
    int_shim c s bs =
      (none, ⟨{ s.out with intShim := x.intShim, intMd := x.intMd, intStack := x.intStack }, m⟩,
        rest) := by
  rw [int_shim, applyParser_bind_apply, show (default : IntHeadersT) = {} from rfl, hx]

/-- The outcomes behind the SCION-UDP header with the INT port. -/
theorem int_shim_outcome (q : ScionFrame) (hport : q.udpScion.dstPort = UDP_PORT)
    (bs : List Byte) :
    ParseOutcome (q.emit ++ bs) (.ofResult
      (int_shim q.scionCommon ⟨q.hdr, { cpuHdrLen := q.cpuHdrLen }⟩ bs)) := by
  rw [int_shim, applyParser_bind_apply]
  have h := IntParser.start_outcome { cpuHdrLen := q.cpuHdrLen } bs
  generalize hr : IntParser.start ⟨{}, { cpuHdrLen := q.cpuHdrLen }⟩ bs = r at h
  rw [show (default : IntHeadersT) = {} from rfl, hr]
  cases h with
  | noShim bs hlen => exact .noShim q bs hport hlen
  | notMd intShim rest htype => exact .notMd q intShim rest hport htype
  | noMd intShim rest htype hlen => exact .noMd q intShim rest hport htype hlen
  | emptyStack intShim intMd rest htype hlen =>
    exact .emptyStack q intShim intMd rest hport htype hlen
  | badStack intShim intMd rest htype hlen hfits =>
    exact .badStack q intShim intMd rest hport htype hlen hfits
  | stack intShim intMd v rest htype hlen hbits =>
    simp only [get_bind_apply, Option.isSome_some, if_true]
    rcases get_payload_cases q.scionCommon
        ⟨q.withInt ⟨some intShim, some intMd, { preIntStack := some v }⟩ none,
          { cpuHdrLen := q.cpuHdrLen + 16, intStackLen := IntParser.intStackBits intShim }⟩ rest
      with ⟨payload, rest, rfl, hfits, hx⟩ | ⟨hfits, hx⟩
    · exact hx ▸ .payload q intShim intMd v payload rest hport htype hlen hbits hfits
    · exact hx ▸ .badPayload q intShim intMd v rest hport htype hlen hbits hfits

/-- The outcomes behind the outer UDP header with the SCION port. -/
theorem scion_outcome {ethernet : EthernetH} {ipv4 : Ipv4H} {udp : UdpH}
    (hetherType : ethernet.etherType = EtherType.IPV4) (hprotocol : ipv4.protocol = Proto.UDP)
    (hdstPort : udp.dstPort = 50000) (bs : List Byte) :
    ParseOutcome (emit ethernet ++ (emit ipv4 ++ (emit udp ++ bs))) (.ofResult
      (scion ⟨{ ethernet := some ethernet, ipv4 := some ipv4, udp := some udp }, {}⟩ bs)) := by
  -- the common header
  rcases extractOut_cases (fun h (hdr : HeadersT) => { hdr with scionCommon := some h })
      ⟨{ ethernet := some ethernet, ipv4 := some ipv4, udp := some udp }, {}⟩ bs with
    ⟨scionCommon, bs, rfl⟩ | ⟨-, hx⟩
  swap
  · rw [scion, bind_reject hx]
    exact .noUdpScion ethernet ipv4 udp none {} {} false _ bs hetherType hprotocol
  -- the address header: a parser error keeps what was extracted of it
  obtain ⟨scionAddr, bs, rfl, haddr | ⟨m, hx⟩⟩ :=
    ScionAdressParser.start_cases scionCommon { cpuHdrLen := 12 } bs
  swap
  · rw [scion, extractOut_bind_emit, modify_bind_apply, applyParser_bind_apply,
      show (default : ScionAddrT) = {} from rfl, hx]
    exact .noUdpScion ethernet ipv4 udp (some scionCommon) scionAddr {} false m bs hetherType
      hprotocol
  -- the path header, in the same way
  obtain ⟨scionPath, bs, rfl, hpath | ⟨m, hx⟩⟩ := ScionPathParser.start_cases scionCommon
    (MetadataT.addCpuHdrLen { cpuHdrLen := 12 } (BitVec.ofNat 64 scionAddr.emit.length)) bs
  swap
  · have haddr' := ScionAdressParser.start_of_matches haddr { cpuHdrLen := 12 }
      (scionPath.emit ++ bs)
    rw [scion, extractOut_bind_emit, modify_bind_apply, applyParser_bind_apply,
      show (default : ScionAddrT) = {} from rfl, haddr']
    simp only
    rw [path, applyParser_bind_apply, show (default : ScionPathT) = {} from rfl, hx]
    exact .noUdpScion ethernet ipv4 udp (some scionCommon) scionAddr scionPath false m bs
      hetherType hprotocol
  by_cases hnextHdr : scionCommon.nextHdr = NextHdr.UDP_SCION
  swap
  · rw [scion_of_matches haddr hpath, if_neg hnextHdr]
    exact .noUdpScion ethernet ipv4 udp (some scionCommon) scionAddr scionPath true _ bs
      hetherType hprotocol
  -- the SCION-UDP header
  rcases extractOut_cases (fun h (hdr : HeadersT) => { hdr with udpScion := some h })
      ⟨⟨some ethernet, some ipv4, some udp, none, some scionCommon, scionAddr, scionPath, none,
        none, none, {}, none, none⟩,
        { cpuHdrLen := 12 + BitVec.ofNat 64 scionAddr.emit.length +
            BitVec.ofNat 64 scionPath.emit.length }⟩ bs with ⟨udpScion, bs, rfl⟩ | ⟨-, hx⟩
  swap
  · rw [scion_of_matches haddr hpath, if_pos hnextHdr, udp_scion_state, bind_reject hx]
    exact .noUdpScion ethernet ipv4 udp (some scionCommon) scionAddr scionPath false _ bs
      hetherType hprotocol
  -- every layer is there: the frame is a `ScionFrame`
  let q : ScionFrame := ⟨ethernet, ipv4, udp, scionCommon, scionAddr, scionPath, udpScion,
    hetherType, hprotocol, hdstPort, hnextHdr, haddr, hpath⟩
  have hbytes : emit ethernet ++ (emit ipv4 ++ (emit udp ++ (emit scionCommon ++
      (scionAddr.emit ++ (scionPath.emit ++ (emit udpScion ++ bs)))))) = q.emit ++ bs := by
    simp [q, ScionFrame.emit, ScionFrame.emitScion]
  have hstart := start_scionFrame q bs
  rw [← hbytes, start_udp hetherType hprotocol, if_pos hdstPort] at hstart
  rw [hbytes, hstart]
  by_cases hport : udpScion.dstPort = UDP_PORT
  · rw [if_pos hport]
    exact int_shim_outcome q hport bs
  · rw [if_neg hport]
    exact .noInt q bs hport

/-- Every outcome of the parser is one of `ParseOutcome`. -/
theorem start_outcome (bs : List Byte) :
    ParseOutcome bs (.ofResult (start { out := {} } bs)) := by
  rcases extractOut_cases (fun h (hdr : HeadersT) => { hdr with ethernet := some h })
      { out := {} } bs with ⟨ethernet, bs, rfl⟩ | ⟨hlen, hx⟩
  swap
  · rw [start, bind_reject hx]
    exact .noEthernet bs hlen
  by_cases hetherType : ethernet.etherType = EtherType.IPV4
  swap
  · rw [start, extractOut_bind_emit, if_neg hetherType]
    exact .notIpv4 ethernet bs hetherType
  rcases extractOut_cases (fun h (hdr : HeadersT) => { hdr with ipv4 := some h })
      { out := { ethernet := some ethernet } } bs with ⟨ipv4, bs, rfl⟩ | ⟨hlen, hx⟩
  swap
  · rw [start, extractOut_bind_emit, if_pos hetherType, IntSwitchParser.ipv4, bind_reject hx]
    exact .noIpv4 ethernet bs hetherType hlen
  by_cases hprotocol : ipv4.protocol = Proto.UDP
  swap
  · rw [start, extractOut_bind_emit, if_pos hetherType, IntSwitchParser.ipv4,
      extractOut_bind_emit, if_neg hprotocol]
    exact .notUdp ethernet ipv4 bs hetherType hprotocol
  rcases extractOut_cases (fun h (hdr : HeadersT) => { hdr with udp := some h })
      { out := { ethernet := some ethernet, ipv4 := some ipv4 } } bs with
    ⟨udp, bs, rfl⟩ | ⟨hlen, hx⟩
  swap
  · rw [start, extractOut_bind_emit, if_pos hetherType, IntSwitchParser.ipv4,
      extractOut_bind_emit, if_pos hprotocol, IntSwitchParser.udp, bind_reject hx]
    exact .noUdp ethernet ipv4 bs hetherType hprotocol hlen
  rw [start_udp hetherType hprotocol]
  by_cases hdstPort : udp.dstPort = 50000
  · rw [if_pos hdstPort]
    exact scion_outcome hetherType hprotocol hdstPort bs
  · rw [if_neg hdstPort]
    exact .noUdpScion ethernet ipv4 udp none {} {} true {} bs hetherType hprotocol

end IntSwitchParser

theorem parse_outcome (frame : List Byte) : ParseOutcome frame (parse frame) :=
  IntSwitchParser.start_outcome frame

/-- The parser loses nothing: the extracted headers and the rest are the frame. -/
theorem ParseOutcome.emit_eq {frame : List Byte} {r : ParsedPacket} (h : ParseOutcome frame r) :
    r.hdr.emit ++ r.rest = frame := by
  cases h with
  | noEthernet | notIpv4 | noIpv4 | notUdp | noUdp | noUdpScion =>
    simp [HeadersT.emit, HeadersT.emitBehindUdp, ScionPathT.emit, ScionHostT.emit,
      ScionAddrT.emit, IntStackT.emit, IntStackT.emitHop]
  | noInt q | noShim q => rw [q.emit_hdr]
  | notMd q | noMd q | emptyStack q | badStack q | badPayload q | payload q =>
    simp [ScionFrame.emit_withInt, IntHeadersT.emit, IntStackT.emit, IntStackT.emitHop]

/-- Deparsing undoes parsing, whether or not the parser accepts. -/
theorem deparse_parse (frame : List Byte) :
    (parse frame).hdr.emit ++ (parse frame).rest = frame :=
  (parse_outcome frame).emit_eq

/-- A frame in which the parser finds a SCION-UDP header: what it extracts are the headers of a
`ScionFrame`, INT headers whose stack is in one piece, and perhaps a payload. -/
theorem parse_udpScion {frame : List Byte} (h : (parse frame).hdr.udpScion.isSome) :
    ∃ (q : ScionFrame) (intShim : Option IntShimH) (intMd : Option IntMdH) (v : Option PreIntStackH)
      (payload : Option PayloadH) (cpuHdrLen : BitVec 64) (stackLen : BitVec 32),
      (parse frame).hdr = q.withInt ⟨intShim, intMd, { preIntStack := v }⟩ payload ∧
      (parse frame).metadata = { cpuHdrLen := cpuHdrLen, intStackLen := stackLen } := by
  have hout := parse_outcome frame
  generalize parse frame = r at hout h
  cases hout with
  | noEthernet | notIpv4 | noIpv4 | notUdp | noUdp | noUdpScion => cases h
  | noInt q | noShim q => exact ⟨q, none, none, none, none, _, _, rfl, rfl⟩
  | notMd q intShim | noMd q intShim => exact ⟨q, some intShim, none, none, none, _, _, rfl, rfl⟩
  | emptyStack q intShim intMd | badStack q intShim intMd =>
    exact ⟨q, some intShim, some intMd, none, none, _, _, rfl, rfl⟩
  | badPayload q intShim intMd v => exact ⟨q, some intShim, some intMd, some v, none, _, _, rfl, rfl⟩
  | payload q intShim intMd v payload =>
    exact ⟨q, some intShim, some intMd, some v, some payload, _, _, rfl, rfl⟩

/-! ### Frames with and without INT headers -/

/-- A frame whose SCION-UDP port is not the INT port is parsed up to the SCION-UDP header. -/
theorem parse_noInt (q : ScionFrame) (hport : q.udpScion.dstPort ≠ UDP_PORT) (rest : List Byte) :
    parse (q.emit ++ rest) = ⟨true, q.hdr, { cpuHdrLen := q.cpuHdrLen }, rest⟩ := by
  rw [parse_eq_ofResult, IntSwitchParser.start_scionFrame, if_neg hport]
  rfl

theorem IntParser.toNat_intStackBits {intShim : IntShimH} (h3 : 3 ≤ intShim.length.toNat) :
    (intStackBits intShim).toNat = 32 * (intShim.length.toNat - 3) := by
  have hlt : intShim.length.toNat < 2 ^ 8 := intShim.length.isLt
  simp only [intStackBits, BitVec.toNat_mul, BitVec.toNat_sub, BitVec.toNat_setWidth,
    BitVec.ofNat_eq_ofNat, BitVec.toNat_ofNat]
  omega

/-- A shim below three words announces more bits than the stack can hold. -/
theorem three_le_length_of_stack {intShim : IntShimH} {v : PreIntStackH}
    (hbits : (IntParser.intStackBits intShim).toNat = 8 * v.data.length) :
    3 ≤ intShim.length.toNat := by
  have hmax : 8 * v.data.length ≤ 2080 := v.length_le
  have hlt : intShim.length.toNat < 2 ^ 8 := intShim.length.isLt
  by_contra hlen
  rw [IntParser.intStackBits, BitVec.toNat_mul, BitVec.toNat_sub, BitVec.toNat_setWidth] at hbits
  simp only [BitVec.ofNat_eq_ofNat, BitVec.toNat_ofNat] at hbits
  omega

/-- A stack fits if the shim counts INT-MD, at most 65 words of stack and no byte that is not there. -/
theorem IntShimH.stackFits_iff (intShim : IntShimH) (bs : List Byte) :
    intShim.StackFits bs ↔ 3 ≤ intShim.length.toNat ∧ intShim.length.toNat ≤ 68 ∧
      4 * intShim.length.toNat ≤ 12 + bs.length := by
  constructor
  · rintro ⟨v, rest, rfl, hbits⟩
    have hmax : 8 * v.data.length ≤ 2080 := v.length_le
    have h3 := three_le_length_of_stack hbits
    rw [IntParser.toNat_intStackBits h3] at hbits
    rw [List.length_append]
    omega
  · rintro ⟨h3, h68, hlen⟩
    have htake : (bs.take (4 * (intShim.length.toNat - 3))).length =
        4 * (intShim.length.toNat - 3) := by
      rw [List.length_take]
      omega
    have hmax : 8 * (bs.take (4 * (intShim.length.toNat - 3))).length ≤ SPACE_FOR_HOPS := by
      rw [htake, SPACE_FOR_HOPS]
      omega
    refine ⟨⟨_, hmax⟩, bs.drop (4 * (intShim.length.toNat - 3)), (List.take_append_drop _ _).symm, ?_⟩
    rw [IntParser.toNat_intStackBits h3]
    show _ = 8 * (bs.take (4 * (intShim.length.toNat - 3))).length
    rw [htake]
    omega

/-- A frame with INT headers and an empty stack. -/
theorem parse_emptyStack (q : ScionFrame) (hport : q.udpScion.dstPort = UDP_PORT)
    {intShim : IntShimH} (htype : intShim.type = INTType.MD) (hlen : intShim.length = 0x03)
    (intMd : IntMdH) (rest : List Byte) :
    parse (q.emit ++ (emit intShim ++ (emit intMd ++ rest))) =
      ⟨true, q.withInt { intShim := some intShim, intMd := some intMd } none,
        { cpuHdrLen := q.cpuHdrLen + 16 }, rest⟩ := by
  have hstart := IntParser.start_md htype intMd { cpuHdrLen := q.cpuHdrLen } rest
  rw [if_pos hlen] at hstart
  have hrun := IntSwitchParser.int_shim_accept q.scionCommon
    ⟨q.hdr, { cpuHdrLen := q.cpuHdrLen }⟩ hstart
  rw [parse_eq_ofResult, IntSwitchParser.start_scionFrame, if_pos hport, hrun]
  rfl

theorem IntParser.start_badStack {intShim : IntShimH} (htype : intShim.type = INTType.MD)
    (intMd : IntMdH) (m : MetadataT) {rest : List Byte} (hfits : ¬ intShim.StackFits rest) :
    start ⟨{}, m⟩ (emit intShim ++ (emit intMd ++ rest)) =
      (none, ⟨{ intShim := some intShim, intMd := some intMd },
        { m.addCpuHdrLen 16 with intStackLen := intStackBits intShim }⟩, rest) := by
  have hout := start_outcome m (emit intShim ++ (emit intMd ++ rest))
  generalize hbs : emit intShim ++ (emit intMd ++ rest) = bs at hout ⊢
  generalize start ⟨{}, m⟩ bs = r at hout ⊢
  -- the bytes determine the shim and INT-MD, and these the outcome
  cases hout with
  | noShim _ hlen =>
    rw [← hbs, List.length_append, length_emit, IntShimH.size_eq] at hlen
    omega
  | notMd intShim' rest' htype' =>
    obtain ⟨rfl, -⟩ := emit_append_inj hbs
    exact absurd htype htype'
  | noMd intShim' rest' htype' hlen =>
    obtain ⟨rfl, rfl⟩ := emit_append_inj hbs
    rw [List.length_append, length_emit, IntMdH.size_eq] at hlen
    omega
  | emptyStack intShim' intMd' rest' htype' hlen =>
    obtain ⟨rfl, hrest⟩ := emit_append_inj hbs
    have h3 : intShim.length.toNat = 3 := by
      rw [hlen]
      rfl
    exact absurd ((intShim.stackFits_iff rest).mpr (by omega)) hfits
  | badStack intShim' intMd' rest' htype' hlen hfits' =>
    obtain ⟨rfl, hrest⟩ := emit_append_inj hbs
    obtain ⟨rfl, rfl⟩ := emit_append_inj hrest
    rfl
  | stack intShim' intMd' v rest' htype' hlen hbits =>
    obtain ⟨rfl, hrest⟩ := emit_append_inj hbs
    obtain ⟨rfl, rfl⟩ := emit_append_inj hrest
    exact absurd ⟨v, rest', rfl, hbits⟩ hfits

/-- A frame with INT headers whose stack is not there or does not fit: the parser rejects in front of
it. -/
theorem parse_badStack (q : ScionFrame) (hport : q.udpScion.dstPort = UDP_PORT)
    {intShim : IntShimH} (htype : intShim.type = INTType.MD) (intMd : IntMdH) {rest : List Byte}
    (hfits : ¬ intShim.StackFits rest) :
    parse (q.emit ++ (emit intShim ++ (emit intMd ++ rest))) =
      ⟨false, q.withInt { intShim := some intShim, intMd := some intMd } none,
        { cpuHdrLen := q.cpuHdrLen + 16, intStackLen := IntParser.intStackBits intShim }, rest⟩ := by
  have hstart := IntParser.start_badStack htype intMd { cpuHdrLen := q.cpuHdrLen } hfits
  have hrun := IntSwitchParser.int_shim_reject q.scionCommon
    ⟨q.hdr, { cpuHdrLen := q.cpuHdrLen }⟩ hstart
  rw [parse_eq_ofResult, IntSwitchParser.start_scionFrame, if_pos hport, hrun]
  rfl

/-- A frame with INT headers whose shim announces the stack that follows: the payload is extracted if it
is as long as the SCION common header says. -/
theorem parse_stack (q : ScionFrame) (hport : q.udpScion.dstPort = UDP_PORT) {intShim : IntShimH}
    (htype : intShim.type = INTType.MD) (hne : intShim.length ≠ 0x03) (intMd : IntMdH)
    {v : PreIntStackH} (hbits : (IntParser.intStackBits intShim).toNat = 8 * v.data.length)
    (rest : List Byte) :
    (∃ (payload : PayloadH) (rest' : List Byte), rest = payload.data ++ rest' ∧
      q.scionCommon.PayloadFits (IntParser.intStackBits intShim) payload ∧
      parse (q.emit ++ (emit intShim ++ (emit intMd ++ (v.data ++ rest)))) =
        ⟨true, q.withInt ⟨some intShim, some intMd, { preIntStack := some v }⟩ (some payload),
          { cpuHdrLen := q.cpuHdrLen + 16, intStackLen := IntParser.intStackBits intShim },
          rest'⟩) ∨
    ((¬ ∃ (payload : PayloadH) (rest' : List Byte), rest = payload.data ++ rest' ∧
      q.scionCommon.PayloadFits (IntParser.intStackBits intShim) payload) ∧
      parse (q.emit ++ (emit intShim ++ (emit intMd ++ (v.data ++ rest)))) =
        ⟨false, q.withInt ⟨some intShim, some intMd, { preIntStack := some v }⟩ none,
          { cpuHdrLen := q.cpuHdrLen + 16, intStackLen := IntParser.intStackBits intShim },
          rest⟩) := by
  have hstart := IntParser.start_md htype intMd { cpuHdrLen := q.cpuHdrLen } (v.data ++ rest)
  rw [if_neg hne, IntParser.int_stack_state, modify_bind_apply, extractVarOut_bind_data v hbits,
    modify_apply] at hstart
  have hrun := IntSwitchParser.int_shim_accept q.scionCommon
    ⟨q.hdr, { cpuHdrLen := q.cpuHdrLen }⟩ hstart
  rw [parse_eq_ofResult, IntSwitchParser.start_scionFrame, if_pos hport, hrun]
  rcases IntSwitchParser.get_payload_cases q.scionCommon
      ⟨q.withInt ⟨some intShim, some intMd, { preIntStack := some v }⟩ none,
        { cpuHdrLen := q.cpuHdrLen + 16, intStackLen := IntParser.intStackBits intShim }⟩ rest
    with ⟨payload, rest, rfl, hfits, hx⟩ | ⟨hfits, hx⟩
  · exact .inl ⟨payload, rest, rfl, hfits, congrArg ParsedPacket.ofResult hx⟩
  · exact .inr ⟨hfits, congrArg ParsedPacket.ofResult hx⟩

/-- A frame with INT headers whose shim announces the stack that follows: the INT headers are
extracted, the payload if it is as long as the SCION common header says. -/
theorem parse_int (q : ScionFrame) (hport : q.udpScion.dstPort = UDP_PORT) {intShim : IntShimH}
    (htype : intShim.type = INTType.MD) (intMd : IntMdH) {v : PreIntStackH}
    (hlen : 4 * intShim.length.toNat = 12 + v.data.length) (rest : List Byte) :
    ∃ (v' : Option PreIntStackH) (payload : Option PayloadH) (accepted : Bool) (stackLen : BitVec 32)
      (rest' : List Byte),
      parse (q.emit ++ (emit intShim ++ (emit intMd ++ (v.data ++ rest)))) =
        ⟨accepted, q.withInt ⟨some intShim, some intMd, { preIntStack := v' }⟩ payload,
          { cpuHdrLen := q.cpuHdrLen + 16, intStackLen := stackLen }, rest'⟩ ∧
      VarBits.emitOpt v' = v.data ∧ VarBits.emitOpt payload ++ rest' = rest := by
  by_cases hempty : intShim.length = 0x03
  · have hnil : v.data = [] := by
      rw [hempty] at hlen
      exact List.length_eq_zero_iff.mp (by simpa using hlen)
    rw [hnil]
    exact ⟨none, none, true, 0, rest, parse_emptyStack q hport htype hempty intMd rest, rfl, rfl⟩
  · have hbits : (IntParser.intStackBits intShim).toNat = 8 * v.data.length := by
      rw [IntParser.toNat_intStackBits (by omega)]
      omega
    rcases parse_stack q hport htype hempty intMd hbits rest with
      ⟨payload, rest', hrest, -, hparse⟩ | ⟨-, hparse⟩
    · exact ⟨some v, some payload, true, _, rest', hparse, rfl, hrest.symm⟩
    · exact ⟨some v, none, false, _, rest, hparse, rfl, rfl⟩

end ScionInt
