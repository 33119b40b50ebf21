import ScionInt.Wire.Parser
import ScionInt.DataPlane.Headers

/-!
# `IntSwitchParser`

The parsers of `parser/*.p4` and `IntSwitchParser` of `int_switch.p4`, state by state, with IPv4
enabled and IPv6 disabled as in `int_switch.p4`.  The variables of a parser are its `out` headers,
which are invalid when it starts, and the `inout` metadata.  A `select` whose cases are exhausted
rejects.
-/

namespace ScionInt

open Wire Wire.Parser

/-- The variables of a parser: its `out` headers and the metadata. -/
structure ParserVars (σ : Type) where
  out : σ
  metadata : MetadataT := {}
deriving DecidableEq, Inhabited

/-- `meta.cpuHdrLen = meta.cpuHdrLen + n` -/
def MetadataT.addCpuHdrLen (m : MetadataT) (n : BitVec 64) : MetadataT :=
  { m with cpuHdrLen := m.cpuHdrLen + n }

section

variable {σ τ H : Type}

/-- `packet.extract(hdr)` into one of the `out` headers. -/
def extractOut [Header H] (put : H → σ → σ) : Parser (ParserVars σ) H :=
  extractInto fun h s => { s with out := put h s.out }

/-- `packet.extract(hdr, bits)` into one of the `out` headers. -/
def extractVarOut {max : ℕ} (bits : BitVec 32) (put : VarBits max → σ → σ) :
    Parser (ParserVars σ) (VarBits max) :=
  extractVarInto bits fun h s => { s with out := put h s.out }

def addCpuHdrLen (n : BitVec 64) : Parser (ParserVars σ) Unit :=
  modify fun s => { s with metadata := s.metadata.addCpuHdrLen n }

/-- `subParser.apply(packet, hdr, meta)` -/
def applyParser [Inhabited τ] (put : τ → σ → σ) (p : Parser (ParserVars τ) Unit) :
    Parser (ParserVars σ) Unit :=
  zoom (fun s => ⟨default, s.metadata⟩) (fun t s => ⟨put t.out s.out, t.metadata⟩) p

end

/-! ### `scionParser.p4` -/

namespace ScionAdressParser

/-- The four lengths of a host address. -/
inductive HostLen where
  | host_32 | host_64 | host_96 | host_128
deriving DecidableEq

/-- The extractions of one host address. -/
def hostParser : HostLen → Parser ScionHostT Unit
  | .host_32 => do
    let _ ← extractInto fun h a => { a with host32 := some h }
    accept
  | .host_64 => do
    let _ ← extractInto fun h a => { a with host32 := some h }
    let _ ← extractInto fun h a => { a with host32_2 := some h }
    accept
  | .host_96 => do
    let _ ← extractInto fun h a => { a with host32 := some h }
    let _ ← extractInto fun h a => { a with host32_2 := some h }
    let _ ← extractInto fun h a => { a with host32_3 := some h }
    accept
  | .host_128 => do
    let _ ← extractInto fun h a => { a with host128 := some h }
    accept

/-- A state `addr_dst_src_host_*`: the destination host, the source host, `cpuHdrLen`. -/
def addrDstSrcHost (dst src : HostLen) (hdrLen : BitVec 64) :
    Parser (ParserVars ScionAddrT) Unit := do
  zoom (fun _ => {}) (fun a s => { s with out.dst := a }) (hostParser dst)
  zoom (fun _ => {}) (fun a s => { s with out.src := a }) (hostParser src)
  addCpuHdrLen hdrLen

def addr_dst_src_host_32_32 := addrDstSrcHost .host_32 .host_32 8
def addr_dst_src_host_32_64 := addrDstSrcHost .host_32 .host_64 12
def addr_dst_src_host_32_96 := addrDstSrcHost .host_32 .host_96 16
def addr_dst_src_host_32_128 := addrDstSrcHost .host_32 .host_128 20
def addr_dst_src_host_64_32 := addrDstSrcHost .host_64 .host_32 12
def addr_dst_src_host_64_64 := addrDstSrcHost .host_64 .host_64 16
def addr_dst_src_host_64_96 := addrDstSrcHost .host_64 .host_96 20
def addr_dst_src_host_64_128 := addrDstSrcHost .host_64 .host_128 24
def addr_dst_src_host_96_32 := addrDstSrcHost .host_96 .host_32 16
def addr_dst_src_host_96_64 := addrDstSrcHost .host_96 .host_64 20
def addr_dst_src_host_96_96 := addrDstSrcHost .host_96 .host_96 24
def addr_dst_src_host_96_128 := addrDstSrcHost .host_96 .host_128 28
def addr_dst_src_host_128_32 := addrDstSrcHost .host_128 .host_32 20
def addr_dst_src_host_128_64 := addrDstSrcHost .host_128 .host_64 24
def addr_dst_src_host_128_96 := addrDstSrcHost .host_128 .host_96 28
def addr_dst_src_host_128_128 := addrDstSrcHost .host_128 .host_128 32

def start (scionCommon : ScionCommonH) : Parser (ParserVars ScionAddrT) Unit := do
  let _ ← extractOut fun h (a : ScionAddrT) => { a with common := some h }
  addCpuHdrLen 16
  match scionCommon.dl.toNat, scionCommon.sl.toNat with
  | 0, 0 => addr_dst_src_host_32_32
  | 0, 1 => addr_dst_src_host_32_64
  | 0, 2 => addr_dst_src_host_32_96
  | 0, 3 => addr_dst_src_host_32_128
  | 1, 0 => addr_dst_src_host_64_32
  | 1, 1 => addr_dst_src_host_64_64
  | 1, 2 => addr_dst_src_host_64_96
  | 1, 3 => addr_dst_src_host_64_128
  | 2, 0 => addr_dst_src_host_96_32
  | 2, 1 => addr_dst_src_host_96_64
  | 2, 2 => addr_dst_src_host_96_96
  | 2, 3 => addr_dst_src_host_96_128
  | 3, 0 => addr_dst_src_host_128_32
  | 3, 1 => addr_dst_src_host_128_64
  | 3, 2 => addr_dst_src_host_128_96
  | 3, 3 => addr_dst_src_host_128_128
  | _, _ => accept

end ScionAdressParser

namespace ScionPathParser

/-- `hopLen`, in bits. -/
def hopLen (pathMeta : ScionPathMetaH) : BitVec 32 :=
  (pathMeta.seg2Len.setWidth 32 + pathMeta.seg1Len.setWidth 32 + pathMeta.seg0Len.setWidth 32) * 96

def hop_fields (pathMeta : ScionPathMetaH) : Parser (ParserVars ScionPathT) Unit := do
  let _ ← extractVarOut (hopLen pathMeta) fun h (p : ScionPathT) => { p with hopFields := some h }
  addCpuHdrLen ((hopLen pathMeta).setWidth 64 / 8)

def info_field_0 (pathMeta : ScionPathMetaH) : Parser (ParserVars ScionPathT) Unit := do
  let _ ← extractOut fun h (p : ScionPathT) => { p with infoField0 := some h }
  addCpuHdrLen 8
  hop_fields pathMeta

def info_field_1 (pathMeta : ScionPathMetaH) : Parser (ParserVars ScionPathT) Unit := do
  let _ ← extractOut fun h (p : ScionPathT) => { p with infoField0 := some h }
  let _ ← extractOut fun h (p : ScionPathT) => { p with infoField1 := some h }
  addCpuHdrLen 16
  hop_fields pathMeta

def info_field_2 (pathMeta : ScionPathMetaH) : Parser (ParserVars ScionPathT) Unit := do
  let _ ← extractOut fun h (p : ScionPathT) => { p with infoField0 := some h }
  let _ ← extractOut fun h (p : ScionPathT) => { p with infoField1 := some h }
  let _ ← extractOut fun h (p : ScionPathT) => { p with infoField2 := some h }
  addCpuHdrLen 24
  hop_fields pathMeta

def path_onehop : Parser (ParserVars ScionPathT) Unit := do
  let _ ← extractOut fun h (p : ScionPathT) => { p with infoField0 := some h }
  let _ ← extractVarOut 192 fun h (p : ScionPathT) => { p with hopFields := some h }
  addCpuHdrLen 32

def path_scion : Parser (ParserVars ScionPathT) Unit := do
  let pathMeta ← extractOut fun h (p : ScionPathT) => { p with pathMeta := some h }
  addCpuHdrLen 4
  if pathMeta.seg1Len = 0 ∧ pathMeta.seg2Len = 0 then info_field_0 pathMeta
  else if pathMeta.seg2Len = 0 then info_field_1 pathMeta
  else info_field_2 pathMeta

def start (scionCommon : ScionCommonH) : Parser (ParserVars ScionPathT) Unit :=
  if scionCommon.pathType = PathType.SCION then path_scion
  else if scionCommon.pathType = PathType.ONEHOP then path_onehop
  else reject

end ScionPathParser

/-! ### `intParser.p4` -/

/-- The `out` headers of `IntParser`. -/
structure IntHeadersT where
  intShim : Option IntShimH := none
  intMd : Option IntMdH := none
  intStack : IntStackT := {}
deriving DecidableEq, Inhabited

/-- The reset of the bitmap flags in `int_stack_state`. -/
def MetadataT.clearFlags (m : MetadataT) : MetadataT :=
  { m with
    intNodeID := 0
    intL1IfID := 0
    intHopLatency := 0
    intQueue := 0
    intIngressTime := 0
    intEgressTime := 0
    intL2IfID := 0
    intEgIfUtil := 0
    intBufferInfos := 0
    intChksumCompl := 0
    sciAsAddr := 0 }

namespace IntParser

/-- The length in bits of the stack that `int_shim.length` announces. -/
def intStackBits (intShim : IntShimH) : BitVec 32 := (intShim.length.setWidth 32 - 0x03) * 32

def int_stack_state (intShim : IntShimH) : Parser (ParserVars IntHeadersT) Unit := do
  modify fun s => { s with metadata.intStackLen := intStackBits intShim }
  let _ ← extractVarOut (intStackBits intShim)
    fun h (x : IntHeadersT) => { x with intStack.preIntStack := some h }
  modify fun s => { s with metadata := s.metadata.clearFlags }

def int_md_state (intShim : IntShimH) : Parser (ParserVars IntHeadersT) Unit := do
  let _ ← extractOut fun h (x : IntHeadersT) => { x with intMd := some h }
  addCpuHdrLen 12
  if intShim.length = 0x03 then accept else int_stack_state intShim

def start : Parser (ParserVars IntHeadersT) Unit := do
  let intShim ← extractOut fun h (x : IntHeadersT) => { x with intShim := some h }
  addCpuHdrLen 4
  if intShim.type = INTType.MD then int_md_state intShim else accept

end IntParser

/-! ### `IntSwitchParser` -/

namespace IntSwitchParser

/-- `payloadLen`, the bits behind the INT stack, as computed in `get_payload`. -/
def payloadBits (scionCommon : ScionCommonH) (intStackLen : BitVec 32) : BitVec 32 :=
  scionCommon.payloadLen.setWidth 32 * 8 - 192 - intStackLen

def get_payload (scionCommon : ScionCommonH) : Parser (ParserVars HeadersT) Unit := do
  let s ← get
  let payloadLen := payloadBits scionCommon s.metadata.intStackLen
  let _ ← extractVarOut (payloadLen - payloadLen % 8)
    fun h (hdr : HeadersT) => { hdr with payload := some h }
  accept

def int_shim (scionCommon : ScionCommonH) : Parser (ParserVars HeadersT) Unit := do
  applyParser (fun x hdr => { hdr with
    intShim := x.intShim, intMd := x.intMd, intStack := x.intStack }) IntParser.start
  let s ← get
  if s.out.intStack.preIntStack.isSome then get_payload scionCommon else accept

def udp_scion_state (scionCommon : ScionCommonH) : Parser (ParserVars HeadersT) Unit := do
  let udpScion ← extractOut fun h (hdr : HeadersT) => { hdr with udpScion := some h }
  addCpuHdrLen 8
  if udpScion.dstPort = UDP_PORT then int_shim scionCommon else accept

def path (scionCommon : ScionCommonH) : Parser (ParserVars HeadersT) Unit := do
  applyParser (fun x hdr => { hdr with scionPath := x }) (ScionPathParser.start scionCommon)
  if scionCommon.nextHdr = NextHdr.UDP_SCION then udp_scion_state scionCommon else accept

def scion : Parser (ParserVars HeadersT) Unit := do
  let scionCommon ← extractOut fun h (hdr : HeadersT) => { hdr with scionCommon := some h }
  modify fun s => { s with metadata.cpuHdrLen := 12 }
  applyParser (fun x hdr => { hdr with scionAddr := x }) (ScionAdressParser.start scionCommon)
  path scionCommon

def udp : Parser (ParserVars HeadersT) Unit := do
  let udp ← extractOut fun h (hdr : HeadersT) => { hdr with udp := some h }
  if udp.dstPort = 50000 then scion else accept

def ipv4 : Parser (ParserVars HeadersT) Unit := do
  let ipv4 ← extractOut fun h (hdr : HeadersT) => { hdr with ipv4 := some h }
  if ipv4.protocol = Proto.UDP then udp else accept

def start : Parser (ParserVars HeadersT) Unit := do
  let ethernet ← extractOut fun h (hdr : HeadersT) => { hdr with ethernet := some h }
  if ethernet.etherType = EtherType.IPV4 then ipv4 else accept

end IntSwitchParser

/-- What the parser leaves of a packet: the headers, the user metadata, the unparsed rest and
whether it accepted. -/
structure ParsedPacket where
  accepted : Bool
  hdr : HeadersT
  metadata : MetadataT
  rest : List Byte
deriving DecidableEq, Inhabited

/-- Run `IntSwitchParser` on a packet. -/
def parse (packet : List Byte) : ParsedPacket :=
  match IntSwitchParser.start { out := {} } packet with
  | (result, s, rest) => ⟨result.isSome, s.out, s.metadata, rest⟩

end ScionInt
