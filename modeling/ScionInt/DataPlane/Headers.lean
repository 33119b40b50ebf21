import ScionInt.Wire.Header

/-!
# The headers of the INT switch

The header types of `headers/common.p4`, `headers/scion.p4` and `headers/int.p4`, the struct
`headers_t` in which `int_switch.p4` keeps them and the user metadata `metadata_t`.  A header
that is not valid is `none`.  Enumerations with an underlying type (`EtherType`, `PathType`,
`NextHdr`, `Type`, `Proto`) are bit fields with named values, since a packet may hold any value.

The flat struct `headers_t` is kept in four runs of consecutive headers (`ScionAddrT` with its two
`ScionHostT`, `ScionPathT`, `IntStackT`), so that the emission order is that of the source.
-/

namespace ScionInt

open Wire

/-! ### `headers/common.p4` -/

def EtherType.IPV4 : BitVec 16 := 0x0800
def Proto.UDP : BitVec 8 := 0x11

/-- `ethernet_h` -/
structure EthernetH where
  dstAddr : BitVec 48
  srcAddr : BitVec 48
  etherType : BitVec 16
deriving DecidableEq, Inhabited

instance : Header EthernetH where
  widths := [48, 48, 16]
  size := 14
  toFields h := (h.dstAddr, h.srcAddr, h.etherType, ())
  ofFields | (a, b, c, _) => ⟨a, b, c⟩
  ofFields_toFields _ := rfl
  toFields_ofFields _ := rfl
  sum_widths := rfl

@[simp] theorem EthernetH.size_eq : Header.size EthernetH = 14 := rfl

/-- `ipv4_h` -/
structure Ipv4H where
  version : BitVec 4
  ihl : BitVec 4
  diffserv : BitVec 8
  totalLen : BitVec 16
  identification : BitVec 16
  flags : BitVec 3
  fragOffset : BitVec 13
  ttl : BitVec 8
  protocol : BitVec 8
  hdrChecksum : BitVec 16
  srcAddr : BitVec 32
  dstAddr : BitVec 32
deriving DecidableEq, Inhabited

instance : Header Ipv4H where
  widths := [4, 4, 8, 16, 16, 3, 13, 8, 8, 16, 32, 32]
  size := 20
  toFields h := (h.version, h.ihl, h.diffserv, h.totalLen, h.identification, h.flags,
    h.fragOffset, h.ttl, h.protocol, h.hdrChecksum, h.srcAddr, h.dstAddr, ())
  ofFields | (a, b, c, d, e, f, g, h, i, j, k, l, _) => ⟨a, b, c, d, e, f, g, h, i, j, k, l⟩
  ofFields_toFields _ := rfl
  toFields_ofFields _ := rfl
  sum_widths := rfl

@[simp] theorem Ipv4H.size_eq : Header.size Ipv4H = 20 := rfl

/-- `udp_h` -/
structure UdpH where
  srcPort : BitVec 16
  dstPort : BitVec 16
  len : BitVec 16
  checksum : BitVec 16
deriving DecidableEq, Inhabited

instance : Header UdpH where
  widths := [16, 16, 16, 16]
  size := 8
  toFields h := (h.srcPort, h.dstPort, h.len, h.checksum, ())
  ofFields | (a, b, c, d, _) => ⟨a, b, c, d⟩
  ofFields_toFields _ := rfl
  toFields_ofFields _ := rfl
  sum_widths := rfl

@[simp] theorem UdpH.size_eq : Header.size UdpH = 8 := rfl

/-! ### `headers/scion.p4` -/

def PathType.SCION : BitVec 8 := 0x01
def PathType.ONEHOP : BitVec 8 := 0x02
def NextHdr.UDP_SCION : BitVec 8 := 0x11

/-- `scion_common_h` -/
structure ScionCommonH where
  version : BitVec 4
  qos : BitVec 8
  flowID : BitVec 20
  nextHdr : BitVec 8
  hdrLen : BitVec 8
  payloadLen : BitVec 16
  pathType : BitVec 8
  dt : BitVec 2
  dl : BitVec 2
  st : BitVec 2
  sl : BitVec 2
  rsv : BitVec 16
deriving DecidableEq, Inhabited

instance : Header ScionCommonH where
  widths := [4, 8, 20, 8, 8, 16, 8, 2, 2, 2, 2, 16]
  size := 12
  toFields h := (h.version, h.qos, h.flowID, h.nextHdr, h.hdrLen, h.payloadLen, h.pathType,
    h.dt, h.dl, h.st, h.sl, h.rsv, ())
  ofFields | (a, b, c, d, e, f, g, h, i, j, k, l, _) => ⟨a, b, c, d, e, f, g, h, i, j, k, l⟩
  ofFields_toFields _ := rfl
  toFields_ofFields _ := rfl
  sum_widths := rfl

@[simp] theorem ScionCommonH.size_eq : Header.size ScionCommonH = 12 := rfl

/-- `scion_addr_common_h` -/
structure ScionAddrCommonH where
  dstISD : BitVec 16
  dstAS : BitVec 48
  srcISD : BitVec 16
  srcAS : BitVec 48
deriving DecidableEq, Inhabited

instance : Header ScionAddrCommonH where
  widths := [16, 48, 16, 48]
  size := 16
  toFields h := (h.dstISD, h.dstAS, h.srcISD, h.srcAS, ())
  ofFields | (a, b, c, d, _) => ⟨a, b, c, d⟩
  ofFields_toFields _ := rfl
  toFields_ofFields _ := rfl
  sum_widths := rfl

@[simp] theorem ScionAddrCommonH.size_eq : Header.size ScionAddrCommonH = 16 := rfl

/-- A header with a single field of `n` bytes. -/
structure ScalarH (n : ℕ) where
  value : BitVec (8 * n)
deriving DecidableEq, Inhabited

instance (n : ℕ) : Header (ScalarH n) where
  widths := [8 * n]
  size := n
  toFields h := (h.value, ())
  ofFields | (a, _) => ⟨a⟩
  ofFields_toFields _ := rfl
  toFields_ofFields _ := rfl
  sum_widths := by simp

@[simp] theorem ScalarH.size_eq (n : ℕ) : Header.size (ScalarH n) = n := rfl

/-- `scion_addr_host_32_h` -/
abbrev ScionAddrHost32H := ScalarH 4
/-- `scion_addr_host_128_h` -/
abbrev ScionAddrHost128H := ScalarH 16

/-- `scion_path_meta_h` -/
structure ScionPathMetaH where
  currInf : BitVec 2
  currHF : BitVec 6
  rsv : BitVec 6
  seg0Len : BitVec 6
  seg1Len : BitVec 6
  seg2Len : BitVec 6
deriving DecidableEq, Inhabited

instance : Header ScionPathMetaH where
  widths := [2, 6, 6, 6, 6, 6]
  size := 4
  toFields h := (h.currInf, h.currHF, h.rsv, h.seg0Len, h.seg1Len, h.seg2Len, ())
  ofFields | (a, b, c, d, e, f, _) => ⟨a, b, c, d, e, f⟩
  ofFields_toFields _ := rfl
  toFields_ofFields _ := rfl
  sum_widths := rfl

@[simp] theorem ScionPathMetaH.size_eq : Header.size ScionPathMetaH = 4 := rfl

/-- `scion_info_field_h` -/
structure ScionInfoFieldH where
  rsv0 : BitVec 6
  peering : BitVec 1
  direction : BitVec 1
  rsv1 : BitVec 8
  segId : BitVec 16
  timestamp : BitVec 32
deriving DecidableEq, Inhabited

instance : Header ScionInfoFieldH where
  widths := [6, 1, 1, 8, 16, 32]
  size := 8
  toFields h := (h.rsv0, h.peering, h.direction, h.rsv1, h.segId, h.timestamp, ())
  ofFields | (a, b, c, d, e, f, _) => ⟨a, b, c, d, e, f⟩
  ofFields_toFields _ := rfl
  toFields_ofFields _ := rfl
  sum_widths := rfl

@[simp] theorem ScionInfoFieldH.size_eq : Header.size ScionInfoFieldH = 8 := rfl

/-- `scion_hop_field_h` -/
abbrev ScionHopFieldH := VarBits 18144

/-! ### `headers/int.p4` -/

def NUM_INTER_HOPS : BitVec 8 := 10
def SPACE_FOR_HOPS : ℕ := 2080
def UDP_PORT : BitVec 16 := 12345
def SCION_DOMAIN_ID : BitVec 16 := 0x0001
def INT_IDENTIFIER : BitVec 64 := 0x00494e54

/-- `Type.MD` -/
def INTType.MD : BitVec 4 := 0x01

/-- `int_shim_h` -/
structure IntShimH where
  type : BitVec 4
  npt : BitVec 2
  r : BitVec 2
  length : BitVec 8
  udpPort : BitVec 16
deriving DecidableEq, Inhabited

instance : Header IntShimH where
  widths := [4, 2, 2, 8, 16]
  size := 4
  toFields h := (h.type, h.npt, h.r, h.length, h.udpPort, ())
  ofFields | (a, b, c, d, e, _) => ⟨a, b, c, d, e⟩
  ofFields_toFields _ := rfl
  toFields_ofFields _ := rfl
  sum_widths := rfl

@[simp] theorem IntShimH.size_eq : Header.size IntShimH = 4 := rfl

/-- `int_md_h` -/
structure IntMdH where
  version : BitVec 4
  discard : BitVec 1
  exceededHopCount : BitVec 1
  mtuExceeded : BitVec 1
  reserved : BitVec 12
  hopML : BitVec 5
  remainingHopCount : BitVec 8
  instructionBitmap : BitVec 16
  domainID : BitVec 16
  domainInstructions : BitVec 16
  domainFlags : BitVec 16
deriving DecidableEq, Inhabited

instance : Header IntMdH where
  widths := [4, 1, 1, 1, 12, 5, 8, 16, 16, 16, 16]
  size := 12
  toFields h := (h.version, h.discard, h.exceededHopCount, h.mtuExceeded, h.reserved, h.hopML,
    h.remainingHopCount, h.instructionBitmap, h.domainID, h.domainInstructions, h.domainFlags, ())
  ofFields | (a, b, c, d, e, f, g, h, i, j, k, _) => ⟨a, b, c, d, e, f, g, h, i, j, k⟩
  ofFields_toFields _ := rfl
  toFields_ofFields _ := rfl
  sum_widths := rfl

@[simp] theorem IntMdH.size_eq : Header.size IntMdH = 12 := rfl

/-- `int_cpu_h` -/
structure IntCpuH where
  identifier : BitVec 64
  cpuHdrLen : BitVec 64
deriving DecidableEq, Inhabited

instance : Header IntCpuH where
  widths := [64, 64]
  size := 16
  toFields h := (h.identifier, h.cpuHdrLen, ())
  ofFields | (a, b, _) => ⟨a, b⟩
  ofFields_toFields _ := rfl
  toFields_ofFields _ := rfl
  sum_widths := rfl

@[simp] theorem IntCpuH.size_eq : Header.size IntCpuH = 16 := rfl

/-- `pre_int_stack_h` -/
abbrev PreIntStackH := VarBits SPACE_FOR_HOPS
/-- `payload_h` -/
abbrev PayloadH := VarBits 65040
/-- `int_chksum_compl_h` -/
abbrev IntChksumComplH := ScalarH 4

/-- `int_stack_t`: the stack of the earlier hops and the fields of this hop. -/
structure IntStackT where
  preIntStack : Option PreIntStackH := none
  nodeID : Option (ScalarH 4) := none
  l1InterfaceInID : Option (ScalarH 2) := none
  l1InterfaceEgID : Option (ScalarH 2) := none
  hopLatency : Option (ScalarH 4) := none
  queueID : Option (ScalarH 1) := none
  queueOccu : Option (ScalarH 3) := none
  ingressTime : Option (ScalarH 8) := none
  egressTime : Option (ScalarH 8) := none
  l2InterfaceInID : Option (ScalarH 4) := none
  l2InterfaceEgID : Option (ScalarH 4) := none
  egressIFUtilization : Option (ScalarH 4) := none
  bufferID : Option (ScalarH 1) := none
  bufferOccu : Option (ScalarH 3) := none
  sciAsAddr : Option (ScalarH 8) := none
deriving DecidableEq, Inhabited

/-- The fields of `int_stack_t` that belong to this hop. -/
def IntStackT.emitHop (s : IntStackT) : List Byte :=
  emitOpt s.nodeID ++ emitOpt s.l1InterfaceInID ++ emitOpt s.l1InterfaceEgID ++
  emitOpt s.hopLatency ++ emitOpt s.queueID ++ emitOpt s.queueOccu ++ emitOpt s.ingressTime ++
  emitOpt s.egressTime ++ emitOpt s.l2InterfaceInID ++ emitOpt s.l2InterfaceEgID ++
  emitOpt s.egressIFUtilization ++ emitOpt s.bufferID ++ emitOpt s.bufferOccu ++
  emitOpt s.sciAsAddr

def IntStackT.emit (s : IntStackT) : List Byte := VarBits.emitOpt s.preIntStack ++ s.emitHop

/-! ### `headers_t` -/

/-- One host address: `scion_addr_dst_host_32` … `scion_addr_dst_host_128`, or the same for the
source. -/
structure ScionHostT where
  host32 : Option ScionAddrHost32H := none
  host32_2 : Option ScionAddrHost32H := none
  host32_3 : Option ScionAddrHost32H := none
  host128 : Option ScionAddrHost128H := none
deriving DecidableEq, Inhabited

def ScionHostT.emit (h : ScionHostT) : List Byte :=
  emitOpt h.host32 ++ emitOpt h.host32_2 ++ emitOpt h.host32_3 ++ emitOpt h.host128

/-- `scion_addr_common` and the two host addresses. -/
structure ScionAddrT where
  common : Option ScionAddrCommonH := none
  dst : ScionHostT := {}
  src : ScionHostT := {}
deriving DecidableEq, Inhabited

def ScionAddrT.emit (a : ScionAddrT) : List Byte := emitOpt a.common ++ a.dst.emit ++ a.src.emit

/-- `scion_path_meta` … `scion_hop_fields`. -/
structure ScionPathT where
  pathMeta : Option ScionPathMetaH := none
  infoField0 : Option ScionInfoFieldH := none
  infoField1 : Option ScionInfoFieldH := none
  infoField2 : Option ScionInfoFieldH := none
  hopFields : Option ScionHopFieldH := none
deriving DecidableEq, Inhabited

def ScionPathT.emit (p : ScionPathT) : List Byte :=
  emitOpt p.pathMeta ++ emitOpt p.infoField0 ++ emitOpt p.infoField1 ++ emitOpt p.infoField2 ++
  VarBits.emitOpt p.hopFields

/-- `headers_t` -/
structure HeadersT where
  ethernet : Option EthernetH := none
  ipv4 : Option Ipv4H := none
  udp : Option UdpH := none
  intCpu : Option IntCpuH := none
  scionCommon : Option ScionCommonH := none
  scionAddr : ScionAddrT := {}
  scionPath : ScionPathT := {}
  udpScion : Option UdpH := none
  intShim : Option IntShimH := none
  intMd : Option IntMdH := none
  intStack : IntStackT := {}
  intChksumCompl : Option IntChksumComplH := none
  payload : Option PayloadH := none
deriving DecidableEq, Inhabited

/-- The headers behind the outer UDP header, `int_cpu` apart, in the order of `headers_t`. -/
def HeadersT.emitBehindUdp (hdr : HeadersT) : List Byte :=
  emitOpt hdr.scionCommon ++ hdr.scionAddr.emit ++ hdr.scionPath.emit ++ emitOpt hdr.udpScion ++
  emitOpt hdr.intShim ++ emitOpt hdr.intMd ++ hdr.intStack.emit ++ emitOpt hdr.intChksumCompl ++
  VarBits.emitOpt hdr.payload

/-- `packet.emit(hdr)`: the valid headers in the order of `headers_t`. -/
def HeadersT.emit (hdr : HeadersT) : List Byte :=
  emitOpt hdr.ethernet ++ emitOpt hdr.ipv4 ++ emitOpt hdr.udp ++ emitOpt hdr.intCpu ++
  hdr.emitBehindUdp

/-! ### `metadata_t` -/

/-- `metadata_t`, zero when a packet enters the parser. -/
structure MetadataT where
  intState : BitVec 2 := 0
  intStackLen : BitVec 32 := 0
  cpuHdrLen : BitVec 64 := 0
  addLen : BitVec 16 := 0
  intNodeID : BitVec 1 := 0
  intL1IfID : BitVec 1 := 0
  intHopLatency : BitVec 1 := 0
  intQueue : BitVec 1 := 0
  intIngressTime : BitVec 1 := 0
  intEgressTime : BitVec 1 := 0
  intL2IfID : BitVec 1 := 0
  intEgIfUtil : BitVec 1 := 0
  intBufferInfos : BitVec 1 := 0
  intChksumCompl : BitVec 1 := 0
  sciAsAddr : BitVec 1 := 0
deriving DecidableEq, Inhabited

end ScionInt
