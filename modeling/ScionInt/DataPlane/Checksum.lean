import ScionInt.Wire.OnesComplement
import ScionInt.DataPlane.Packet

/-!
# `MyVerifyChecksum` and `MyComputeChecksum`

The field lists of the two checksum controls of `int_switch.p4`.  They list the same fields, so each
list is defined once: `ipv4ChecksumData` is the IPv4 header without its checksum and
`udpChecksumData` is the pseudo header, the outer UDP header without its checksum, every header
behind it and, since the checksum is one `with_payload`, the unparsed rest of the packet.  Headers
that are not valid contribute nothing.
-/

namespace ScionInt

open Wire

/-- The field list of the IPv4 header checksum. -/
def ipv4ChecksumData (ipv4 : Ipv4H) : List Byte :=
  emitFields [4, 4, 8, 16, 16, 3, 13, 8, 8, 32, 32]
    (ipv4.version, ipv4.ihl, ipv4.diffserv, ipv4.totalLen, ipv4.identification, ipv4.flags,
      ipv4.fragOffset, ipv4.ttl, ipv4.protocol, ipv4.srcAddr, ipv4.dstAddr, ())

/-- The fields of the IPv4 and of the UDP header in the field list of the UDP checksum. -/
def udpPseudoHeader (ipv4 : Ipv4H) (udp : UdpH) : List Byte :=
  emitFields [32, 32, 8, 8, 16, 16, 16, 16]
    (ipv4.srcAddr, ipv4.dstAddr, 0, ipv4.protocol, udp.len, udp.srcPort, udp.dstPort, udp.len, ())

/-- The headers behind the outer UDP header in the field list of the UDP checksum. -/
def udpChecksumHeaders (hdr : HeadersT) : List Byte :=
  emitOpt hdr.scionCommon ++
  emitOpt hdr.scionAddr.common ++
  emitOpt hdr.scionAddr.dst.host32 ++
  emitOpt hdr.scionAddr.dst.host32_2 ++
  emitOpt hdr.scionAddr.dst.host32_3 ++
  emitOpt hdr.scionAddr.dst.host128 ++
  emitOpt hdr.scionAddr.src.host32 ++
  emitOpt hdr.scionAddr.src.host32_2 ++
  emitOpt hdr.scionAddr.src.host32_3 ++
  emitOpt hdr.scionAddr.src.host128 ++
  emitOpt hdr.scionPath.pathMeta ++
  emitOpt hdr.scionPath.infoField0 ++
  emitOpt hdr.scionPath.infoField1 ++
  emitOpt hdr.scionPath.infoField2 ++
  VarBits.emitOpt hdr.scionPath.hopFields ++
  emitOpt hdr.udpScion ++
  emitOpt hdr.intShim ++
  emitOpt hdr.intMd ++
  VarBits.emitOpt hdr.intStack.preIntStack ++
  emitOpt hdr.intStack.nodeID ++
  emitOpt hdr.intStack.l1InterfaceInID ++
  emitOpt hdr.intStack.l1InterfaceEgID ++
  emitOpt hdr.intStack.hopLatency ++
  emitOpt hdr.intStack.queueID ++
  emitOpt hdr.intStack.queueOccu ++
  emitOpt hdr.intStack.ingressTime ++
  emitOpt hdr.intStack.egressTime ++
  emitOpt hdr.intStack.l2InterfaceInID ++
  emitOpt hdr.intStack.l2InterfaceEgID ++
  emitOpt hdr.intStack.egressIFUtilization ++
  emitOpt hdr.intStack.bufferID ++
  emitOpt hdr.intStack.bufferOccu ++
  emitOpt hdr.intStack.sciAsAddr ++
  emitOpt hdr.intChksumCompl ++
  VarBits.emitOpt hdr.payload

/-- The data of the UDP checksum. -/
def udpChecksumData (ipv4 : Ipv4H) (udp : UdpH) (hdr : HeadersT) (rest : List Byte) : List Byte :=
  udpPseudoHeader ipv4 udp ++ udpChecksumHeaders hdr ++ rest

/-- `MyVerifyChecksum`: a mismatch only sets `checksum_error`. -/
def MyVerifyChecksum (p : Packet) : Packet :=
  let ipv4 := p.hdr.ipv4.getD default
  let udp := p.hdr.udp.getD default
  if (p.hdr.ipv4.isSome ∧ csum16 (ipv4ChecksumData ipv4) ≠ ipv4.hdrChecksum) ∨
      (p.hdr.udp.isSome ∧ udp.checksum ≠ 0 ∧
        csum16 (udpChecksumData ipv4 udp p.hdr p.rest) ≠ udp.checksum) then
    { p with stdMeta.checksumError := 1 }
  else p

/-- The first update of `MyComputeChecksum`. -/
def updateIpv4Checksum (hdr : HeadersT) : HeadersT :=
  { hdr with
    ipv4 := hdr.ipv4.map fun h => { h with hdrChecksum := csum16 (ipv4ChecksumData h) } }

/-- The second update of `MyComputeChecksum`, for `hdr.udp.checksum != 0` only. -/
def updateUdpChecksum (hdr : HeadersT) (rest : List Byte) : HeadersT :=
  { hdr with
    udp := hdr.udp.map fun h =>
      if h.checksum = 0 then h
      else { h with checksum := csum16 (udpChecksumData (hdr.ipv4.getD default) h hdr rest) } }

/-- `MyComputeChecksum` -/
def MyComputeChecksum (hdr : HeadersT) (rest : List Byte) : HeadersT :=
  updateUdpChecksum (updateIpv4Checksum hdr) rest

/-- `MyDeparser` after `MyComputeChecksum`: the bytes that leave the switch. -/
def Packet.wire (p : Packet) : List Byte := (MyComputeChecksum p.hdr p.rest).emit ++ p.rest

end ScionInt
