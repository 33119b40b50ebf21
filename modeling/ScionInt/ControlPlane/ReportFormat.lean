import Mathlib.Data.List.AList
import ScionInt.ControlPlane.IntController
import ScionInt.Wire.Protobuf

/-!
# `report.pb.cc`

The messages of `report.proto`: how they are written, how large they are, how they are read into a
message and how one is merged into another.

A `Map` is iterated over in an order that the library chooses, here the order of an `AList`.  A message
keeps the fields that it does not know only as a string that it writes back; the controller never sets
them and they are left out.  Messages are nested two deep, far below the limit of the parser.
-/

namespace ScionInt

namespace Telemetry

open Wire Protobuf

variable (rt : Runtime)

/-! ### `IPv6Address` -/

@[ext] structure IPv6Address where
  high : BitVec 64 := 0
  low : BitVec 64 := 0
deriving DecidableEq

namespace IPv6Address

/-- The `switch` over the tag; `none` is `handle_unusual`. -/
def parseField (tag : BitVec 32) (m : IPv6Address) : Option (Reader IPv6Address) :=
  match (tag >>> 3).toNat, (tag.setWidth 8).toNat with
  | 1, 9 => some do
    let high ← readFixed64
    pure { m with high := high }
  | 2, 17 => some do
    let low ← readFixed64
    pure { m with low := low }
  | _, _ => none

def internalParse (m : IPv6Address) (bs : List Byte) : Option IPv6Address :=
  Protobuf.internalParse rt parseField m bs

def internalSerialize (m : IPv6Address) : List Byte :=
  (if m.high ≠ 0 then writeFixed64 rt 1 m.high else []) ++
    (if m.low ≠ 0 then writeFixed64 rt 2 m.low else [])

def byteSizeLong (m : IPv6Address) : ℕ :=
  (if m.high ≠ 0 then 1 + 8 else 0) + (if m.low ≠ 0 then 1 + 8 else 0)

def mergeFrom (m other : IPv6Address) : IPv6Address :=
  let m := if other.high ≠ 0 then { m with high := other.high } else m
  if other.low ≠ 0 then { m with low := other.low } else m

end IPv6Address

/-! ### `FlowKey` -/

/-- The `oneof`s `dst_ip` and `src_ip`. -/
inductive IpAddress where
  | notSet
  | ipv4 (v : BitVec 32)
  | ipv6 (m : IPv6Address)
deriving DecidableEq

/-- `_internal_mutable_dst_ipv6`, `_internal_mutable_src_ipv6`: a new message unless there is one. -/
def IpAddress.mutableIpv6 : IpAddress → IPv6Address
  | .ipv6 m => m
  | _ => {}

def IpAddress.mergeFrom (m : IpAddress) : IpAddress → IpAddress
  | .notSet => m
  | .ipv4 v => .ipv4 v
  | .ipv6 other => .ipv6 (m.mutableIpv6.mergeFrom other)

@[ext] structure FlowKey where
  dstAs : BitVec 64 := 0
  srcAs : BitVec 64 := 0
  flowId : BitVec 32 := 0
  dstIp : IpAddress := .notSet
  srcIp : IpAddress := .notSet
  dstPort : BitVec 32 := 0
  srcPort : BitVec 32 := 0
  protocol : BitVec 32 := 0
deriving DecidableEq

namespace FlowKey

def parseField (tag : BitVec 32) (m : FlowKey) : Option (Reader FlowKey) :=
  match (tag >>> 3).toNat, (tag.setWidth 8).toNat with
  | 1, 8 => some do
    let dstAs ← rt.readVarint64
    pure { m with dstAs := dstAs }
  | 2, 16 => some do
    let srcAs ← rt.readVarint64
    pure { m with srcAs := srcAs }
  | 3, 24 => some do
    let flowId ← rt.readVarint32
    pure { m with flowId := flowId }
  | 4, 37 => some do
    let v ← readFixed32
    pure { m with dstIp := .ipv4 v }
  | 5, 42 => some do
    let ipv6 ← parseMessage rt (m.dstIp.mutableIpv6.internalParse rt)
    pure { m with dstIp := .ipv6 ipv6 }
  | 6, 53 => some do
    let v ← readFixed32
    pure { m with srcIp := .ipv4 v }
  | 7, 58 => some do
    let ipv6 ← parseMessage rt (m.srcIp.mutableIpv6.internalParse rt)
    pure { m with srcIp := .ipv6 ipv6 }
  | 8, 64 => some do
    let dstPort ← rt.readVarint32
    pure { m with dstPort := dstPort }
  | 9, 72 => some do
    let srcPort ← rt.readVarint32
    pure { m with srcPort := srcPort }
  | 10, 80 => some do
    let protocol ← readEnum rt
    pure { m with protocol := protocol }
  | _, _ => none

def internalParse (m : FlowKey) (bs : List Byte) : Option FlowKey :=
  Protobuf.internalParse rt (parseField rt) m bs

/-- One of the `oneof`s, with the numbers of its two fields. -/
def serializeIp (ipv4 ipv6 : ℕ) : IpAddress → List Byte
  | .notSet => []
  | .ipv4 v => writeFixed32 rt ipv4 v
  | .ipv6 m => writeLengthDelimited rt ipv6 m.byteSizeLong (m.internalSerialize rt)

def internalSerialize (m : FlowKey) : List Byte :=
  (if m.dstAs ≠ 0 then writeUInt64 rt 1 m.dstAs else []) ++
  (if m.srcAs ≠ 0 then writeUInt64 rt 2 m.srcAs else []) ++
  (if m.flowId ≠ 0 then writeUInt32 rt 3 m.flowId else []) ++
  serializeIp rt 4 5 m.dstIp ++
  serializeIp rt 6 7 m.srcIp ++
  (if m.dstPort ≠ 0 then writeUInt32 rt 8 m.dstPort else []) ++
  (if m.srcPort ≠ 0 then writeUInt32 rt 9 m.srcPort else []) ++
  (if m.protocol ≠ 0 then writeEnum rt 10 m.protocol else [])

def ipSize : IpAddress → ℕ
  | .notSet => 0
  | .ipv4 _ => 1 + 4
  | .ipv6 m => 1 + lengthDelimitedSize rt m.byteSizeLong

def byteSizeLong (m : FlowKey) : ℕ :=
  (if m.dstAs ≠ 0 then uint64SizePlusOne rt m.dstAs else 0) +
  (if m.srcAs ≠ 0 then uint64SizePlusOne rt m.srcAs else 0) +
  (if m.flowId ≠ 0 then uint32SizePlusOne rt m.flowId else 0) +
  (if m.dstPort ≠ 0 then uint32SizePlusOne rt m.dstPort else 0) +
  (if m.srcPort ≠ 0 then uint32SizePlusOne rt m.srcPort else 0) +
  (if m.protocol ≠ 0 then 1 + enumSize rt m.protocol else 0) +
  ipSize rt m.dstIp + ipSize rt m.srcIp

def mergeFrom (m other : FlowKey) : FlowKey :=
  let m := if other.dstAs ≠ 0 then { m with dstAs := other.dstAs } else m
  let m := if other.srcAs ≠ 0 then { m with srcAs := other.srcAs } else m
  let m := if other.flowId ≠ 0 then { m with flowId := other.flowId } else m
  let m := if other.dstPort ≠ 0 then { m with dstPort := other.dstPort } else m
  let m := if other.srcPort ≠ 0 then { m with srcPort := other.srcPort } else m
  let m := if other.protocol ≠ 0 then { m with protocol := other.protocol } else m
  { m with
    dstIp := m.dstIp.mergeFrom other.dstIp
    srcIp := m.srcIp.mergeFrom other.srcIp }

/-- `SerializeToString` -/
def serializeToString (m : FlowKey) : Option (List Byte) :=
  if m.byteSizeLong rt ≤ INT_MAX then some (m.internalSerialize rt) else none

/-- `ParseFromString` -/
def parseFromString (bs : List Byte) : Option FlowKey := internalParse rt {} bs

end FlowKey

/-! ### `Hop` -/

/-- `Map<uint32, std::string>`, in the order of its iteration. -/
abbrev Metadata := AList fun _ : BitVec 32 => List Byte

/-- `MergeFrom` of a map. -/
def mergeMetadata (m other : Metadata) : Metadata :=
  other.entries.foldl (fun m entry => m.insert entry.1 entry.2) m

/-- An entry of the map as a message, `Hop_MetadataEntry_DoNotUse`. -/
structure MetadataEntry where
  key : BitVec 32 := 0
  value : List Byte := []
deriving DecidableEq

namespace MetadataEntry

def parseField (tag : BitVec 32) (m : MetadataEntry) : Option (Reader MetadataEntry) :=
  match tag.toNat with
  | 8 => some do
    let key ← rt.readVarint32
    pure { m with key := key }
  | 18 => some do
    let value ← readBytes rt
    pure { m with value := value }
  | _ => none

def internalParse (m : MetadataEntry) (bs : List Byte) : Option MetadataEntry :=
  Protobuf.internalParse rt (parseField rt) m bs

/-- `GetCachedSize` -/
def cachedSize (m : MetadataEntry) : ℕ :=
  2 + rt.varintSize m.key.toNat + lengthDelimitedSize rt m.value.length

/-- `Funcs::ByteSizeLong` -/
def byteSizeLong (m : MetadataEntry) : ℕ := lengthDelimitedSize rt (m.cachedSize rt)

/-- `Funcs::InternalSerialize`; key and value are written even if they are zero or empty. -/
def internalSerialize (number : ℕ) (m : MetadataEntry) : List Byte :=
  writeLengthDelimited rt number (m.cachedSize rt) (writeUInt32 rt 1 m.key ++ writeBytes rt 2 m.value)

end MetadataEntry

structure Hop where
  asn : BitVec 64 := 0
  nodeId : BitVec 32 := 0
  metadata : Metadata := ∅

namespace Hop

/-- An entry that has been read goes into the map. -/
def insertEntry (m : Hop) (entry : MetadataEntry) : Hop :=
  { m with metadata := m.metadata.insert entry.key entry.value }

def parseField (tag : BitVec 32) (m : Hop) : Option (Reader Hop) :=
  match (tag >>> 3).toNat, (tag.setWidth 8).toNat with
  | 1, 8 => some do
    let asn ← rt.readVarint64
    pure { m with asn := asn }
  | 2, 16 => some do
    let nodeId ← rt.readVarint32
    pure { m with nodeId := nodeId }
  | 3, 26 => some do
    let entry ← parseMessage rt (MetadataEntry.internalParse rt {})
    pure (m.insertEntry entry)
  | _, _ => none

def internalParse (m : Hop) (bs : List Byte) : Option Hop :=
  Protobuf.internalParse rt (parseField rt) m bs

def entries (m : Hop) : List MetadataEntry := m.metadata.entries.map fun entry => ⟨entry.1, entry.2⟩

def internalSerialize (m : Hop) : List Byte :=
  (if m.asn ≠ 0 then writeUInt64 rt 1 m.asn else []) ++
  (if m.nodeId ≠ 0 then writeUInt32 rt 2 m.nodeId else []) ++
  m.entries.flatMap (MetadataEntry.internalSerialize rt 3)

def byteSizeLong (m : Hop) : ℕ :=
  1 * m.entries.length + (m.entries.map (MetadataEntry.byteSizeLong rt)).sum +
  (if m.asn ≠ 0 then uint64SizePlusOne rt m.asn else 0) +
  (if m.nodeId ≠ 0 then uint32SizePlusOne rt m.nodeId else 0)

def mergeFrom (m other : Hop) : Hop :=
  let m := { m with metadata := mergeMetadata m.metadata other.metadata }
  let m := if other.asn ≠ 0 then { m with asn := other.asn } else m
  if other.nodeId ≠ 0 then { m with nodeId := other.nodeId } else m

end Hop

/-! ### `Report` -/

structure Report where
  hops : List Hop := []
  packetType : BitVec 32 := 0
  truncatedPacket : List Byte := []

namespace Report

def parseField (tag : BitVec 32) (m : Report) : Option (Reader Report) :=
  match (tag >>> 3).toNat, (tag.setWidth 8).toNat with
  | 1, 10 => some do
    let hop ← parseMessage rt (Hop.internalParse rt {})
    pure { m with hops := m.hops ++ [hop] }
  | 2, 16 => some do
    let packetType ← readEnum rt
    pure { m with packetType := packetType }
  | 3, 26 => some do
    let truncatedPacket ← readBytes rt
    pure { m with truncatedPacket := truncatedPacket }
  | _, _ => none

def internalParse (m : Report) (bs : List Byte) : Option Report :=
  Protobuf.internalParse rt (parseField rt) m bs

def internalSerialize (m : Report) : List Byte :=
  m.hops.flatMap (fun hop => writeLengthDelimited rt 1 (hop.byteSizeLong rt) (hop.internalSerialize rt)) ++
  (if m.packetType ≠ 0 then writeEnum rt 2 m.packetType else []) ++
  (if m.truncatedPacket ≠ [] then writeBytes rt 3 m.truncatedPacket else [])

def byteSizeLong (m : Report) : ℕ :=
  1 * m.hops.length + (m.hops.map fun hop => lengthDelimitedSize rt (hop.byteSizeLong rt)).sum +
  (if m.truncatedPacket ≠ [] then 1 + lengthDelimitedSize rt m.truncatedPacket.length else 0) +
  (if m.packetType ≠ 0 then 1 + enumSize rt m.packetType else 0)

/-- The hops of the other report are merged into new ones. -/
def mergeFrom (m other : Report) : Report :=
  let m := { m with hops := m.hops ++ other.hops.map fun hop => Hop.mergeFrom {} hop }
  let m := if other.truncatedPacket ≠ [] then { m with truncatedPacket := other.truncatedPacket } else m
  if other.packetType ≠ 0 then { m with packetType := other.packetType } else m

/-- `SerializeToString` -/
def serializeToString (m : Report) : Option (List Byte) :=
  if m.byteSizeLong rt ≤ INT_MAX then some (m.internalSerialize rt) else none

/-- `ParseFromString` -/
def parseFromString (bs : List Byte) : Option Report := internalParse rt {} bs

end Report

/-! ### The messages of the controller -/

/-- `MetadataType` in `report.proto` -/
def typeNumber : MetadataType → BitVec 32
  | .INTERFACE_LEVEL1 => 1
  | .HOP_LATENCY => 2
  | .QUEUE_OCCUPANCY => 3
  | .INGRESS_TIMESTAMP => 4
  | .EGRESS_TIMESTAMP => 5
  | .INTERFACE_LEVEL2 => 6
  | .EGRESS_TX_UTILIZATION => 7
  | .BUFFER_OCCUPANCY => 8

/-- `Report.PacketType` in `report.proto` -/
def packetTypeNumber : PacketType → BitVec 32
  | .none => 0
  | .ethernet => 1
  | .ipv4 => 2
  | .ipv6 => 3
  | .scion => 4

/-- The message of a hop, whatever the order of its map. -/
structure Hop.Represents (m : Hop) (hop : ScionInt.Hop) : Prop where
  asn : m.asn = hop.asn
  nodeId : m.nodeId = hop.nodeId
  lookup : ∀ key, m.metadata.lookup (typeNumber key) = hop.metadata key
  keys : ∀ number ∈ m.metadata, ∃ key, number = typeNumber key

/-- The message of a report. -/
structure Report.Represents (m : Report) (report : ScionInt.Report) : Prop where
  hops : List.Forall₂ Hop.Represents m.hops report.hops
  packetType : m.packetType = packetTypeNumber report.packetType
  truncatedPacket : m.truncatedPacket = report.truncatedPacket

end Telemetry

end ScionInt
