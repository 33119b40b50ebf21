import ScionInt.DataPlane.Headers

/-!
# A packet inside the switch

The headers, the user metadata and the standard metadata that the controls of `int_switch.p4`
read and write, together with the part of the packet that the parser did not consume.
-/

namespace ScionInt

open Wire

/-- The fields of `standard_metadata_t` that the program or the target uses. -/
structure StandardMetadataT where
  ingressPort : BitVec 9 := 0
  egressSpec : BitVec 9 := 0
  egressPort : BitVec 9 := 0
  instanceType : BitVec 32 := 0
  packetLength : BitVec 32 := 0
  mcastGrp : BitVec 16 := 0
  checksumError : BitVec 1 := 0
  ingressGlobalTimestamp : BitVec 48 := 0
  egressGlobalTimestamp : BitVec 48 := 0
deriving DecidableEq, Inhabited

/-- A packet between the parser and the deparser. -/
structure Packet where
  hdr : HeadersT := {}
  metadata : MetadataT := {}
  stdMeta : StandardMetadataT := {}
  rest : List Byte := []
deriving DecidableEq, Inhabited

/-- The egress port that stands for a dropped packet. -/
def DROP_PORT : BitVec 9 := 511

/-- `mark_to_drop(std_meta)` -/
def markToDrop (p : Packet) : Packet :=
  { p with stdMeta.egressSpec := DROP_PORT, stdMeta.mcastGrp := 0 }

end ScionInt
