import ScionInt.ControlPlane.TakeUint

/-!
# `IntController::handlePacketIn`

The controller decodes the payload of a packet-in: the 16 bytes of `int_cpu`, the headers that
`cpuHdrLen` counts, found backwards from their end, and the INT stack.  It returns `false` for a payload
that it does not like (`Stop.rejected`) and otherwise publishes a report.

`pos` is a `uint32_t`, so that the cursor and the offsets computed from `hdrLen` are 32-bit numbers, and
`intStackSize` is an `int`, so that a shim length below 3 makes it negative.  A remainder by zero stops
the process (`Stop.divisionByZero`).  That the library serialises and sends every report is assumed.
-/

namespace ScionInt

open Wire Wire.Scan

/-! ### `report.proto` -/

/-- The types of metadata that the controller reports. -/
inductive MetadataType where
  | INTERFACE_LEVEL1
  | HOP_LATENCY
  | QUEUE_OCCUPANCY
  | INGRESS_TIMESTAMP
  | EGRESS_TIMESTAMP
  | INTERFACE_LEVEL2
  | EGRESS_TX_UTILIZATION
  | BUFFER_OCCUPANCY
deriving DecidableEq

/-- `Hop`; a field that is not set reads as zero. -/
@[ext] structure Hop where
  asn : BitVec 64 := 0
  nodeId : BitVec 32 := 0
  metadata : MetadataType → Option (List Byte) := fun _ => none
deriving Inhabited

/-- `(*metadata)[key].push_back(…)` for every byte of `bytes`. -/
def Hop.pushBack (h : Hop) (key : MetadataType) (bytes : List Byte) : Hop :=
  { h with
    metadata := Function.update h.metadata key (some ((h.metadata key).getD [] ++ bytes)) }

/-- `Report.PacketType` -/
inductive PacketType where
  | none | ethernet | ipv4 | ipv6 | scion
deriving DecidableEq, Inhabited

/-- `Report` -/
structure Report where
  hops : List Hop
  packetType : PacketType
  truncatedPacket : List Byte
deriving Inhabited

/-- `FlowKey` -/
structure FlowKey where
  flowId : BitVec 32
deriving DecidableEq, Inhabited

/-! ### The INT stack -/

/-- How the controller stops without publishing a report. -/
inductive Stop where
  | rejected
  | divisionByZero
deriving DecidableEq

namespace IntController

/-- The `n` bytes that follow `payload + pos`. -/
def copyBytes (n : ℕ) (pos : BitVec 32) : Scan Stop (List Byte) :=
  readList (List.range' pos.toNat n)

/-- `if (bitmap & (1 << bit))`: read a field of `width` bytes at the cursor and store it. -/
def optionalField {α : Type} (bitmap : BitVec 16) (bit width : ℕ) (take : BitVec 32 → Scan Stop α)
    (store : α → Hop → Hop) (c : Cursor Hop) : Scan Stop (Cursor Hop) :=
  if bitmap.getLsbD bit then do
    let value ← take c.pos
    pure ⟨c.pos + BitVec.ofNat 32 width, store value c.value⟩
  else pure c

/-- A field that is copied byte by byte. -/
def copiedField (bitmap : BitVec 16) (bit width : ℕ) (key : MetadataType) :
    Cursor Hop → Scan Stop (Cursor Hop) :=
  optionalField bitmap bit width (copyBytes width) fun bytes h => h.pushBack key bytes

/-- A timestamp in microseconds, stored in nanoseconds. -/
def timestampField (bitmap : BitVec 16) (bit : ℕ) (key : MetadataType) :
    Cursor Hop → Scan Stop (Cursor Hop) :=
  optionalField bitmap bit 8 takeUint64 fun timestamp h =>
    h.pushBack key (toBytes 8 (timestamp * 1000).toNat)

def NODE_ID (bitmapInt : BitVec 16) := optionalField bitmapInt 15 4 takeUint32 fun readNodeID h =>
  { h with nodeId := readNodeID }
def INT_L1_IF_ID (bitmapInt : BitVec 16) := copiedField bitmapInt 14 4 .INTERFACE_LEVEL1
def INT_HOP_LATENCY (bitmapInt : BitVec 16) := copiedField bitmapInt 13 4 .HOP_LATENCY
def INT_QUEUE (bitmapInt : BitVec 16) := copiedField bitmapInt 12 4 .QUEUE_OCCUPANCY
def INT_IG_TIME (bitmapInt : BitVec 16) := timestampField bitmapInt 11 .INGRESS_TIMESTAMP
def INT_EG_TIME (bitmapInt : BitVec 16) := timestampField bitmapInt 10 .EGRESS_TIMESTAMP
def INT_L2_IF_ID (bitmapInt : BitVec 16) := copiedField bitmapInt 9 8 .INTERFACE_LEVEL2
def INT_EG_IF_UTIL (bitmapInt : BitVec 16) := copiedField bitmapInt 8 4 .EGRESS_TX_UTILIZATION
def INT_BUFFER_INFOS (bitmapInt : BitVec 16) := copiedField bitmapInt 7 4 .BUFFER_OCCUPANCY
def AS_ADDR (bitmapScion : BitVec 16) := optionalField bitmapScion 0 8 takeUint64 fun readAS h =>
  { h with asn := readAS }

/-- The body of the loop over the INT stack: the fields of one hop. -/
def readHop (bitmapInt bitmapScion : BitVec 16) (c : Cursor Hop) : Scan Stop (Cursor Hop) := do
  let c ← NODE_ID bitmapInt c
  let c ← INT_L1_IF_ID bitmapInt c
  let c ← INT_HOP_LATENCY bitmapInt c
  let c ← INT_QUEUE bitmapInt c
  let c ← INT_IG_TIME bitmapInt c
  let c ← INT_EG_TIME bitmapInt c
  let c ← INT_L2_IF_ID bitmapInt c
  let c ← INT_EG_IF_UTIL bitmapInt c
  let c ← INT_BUFFER_INFOS bitmapInt c
  AS_ADDR bitmapScion c

/-- One iteration of the loop: `report.add_hops()` and its fields. -/
def addHop (bitmapInt bitmapScion : BitVec 16) (c : Cursor (List Hop)) :
    Scan Stop (Cursor (List Hop)) := do
  let newHop ← readHop bitmapInt bitmapScion ⟨c.pos, {}⟩
  pure ⟨newHop.pos, c.value ++ [newHop.value]⟩

/-- The loop over the INT stack. -/
def readHops (bitmapInt bitmapScion : BitVec 16) :
    ℕ → Cursor (List Hop) → Scan Stop (Cursor (List Hop))
  | 0, c => pure c
  | n + 1, c => do
    let c ← addHop bitmapInt bitmapScion c
    readHops bitmapInt bitmapScion n c

/-! ### The packet-in -/

/-- `INT_IDENTIFIER` of the controller. -/
def INT_IDENTIFIER : BitVec 64 := 0x00494e54

/-- `std::hex` -/
def hex (n : ℕ) : String := String.ofList (Nat.toDigits 16 n)

/-- The name of the topic of the reports for an AS. -/
def topicName (asAddr : BitVec 64) (nodeID : BitVec 32) : String :=
  "AS" ++ hex (asAddr.toNat / 2 ^ 32 % 2 ^ 16) ++ "_" ++ hex (asAddr.toNat / 2 ^ 16 % 2 ^ 16) ++
    "_" ++ hex (asAddr.toNat % 2 ^ 16) ++ "-" ++ hex nodeID.toNat

/-- What `handlePacketIn` sends to Kafka, and where it has stopped reading the INT stack. -/
structure Published where
  topic : String
  key : FlowKey
  report : Report
  pos : BitVec 32
deriving Inhabited

/-- `handlePacketIn`; `nodeID` is the node ID of the controller. -/
def handlePacketIn (nodeID : BitVec 32) : Scan Stop Published := do
  let payloadLen ← Scan.length
  require (16 ≤ payloadLen) .rejected
  let identifier ← takeUint64 0
  let hdrLen ← takeUint64 8
  require (identifier = INT_IDENTIFIER) .rejected
  require (hdrLen.toNat ≤ payloadLen - 16) .rejected
  -- `pos` is 16 up to the stack
  let flowKeyMsg ← takeUint32 16
  let asAddr ← takeUint64 (16 + 12)
  -- shim and INT-MD are found from the end of the headers, `pos + hdrLen`
  let bitmapInt ← takeUint16 ((16 + hdrLen - 8).setWidth 32)
  let bitmapScion ← takeUint16 ((16 + hdrLen - 4).setWidth 32)
  let shimLength ← takeUint8 ((16 + hdrLen - 12 - 3).setWidth 32)
  let hopML ← takeUint8 ((16 + hdrLen - 10).setWidth 32)
  let intStackSize : ℤ := shimLength.toNat - 3
  let intHopSize : ℤ := hopML.toNat % 2 ^ 5
  -- `intStackSize % intHopSize` without a check of the divisor
  require (intHopSize ≠ 0) .divisionByZero
  require (intStackSize.tmod intHopSize = 0) .rejected
  let stack ← readHops bitmapInt bitmapScion (intStackSize.tdiv intHopSize).toNat
    ⟨16 + hdrLen.setWidth 32, []⟩
  -- `payload + 8`, not `payload + 16`
  let truncatedPacket ← copyBytes hdrLen.toNat 8
  pure {
    topic := topicName asAddr nodeID
    key := { flowId := BitVec.ofNat 32 (flowKeyMsg.toNat % 2 ^ 20) }
    report := { hops := stack.value, packetType := .scion, truncatedPacket := truncatedPacket }
    pos := stack.pos }

end IntController

end ScionInt
