import ScionInt.Wire.Table
import ScionInt.DataPlane.Packet

/-!
# `INTSwitchIngress` and `INTSwitchEgress`

The controls of `include/int_switch.p4`.  The ingress control looks up the destination AS in
`scion_int` and either prepares the INT headers (`insertInt`, `intState = 1`), requests a clone for
the controller (`cloneInt`, `intState = 0`) or leaves the packet alone (`intState = 2`).  The egress
control adds the fields of this hop and refreshes the lengths, removes the INT headers, or turns the
clone into the packet for the controller.

A field of a header that is not valid reads as an unspecified value (`default`) and a write to it
has no effect; every action below is reached only with the headers it reads valid.
-/

namespace ScionInt

open Wire

/-! ### Ingress -/

/-- The actions of `scion_int`. -/
inductive ScionIntAction where
  | insert_int (instructionBits domainBits : BitVec 16)
  | clone_int
  | NoAction
deriving DecidableEq

/-- The arguments of `clone_preserving_field_list(CloneType.I2E, session, index)`. -/
structure CloneSpec where
  session : BitVec 32
  index : BitVec 8
deriving DecidableEq, Inhabited

namespace INTSwitchIngress

abbrev ScionIntTable := Table (BitVec 16 × BitVec 48) ScionIntAction

/-- `if (bitmap & mask == mask) meta.flag = 1;` -/
def markBit (bitmap mask : BitVec 16) (flag : BitVec 1) : BitVec 1 :=
  if bitmap &&& mask = mask then 1 else flag

/-- `insert_int` -/
def insertInt (instructionBits domainBits : BitVec 16) (p : Packet) : Packet :=
  { p with
    hdr.intShim := some {
      type := INTType.MD
      npt := 0x01
      r := 0x00
      length := 0x03
      udpPort := (p.hdr.udpScion.getD default).dstPort }
    hdr.udpScion := p.hdr.udpScion.map fun h => { h with dstPort := UDP_PORT }
    hdr.intMd := some {
      version := 0x02
      discard := 0x00
      exceededHopCount := 0x00
      mtuExceeded := 0x00
      reserved := 0x00
      hopML := 0x00
      remainingHopCount := NUM_INTER_HOPS
      instructionBitmap := instructionBits
      domainID := if domainBits = 0x0000 then 0x0000 else SCION_DOMAIN_ID
      domainInstructions := domainBits
      domainFlags := 0x0000 }
    metadata.addLen := 0x10
    metadata.intNodeID := markBit instructionBits 0x8000 p.metadata.intNodeID
    metadata.intL1IfID := markBit instructionBits 0x4000 p.metadata.intL1IfID
    metadata.intHopLatency := markBit instructionBits 0x2000 p.metadata.intHopLatency
    metadata.intQueue := markBit instructionBits 0x1000 p.metadata.intQueue
    metadata.intIngressTime := markBit instructionBits 0x0800 p.metadata.intIngressTime
    metadata.intEgressTime := markBit instructionBits 0x0400 p.metadata.intEgressTime
    metadata.intL2IfID := markBit instructionBits 0x0200 p.metadata.intL2IfID
    metadata.intEgIfUtil := markBit instructionBits 0x0100 p.metadata.intEgIfUtil
    metadata.intBufferInfos := markBit instructionBits 0x0080 p.metadata.intBufferInfos
    metadata.intChksumCompl := markBit instructionBits 0x0040 p.metadata.intChksumCompl
    metadata.sciAsAddr := markBit domainBits 0x0001 p.metadata.sciAsAddr
    metadata.intState := 1 }

/-- `clone_int` -/
def cloneInt (p : Packet) : Packet × Option CloneSpec :=
  ({ p with metadata.intState := 0 }, some { session := 1, index := 1 })

/-- The table `scion_int`, with default action `NoAction`. -/
def scionInt (t : ScionIntTable) (p : Packet) : Packet × Option CloneSpec :=
  let addr := p.hdr.scionAddr.common.getD default
  match t.lookup (addr.dstISD, addr.dstAS) with
  | some (.insert_int instructionBits domainBits) => (insertInt instructionBits domainBits p, none)
  | some .clone_int => cloneInt p
  | some .NoAction | none => (p, none)

/-- `INTSwitchIngress.apply`: the packet and the clone it requests. -/
def apply (t : ScionIntTable) (p : Packet) : Packet × Option CloneSpec :=
  let p := { p with metadata.intState := 2, metadata.addLen := 0 }
  if p.hdr.ethernet.isSome ∧ p.hdr.udpScion.isSome then scionInt t p else (p, none)

end INTSwitchIngress

/-! ### Egress -/

/-- The actions of `int_node_id_table`. -/
inductive IntNodeIdAction where
  | insert_int_node_id (nodeID : BitVec 32)
  | NoAction
deriving DecidableEq

/-- The actions of `int_eg_if_util_table`. -/
inductive IntEgIfUtilAction where
  | insert_int_eg_if_util (txUtil : BitVec 32)
  | NoAction
deriving DecidableEq

/-- The actions of `sci_as_addr_table`. -/
inductive SciAsAddrAction where
  | insert_sci_as_addr (asAddr : BitVec 64)
  | NoAction
deriving DecidableEq

namespace INTSwitchEgress

/-- The egress tables that the controller fills; the others have constant entries. -/
structure Tables where
  intNodeIdTable : Table (BitVec 1) IntNodeIdAction := {}
  intEgIfUtilTable : Table (BitVec 1 × BitVec 9) IntEgIfUtilAction := {}
  sciAsAddrTable : Table (BitVec 1) SciAsAddrAction := {}
deriving Inhabited

def insertIntNodeId (nodeID : BitVec 32) (p : Packet) : Packet :=
  { p with
    metadata.addLen := p.metadata.addLen + 0x04
    hdr.intStack.nodeID := some ⟨nodeID⟩ }

def insertIntIgTimestamp (p : Packet) : Packet :=
  { p with
    metadata.addLen := p.metadata.addLen + 0x08
    hdr.intStack.ingressTime := some ⟨p.stdMeta.ingressGlobalTimestamp.setWidth 64⟩ }

def insertIntEgTimestamp (p : Packet) : Packet :=
  { p with
    metadata.addLen := p.metadata.addLen + 0x08
    hdr.intStack.egressTime := some ⟨p.stdMeta.egressGlobalTimestamp.setWidth 64⟩ }

def insertIntEgIfUtil (txUtil : BitVec 32) (p : Packet) : Packet :=
  { p with
    metadata.addLen := p.metadata.addLen + 0x04
    hdr.intStack.egressIFUtilization := some ⟨txUtil⟩ }

def insertSciAsAddr (asAddr : BitVec 64) (p : Packet) : Packet :=
  { p with
    metadata.addLen := p.metadata.addLen + 0x08
    hdr.intStack.sciAsAddr := some ⟨asAddr⟩ }

/-- `int_refresh_length` -/
def intRefreshLength (p : Packet) : Packet :=
  { p with
    hdr.intMd := p.hdr.intMd.map fun h =>
      { h with hopML := h.hopML + ((p.metadata.addLen - 0x10) / 4).setWidth 5 }
    hdr.intShim := p.hdr.intShim.map fun h =>
      { h with length := h.length + ((p.metadata.addLen - 0x10) / 4).setWidth 8 }
    hdr.udpScion := p.hdr.udpScion.map fun h => { h with len := h.len + p.metadata.addLen }
    hdr.scionCommon := p.hdr.scionCommon.map fun h =>
      { h with payloadLen := h.payloadLen + p.metadata.addLen }
    hdr.udp := p.hdr.udp.map fun h => { h with len := h.len + p.metadata.addLen }
    hdr.ipv4 := p.hdr.ipv4.map fun h => { h with totalLen := h.totalLen + p.metadata.addLen }
    stdMeta.packetLength := p.stdMeta.packetLength + p.metadata.addLen.setWidth 32 }

/-- `subLen` of `delete_int`: the size of the INT headers according to the shim. -/
def subLen (intShim : IntShimH) : BitVec 16 := 0x04 + intShim.length.setWidth 16 * 4

/-- `delete_int` -/
def deleteInt (p : Packet) : Packet :=
  let intShim := p.hdr.intShim.getD default
  { p with
    hdr.udpScion := p.hdr.udpScion.map fun h =>
      { h with dstPort := intShim.udpPort, len := h.len - subLen intShim }
    hdr.scionCommon := p.hdr.scionCommon.map fun h =>
      { h with payloadLen := h.payloadLen - subLen intShim }
    hdr.udp := p.hdr.udp.map fun h => { h with len := h.len - subLen intShim }
    hdr.ipv4 := p.hdr.ipv4.map fun h => { h with totalLen := h.totalLen - subLen intShim }
    stdMeta.packetLength := p.stdMeta.packetLength - (subLen intShim).setWidth 32
    hdr.intShim := none
    hdr.intMd := none
    hdr.intStack.preIntStack := none }

/-- `keep_int_cpu` -/
def keepIntCpu (p : Packet) : Packet :=
  { p with
    hdr.intCpu := some { identifier := INT_IDENTIFIER, cpuHdrLen := p.metadata.cpuHdrLen }
    hdr.ethernet := none
    hdr.ipv4 := none
    hdr.udp := none
    hdr.payload := none }

def intNodeIdTable (t : Tables) (p : Packet) : Packet :=
  match t.intNodeIdTable.lookup p.metadata.intNodeID with
  | some (.insert_int_node_id nodeID) => insertIntNodeId nodeID p
  | some .NoAction | none => p

/-- `const entries = { 1 : insert_int_ig_timestamp(); }` -/
def intIgTimestampTable (p : Packet) : Packet :=
  if p.metadata.intIngressTime = 1 then insertIntIgTimestamp p else p

/-- `const entries = { 1 : insert_int_eg_timestamp(); }` -/
def intEgTimestampTable (p : Packet) : Packet :=
  if p.metadata.intEgressTime = 1 then insertIntEgTimestamp p else p

def intEgIfUtilTable (t : Tables) (p : Packet) : Packet :=
  match t.intEgIfUtilTable.lookup (p.metadata.intEgIfUtil, p.stdMeta.egressPort) with
  | some (.insert_int_eg_if_util txUtil) => insertIntEgIfUtil txUtil p
  | some .NoAction | none => p

def sciAsAddrTable (t : Tables) (p : Packet) : Packet :=
  match t.sciAsAddrTable.lookup p.metadata.sciAsAddr with
  | some (.insert_sci_as_addr asAddr) => insertSciAsAddr asAddr p
  | some .NoAction | none => p

/-- `const entries = { 1 : int_refresh_length(); }` -/
def scionIntLength (p : Packet) : Packet :=
  if p.metadata.intState = 1 then intRefreshLength p else p

/-- `const entries = { (1) : keep_int_cpu(); }` with default action `delete_int`. -/
def handleCloneInstances (p : Packet) : Packet :=
  if p.stdMeta.instanceType = 1 then keepIntCpu p else deleteInt p

/-- The tables that add the fields of this hop and the new lengths. -/
def insertStack (t : Tables) (p : Packet) : Packet :=
  scionIntLength (sciAsAddrTable t (intEgIfUtilTable t (intEgTimestampTable
    (intIgTimestampTable (intNodeIdTable t p)))))

/-- `INTSwitchEgress.apply`, without the byte counter `txCounter`. -/
def apply (t : Tables) (p : Packet) : Packet :=
  if p.hdr.ethernet.isSome then
    -- `insert_int` ran
    let p := if p.hdr.udpScion.isSome ∧ p.metadata.intState = 1 then insertStack t p else p
    -- `clone_int` ran
    if p.hdr.udpScion.isSome ∧ p.metadata.intState = 0 then
      if p.hdr.intShim.isSome then handleCloneInstances p
      else if p.stdMeta.instanceType = 1 then markToDrop p
      else p
    else if p.stdMeta.instanceType = 1 then markToDrop p
    else p
  else p

end INTSwitchEgress

end ScionInt
