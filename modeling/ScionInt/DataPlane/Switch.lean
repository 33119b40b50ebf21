import ScionInt.DataPlane.Parser
import ScionInt.DataPlane.L2Switch
import ScionInt.DataPlane.IntSwitch
import ScionInt.DataPlane.Checksum

/-!
# The switch

`V1Switch(IntSwitchParser(), MyVerifyChecksum(), MyIngress(), MyEgress(), MyComputeChecksum(),
MyDeparser())` on the target BMv2, whose part between the controls is modelled as follows.

* A packet whose parser rejected is processed with the headers extracted so far.
* User metadata is zero when a packet enters the parser.
* A clone requested by the ingress control is parsed again from the received bytes; it keeps only the
  metadata in field list 1 (`cpuHdrLen`), has instance type 1 and goes to every replica of the clone
  session.
* A nonzero `mcast_grp` sends one replica of instance type 5 to every port of the group; otherwise
  the packet goes to `egress_spec` unless that is the drop port.
* `egress_spec` is not the drop port when the egress control starts, and a packet for which it is at
  the end is dropped.
-/

namespace ScionInt

open Wire

/-- A replica of a multicast group or of a clone session. -/
structure Replica where
  egressPort : BitVec 9
  inst : BitVec 16 := 0
deriving DecidableEq, Inhabited

/-- The state of a switch: the tables of the two ingress controls and of the egress control and the
packet replication engine. -/
structure Switch where
  l2 : L2Switch.Tables := {}
  scionInt : INTSwitchIngress.ScionIntTable := {}
  egress : INTSwitchEgress.Tables := {}
  mcastGroups : Table (BitVec 16) (List Replica) := {}
  cloneSessions : Table (BitVec 32) (List Replica) := {}
deriving Inhabited

/-- A frame received on a port.  The egress timestamp may differ from copy to copy. -/
structure Arrival where
  ingressPort : BitVec 9
  frame : List Byte
  ingressTimestamp : BitVec 48
  egressTimestamp : BitVec 32 → Replica → BitVec 48

/-- `PKT_INSTANCE_TYPE_INGRESS_CLONE` -/
def INGRESS_CLONE : BitVec 32 := 1
/-- `PKT_INSTANCE_TYPE_REPLICATION` -/
def REPLICATION : BitVec 32 := 5

namespace Switch

/-- The packet that leaves the parser. -/
def receive (a : Arrival) : Packet :=
  let parsed := parse a.frame
  { hdr := parsed.hdr
    metadata := parsed.metadata
    rest := parsed.rest
    stdMeta := {
      ingressPort := a.ingressPort
      packetLength := BitVec.ofNat 32 a.frame.length
      ingressGlobalTimestamp := a.ingressTimestamp } }

/-- The result of the ingress control. -/
structure IngressResult where
  packet : Packet
  clone : Option CloneSpec
  digests : List MacLearnMsgT

/-- `MyIngress` -/
def myIngress (sw : Switch) (p : Packet) : IngressResult :=
  let l2 := L2Switch.apply sw.l2 p
  let int := INTSwitchIngress.apply sw.scionInt l2.1
  ⟨int.1, int.2, l2.2⟩

/-- The result of the ingress control for a received frame. -/
def ingress (sw : Switch) (a : Arrival) : IngressResult :=
  sw.myIngress (MyVerifyChecksum (receive a))

/-- A copy of a packet on its way to an egress port. -/
def toEgress (a : Arrival) (p : Packet) (instanceType : BitVec 32) (r : Replica) : Packet :=
  { p with
    stdMeta.instanceType := instanceType
    stdMeta.egressPort := r.egressPort
    stdMeta.egressSpec := 0
    stdMeta.packetLength := BitVec.ofNat 32 a.frame.length
    stdMeta.egressGlobalTimestamp := a.egressTimestamp instanceType r }

/-- The ingress clones of a frame: the received bytes parsed again. -/
def clones (sw : Switch) (a : Arrival) : List Packet :=
  match (sw.ingress a).clone with
  | none => []
  | some spec =>
    -- the headers are those of the received frame, not of the ingress control
    let p := { receive a with
      metadata.cpuHdrLen := (sw.ingress a).packet.metadata.cpuHdrLen }
    ((sw.cloneSessions.lookup spec.session).getD []).map (toEgress a p INGRESS_CLONE)

/-- The copies of the frame itself: the replicas of its multicast group or the unicast packet. -/
def originals (sw : Switch) (a : Arrival) : List Packet :=
  let p := (sw.ingress a).packet
  if p.stdMeta.mcastGrp ≠ 0 then
    ((sw.mcastGroups.lookup p.stdMeta.mcastGrp).getD []).map (toEgress a p REPLICATION)
  else if p.stdMeta.egressSpec ≠ DROP_PORT then
    [toEgress a p 0 { egressPort := p.stdMeta.egressSpec }]
  else []

/-- `MyEgress` and the drop decision after it. -/
def myEgress (sw : Switch) (p : Packet) : Option Packet :=
  let p := INTSwitchEgress.apply sw.egress p
  if p.stdMeta.egressSpec = DROP_PORT then none else some p

/-- The packets that leave the switch for a received frame; `Packet.wire` is what is sent. -/
def process (sw : Switch) (a : Arrival) : List Packet :=
  (sw.clones a ++ sw.originals a).filterMap sw.myEgress

end Switch

/-- A packet that is an ingress clone, the copy for the CPU port. -/
def Packet.isClone (p : Packet) : Prop := p.stdMeta.instanceType = INGRESS_CLONE

instance (p : Packet) : Decidable p.isClone := inferInstanceAs (Decidable (_ = _))

end ScionInt
