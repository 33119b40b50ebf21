import ScionInt.DataPlane.Switch

/-!
# `l2_switch_grpc.p4`

The learning switch on its own, `V1Switch(EthernetSwitchParser(), …, MyDeparser())`: it parses the
Ethernet header, runs `L2Switch` and emits the header again; its other controls are empty.  Its
`headers_t` is the first header of the one of `int_switch.p4`, and the target is that of `Switch`, which
here has no clones to make and no packet to drop behind the ingress control.
-/

namespace ScionInt

open Wire Wire.Parser

/-- The state of the switch. -/
structure EthernetSwitch where
  l2 : L2Switch.Tables := {}
  mcastGroups : Table (BitVec 16) (List Replica) := {}
deriving Inhabited

namespace EthernetSwitchParser

def parse_ethernet : Parser (ParserVars HeadersT) Unit := do
  -- `EthernetParser`
  let _ ← extractOut fun h (hdr : HeadersT) => { hdr with ethernet := some h }
  accept

def start : Parser (ParserVars HeadersT) Unit := parse_ethernet

end EthernetSwitchParser

namespace EthernetSwitch

/-- The packet that leaves the parser. -/
def receive (a : Arrival) : Packet :=
  match EthernetSwitchParser.start { out := {} } a.frame with
  | (_, s, rest) =>
    { hdr := s.out
      rest := rest
      stdMeta := {
        ingressPort := a.ingressPort
        packetLength := BitVec.ofNat 32 a.frame.length
        ingressGlobalTimestamp := a.ingressTimestamp } }

/-- `MyIngress`: the packet and the digests for the controller. -/
def ingress (sw : EthernetSwitch) (a : Arrival) : Packet × List MacLearnMsgT :=
  L2Switch.apply sw.l2 (receive a)

/-- The packets that leave the switch for a received frame. -/
def process (sw : EthernetSwitch) (a : Arrival) : List Packet :=
  let p := (sw.ingress a).1
  if p.stdMeta.mcastGrp ≠ 0 then
    ((sw.mcastGroups.lookup p.stdMeta.mcastGrp).getD []).map (Switch.toEgress a p REPLICATION)
  else if p.stdMeta.egressSpec ≠ DROP_PORT then
    [Switch.toEgress a p 0 { egressPort := p.stdMeta.egressSpec }]
  else []

/-- `MyDeparser` -/
def wire (p : Packet) : List Byte := emitOpt p.hdr.ethernet ++ p.rest

/-- What is sent, with the ports. -/
def sent (sw : EthernetSwitch) (a : Arrival) : List (BitVec 9 × List Byte) :=
  (sw.process a).map fun c => (c.stdMeta.egressPort, wire c)

end EthernetSwitch

end ScionInt
