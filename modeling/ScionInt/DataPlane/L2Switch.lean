import ScionInt.Wire.Table
import ScionInt.DataPlane.Packet

/-!
# `L2Switch`

The learning switch of `include/l2_switch.p4`: `learn_table` decides whether the source address is
reported to the controller, `forward_table` where the packet goes.
-/

namespace ScionInt

open Wire

/-- `macLearnMsg_t` -/
structure MacLearnMsgT where
  srcAddr : BitVec 48
  ingressPort : BitVec 9
deriving DecidableEq, Inhabited

/-- The actions of `learn_table`. -/
inductive LearnAction where
  | no_action
  | learn_source
deriving DecidableEq

/-- The actions of `forward_table`. -/
inductive ForwardAction where
  | forward (port : BitVec 9)
  | flood
deriving DecidableEq

namespace L2Switch

/-- The two tables of the learning switch. -/
structure Tables where
  learnTable : Table (BitVec 48) LearnAction := { size := some 1024 }
  forwardTable : Table (BitVec 48) ForwardAction := { size := some 1024 }
deriving Inhabited

/-- `learn_source`: the digest for the controller. -/
def learnSource (p : Packet) : List MacLearnMsgT :=
  [{ srcAddr := (p.hdr.ethernet.getD default).srcAddr, ingressPort := p.stdMeta.ingressPort }]

def forward (port : BitVec 9) (p : Packet) : Packet := { p with stdMeta.egressSpec := port }

/-- `flood`: the sum of the ingress port is taken in 9 bits. -/
def flood (p : Packet) : Packet :=
  { p with stdMeta.mcastGrp := (p.stdMeta.ingressPort + 1).setWidth 16 }

def learn (t : Tables) (p : Packet) : List MacLearnMsgT :=
  match t.learnTable.lookup (p.hdr.ethernet.getD default).srcAddr with
  | some .no_action => []
  | some .learn_source | none => learnSource p

def forwardOrFlood (t : Tables) (p : Packet) : Packet :=
  match t.forwardTable.lookup (p.hdr.ethernet.getD default).dstAddr with
  | some (.forward port) => forward port p
  | some .flood | none => flood p

/-- `L2Switch.apply`: the packet and the digests for the controller. -/
def apply (t : Tables) (p : Packet) : Packet × List MacLearnMsgT :=
  if p.hdr.ethernet.isSome then (forwardOrFlood t p, learn t p) else (p, [])

end L2Switch

end ScionInt
