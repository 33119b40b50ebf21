import ScionInt.ControlPlane.ReadIntTable
import ScionInt.ControlPlane.Run
import ScionInt.ControlPlane.TcpClient

/-!
# The constructors of the controllers

`main` constructs the controllers of `int_switch` from the P4Info message and its arguments.  Each of them
looks up an identifier by its name; `IntController` also reads the address of its AS and the INT table, and
connects to the receiver of the reports if there is one.  `boost::asio::ip::make_address` and what becomes
of the connection are parameters.
-/

namespace ScionInt

open Wire

/-- `p4::config::v1::Preamble` -/
structure Preamble where
  id : BitVec 32
  name : String
deriving DecidableEq

/-- `p4::config::v1::P4Info` -/
structure P4Info where
  counters : List Preamble := []
  digests : List Preamble := []

/-- The loop over the counters or the digests, with `break` at the one with the name; `id` is the value of
the attribute in front of the loop. -/
def Preamble.idOf (preambles : List Preamble) (name : String) (id : BitVec 32) : BitVec 32 :=
  ((preambles.find? fun preamble => preamble.name = name).map Preamble.id).getD id

namespace MacLearningCtrl

def DIGEST_MAC_LEARN_NAME : String := "macLearnMsg_t"

/-- The constructor of `MacLearningCtrl`.  `macLearnDigestId` has no initial value: it is what happens to be
in the memory. -/
def construct (memory : BitVec 32) (p4Info : P4Info) : Except Exception (BitVec 32) :=
  let macLearnDigestId := Preamble.idOf p4Info.digests DIGEST_MAC_LEARN_NAME memory
  if macLearnDigestId = 0 then
    .error (.runtimeError ("P4Info does not contain a digest of the name " ++ DIGEST_MAC_LEARN_NAME))
  else .ok macLearnDigestId

end MacLearningCtrl

namespace IntController

def COUNTER_TX_BYTE_NAME : String := "txCounter"

/-- `tcp::endpoint` -/
structure Endpoint (Address : Type) where
  addr : Address
  port : BitVec 16
deriving DecidableEq

/-- The attributes that the constructor sets, and the endpoint to which it has connected. -/
structure Attributes (Address : Type) where
  counterTxId : BitVec 32
  config : Config
  tcpSocket : TcpClient
  endpoint : Option (Endpoint Address)

section

variable {Address : Type} (makeAddress : List Char → Except Exception Address)
  (connect : Endpoint Address → Bool)

/-- The part of the constructor that creates the TCP client; `connect` tells if `createClient` gets an
error. -/
def createTcpSocket (tcpAddress : List Char) :
    Except Exception (TcpClient × Option (Endpoint Address)) :=
  if 0 < tcpAddress.length then do
    let (ipAddr, port) ← splitIpAddress tcpAddress [] 0
    let addr ← makeAddress ipAddr
    let ep : Endpoint Address := ⟨addr, port⟩
    let (_, tcpSocket) := TcpClient.createClient (connect ep) {}
    pure (tcpSocket, some ep)
  else pure ({}, none)

/-- The constructor of `IntController`. -/
def construct (p4Info : P4Info) (hostASStr : List Char) (nodeId : BitVec 32)
    (intTable : Option (List Char)) (tcpAddress : List Char) : Except Exception (Attributes Address) := do
  let counterTxId := Preamble.idOf p4Info.counters COUNTER_TX_BYTE_NAME 0
  if counterTxId = 0 then
    throw (.runtimeError ("P4Info does not contain a counter of the name " ++ COUNTER_TX_BYTE_NAME))
  let _ ← splitScionAddress hostASStr
  let (hostISD, hostAS) ← splitScionAddress hostASStr
  let (tcpSocket, endpoint) ← createTcpSocket makeAddress connect tcpAddress
  let lists ← readIntTable intTable {}
  pure {
    counterTxId, tcpSocket, endpoint
    config := { hostISD, hostAS, nodeID := nodeId, intTable := lists.lines } }

end

end IntController

/-- The constructors that `main` calls; the address of the receiver is the argument that may be missing. -/
def ControlPlane.construct {Address : Type} (makeAddress : List Char → Except Exception Address)
    (connect : IntController.Endpoint Address → Bool) (memory : BitVec 32) (p4Info : P4Info)
    (asAddress : List Char) (nodeId : BitVec 32) (intTable tcpAddress : Option (List Char)) :
    Except Exception (BitVec 32 × IntController.Attributes Address) := do
  let macLearnDigestId ← MacLearningCtrl.construct memory p4Info
  let attributes ← IntController.construct makeAddress connect p4Info asAddress nodeId intTable
    (tcpAddress.getD [])
  pure (macLearnDigestId, attributes)

end ScionInt
