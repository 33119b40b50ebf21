import ScionInt.Wire.Framing

/-!
# `tcpClient`

The client sends the length of a report and then the report itself over a TCP connection, with one call
of `boost::asio::write` each.  After an error it closes the connection and sends nothing more.  That
`boost::asio::write` either writes everything or reports an error after some of the bytes, and that the
host is little-endian, is assumed.
-/

namespace ScionInt

open Wire

/-- What becomes of the writes to the socket, by their number: `none` if everything is written, else the
number of bytes in front of the error. -/
abbrev Network := ℕ → Option ℕ

/-- A call of `boost::asio::write`. -/
structure SocketWrite where
  data : List Byte
  err : Option ℕ
deriving DecidableEq

/-- The bytes that are put on the socket. -/
def SocketWrite.written (w : SocketWrite) : List Byte :=
  match w.err with
  | none => w.data
  | some n => w.data.take n

/-- The client and what it has done with its socket. -/
structure TcpClient where
  isActive : Bool := false
  writes : List SocketWrite := []

namespace TcpClient

/-- `createClient`; `err` is what `connect` reports. -/
def createClient (err : Bool) (c : TcpClient) : Bool × TcpClient :=
  let c := if err then c else { c with isActive := true }
  (c.isActive, c)

def write (net : Network) (data : List Byte) (c : TcpClient) : Bool × TcpClient :=
  let c :=
    if c.isActive then
      { isActive := (net c.writes.length).isNone
        writes := c.writes ++ [⟨data, net c.writes.length⟩] }
    else c
  (c.isActive, c)

def send (net : Network) (report : List Byte) (c : TcpClient) : Bool × TcpClient :=
  let c :=
    if c.isActive then
      let len := BitVec.ofNat 32 report.length
      let (_, c) := c.write net (leBytes 4 len.toNat)
      let (_, c) := c.write net report
      c
    else c
  (c.isActive, c)

/-- The bytes that have been put on the socket. -/
def stream (c : TcpClient) : List Byte := c.writes.flatMap SocketWrite.written

/-- A call of `send`: the report, the writes to the socket, and what it returns. -/
structure Sent where
  report : List Byte
  writes : List SocketWrite
  result : Bool

def Sent.written (s : Sent) : List Byte := s.writes.flatMap SocketWrite.written

/-- One call of `send` after the other. -/
def sendAll (net : Network) : List (List Byte) → TcpClient → List Sent × TcpClient
  | [], c => ([], c)
  | report :: reports, c =>
    let (result, c') := c.send net report
    let (sent, c'') := c'.sendAll net reports
    (⟨report, c'.writes.drop c.writes.length, result⟩ :: sent, c'')

end TcpClient

end ScionInt
