import ScionInt.Wire.Decimal

/-!
# `addressConversion.h`

`splitScionAddress` takes an address such as `1-ff00:0:110` apart.  Every part of it goes through
`std::stoi` or `std::stoull` with `0x` in front.  `splitIpAddress` takes an address such as
`127.0.0.1:9093` apart.
-/

namespace ScionInt

open Wire

/-- The body of the loop over the parts of the AS address. -/
def addAsPart (asAddress : BitVec 64) (addressNamePart : List Char) : Except Exception (BitVec 64) := do
  let part ← stoull ('0' :: 'x' :: addressNamePart)
  pure ((asAddress <<< 16) + part)

def splitScionAddress (address : List Char) : Except Exception (BitVec 16 × BitVec 64) := do
  let (addressNamePart, addressStream) := (getline '-' address).getD ([], [])
  let isdAddress ← stoi ('0' :: 'x' :: addressNamePart)
  let asAddress ← (getlines ':' addressStream).foldlM addAsPart 0
  pure (isdAddress.setWidth 16, asAddress)

/-- An empty address leaves `ipAddress` and `port` as they are. -/
def splitIpAddress (address ipAddress : List Char) (port : BitVec 16) :
    Except Exception (List Char × BitVec 16) :=
  if 0 < address.length then do
    let (ipAddress, addrStr) := (getline ':' address).getD (ipAddress, [])
    let (portStr, _) := (getline ':' addrStr).getD ([], [])
    let port ← stoiDec portStr
    pure (ipAddress, port.setWidth 16)
  else pure (ipAddress, port)

end ScionInt
