import ScionInt.DataPlane.Checksum
import ScionInt.DataPlane.Equiv.IntSwitch
import ScionInt.DataPlane.Equiv.Parser

/-!
# The INT actions on a UDP-over-SCION frame

`addLen`, `setPort` and `withChecksums` are the three ways in which the INT actions and the checksum
stage change the headers of a `ScionFrame`.  `hdr_insertInt`, `hdr_insertStack`, `hdr_deleteInt` and
`MyComputeChecksum_withInt` say what each action does to a frame in these terms.  The three changes
commute and two of a kind combine, so that a run of actions is computed on the frame alone.
-/

namespace ScionInt

open Wire

/-! ### The bytes around the checksums -/

/-- The checksummed part of an IPv4 header in front of its checksum. -/
def ipv4Front (ipv4 : Ipv4H) : List Byte :=
  emitFields [4, 4, 8, 16, 16, 3, 13, 8] (ipv4.version, ipv4.ihl, ipv4.diffserv, ipv4.totalLen,
    ipv4.identification, ipv4.flags, ipv4.fragOffset, ipv4.ttl, ())

/-- The bytes of an IPv4 header around its checksum. -/
theorem emit_ipv4 (h : Ipv4H) :
    emit h = ipv4Front h ++ (emitFields [8] (h.protocol, ()) ++
      (emitFields [16] (h.hdrChecksum, ()) ++ emitFields [32, 32] (h.srcAddr, h.dstAddr, ()))) := by
  rw [ipv4Front, ← emitFields_append _ _ rfl rfl, ← emitFields_append _ _ rfl rfl,
    ← emitFields_append _ _ rfl rfl, emit_eq_emitFields]
  rfl

/-- The bytes of a UDP header around its length and its checksum. -/
theorem emit_udp (h : UdpH) :
    emit h = emitFields [16, 16] (h.srcPort, h.dstPort, ()) ++ (emitFields [16] (h.len, ()) ++
      emitFields [16] (h.checksum, ())) := by
  rw [← emitFields_append _ _ rfl rfl, ← emitFields_append _ _ rfl rfl, emit_eq_emitFields]
  rfl

namespace ScionFrame

/-! ### Changes of a frame -/

/-- Add `n` to the four length fields. -/
def addLen (q : ScionFrame) (n : BitVec 16) : ScionFrame :=
  { q with
    ipv4 := { q.ipv4 with totalLen := q.ipv4.totalLen + n }
    udp := { q.udp with len := q.udp.len + n }
    scionCommon := { q.scionCommon with payloadLen := q.scionCommon.payloadLen + n }
    udpScion := { q.udpScion with len := q.udpScion.len + n }
    addr_matches := ⟨q.addr_matches.common, q.addr_matches.dst, q.addr_matches.src⟩ }

/-- Replace the destination port of the SCION-UDP header. -/
def setPort (q : ScionFrame) (port : BitVec 16) : ScionFrame :=
  { q with udpScion := { q.udpScion with dstPort := port } }

/-- Replace the IPv4 header checksum and the outer UDP checksum. -/
def withChecksums (q : ScionFrame) (hdrChecksum checksum : BitVec 16) : ScionFrame :=
  { q with
    ipv4 := { q.ipv4 with hdrChecksum := hdrChecksum }
    udp := { q.udp with checksum := checksum } }

variable (q : ScionFrame)

@[simp] theorem addLen_addLen (m n : BitVec 16) : (q.addLen m).addLen n = q.addLen (m + n) := by
  simp only [addLen, BitVec.add_assoc]

@[simp] theorem addLen_zero : q.addLen 0 = q := by
  simp only [addLen, BitVec.ofNat_eq_ofNat, BitVec.add_zero]

@[simp] theorem setPort_setPort (m n : BitVec 16) : (q.setPort m).setPort n = q.setPort n := rfl

@[simp] theorem setPort_self : q.setPort q.udpScion.dstPort = q := rfl

@[simp] theorem withChecksums_withChecksums (a b a' b' : BitVec 16) :
    (q.withChecksums a b).withChecksums a' b' = q.withChecksums a' b' := rfl

theorem setPort_addLen (m n : BitVec 16) : (q.addLen m).setPort n = (q.setPort n).addLen m := rfl

theorem setPort_withChecksums (a b n : BitVec 16) :
    (q.withChecksums a b).setPort n = (q.setPort n).withChecksums a b := rfl

theorem addLen_withChecksums (a b n : BitVec 16) :
    (q.withChecksums a b).addLen n = (q.addLen n).withChecksums a b := rfl

@[simp] theorem length_emitScion_addLen (n : BitVec 16) :
    (q.addLen n).emitScion.length = q.emitScion.length := by
  simp only [length_emitScion, addLen]

@[simp] theorem length_emitScion_setPort (n : BitVec 16) :
    (q.setPort n).emitScion.length = q.emitScion.length := by
  simp only [length_emitScion, setPort]

@[simp] theorem length_emitScion_withChecksums (a b : BitVec 16) :
    (q.withChecksums a b).emitScion.length = q.emitScion.length := rfl

end ScionFrame

/-! ### The actions -/

/-- The shim that `insert_int` writes. -/
def sourceShim (port : BitVec 16) : IntShimH where
  type := INTType.MD
  npt := 0x01
  r := 0x00
  length := 0x03
  udpPort := port

/-- The INT-MD header that `insert_int` writes. -/
def sourceMd (instructionBits domainBits : BitVec 16) : IntMdH where
  version := 0x02
  discard := 0x00
  exceededHopCount := 0x00
  mtuExceeded := 0x00
  reserved := 0x00
  hopML := 0x00
  remainingHopCount := NUM_INTER_HOPS
  instructionBitmap := instructionBits
  domainID := if domainBits = 0x0000 then 0x0000 else SCION_DOMAIN_ID
  domainInstructions := domainBits
  domainFlags := 0x0000

/-- A shim whose length grows by `n` words. -/
def IntShimH.addWords (intShim : IntShimH) (n : ℕ) : IntShimH :=
  { intShim with length := intShim.length + BitVec.ofNat 8 n }

/-- An INT-MD header whose hop length grows by `n` words. -/
def IntMdH.addWords (intMd : IntMdH) (n : ℕ) : IntMdH :=
  { intMd with hopML := intMd.hopML + BitVec.ofNat 5 n }

section

variable {p : Packet} {q : ScionFrame} {x : IntHeadersT} {payload : Option PayloadH}

theorem hdr_insertInt (hp : p.hdr = q.withInt x payload) (instructionBits domainBits : BitVec 16) :
    (INTSwitchIngress.insertInt instructionBits domainBits p).hdr =
      (q.setPort UDP_PORT).withInt ⟨some (sourceShim q.udpScion.dstPort),
        some (sourceMd instructionBits domainBits), x.intStack⟩ payload := by
  rw [INTSwitchIngress.insertInt, hp]
  rfl

open INTSwitchEgress

/-- The number of words of a record, as `int_refresh_length` computes it. -/
theorem refresh_words (t : Tables) (p : Packet) :
    ((16 : BitVec 16) + BitVec.ofNat 16 (hopRecord t p).emitHop.length - 0x10) / 4 =
      BitVec.ofNat 16 (words (hopRecord t p)) := by
  obtain ⟨hlen, hle⟩ := length_hopRecord t p
  apply BitVec.eq_of_toNat_eq
  rw [hlen, BitVec.add_comm, BitVec.add_sub_cancel, BitVec.toNat_udiv, BitVec.toNat_ofNat,
    BitVec.toNat_ofNat]
  show 4 * words (hopRecord t p) % 2 ^ 16 / 4 = words (hopRecord t p) % 2 ^ 16
  omega

theorem setWidth_ofNat_of_le {m n : ℕ} (h : m ≤ n) (k : ℕ) :
    (BitVec.ofNat n k).setWidth m = BitVec.ofNat m k := by
  apply BitVec.eq_of_toNat_eq
  rw [BitVec.toNat_setWidth, BitVec.toNat_ofNat, BitVec.toNat_ofNat,
    Nat.mod_mod_of_dvd k (pow_dvd_pow 2 h)]

/-- The refresh of the lengths on a frame. -/
theorem hdr_intRefreshLength (hp : p.hdr = q.withInt x payload) :
    (intRefreshLength p).hdr = (q.addLen p.metadata.addLen).withInt
      ⟨x.intShim.map fun h =>
          { h with length := h.length + ((p.metadata.addLen - 0x10) / 4).setWidth 8 },
        x.intMd.map fun h =>
          { h with hopML := h.hopML + ((p.metadata.addLen - 0x10) / 4).setWidth 5 },
        x.intStack⟩ payload := by
  rw [intRefreshLength, hp]
  rfl

/-- The egress tables on a frame that `insert_int` has prepared. -/
theorem hdr_insertStack (t : Tables) {intShim : IntShimH} {intMd : IntMdH}
    {v : Option PreIntStackH}
    (hp : p.hdr = q.withInt ⟨some intShim, some intMd, { preIntStack := v }⟩ payload)
    (hstate : p.metadata.intState = 1) (haddLen : p.metadata.addLen = 0x10) :
    (insertStack t p).hdr =
      (q.addLen (16 + BitVec.ofNat 16 (hopRecord t p).emitHop.length)).withInt
        ⟨some (intShim.addWords (words (hopRecord t p))),
          some (intMd.addWords (words (hopRecord t p))),
          { hopRecord t p with preIntStack := v }⟩ payload := by
  have hstack : ({ p with
      hdr.intStack := { hopRecord t p with preIntStack := v }
      metadata.addLen := p.metadata.addLen + BitVec.ofNat 16 (hopRecord t p).emitHop.length } :
        Packet).hdr = q.withInt ⟨some intShim, some intMd, { hopRecord t p with preIntStack := v }⟩
          payload := by
    dsimp only
    rw [hp]
    rfl
  rw [insertStack_eq t p (v := v) (by rw [hp]; rfl) hstate, hdr_intRefreshLength hstack]
  dsimp only
  rw [haddLen, Option.map_some, Option.map_some, refresh_words, setWidth_ofNat_of_le (by omega),
    setWidth_ofNat_of_le (by omega)]
  rfl

theorem toNat_subLen (intShim : IntShimH) :
    (subLen intShim).toNat = 4 + 4 * intShim.length.toNat := by
  have hlt : intShim.length.toNat < 2 ^ 8 := intShim.length.isLt
  simp only [subLen, BitVec.toNat_add, BitVec.toNat_mul, BitVec.toNat_setWidth,
    BitVec.ofNat_eq_ofNat, BitVec.toNat_ofNat]
  omega

/-- What `delete_int` subtracts for shim, INT-MD and a stack of `w` words. -/
theorem subLen_of_length {intShim : IntShimH} {w : ℕ} (h : intShim.length.toNat = 3 + w) :
    subLen intShim = BitVec.ofNat 16 (16 + 4 * w) := by
  have hsum : 16 + 4 * w = (subLen intShim).toNat := by
    rw [toNat_subLen]
    omega
  rw [hsum, BitVec.ofNat_toNat, BitVec.setWidth_eq]

theorem hdr_deleteInt {intShim : IntShimH} {intMd : Option IntMdH} {v : Option PreIntStackH}
    (hp : p.hdr = q.withInt ⟨some intShim, intMd, { preIntStack := v }⟩ payload) :
    (deleteInt p).hdr =
      ((q.setPort intShim.udpPort).addLen (-subLen intShim)).withInt {} payload := by
  rw [deleteInt, hp]
  simp only [BitVec.sub_eq_add_neg]
  rfl

theorem updateIpv4Checksum_eq {hdr : HeadersT} {ipv4 : Ipv4H} (hipv4 : hdr.ipv4 = some ipv4) :
    updateIpv4Checksum hdr =
      { hdr with ipv4 := some { ipv4 with hdrChecksum := csum16 (ipv4ChecksumData ipv4) } } := by
  rw [updateIpv4Checksum, hipv4, Option.map_some]

theorem updateUdpChecksum_eq {hdr : HeadersT} {ipv4 : Ipv4H} {udp : UdpH}
    (hipv4 : hdr.ipv4 = some ipv4) (hudp : hdr.udp = some udp) (rest : List Byte) :
    updateUdpChecksum hdr rest = { hdr with
      udp := some { udp with
        checksum := if udp.checksum = 0 then 0
          else csum16 (udpChecksumData ipv4 udp hdr rest) } } := by
  rw [updateUdpChecksum, hudp, hipv4, Option.map_some, Option.getD_some]
  split_ifs with h0
  · rw [← h0]
  · rfl

/-- The two updates of the checksum stage; neither reads the IPv4 header checksum. -/
theorem MyComputeChecksum_eq {hdr : HeadersT} {ipv4 : Ipv4H} {udp : UdpH}
    (hipv4 : hdr.ipv4 = some ipv4) (hudp : hdr.udp = some udp) (rest : List Byte) :
    MyComputeChecksum hdr rest = { hdr with
      ipv4 := some { ipv4 with hdrChecksum := csum16 (ipv4ChecksumData ipv4) }
      udp := some { udp with
        checksum := if udp.checksum = 0 then 0
          else csum16 (udpChecksumData ipv4 udp hdr rest) } } := by
  have hdata : ∀ c : BitVec 16, udpChecksumData { ipv4 with hdrChecksum := c } udp
      { hdr with ipv4 := some { ipv4 with hdrChecksum := c } } rest =
      udpChecksumData ipv4 udp hdr rest := fun _ => rfl
  have hudp' : (updateIpv4Checksum hdr).udp = some udp := hudp
  have hipv4' := congrArg HeadersT.ipv4 (updateIpv4Checksum_eq hipv4)
  rw [MyComputeChecksum, updateUdpChecksum_eq hipv4' hudp', updateIpv4Checksum_eq hipv4, hdata]

theorem withInt_withChecksums (q : ScionFrame) (x : IntHeadersT) (payload : Option PayloadH)
    (hdrChecksum checksum : BitVec 16) :
    (q.withChecksums hdrChecksum checksum).withInt x payload = { q.withInt x payload with
      ipv4 := some { q.ipv4 with hdrChecksum := hdrChecksum }
      udp := some { q.udp with checksum := checksum } } := rfl

theorem MyComputeChecksum_withInt (q : ScionFrame) (x : IntHeadersT) (payload : Option PayloadH)
    (rest : List Byte) :
    ∃ hdrChecksum checksum : BitVec 16, MyComputeChecksum (q.withInt x payload) rest =
      (q.withChecksums hdrChecksum checksum).withInt x payload := by
  have hipv4 : (q.withInt x payload).ipv4 = some q.ipv4 := rfl
  have hudp : (q.withInt x payload).udp = some q.udp := rfl
  simp only [withInt_withChecksums, MyComputeChecksum_eq hipv4 hudp rest]
  exact ⟨_, _, rfl⟩

end

end ScionInt
