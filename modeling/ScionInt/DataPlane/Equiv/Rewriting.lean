import ScionInt.DataPlane.Equiv.Deletion
import ScionInt.DataPlane.Equiv.Passing

/-!
# The datagram of a copy

What a switch does to the outer UDP datagram of a frame is an `UdpEdit`: it adds a number to the lengths and
replaces the bytes behind the UDP header.  `Switch.edit` says which edit it is, from the frame, the bitmaps,
the tables, and the port and the time at which a copy leaves.

Main results: `Switch.wire_edit`, the bytes of a copy as those of the frame with this edit and the checksums
of the checksum stage, and `Switch.yields`, the fields of the outer headers that a receiver finds in them.
-/

namespace ScionInt

open Wire INTSwitchEgress

/-! ### Edits -/

/-- `grow` is added to the length of the datagram, and the bytes `before` behind the UDP header become
`after`. -/
structure UdpEdit where
  grow : BitVec 16 := 0
  before : List Byte := []
  after : List Byte := []
deriving DecidableEq

/-- The outer UDP length after the edit. -/
def UdpEdit.len (e : UdpEdit) (frame : List Byte) : ℕ := (word 38 frame + e.grow.toNat) % 2 ^ 16

/-- The bytes behind the outer UDP header after the edit. -/
def UdpEdit.behind (e : UdpEdit) (frame : List Byte) : List Byte :=
  e.after ++ frame.drop (42 + e.before.length)

/-- The headers with another SCION-UDP port, `n` added to the lengths of the SCION headers, and other INT
headers. -/
def HeadersT.rewrite (hdr : HeadersT) (port n : BitVec 16) (x : IntHeadersT) : HeadersT :=
  { hdr with
    scionCommon := hdr.scionCommon.map fun h => { h with payloadLen := h.payloadLen + n }
    udpScion := hdr.udpScion.map fun h => { h with dstPort := port, len := h.len + n }
    intShim := x.intShim
    intMd := x.intMd
    intStack := x.intStack }

/-- `insert_int` and the egress tables: a new shim and a new INT-MD header, the record behind the stack that
is there, and 16 bytes and the record on the lengths. -/
def HeadersT.insertEdit (hdr : HeadersT) (instructionBits domainBits : BitVec 16) (record : IntStackT) :
    UdpEdit where
  grow := BitVec.ofNat 16 (16 + 4 * words record)
  before := hdr.emitBehindUdp
  after := (hdr.rewrite UDP_PORT (BitVec.ofNat 16 (16 + 4 * words record))
    ⟨some ((sourceShim (hdr.udpScion.getD default).dstPort).addWords (words record)),
      some ((sourceMd instructionBits domainBits).addWords (words record)),
      { record with preIntStack := hdr.intStack.preIntStack }⟩).emitBehindUdp

/-- `delete_int`: no INT headers, and what the shim announces off the lengths. -/
def HeadersT.deleteEdit (hdr : HeadersT) (intShim : IntShimH) : UdpEdit where
  grow := -BitVec.ofNat 16 (4 + 4 * intShim.length.toNat)
  before := hdr.emitBehindUdp
  after := (hdr.rewrite intShim.udpPort (-BitVec.ofNat 16 (4 + 4 * intShim.length.toNat)) {}).emitBehindUdp

/-- What an action of `scion_int` does to the datagram, where `record` is the record for two bitmaps. -/
def HeadersT.edit (hdr : HeadersT) (record : BitVec 16 → BitVec 16 → IntStackT) :
    Option ScionIntAction → UdpEdit
  | some (.insert_int instructionBits domainBits) =>
    hdr.insertEdit instructionBits domainBits (record instructionBits domainBits)
  | some .clone_int => hdr.intShim.elim {} hdr.deleteEdit
  | some .NoAction | none => {}

namespace Switch

/-- The record that is added to a copy of a frame. -/
def record (sw : Switch) (a : Arrival) (instructionBits domainBits : BitVec 16) (egressPort : BitVec 9)
    (egressTimestamp : BitVec 48) : IntStackT :=
  hopRecord sw.egress {
    metadata := insertMetadata {} instructionBits domainBits
    stdMeta := {
      egressPort := egressPort
      ingressGlobalTimestamp := a.ingressTimestamp
      egressGlobalTimestamp := egressTimestamp } }

/-- What becomes of the outer UDP datagram of a frame in a copy that leaves on `egressPort`. -/
def edit (sw : Switch) (a : Arrival) (egressPort : BitVec 9) (egressTimestamp : BitVec 48) : UdpEdit :=
  let hdr := (parse a.frame).hdr
  if hdr.udpScion.isSome then
    hdr.edit (fun instructionBits domainBits =>
      sw.record a instructionBits domainBits egressPort egressTimestamp) (sw.scionInt.lookup hdr.scionDst)
  else {}

end Switch

/-! ### The headers of a copy -/

theorem ScionFrame.emitBehindUdp_withInt (q : ScionFrame) (x : IntHeadersT) (payload : Option PayloadH) :
    (q.withInt x payload).emitBehindUdp = q.emitScion ++ (x.emit ++ VarBits.emitOpt payload) := by
  simp [withInt, hdr, HeadersT.emitBehindUdp, IntHeadersT.emit, emitScion]

theorem ScionFrame.rewrite_withInt (q : ScionFrame) (x x' : IntHeadersT) (payload : Option PayloadH)
    (port n : BitVec 16) : ((q.withInt x payload).rewrite port n x').emitBehindUdp =
      ((q.setPort port).addLen n).emitScion ++ (x'.emit ++ VarBits.emitOpt payload) := by
  rw [← emitBehindUdp_withInt]
  rfl

/-- A packet with the headers and the rest of a frame after an edit. -/
structure EditedBy (hdr : HeadersT) (rest : List Byte) (e : UdpEdit) (p : Packet) : Prop where
  ethernet : p.hdr.ethernet = hdr.ethernet
  ipv4 : p.hdr.ipv4 = hdr.ipv4.map fun h => { h with totalLen := h.totalLen + e.grow }
  udp : p.hdr.udp = hdr.udp.map fun h => { h with len := h.len + e.grow }
  intCpu : p.hdr.intCpu = hdr.intCpu
  behind : ∃ behind, hdr.emitBehindUdp ++ rest = e.before ++ behind ∧
    p.hdr.emitBehindUdp ++ p.rest = e.after ++ behind
  parity : e.before.length % 2 = e.after.length % 2

/-- The INT headers in front of the stack are whole words. -/
theorem IntHeadersT.parity_emit (intShim : Option IntShimH) (intMd : Option IntMdH) (s : IntStackT) :
    (IntHeadersT.emit ⟨intShim, intMd, s⟩).length % 2 = s.emit.length % 2 := by
  simp only [IntHeadersT.emit, List.length_append, length_emitOpt, IntShimH.size_eq, IntMdH.size_eq]
  split_ifs
  all_goals omega

theorem parity_withRecord {record : IntStackT} (v : Option PreIntStackH)
    (hrecord : record.emitHop.length % 2 = 0) :
    ({ preIntStack := v } : IntStackT).emit.length % 2 =
      ({ record with preIntStack := v } : IntStackT).emit.length % 2 := by
  have hstack : ({ record with preIntStack := v } : IntStackT).emit =
      VarBits.emitOpt v ++ record.emitHop := rfl
  have hempty : ({ preIntStack := v } : IntStackT).emit = VarBits.emitOpt v := List.append_nil _
  rw [hstack, hempty, List.length_append]
  omega

/-- The edit that changes nothing. -/
theorem editedBy_self {hdr : HeadersT} {rest : List Byte} {p : Packet} (hhdr : p.hdr = hdr)
    (hrest : p.rest = rest) : EditedBy hdr rest {} p := by
  subst hhdr hrest
  have hzero (x : BitVec 16) : x + 0 = x := BitVec.add_zero x
  refine ⟨rfl, ?_, ?_, rfl, ⟨_, rfl, rfl⟩, rfl⟩
  · simp only [hzero, Option.map_id']
  · simp only [hzero, Option.map_id']

/-- The edit of a frame whose headers are known. -/
theorem editedBy_withInt {q : ScionFrame} {x x' : IntHeadersT} {payload : Option PayloadH}
    {port n : BitVec 16} {rest : List Byte} {p : Packet}
    (hp : p.hdr = ((q.setPort port).addLen n).withInt x' payload) (hrest : p.rest = rest)
    (hparity : x.emit.length % 2 = x'.emit.length % 2) :
    EditedBy (q.withInt x payload) rest ⟨n, (q.withInt x payload).emitBehindUdp,
      ((q.withInt x payload).rewrite port n x').emitBehindUdp⟩ p := by
  subst hrest
  refine ⟨?_, ?_, ?_, ?_, ⟨p.rest, rfl, ?_⟩, ?_⟩
  · rw [hp]
    rfl
  · rw [hp]
    rfl
  · rw [hp]
    rfl
  · rw [hp]
    rfl
  · rw [hp, ScionFrame.rewrite_withInt, ScionFrame.emitBehindUdp_withInt]
  · dsimp only
    rw [ScionFrame.rewrite_withInt, ScionFrame.emitBehindUdp_withInt]
    simp only [List.length_append, ScionFrame.length_emitScion_addLen, ScionFrame.length_emitScion_setPort]
    omega

namespace Switch

variable {sw : Switch} {a : Arrival} {c : Packet}

/-- The record of a copy depends on the bitmaps, the port and the timestamps only. -/
theorem hopRecord_eq_record {p : Packet} {instructionBits domainBits : BitVec 16} {cpuHdrLen : BitVec 64}
    {stackLen : BitVec 32}
    (hmeta : p.metadata = insertMetadata { cpuHdrLen := cpuHdrLen, intStackLen := stackLen }
      instructionBits domainBits)
    (hingress : p.stdMeta.ingressGlobalTimestamp = a.ingressTimestamp) :
    hopRecord sw.egress p = sw.record a instructionBits domainBits p.stdMeta.egressPort
      p.stdMeta.egressGlobalTimestamp := by
  unfold record hopRecord
  rw [hmeta, hingress]
  rfl

/-- A copy of a frame on which `insert_int` ran. -/
theorem editedBy_insert {q : ScionFrame} {intShim : Option IntShimH} {intMd : Option IntMdH}
    {v : Option PreIntStackH} {payload : Option PayloadH} {cpuHdrLen : BitVec 64} {stackLen : BitVec 32}
    {instructionBits domainBits : BitVec 16}
    (hparse : (parse a.frame).hdr = q.withInt ⟨intShim, intMd, { preIntStack := v }⟩ payload)
    (hmeta : (parse a.frame).metadata = { cpuHdrLen := cpuHdrLen, intStackLen := stackLen })
    (hentry : sw.scionInt.lookup q.dst = some (.insert_int instructionBits domainBits))
    (hc : c ∈ sw.process a) :
    EditedBy (parse a.frame).hdr (parse a.frame).rest ((parse a.frame).hdr.insertEdit instructionBits
      domainBits (sw.record a instructionBits domainBits c.stdMeta.egressPort
        c.stdMeta.egressGlobalTimestamp)) c := by
  obtain ⟨p, r, rfl, hhdr, hrest, hpmeta, hingress, -⟩ := process_insert hparse hentry hc
  have hstate : p.metadata.intState = 1 := by rw [hpmeta]; rfl
  have haddLen : p.metadata.addLen = 0x10 := by rw [hpmeta]; rfl
  rw [hmeta] at hpmeta
  -- the egress tables change neither the port nor the timestamps
  have hrecord : sw.record a instructionBits domainBits
      (insertStack sw.egress p).stdMeta.egressPort
      (insertStack sw.egress p).stdMeta.egressGlobalTimestamp = hopRecord sw.egress p := by
    obtain ⟨n, hstd⟩ := stdMeta_insertStack sw.egress p
    rw [hstd]
    exact (hopRecord_eq_record hpmeta hingress).symm
  obtain ⟨hlen, -⟩ := length_hopRecord sw.egress p
  have hemit := emit_hopRecord sw.egress p
  have hinsert := hdr_insertStack sw.egress hhdr hstate haddLen
  have hrest' : (insertStack sw.egress p).rest = (parse a.frame).rest := by
    rw [insertStack_eq sw.egress p (v := v) (by rw [hhdr]; rfl) hstate]
    exact hrest
  rw [hrecord]
  generalize hopRecord sw.egress p = record at *
  have hgrow : (16 : BitVec 16) + BitVec.ofNat 16 record.emitHop.length =
      BitVec.ofNat 16 (16 + 4 * words record) := by
    rw [hlen, BitVec.ofNat_add]
    rfl
  rw [hgrow] at hinsert
  rw [hparse]
  refine editedBy_withInt hinsert hrest' ?_
  rw [IntHeadersT.parity_emit, IntHeadersT.parity_emit]
  exact parity_withRecord v (by omega)

/-- A copy of a frame whose INT headers `delete_int` has removed. -/
theorem editedBy_delete {intShim : IntShimH} (hrun : sw.RunsClone a)
    (hshim : (parse a.frame).hdr.intShim = some intShim) (hc : c ∈ sw.process a) (horig : ¬ c.isClone) :
    EditedBy (parse a.frame).hdr (parse a.frame).rest ((parse a.frame).hdr.deleteEdit intShim) c := by
  obtain ⟨q, intMd, v, payload, behind, hhdr, -, hextracted⟩ := parse_shim hshim
  obtain ⟨p, hp, hrest, hcp⟩ := mem_process_delete hrun hc horig
  rw [hshim, if_pos Option.isSome_some] at hcp
  have hdelete := hdr_deleteInt (hp.trans hhdr)
  have hsub : subLen intShim = BitVec.ofNat 16 (4 + 4 * intShim.length.toNat) := by
    rw [← toNat_subLen, BitVec.ofNat_toNat, BitVec.setWidth_eq]
  have hrest' : c.rest = (parse a.frame).rest := by
    rw [hcp]
    exact hrest
  rw [hsub, ← hcp] at hdelete
  rw [hhdr]
  refine editedBy_withInt hdelete hrest' ?_
  -- what the parser has extracted are whole words
  have hempty : (IntHeadersT.emit {}).length = 0 := rfl
  rw [hextracted, hempty, IntShimH.extracted]
  split_ifs
  all_goals omega

theorem edit_insert {egressPort : BitVec 9} {egressTimestamp : BitVec 48}
    {instructionBits domainBits : BitVec 16} (hudpScion : (parse a.frame).hdr.udpScion.isSome)
    (hentry : sw.scionInt.lookup (parse a.frame).hdr.scionDst =
      some (.insert_int instructionBits domainBits)) :
    sw.edit a egressPort egressTimestamp = (parse a.frame).hdr.insertEdit instructionBits domainBits
      (sw.record a instructionBits domainBits egressPort egressTimestamp) := by
  rw [edit, if_pos hudpScion, hentry, HeadersT.edit]

theorem edit_delete {egressPort : BitVec 9} {egressTimestamp : BitVec 48} {intShim : IntShimH}
    (hrun : sw.RunsClone a) (hshim : (parse a.frame).hdr.intShim = some intShim) :
    sw.edit a egressPort egressTimestamp = (parse a.frame).hdr.deleteEdit intShim := by
  obtain ⟨-, hudpScion, hentry⟩ := hrun
  rw [edit, if_pos hudpScion, hentry, HeadersT.edit, hshim, Option.elim_some]

theorem edit_passes {egressPort : BitVec 9} {egressTimestamp : BitVec 48} (h : sw.Passes a) :
    sw.edit a egressPort egressTimestamp = {} := by
  by_cases hudpScion : (parse a.frame).hdr.udpScion.isSome
  · obtain ⟨q, intShim, intMd, v, payload, -, -, hhdr, -⟩ := parse_udpScion hudpScion
    have hethernet : (parse a.frame).hdr.ethernet.isSome := by
      rw [hhdr]
      rfl
    rcases hentry : sw.scionInt.lookup (parse a.frame).hdr.scionDst with
      _ | (⟨instructionBits, domainBits⟩ | _ | _)
    · rw [edit, if_pos hudpScion, hentry, HeadersT.edit]
    · exact absurd ⟨hethernet, hudpScion, instructionBits, domainBits, hentry⟩ h.insert
    · have hshim := h.clone ⟨hethernet, hudpScion, hentry⟩
      rw [edit, if_pos hudpScion, hentry, HeadersT.edit, hshim, Option.elim_none]
    · rw [edit, if_pos hudpScion, hentry, HeadersT.edit]
  · rw [edit, if_neg hudpScion]

/-- A copy that is not for the controller has the headers of the frame after its edit. -/
theorem editedBy_process (hc : c ∈ sw.process a) (horig : ¬ c.isClone) :
    EditedBy (parse a.frame).hdr (parse a.frame).rest
      (sw.edit a c.stdMeta.egressPort c.stdMeta.egressGlobalTimestamp) c := by
  by_cases hinsert : sw.RunsInsert a
  · obtain ⟨-, hudpScion, instructionBits, domainBits, hentry⟩ := hinsert
    obtain ⟨q, intShim, intMd, v, payload, cpuHdrLen, stackLen, hhdr, hmeta⟩ := parse_udpScion hudpScion
    have hdst : (parse a.frame).hdr.scionDst = q.dst := by
      rw [hhdr]
      rfl
    rw [edit_insert hudpScion hentry]
    exact editedBy_insert hhdr hmeta (hdst ▸ hentry) hc
  by_cases hdelete : sw.RunsClone a ∧ (parse a.frame).hdr.intShim.isSome
  · obtain ⟨hrun, hsome⟩ := hdelete
    obtain ⟨intShim, hshim⟩ := Option.isSome_iff_exists.mp hsome
    rw [edit_delete hrun hshim]
    exact editedBy_delete hrun hshim hc horig
  · have hpasses : sw.Passes a := by
      refine ⟨hinsert, fun hrun => ?_⟩
      by_contra hshim
      exact hdelete ⟨hrun, Option.isSome_iff_ne_none.mpr hshim⟩
    rw [edit_passes hpasses]
    obtain ⟨hhdr, hrest⟩ := process_passes hpasses hc horig
    exact editedBy_self hhdr hrest

end Switch

/-! ### The bytes of a copy -/

def Ipv4H.grow (h : Ipv4H) (n : BitVec 16) : Ipv4H := { h with totalLen := h.totalLen + n }

def UdpH.grow (h : UdpH) (n : BitVec 16) : UdpH := { h with len := h.len + n }

/-- The IPv4 header with the checksum of the checksum stage. -/
def Ipv4H.signed (h : Ipv4H) : Ipv4H := { h with hdrChecksum := csum16 (ipv4ChecksumData h) }

/-- The outer UDP header with the checksum of the checksum stage, in front of `behind`. -/
def UdpH.signed (h : UdpH) (ipv4 : Ipv4H) (behind : List Byte) : UdpH :=
  { h with checksum := if h.checksum = 0 then 0 else csum16 (udpPseudoHeader ipv4 h ++ behind) }

/-- A copy of a UDP frame: the frame after its edit, with the checksums of the checksum stage. -/
theorem Switch.wire_edit {sw : Switch} {a : Arrival} {c : Packet} (hframe : IsUdp a.frame)
    (hc : c ∈ sw.process a) (horig : ¬ c.isClone) {e : UdpEdit}
    (he : e = sw.edit a c.stdMeta.egressPort c.stdMeta.egressGlobalTimestamp) :
    ∃ (ethernet : EthernetH) (ipv4 : Ipv4H) (udp : UdpH) (behind : List Byte),
      ethernet.etherType = EtherType.IPV4 ∧ ipv4.protocol = Proto.UDP ∧
      a.frame = emit ethernet ++ (emit ipv4 ++ (emit udp ++ (e.before ++ behind))) ∧
      c.wire = emit ethernet ++ (emit (ipv4.grow e.grow).signed ++
        (emit ((udp.grow e.grow).signed ipv4 (e.after ++ behind)) ++ (e.after ++ behind))) ∧
      e.before.length % 2 = e.after.length % 2 := by
  have hedited := editedBy_process hc horig
  rw [← he] at hedited
  have hlayers := layers a.frame
  generalize (parse a.frame).hdr = hdr at hedited hlayers
  generalize (parse a.frame).rest = rest at hedited hlayers
  cases hlayers with
  | other _ _ hnot => exact absurd hframe.1 hnot
  | ipv4 ethernet ipv4 _ hbytes hetherType hnot => exact absurd hframe (not_isUdp hbytes hetherType hnot)
  | udp ethernet ipv4 udp _ _ hbytes hetherType hprotocol hethernet hipv4 hudp hintCpu =>
    obtain ⟨behind, hbefore, hafter⟩ := hedited.behind
    have hipv4' := hedited.ipv4
    have hudp' := hedited.udp
    rw [hipv4, Option.map_some] at hipv4'
    rw [hudp, Option.map_some] at hudp'
    have hwire := wire_udp (hedited.ethernet.trans hethernet) hipv4' hudp' (hedited.intCpu.trans hintCpu)
    rw [udpChecksumData, udpChecksumHeaders_eq, List.append_assoc, hafter] at hwire
    rw [hbefore] at hbytes
    exact ⟨ethernet, ipv4, udp, behind, hetherType, hprotocol, hbytes, hwire, hedited.parity⟩

/-! ### The fields of a copy -/

/-- The addresses and the protocol, at the front of the pseudo header. -/
def ipFront (frame : List Byte) : List Byte := slice 26 8 frame ++ [0] ++ slice 23 1 frame

/-- The words of the pseudo header and of the outer UDP header that no control writes: the addresses, the
protocol and the ports. -/
def udpFront (frame : List Byte) : List Byte := ipFront frame ++ slice 34 4 frame

theorem length_ipFront {frame : List Byte} (hlen : 34 ≤ frame.length) : (ipFront frame).length = 10 := by
  have haddrs : (slice 26 8 frame).length = 8 := length_slice (by omega)
  have hprotocol : (slice 23 1 frame).length = 1 := length_slice (by omega)
  simp only [ipFront, List.length_append, List.length_singleton, haddrs, hprotocol]

theorem udpFront_eq {ipv4 : Ipv4H} {ethernet : EthernetH} {udp : UdpH} {frame behind : List Byte}
    (hframe : frame = emit ethernet ++ (emit ipv4 ++ (emit udp ++ behind))) :
    udpFront frame = emitFields [32, 32] (ipv4.srcAddr, ipv4.dstAddr, ()) ++
      ([0] ++ ([ipv4.protocol] ++ emitFields [16, 16] (udp.srcPort, udp.dstPort, ()))) := by
  have hipv4 := ipv4_slices hframe
  rw [udpFront, ipFront, hipv4.addrs, hipv4.protocol, (udp_slices hframe).ports]
  simp only [List.append_assoc]

/-- The pseudo header and the outer UDP header count the length twice. -/
theorem onesSum_udpPseudoHeader {ethernet : EthernetH} {ipv4 : Ipv4H} {udp : UdpH}
    {frame behind : List Byte} (hframe : frame = emit ethernet ++ (emit ipv4 ++ (emit udp ++ behind))) :
    onesSum (udpPseudoHeader ipv4 udp) ≡ onesSum (udpFront frame) + 2 * udp.len.toNat [MOD 65535] := by
  have hsplit : emitFields [16, 16, 16] (udp.srcPort, udp.dstPort, udp.len, ()) =
      emitFields [16, 16] (udp.srcPort, udp.dstPort, ()) ++ emitFields [16] (udp.len, ()) := by
    rw [← emitFields_append _ _ rfl rfl]
    rfl
  have hlen : emitFields [16] (udp.len, ()) = toBytes 2 udp.len.toNat := by
    simp [emitFields, packFields]
  have hval : ofBytes (toBytes 2 udp.len.toNat) = udp.len.toNat := by
    have hlt : udp.len.toNat < 2 ^ 16 := udp.len.isLt
    rw [ofBytes_toBytes]
    omega
  have haddrs : (emitFields [32, 32] (ipv4.srcAddr, ipv4.dstAddr, ())).length = 8 := by simp
  have hports : (emitFields [16, 16] (udp.srcPort, udp.dstPort, ())).length = 4 := by simp
  rw [udpPseudoHeader_eq, udpFront_eq hframe, hsplit, hlen]
  generalize emitFields [16, 16] (udp.srcPort, udp.dstPort, ()) = ports at *
  generalize emitFields [32, 32] (ipv4.srcAddr, ipv4.dstAddr, ()) = addrs at *
  have hfront : (addrs ++ ([0] ++ [ipv4.protocol])).length % 2 = 0 := by simp [haddrs]
  have hsum := onesSum_counted hfront (show ports.length % 2 = 0 by omega)
    (length_toBytes 2 udp.len.toNat) []
  have hnil : onesSum [] = 0 := rfl
  rw [List.append_nil, hval, hnil, Nat.add_zero] at hsum
  simpa only [List.append_assoc] using hsum

theorem ipv4Front_eq (h : Ipv4H) :
    ipv4Front h = emitFields [4, 4, 8] (h.version, h.ihl, h.diffserv, ()) ++
      (emitFields [16, 16] (h.totalLen, h.identification, ()) ++
        (emitFields [3, 13] (h.flags, h.fragOffset, ()) ++ emitFields [8] (h.ttl, ()))) := by
  rw [← emitFields_append _ _ rfl rfl, ← emitFields_append _ _ rfl rfl, ← emitFields_append _ _ rfl rfl]
  rfl

/-- The header length and the fragment offset. -/
theorem ipv4Front_slices {ethernet : EthernetH} {ipv4 : Ipv4H} {frame rest : List Byte}
    (hframe : frame = emit ethernet ++ (emit ipv4 ++ rest)) :
    slice 14 2 frame = emitFields [4, 4, 8] (ipv4.version, ipv4.ihl, ipv4.diffserv, ()) ∧
      slice 20 2 frame = emitFields [3, 13] (ipv4.flags, ipv4.fragOffset, ()) := by
  rw [emit_ipv4, ipv4Front_eq] at hframe
  simp only [List.append_assoc] at hframe
  refine ⟨slice_of_append _ _ _ hframe (by simp) (by simp), ?_⟩
  rw [← List.append_assoc, ← List.append_assoc] at hframe
  exact slice_of_append _ _ _ hframe (by simp) (by simp)

/-- What no control writes of an IPv4 header: the header length, the fragment offset, the protocol and the
addresses. -/
structure SameIpv4 (frame wire : List Byte) : Prop where
  version : slice 14 2 wire = slice 14 2 frame
  fragment : word 20 wire = word 20 frame
  protocol : slice 23 1 wire = slice 23 1 frame
  addrs : slice 26 8 wire = slice 26 8 frame

theorem sameIpv4_of_emit {ethernet ethernet' : EthernetH} {ipv4 : Ipv4H} {totalLen hdrChecksum : BitVec 16}
    {frame wire rest rest' : List Byte} (hframe : frame = emit ethernet ++ (emit ipv4 ++ rest))
    (hwire : wire = emit ethernet' ++
      (emit { ipv4 with totalLen := totalLen, hdrChecksum := hdrChecksum } ++ rest')) :
    SameIpv4 frame wire := by
  have h := ipv4_slices hframe
  have h' := ipv4_slices hwire
  obtain ⟨hversion, hfragment⟩ := ipv4Front_slices hframe
  obtain ⟨hversion', hfragment'⟩ := ipv4Front_slices hwire
  constructor
  · rw [hversion, hversion']
  · rw [word, word, hfragment, hfragment']
  · rw [h.protocol, h'.protocol]
  · rw [h.addrs, h'.addrs]

/-- What a receiver finds in a copy of a UDP frame. -/
structure UdpEdit.Yields (e : UdpEdit) (frame wire : List Byte) : Prop extends SameIpv4 frame wire where
  isUdp : IsUdp wire
  before : frame.drop 42 = e.before ++ frame.drop (42 + e.before.length)
  parity : e.before.length % 2 = e.after.length % 2
  ports : slice 34 4 wire = slice 34 4 frame
  len : word 38 wire = e.len frame
  behind : wire.drop 42 = e.behind frame
  unused : word 40 frame = 0 → word 40 wire = 0
  checksum : word 40 frame ≠ 0 → word 40 wire < 65535 ∧
    onesSum (udpFront frame) + 2 * e.len frame + word 40 wire + onesSum (e.behind frame) ≡ 0 [MOD 65535]

theorem UdpEdit.Yields.front {e : UdpEdit} {frame wire : List Byte} (h : e.Yields frame wire) :
    udpFront wire = udpFront frame := by
  rw [udpFront, udpFront, ipFront, ipFront, h.addrs, h.protocol, h.ports]

theorem onesSum_udpPseudoHeader_ne_zero {ipv4 : Ipv4H} (hprotocol : ipv4.protocol = Proto.UDP)
    (udp : UdpH) : onesSum (udpPseudoHeader ipv4 udp) ≠ 0 := by
  intro h
  have hzero := (onesSum_eq_zero_iff _).mp h ipv4.protocol (by rw [udpPseudoHeader_eq]; simp)
  rw [hprotocol] at hzero
  exact absurd hzero (by decide)

/-- The checksum of a copy: all words of the pseudo header and of what follows add up to a zero. -/
theorem csum16_modEq {ethernet : EthernetH} {ipv4 : Ipv4H} {udp : UdpH} {frame behind : List Byte}
    (hframe : frame = emit ethernet ++ (emit ipv4 ++ (emit udp ++ behind)))
    (hprotocol : ipv4.protocol = Proto.UDP) :
    (csum16 (udpPseudoHeader ipv4 udp ++ behind)).toNat < 65535 ∧
      onesSum (udpFront frame) + 2 * udp.len.toNat + (csum16 (udpPseudoHeader ipv4 udp ++ behind)).toNat +
        onesSum behind ≡ 0 [MOD 65535] := by
  have heven : (udpPseudoHeader ipv4 udp).length % 2 = 0 := by simp [udpPseudoHeader]
  have hne : onesSum (udpPseudoHeader ipv4 udp ++ behind) ≠ 0 := by
    rw [onesSum_append_of_even heven]
    exact fun h => onesSum_udpPseudoHeader_ne_zero hprotocol udp (endAroundAdd_eq_zero_iff.mp h).1
  have hle := onesSum_le (udpPseudoHeader ipv4 udp ++ behind)
  have hheader := onesSum_udpPseudoHeader hframe
  have hsum := onesSum_append_modEq heven behind
  rw [toNat_csum16]
  generalize onesSum (udpPseudoHeader ipv4 udp ++ behind) = sum at *
  unfold Nat.ModEq at *
  omega

/-- A copy of a UDP frame, as a receiver sees it. -/
theorem Switch.yields {sw : Switch} {a : Arrival} {c : Packet} (hframe : IsUdp a.frame)
    (hc : c ∈ sw.process a) (horig : ¬ c.isClone) :
    (sw.edit a c.stdMeta.egressPort c.stdMeta.egressGlobalTimestamp).Yields a.frame c.wire := by
  obtain ⟨e, he⟩ : ∃ e, e = sw.edit a c.stdMeta.egressPort c.stdMeta.egressGlobalTimestamp := ⟨_, rfl⟩
  obtain ⟨ethernet, ipv4, udp, behind, hetherType, hprotocol, hbytes, hwire, hparity⟩ :=
    wire_edit hframe hc horig he
  rw [← he]
  have hudp := udp_slices hbytes
  have hudp' := udp_slices hwire
  have hlen : ((udp.grow e.grow).signed ipv4 (e.after ++ behind)).len.toNat = e.len a.frame := by
    rw [UdpEdit.len, hudp.len]
    exact BitVec.toNat_add _ _
  have hrest : a.frame.drop (42 + e.before.length) = behind := by
    rw [← List.drop_drop, hudp.drop_behind, List.drop_left]
  have hbehind : e.behind a.frame = e.after ++ behind := by rw [UdpEdit.behind, hrest]
  have hchecksum : word 40 c.wire = if udp.checksum = 0 then 0 else
      (csum16 (udpPseudoHeader ipv4 (udp.grow e.grow) ++ (e.after ++ behind))).toNat := by
    rw [hudp'.checksum]
    show (if udp.checksum = 0 then 0 else _ : BitVec 16).toNat = _
    split_ifs
    · rfl
    · rfl
  have hfront : udpFront c.wire = udpFront a.frame := (udpFront_eq hwire).trans (udpFront_eq hbytes).symm
  constructor
  · exact sameIpv4_of_emit hbytes hwire
  · exact isUdp_of_append hwire hetherType hprotocol
  · rw [hrest, hudp.drop_behind]
  · exact hparity
  · rw [hudp.ports, hudp'.ports]
    rfl
  · rw [hudp'.len, hlen]
  · rw [hbehind, hudp'.drop_behind]
  · intro h0
    rw [hudp.checksum] at h0
    rw [hchecksum, if_pos (BitVec.eq_of_toNat_eq h0)]
  · intro hne
    rw [hudp.checksum] at hne
    have hzero : udp.checksum ≠ 0 := fun h => hne (by rw [h]; rfl)
    obtain ⟨hlt, hsum⟩ := csum16_modEq hwire hprotocol
    rw [hlen, hfront] at hsum
    rw [hchecksum, if_neg hzero, hbehind]
    exact ⟨hlt, hsum⟩

end ScionInt
