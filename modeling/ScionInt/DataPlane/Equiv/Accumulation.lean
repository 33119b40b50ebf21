import ScionInt.DataPlane.Equiv.SourceSink

/-!
# INT along a path

An `InsertRun` is a run through switches that all have an `insert_int` entry for the destination.
`Accumulated` is what INT promises after such a run: one record for each switch, the application's
port in the shim, and lengths that count every record.

`insert_int` keeps this promise for the first switch only.  On a frame that carries INT already it
writes the INT port into `int_shim.udpPort` and starts again with an empty stack length
(`wire_second`), so that `accumulates_iff` holds: a run accumulates exactly if it has one switch and
the four length fields can hold the new lengths.
-/

namespace ScionInt

open Wire INTSwitchEgress

/-! ### Runs -/

/-- One switch of a path, the frame it received and one of the copies it emitted. -/
structure PathHop where
  sw : Switch
  arrival : Arrival
  copy : Packet

/-- A run of a frame through switches that insert INT for the destination `dst`. -/
def InsertRun (dst : BitVec 16 × BitVec 48) (instructionBits domainBits : BitVec 16) :
    List Byte → List PathHop → Prop
  | _, [] => True
  | frame, h :: hops => h.sw.scionInt.lookup dst = some (.insert_int instructionBits domainBits) ∧
    h.arrival.frame = frame ∧ h.copy ∈ h.sw.process h.arrival ∧
    InsertRun dst instructionBits domainBits h.copy.wire hops

/-- The record that a switch has added. -/
def PathHop.record (h : PathHop) : List Byte := h.copy.hdr.intStack.emitHop

/-- The four length fields of `q'` are those of `q` plus `n`. -/
structure ScionFrame.GrownBy (q q' : ScionFrame) (n : ℕ) : Prop where
  totalLen : q'.ipv4.totalLen.toNat = q.ipv4.totalLen.toNat + n
  len : q'.udp.len.toNat = q.udp.len.toNat + n
  payloadLen : q'.scionCommon.payloadLen.toNat = q.scionCommon.payloadLen.toNat + n
  udpScionLen : q'.udpScion.len.toNat = q.udpScion.len.toNat + n

/-- None of the four length fields overflows when it grows by `n`. -/
structure ScionFrame.RoomFor (q : ScionFrame) (n : ℕ) : Prop where
  totalLen : q.ipv4.totalLen.toNat + n < 2 ^ 16
  len : q.udp.len.toNat + n < 2 ^ 16
  payloadLen : q.scionCommon.payloadLen.toNat + n < 2 ^ 16
  udpScionLen : q.udpScion.len.toNat + n < 2 ^ 16

/-- What INT promises for the frame behind the switches `hops`: in front of the payload it holds one
record of each switch, in some order, and its lengths and the shim describe them. -/
def Accumulated (q : ScionFrame) (payload : List Byte) (hops : List PathHop) (frame : List Byte) :
    Prop :=
  ∃ (q' : ScionFrame) (intShim : IntShimH) (intMd : IntMdH) (records : List (List Byte)),
    frame = q'.emit ++ (emit intShim ++ (emit intMd ++ (records.flatten ++ payload))) ∧
    records.Perm (hops.map PathHop.record) ∧
    intShim.udpPort = q.udpScion.dstPort ∧
    4 * intShim.length.toNat = 4 * 3 + records.flatten.length ∧
    (∀ r ∈ records, r.length = 4 * intMd.hopML.toNat) ∧
    q.GrownBy q' (16 + records.flatten.length)

theorem toNat_add_ofNat_iff {x : BitVec 16} {n : ℕ} (hn : n < 2 ^ 16) :
    (x + BitVec.ofNat 16 n).toNat = x.toNat + n ↔ x.toNat + n < 2 ^ 16 := by
  have hx := x.isLt
  rw [BitVec.toNat_add, BitVec.toNat_ofNat, Nat.mod_eq_of_lt hn]
  constructor
  · intro h
    rw [← h]
    exact Nat.mod_lt _ (by omega)
  · exact Nat.mod_eq_of_lt

/-- Adding `n` to the length fields makes them grow by `n` exactly if there is room for it. -/
theorem ScionFrame.grownBy_addLen_iff (q : ScionFrame) {n : ℕ} (hn : n < 2 ^ 16) :
    q.GrownBy (q.addLen (BitVec.ofNat 16 n)) n ↔ q.RoomFor n := by
  constructor
  · rintro ⟨h1, h2, h3, h4⟩
    exact ⟨(toNat_add_ofNat_iff hn).mp h1, (toNat_add_ofNat_iff hn).mp h2,
      (toNat_add_ofNat_iff hn).mp h3, (toNat_add_ofNat_iff hn).mp h4⟩
  · rintro ⟨h1, h2, h3, h4⟩
    exact ⟨(toNat_add_ofNat_iff hn).mpr h1, (toNat_add_ofNat_iff hn).mpr h2,
      (toNat_add_ofNat_iff hn).mpr h3, (toNat_add_ofNat_iff hn).mpr h4⟩

/-! ### The first switch -/

variable {q : ScionFrame} {payload : List Byte} {instructionBits domainBits : BitVec 16}

/-- The frame behind the first switch, and the size of its record. -/
theorem wire_first {sw : Switch} {a : Arrival} {c : Packet} (hframe : a.frame = q.emit ++ payload)
    (hport : q.udpScion.dstPort ≠ UDP_PORT)
    (hentry : sw.scionInt.lookup q.dst = some (.insert_int instructionBits domainBits))
    (hc : c ∈ sw.process a) :
    ∃ (p : Packet) (hdrChecksum checksum : BitVec 16),
      c.wire = ((sourceFrame q (words (hopRecord sw.egress p))).withChecksums hdrChecksum
        checksum).emit ++ ((sourceHeaders q.udpScion.dstPort instructionBits domainBits
          (hopRecord sw.egress p)).emit ++ payload) ∧
      c.hdr.intStack = hopRecord sw.egress p ∧
      (hopRecord sw.egress p).emitHop.length =
        recordLen sw.egress (Switch.insertMetadata {} instructionBits domainBits)
          c.stdMeta.egressPort := by
  obtain ⟨p, r, hcp, hhdr, hrest, -, hmeta, -⟩ := process_source hframe hport hentry hc
  obtain ⟨hdrChecksum, checksum, hwire⟩ := wire_withInt hhdr
  refine ⟨p, hdrChecksum, checksum, ?_, ?_, ?_⟩
  · rw [hwire, hrest]
    rfl
  · rw [hhdr]
    rfl
  · rw [length_emitHop_hopRecord, hmeta, hcp, egressPort_insertStack]
    rfl

/-- A frame with INT headers of its own is read in one way. -/
theorem accumulated_unique {q' : ScionFrame} {intShim : IntShimH} {intMd : IntMdH}
    {stack : List Byte} {hops : List PathHop} {frame : List Byte}
    (hframe : frame = q'.emit ++ (emit intShim ++ (emit intMd ++ (stack ++ payload))))
    (h : Accumulated q payload hops frame) :
    (∃ records : List (List Byte), stack = records.flatten ∧
      records.Perm (hops.map PathHop.record) ∧ ∀ r ∈ records, r.length = 4 * intMd.hopML.toNat) ∧
    intShim.udpPort = q.udpScion.dstPort ∧
    4 * intShim.length.toNat = 4 * 3 + stack.length ∧ q.GrownBy q' (16 + stack.length) := by
  obtain ⟨q2, intShim2, intMd2, records, hframe2, hperm, hudpPort, hlen, hhopML, hgrown⟩ := h
  rw [hframe] at hframe2
  obtain ⟨rfl, hint⟩ := ScionFrame.emit_append_inj hframe2
  obtain ⟨rfl, hmd⟩ := emit_append_inj hint
  obtain ⟨rfl, hstack⟩ := emit_append_inj hmd
  obtain rfl := List.append_cancel_right hstack
  exact ⟨⟨records, rfl, hperm, hhopML⟩, hudpPort, hlen, hgrown⟩

/-- Behind the first switch the frame accumulates exactly if its length fields have room. -/
theorem accumulated_first_iff {sw : Switch} {a : Arrival} {c : Packet}
    (hframe : a.frame = q.emit ++ payload) (hport : q.udpScion.dstPort ≠ UDP_PORT)
    (hentry : sw.scionInt.lookup q.dst = some (.insert_int instructionBits domainBits))
    (hc : c ∈ sw.process a) :
    Accumulated q payload [⟨sw, a, c⟩] c.wire ↔
      q.RoomFor (16 + recordLen sw.egress (Switch.insertMetadata {} instructionBits domainBits)
        c.stdMeta.egressPort) := by
  obtain ⟨p, hdrChecksum, checksum, hwire, hstack, hlen⟩ := wire_first hframe hport hentry hc
  obtain ⟨hwords, hw⟩ := length_hopRecord sw.egress p
  have hbytes : c.wire = ((sourceFrame q (words (hopRecord sw.egress p))).withChecksums hdrChecksum
      checksum).emit ++ (emit ((sourceShim q.udpScion.dstPort).addWords
        (words (hopRecord sw.egress p))) ++ (emit ((sourceMd instructionBits domainBits).addWords
          (words (hopRecord sw.egress p))) ++ ((hopRecord sw.egress p).emitHop ++ payload))) := by
    rw [hwire, emit_sourceHeaders, List.append_assoc, List.append_assoc]
  have hrecord : PathHop.record ⟨sw, a, c⟩ = (hopRecord sw.egress p).emitHop := by
    rw [PathHop.record, hstack]
  -- what is left is that the length fields do not wrap around
  rw [← hlen, hwords, ← q.grownBy_addLen_iff (by omega)]
  constructor
  · intro h
    obtain ⟨-, -, -, hgrown⟩ := accumulated_unique hbytes h
    rw [hwords] at hgrown
    exact ⟨hgrown.totalLen, hgrown.len, hgrown.payloadLen, hgrown.udpScionLen⟩
  · intro hgrown
    refine ⟨(sourceFrame q (words (hopRecord sw.egress p))).withChecksums hdrChecksum checksum,
      (sourceShim q.udpScion.dstPort).addWords (words (hopRecord sw.egress p)),
      (sourceMd instructionBits domainBits).addWords (words (hopRecord sw.egress p)),
      [(hopRecord sw.egress p).emitHop], ?_, ?_, rfl, ?_, ?_, ?_⟩
    · rw [List.flatten_singleton, hbytes]
    · rw [List.map_singleton, hrecord]
    · rw [List.flatten_singleton, toNat_length_addWords _ hw, hwords]
      omega
    · intro r hr
      rw [List.mem_singleton.mp hr, toNat_hopML_addWords _ _ hw, hwords]
    · rw [List.flatten_singleton, hwords]
      exact ⟨hgrown.totalLen, hgrown.len, hgrown.payloadLen, hgrown.udpScionLen⟩

/-! ### The second switch -/

/-- `insert_int` on a frame that carries INT: the shim holds the INT port. -/
theorem wire_second {sw sw2 : Switch} {a a2 : Arrival} {c c2 : Packet}
    (hframe : a.frame = q.emit ++ payload) (hport : q.udpScion.dstPort ≠ UDP_PORT)
    (hentry : sw.scionInt.lookup q.dst = some (.insert_int instructionBits domainBits))
    (hc : c ∈ sw.process a) (hframe2 : a2.frame = c.wire)
    (hentry2 : sw2.scionInt.lookup q.dst = some (.insert_int instructionBits domainBits))
    (hc2 : c2 ∈ sw2.process a2) :
    ∃ (q2 : ScionFrame) (intShim : IntShimH) (intMd : IntMdH) (stack : List Byte),
      c2.wire = q2.emit ++ (emit intShim ++ (emit intMd ++ (stack ++ payload))) ∧
      intShim.udpPort = UDP_PORT := by
  obtain ⟨p, hdrChecksum, checksum, hwire, -⟩ := wire_first hframe hport hentry hc
  obtain ⟨v, pl, accepted, stackLen, rest, hparse, hv, hpl⟩ := parse_source
    ((sourceFrame q (words (hopRecord sw.egress p))).withChecksums hdrChecksum checksum)
    rfl q.udpScion.dstPort instructionBits domainBits sw.egress p payload
  -- the second switch parses the INT headers and stores their port as the original one
  rw [← hwire, ← hframe2] at hparse
  obtain ⟨p2, q2, -, -, -, -, -, hwire2⟩ :=
    wire_insert (congrArg ParsedPacket.hdr hparse) hentry2 hc2
  rw [hparse, hv, hpl, ← List.append_assoc (hopRecord sw.egress p).emitHop] at hwire2
  exact ⟨q2, _, _, _, hwire2, rfl⟩

/-! ### Runs of any length -/

/-- A run accumulates exactly if it has one switch and the length fields can hold the new lengths. -/
theorem accumulates_iff {hops : List PathHop} (hport : q.udpScion.dstPort ≠ UDP_PORT)
    (hrun : InsertRun q.dst instructionBits domainBits (q.emit ++ payload) hops)
    (hne : hops ≠ []) :
    (∀ (before : List PathHop) (h : PathHop) (after : List PathHop), hops = before ++ h :: after →
      Accumulated q payload (before ++ [h]) h.copy.wire) ↔
    ∃ h, hops = [h] ∧ q.RoomFor (16 + recordLen h.sw.egress
      (Switch.insertMetadata {} instructionBits domainBits) h.copy.stdMeta.egressPort) := by
  constructor
  · intro hall
    match hops with
    | [] => exact absurd rfl hne
    | [h] =>
      obtain ⟨hentry, hframe, hc, -⟩ := hrun
      have hfirst := hall [] h [] rfl
      exact ⟨h, rfl, (accumulated_first_iff hframe hport hentry hc).mp hfirst⟩
    | h :: h2 :: hops =>
      obtain ⟨hentry, hframe, hc, hentry2, hframe2, hc2, -⟩ := hrun
      -- the port in the shim of the second copy is that of the INT headers it found
      obtain ⟨q2, intShim, intMd, stack, hwire, hudpPort⟩ :=
        wire_second hframe hport hentry hc hframe2 hentry2 hc2
      obtain ⟨-, hport2, -⟩ := accumulated_unique hwire (hall [h] h2 hops rfl)
      exact absurd (hport2.symm.trans hudpPort) hport
  · rintro ⟨h, rfl, hroom⟩ before h' after heq
    obtain ⟨hentry, hframe, hc, -⟩ := hrun
    have hbefore : before = [] := by
      cases before with
      | nil => rfl
      | cons h'' before => simp at heq
    subst hbefore
    obtain ⟨rfl, -⟩ := List.cons.inj heq
    exact (accumulated_first_iff hframe hport hentry hc).mpr hroom

/-- The sample frame through one source. -/
def sampleHop : PathHop :=
  ⟨sampleSwitch (.insert_int 0xffff 0x0001), sampleArrival sampleBytes, sampleSent⟩

/-- The copy that a second source emits for it. -/
@[irreducible] def sampleResent : Packet :=
  (sampleCopies (.insert_int 0xffff 0x0001) sampleSent.wire).getD 0 default

theorem sampleResent_mem : sampleResent ∈
    (sampleSwitch (.insert_int 0xffff 0x0001)).process (sampleArrival sampleSent.wire) := by
  decide +kernel

/-- The same frame through a second source. -/
def sampleHop2 : PathHop :=
  ⟨sampleSwitch (.insert_int 0xffff 0x0001), sampleArrival sampleSent.wire, sampleResent⟩

theorem accumulates_iff_sample :
    (∀ (before : List PathHop) (h : PathHop) (after : List PathHop),
      [sampleHop] = before ++ h :: after →
      Accumulated sampleFrame (samplePayload ++ sampleTrailer) (before ++ [h]) h.copy.wire) ↔
    ∃ h, [sampleHop] = [h] ∧ sampleFrame.RoomFor (16 + recordLen h.sw.egress
      (Switch.insertMetadata {} 0xffff 0x0001) h.copy.stdMeta.egressPort) :=
  accumulates_iff (by decide)
    ⟨lookup_sampleSwitch _, frame_sampleArrival sampleBytes, sampleSent_mem, trivial⟩ (by simp)

/-- Two sources on one path: the frame behind the second has lost the application's port. -/
theorem accumulates_counterexample :
    InsertRun sampleFrame.dst 0xffff 0x0001 (sampleFrame.emit ++ (samplePayload ++ sampleTrailer))
      [sampleHop, sampleHop2] ∧
    ¬ ∀ (before : List PathHop) (h : PathHop) (after : List PathHop),
      [sampleHop, sampleHop2] = before ++ h :: after →
      Accumulated sampleFrame (samplePayload ++ sampleTrailer) (before ++ [h]) h.copy.wire := by
  have hentry := lookup_sampleSwitch (.insert_int 0xffff 0x0001)
  refine ⟨⟨hentry, frame_sampleArrival sampleBytes, sampleSent_mem, hentry,
    frame_sampleArrival sampleSent.wire, sampleResent_mem, trivial⟩, fun hall => ?_⟩
  obtain ⟨q2, intShim, intMd, stack, hwire, hudpPort⟩ :=
    wire_second (frame_sampleArrival sampleBytes) (by decide) hentry sampleSent_mem
      (frame_sampleArrival sampleSent.wire) hentry sampleResent_mem
  obtain ⟨-, hport, -⟩ := accumulated_unique hwire (hall [sampleHop] sampleHop2 [] rfl)
  rw [hudpPort] at hport
  revert hport
  decide

end ScionInt
