import ScionInt.ControlPlane.Equiv.Report

/-!
# What the report says about the packet

`handlePacketIn` finds the headers of the packet behind the 16 bytes of `int_cpu`, with a cursor, and
takes the flow ID and the destination AS from there.  The copy of the headers in the report starts at
the fixed offset 8, at `cpuHdrLen`.

Main result: `publishesHeaders_iff`.  The report contains the headers only if they repeat the eight bytes
of `cpuHdrLen`, which no headers that the switch sends do.
-/

namespace ScionInt

open Wire Wire.Scan

namespace IntController

/-- An accepted payload has passed the first checks, and its report is `published`. -/
theorem eq_published_of_result {nodeID : BitVec 32} {payload : List Byte} {p : Published}
    (h : result (handlePacketIn nodeID) payload = .ok p) :
    HeadersPass payload ∧ ∃ stack, p = published nodeID payload stack := by
  obtain ⟨hops, hstack⟩ := (walks_readHops (instructionBits payload) (domainBits payload)
    (numHops payload)).result_eq ⟨stackPos payload, []⟩ payload
  rw [result_handlePacketIn nodeID hstack] at h
  split_ifs at h with h16 hidentifier hhdrLen
  exact ⟨⟨h16, hidentifier, hhdrLen⟩, _, (Except.ok.inj h).symm⟩

/-- The report contains the `cpuHdrLen` bytes behind `int_cpu`, and these say what the key and the topic
say. -/
structure PublishesHeaders (nodeID : BitVec 32) (payload : List Byte) (p : Published) : Prop where
  truncatedPacket : p.report.truncatedPacket = slice 16 (hdrLen payload).toNat payload
  flowID : 20 ≤ (hdrLen payload).toNat →
    ofBytes (slice 0 4 p.report.truncatedPacket) % 2 ^ 20 = p.key.flowId.toNat
  dstAS : 20 ≤ (hdrLen payload).toNat →
    topicName (BitVec.ofNat 64 (ofBytes (slice 12 8 p.report.truncatedPacket))) nodeID = p.topic

/-- The headers behind `int_cpu` are the eight bytes of their length, over and over. -/
def RepeatsLength (payload : List Byte) : Prop :=
  ∀ k < (hdrLen payload).toNat,
    payload.getD (16 + k) 0 = (toBytes 8 (hdrLen payload).toNat).getD (k % 8) 0

/-- The bytes of `cpuHdrLen` in a payload. -/
theorem getD_hdrLen (payload : List Byte) {k : ℕ} (hk : k < 8) :
    (toBytes 8 (hdrLen payload).toNat).getD k 0 = payload.getD (8 + k) 0 := by
  have hlen : (bytesAt 8 8 payload).length = 8 := length_bytesAt 8 8 payload
  have hlt := ofBytes_lt (bytesAt 8 8 payload)
  have hvalue : (hdrLen payload).toNat = ofBytes (bytesAt 8 8 payload) := by
    rw [hdrLen, BitVec.toNat_ofNat, Nat.mod_eq_of_lt]
    rw [hlen] at hlt
    exact hlt
  rw [hvalue, toBytes_ofBytes hlen, getD_bytesAt hk]

theorem repeatsLength_iff (payload : List Byte) :
    RepeatsLength payload ↔ bytesAt 8 (hdrLen payload).toNat payload =
      bytesAt (8 + 8) (hdrLen payload).toNat payload := by
  rw [bytesAt_shift_iff (by omega), RepeatsLength]
  refine forall₂_congr fun k _ => ?_
  rw [getD_hdrLen payload (Nat.mod_lt k (by omega))]

/-- The flow ID and the address of a payload lie in the headers behind `int_cpu`. -/
theorem publishesHeaders_of_eq {nodeID : BitVec 32} {payload : List Byte} {stack : Cursor (List Hop)}
    (hpass : HeadersPass payload)
    (h : bytesAt 8 (hdrLen payload).toNat payload = slice 16 (hdrLen payload).toNat payload) :
    PublishesHeaders nodeID payload (published nodeID payload stack) := by
  obtain ⟨h16, -, hlen⟩ := hpass
  have hinner {i n : ℕ} (hin : i + n ≤ (hdrLen payload).toNat) :
      slice i n (slice 16 (hdrLen payload).toNat payload) = bytesAt (16 + i) n payload := by
    rw [bytesAt_eq_slice (by omega), slice, slice, slice, ← List.drop_drop, List.drop_take,
      List.take_take, Nat.min_eq_left (by omega)]
  refine ⟨h, fun h20 => ?_, fun h20 => ?_⟩
  · have hlt := ofBytes_lt (bytesAt 16 4 payload)
    rw [length_bytesAt] at hlt
    show ofBytes (slice 0 4 (bytesAt 8 _ payload)) % _ = _
    rw [h, hinner (by omega), Nat.add_zero, published, flowKeyMsg, BitVec.toNat_ofNat,
      BitVec.toNat_ofNat]
    omega
  · show topicName (BitVec.ofNat 64 (ofBytes (slice 12 8 (bytesAt 8 _ payload)))) nodeID = _
    rw [h, hinner (by omega)]
    rfl

/-- The fifth byte of the headers is the SCION next header, that of their length is zero. -/
theorem not_repeatsLength_cpuPayload (q : ScionFrame) (intShim : IntShimH) (intMd : IntMdH)
    (behind : List Byte) : ¬ RepeatsLength (cpuPayload q intShim intMd behind) := by
  intro h
  have hlt := q.length_emitScion_lt
  have hlen : (hdrLen (cpuPayload q intShim intMd behind)).toNat = q.emitScion.length + 16 := by
    rw [hdrLen_cpuPayload, BitVec.toNat_ofNat]
    omega
  have hbyte := h 4 (by omega)
  have hnextHdr : bytesAt 20 1 (cpuPayload q intShim intMd behind) = [0x11] := by
    have hsplit : emitFields [8, 8, 16, 8, 2, 2, 2, 2, 16] (q.scionCommon.nextHdr,
        q.scionCommon.hdrLen, q.scionCommon.payloadLen, q.scionCommon.pathType, q.scionCommon.dt,
        q.scionCommon.dl, q.scionCommon.st, q.scionCommon.sl, q.scionCommon.rsv, ()) =
        emitFields [8] (q.scionCommon.nextHdr, ()) ++ emitFields [8, 16, 8, 2, 2, 2, 2, 16]
          (q.scionCommon.hdrLen, q.scionCommon.payloadLen, q.scionCommon.pathType, q.scionCommon.dt,
            q.scionCommon.dl, q.scionCommon.st, q.scionCommon.sl, q.scionCommon.rsv, ()) := by
      rw [← emitFields_append _ _ rfl rfl]
      rfl
    rw [cpuPayload, ScionFrame.emitScion, emit_scionCommon, hsplit, emitFields_byte, q.nextHdr]
    simp only [List.append_assoc]
    rw [← List.append_assoc]
    exact bytesAt_append (by simp) rfl _
  rw [hlen, ← getD_bytesAt (show 0 < 1 by omega) (16 + 4), hnextHdr] at hbyte
  have hzero : (toBytes 8 (q.emitScion.length + 16)).getD 4 0 = 0 := by
    have hdiv : (q.emitScion.length + 16) / 256 ^ 3 = 0 := Nat.div_eq_of_lt (by omega)
    show BitVec.ofNat 8 ((q.emitScion.length + 16) / 256 ^ 3) = 0
    rw [hdiv]
    rfl
  rw [show 4 % 8 = 4 from rfl, hzero] at hbyte
  exact absurd hbyte (by decide)

/-- The report of an accepted payload contains its headers exactly if these repeat the bytes of their
length, which the headers that a switch sends never do. -/
theorem publishesHeaders_iff {nodeID : BitVec 32} {payload : List Byte} {p : Published}
    (h : result (handlePacketIn nodeID) payload = .ok p) :
    (PublishesHeaders nodeID payload p ↔ RepeatsLength payload) ∧
    ∀ q intShim intMd behind, payload = cpuPayload q intShim intMd behind →
      ¬ RepeatsLength payload := by
  obtain ⟨hpass, stack, rfl⟩ := eq_published_of_result h
  have hslice : bytesAt (8 + 8) (hdrLen payload).toNat payload =
      slice 16 (hdrLen payload).toNat payload := by
    obtain ⟨h16, -, hlen⟩ := hpass
    exact bytesAt_eq_slice (by omega)
  constructor
  · rw [repeatsLength_iff, hslice]
    constructor
    · intro hpublished
      exact hpublished.truncatedPacket
    · intro heq
      exact publishesHeaders_of_eq hpass heq
  · rintro q intShim intMd behind rfl
    exact not_repeatsLength_cpuPayload q intShim intMd behind

/-- The controller accepts the clone of the sample frame. -/
theorem result_reportClone : ∃ p,
    result (handlePacketIn 7) (reportClone 0x8d00 0x0001).wire = .ok p := by
  have hok : (result (handlePacketIn 7) (reportClone 0x8d00 0x0001).wire).toOption.isSome := by
    decide +kernel
  cases h : result (handlePacketIn 7) (reportClone 0x8d00 0x0001).wire with
  | error e =>
    rw [h] at hok
    cases hok
  | ok p => exact ⟨p, rfl⟩

theorem publishesHeaders_iff_sample : ∃ p,
    result (handlePacketIn 7) (reportClone 0x8d00 0x0001).wire = .ok p ∧
    (PublishesHeaders 7 (reportClone 0x8d00 0x0001).wire p ↔
      RepeatsLength (reportClone 0x8d00 0x0001).wire) ∧
    ∀ q intShim intMd behind, (reportClone 0x8d00 0x0001).wire = cpuPayload q intShim intMd behind →
      ¬ RepeatsLength (reportClone 0x8d00 0x0001).wire := by
  obtain ⟨p, hp⟩ := result_reportClone
  exact ⟨p, hp, publishesHeaders_iff hp⟩

/-- The report on the sample frame: its key has the flow ID 1, its `truncated_packet` starts with eight
other bytes, in which the flow ID is 0. -/
theorem publishesHeaders_counterexample :
    reportClone 0x8d00 0x0001 ∈
      (sampleSwitch .clone_int).process (sampleArrival (reportSent 0x8d00 0x0001).wire) ∧
    (reportClone 0x8d00 0x0001).isClone ∧
    ∃ p, result (handlePacketIn 7) (reportClone 0x8d00 0x0001).wire = .ok p ∧
      p.key.flowId = 1 ∧ ofBytes (slice 0 4 p.report.truncatedPacket) % 2 ^ 20 = 0 ∧
      p.report.truncatedPacket ≠
        slice 16 (hdrLen (reportClone 0x8d00 0x0001).wire).toNat (reportClone 0x8d00 0x0001).wire := by
  obtain ⟨p, hp⟩ := result_reportClone
  have hflowId : (result (handlePacketIn 7) (reportClone 0x8d00 0x0001).wire).toOption.map
      (fun r => r.key.flowId) = some 1 := by decide +kernel
  have htruncated : (result (handlePacketIn 7) (reportClone 0x8d00 0x0001).wire).toOption.map
      (fun r => ofBytes (slice 0 4 r.report.truncatedPacket) % 2 ^ 20) = some 0 := by decide +kernel
  have hheaders : ofBytes (slice 0 4 (slice 16 (hdrLen (reportClone 0x8d00 0x0001).wire).toNat
      (reportClone 0x8d00 0x0001).wire)) % 2 ^ 20 = 1 := by decide +kernel
  rw [hp] at hflowId htruncated
  refine ⟨reports_sample.2.1, reports_sample.2.2, p, hp, Option.some.inj hflowId,
    Option.some.inj htruncated, fun heq => ?_⟩
  rw [← heq] at hheaders
  exact absurd ((Option.some.inj htruncated).symm.trans hheaders) (by decide)

end IntController

end ScionInt
