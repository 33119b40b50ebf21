import ScionInt.ControlPlane.Equiv.Reads
import ScionInt.DataPlane.Equiv.Switch

/-!
# The payload that the controller expects

`cpuPayload` is a packet-in as the switch builds it: `int_cpu`, the headers from the SCION common header
to INT-MD, the INT stack and what follows it.  The lemmas below evaluate what the controller reads at
its fixed offsets, counted from the front for the SCION headers and backwards from the stack for
INT-MD and the shim.
-/

namespace ScionInt

open Wire Wire.Scan

/-! ### The bytes of single fields -/

theorem emit_intCpu (h : IntCpuH) :
    emit h = emitFields [64] (h.identifier, ()) ++ emitFields [64] (h.cpuHdrLen, ()) := by
  rw [← emitFields_append _ _ rfl rfl, emit_eq_emitFields]
  rfl

theorem emit_scionCommon (h : ScionCommonH) :
    emit h = emitFields [4, 8, 20] (h.version, h.qos, h.flowID, ()) ++
      emitFields [8, 8, 16, 8, 2, 2, 2, 2, 16] (h.nextHdr, h.hdrLen, h.payloadLen, h.pathType, h.dt,
        h.dl, h.st, h.sl, h.rsv, ()) := by
  rw [← emitFields_append _ _ rfl rfl, emit_eq_emitFields]
  rfl

theorem emit_scionAddrCommon (h : ScionAddrCommonH) :
    emit h = emitFields [16, 48] (h.dstISD, h.dstAS, ()) ++
      emitFields [16, 48] (h.srcISD, h.srcAS, ()) := by
  rw [← emitFields_append _ _ rfl rfl, emit_eq_emitFields]
  rfl

theorem emit_intShim (h : IntShimH) :
    emit h = emitFields [4, 2, 2] (h.type, h.npt, h.r, ()) ++ (emitFields [8] (h.length, ()) ++
      emitFields [16] (h.udpPort, ())) := by
  rw [← emitFields_append _ _ rfl rfl, ← emitFields_append _ _ rfl rfl, emit_eq_emitFields]
  rfl

theorem emit_intMd (h : IntMdH) :
    emit h = emitFields [4, 1, 1, 1, 12, 5] (h.version, h.discard, h.exceededHopCount,
        h.mtuExceeded, h.reserved, h.hopML, ()) ++ (emitFields [8] (h.remainingHopCount, ()) ++
      (emitFields [16] (h.instructionBitmap, ()) ++ (emitFields [16] (h.domainID, ()) ++
        (emitFields [16] (h.domainInstructions, ()) ++ emitFields [16] (h.domainFlags, ()))))) := by
  rw [← emitFields_append _ _ rfl rfl, ← emitFields_append _ _ rfl rfl,
    ← emitFields_append _ _ rfl rfl, ← emitFields_append _ _ rfl rfl,
    ← emitFields_append _ _ rfl rfl, emit_eq_emitFields]
  rfl

/-- A single field of whole bytes is read back as its value. -/
theorem ofNat_ofBytes_emitFields {w : ℕ} (hw : w % 8 = 0) (x : BitVec w) :
    BitVec.ofNat w (ofBytes (emitFields [w] (x, ()))) = x := by
  rw [ofBytes_emitFields _ (by simpa using hw)]
  simp [packFields]

/-! ### The packet-in -/

/-- The payload of a packet-in: `int_cpu`, the headers of a frame up to INT-MD, and what follows. -/
def cpuPayload (q : ScionFrame) (intShim : IntShimH) (intMd : IntMdH) (behind : List Byte) :
    List Byte :=
  emit (IntCpuH.mk INT_IDENTIFIER (BitVec.ofNat 64 (q.emitScion.length + 16))) ++
    (q.emitScion ++ (emit intShim ++ (emit intMd ++ behind)))

/-- The headers of a frame are short, so that no offset wraps around. -/
theorem ScionFrame.length_emitScion_lt (q : ScionFrame) : q.emitScion.length < 4096 := by
  have hopt : ∀ {H : Type} [Header H] (o : Option H), (emitOpt o).length ≤ Header.size H := by
    intro H _ o
    cases o with
    | none => simp
    | some h => simp
  have hhost : ∀ h : ScionHostT, h.emit.length ≤ 28 := by
    intro h
    have h1 := hopt h.host32
    have h2 := hopt h.host32_2
    have h3 := hopt h.host32_3
    have h4 := hopt h.host128
    simp only [ScalarH.size_eq] at h1 h2 h3 h4
    simp only [ScionHostT.emit, List.length_append]
    omega
  have haddr : q.scionAddr.emit.length ≤ 72 := by
    have h1 := hopt q.scionAddr.common
    have h2 := hhost q.scionAddr.dst
    have h3 := hhost q.scionAddr.src
    simp only [ScionAddrCommonH.size_eq] at h1
    simp only [ScionAddrT.emit, List.length_append]
    omega
  have hpath : q.scionPath.emit.length ≤ 2296 := by
    have h1 := hopt q.scionPath.pathMeta
    have h2 := hopt q.scionPath.infoField0
    have h3 := hopt q.scionPath.infoField1
    have h4 := hopt q.scionPath.infoField2
    have h5 : (VarBits.emitOpt q.scionPath.hopFields).length ≤ 2268 := by
      cases q.scionPath.hopFields with
      | none => simp
      | some v =>
        have := v.length_le
        rw [VarBits.emitOpt_some]
        omega
    simp only [ScionPathMetaH.size_eq, ScionInfoFieldH.size_eq] at h1 h2 h3 h4
    simp only [ScionPathT.emit, List.length_append]
    omega
  rw [q.length_emitScion]
  omega

namespace IntController

/-- The offset of what lies `k` bytes in front of the stack. -/
theorem toNat_backward {n : ℕ} (hn : n < 4096) {k : BitVec 64} (hk : k.toNat ≤ 16) :
    ((16 + BitVec.ofNat 64 (n + 16) - k).setWidth 32).toNat = 32 + n - k.toNat := by
  have hk' := k.isLt
  rw [BitVec.toNat_setWidth, BitVec.toNat_sub, BitVec.toNat_add, BitVec.toNat_ofNat]
  simp only [BitVec.ofNat_eq_ofNat, BitVec.toNat_ofNat]
  omega

section

variable (q : ScionFrame) (intShim : IntShimH) (intMd : IntMdH) (behind : List Byte)

theorem length_cpuPayload :
    (cpuPayload q intShim intMd behind).length = 32 + q.emitScion.length + behind.length := by
  simp only [cpuPayload, List.length_append, length_emit, IntCpuH.size_eq, IntShimH.size_eq,
    IntMdH.size_eq]
  omega

theorem identifier_cpuPayload :
    identifier (cpuPayload q intShim intMd behind) = INT_IDENTIFIER := by
  have hbytes : bytesAt 0 8 (cpuPayload q intShim intMd behind) =
      emitFields [64] (ScionInt.INT_IDENTIFIER, ()) := by
    rw [cpuPayload, emit_intCpu, List.append_assoc]
    exact bytesAt_zero_append (by simp) _
  rw [identifier, hbytes, ofNat_ofBytes_emitFields (by decide)]
  rfl

theorem hdrLen_cpuPayload : hdrLen (cpuPayload q intShim intMd behind) =
    BitVec.ofNat 64 (q.emitScion.length + 16) := by
  have hbytes : bytesAt 8 8 (cpuPayload q intShim intMd behind) =
      emitFields [64] (BitVec.ofNat 64 (q.emitScion.length + 16), ()) := by
    rw [cpuPayload, emit_intCpu, List.append_assoc]
    exact bytesAt_append (by simp) (by simp) _
  rw [hdrLen, hbytes, ofNat_ofBytes_emitFields (by decide)]

/-- The flow ID is the low 20 bits of the first word of the SCION common header. -/
theorem flowKeyMsg_cpuPayload : (flowKeyMsg (cpuPayload q intShim intMd behind)).toNat % 2 ^ 20 =
    q.scionCommon.flowID.toNat := by
  have hbytes : bytesAt 16 4 (cpuPayload q intShim intMd behind) =
      emitFields [4, 8, 20] (q.scionCommon.version, q.scionCommon.qos, q.scionCommon.flowID, ()) := by
    rw [cpuPayload, ScionFrame.emitScion, emit_scionCommon]
    simp only [List.append_assoc]
    exact bytesAt_append (by simp) (by simp) _
  have hlt := packFields_lt [4, 8, 20]
    (q.scionCommon.version, q.scionCommon.qos, q.scionCommon.flowID, ())
  have hflow : q.scionCommon.flowID.toNat < 2 ^ 20 := q.scionCommon.flowID.isLt
  rw [flowKeyMsg, hbytes, ofBytes_emitFields _ rfl, BitVec.toNat_ofNat]
  simp only [packFields, List.sum_cons, List.sum_nil] at hlt ⊢
  omega

/-- The address behind the SCION common header. -/
theorem asAddr_cpuPayload : (asAddr (cpuPayload q intShim intMd behind)).toNat =
    q.dst.1.toNat * 2 ^ 48 + q.dst.2.toNat := by
  obtain ⟨common, hcommon⟩ := Option.isSome_iff_exists.mp q.addr_matches.common
  have hdst : q.dst = (common.dstISD, common.dstAS) := by rw [ScionFrame.dst, hcommon]; rfl
  have hbytes : bytesAt 28 8 (cpuPayload q intShim intMd behind) =
      emitFields [16, 48] (common.dstISD, common.dstAS, ()) := by
    rw [cpuPayload, ScionFrame.emitScion, ScionAddrT.emit, hcommon, emitOpt_some,
      emit_scionAddrCommon]
    simp only [List.append_assoc]
    rw [← List.append_assoc]
    exact bytesAt_append (by simp) (by simp) _
  have hlt := packFields_lt [16, 48] (common.dstISD, common.dstAS, ())
  rw [asAddr, hbytes, ofBytes_emitFields _ rfl, BitVec.toNat_ofNat, hdst]
  simp only [packFields, List.sum_cons, List.sum_nil] at hlt ⊢
  omega

/-- A window of the shim and INT-MD, `k` bytes in front of the stack. -/
theorem bytesAt_backward {k : BitVec 64} (hk : k.toNat ≤ 16) {n : ℕ} {pre bytes post : List Byte}
    (h : emit intShim ++ (emit intMd ++ behind) = pre ++ (bytes ++ post))
    (hpre : pre.length + k.toNat = 16) (hn : bytes.length = n) :
    bytesAt ((16 + hdrLen (cpuPayload q intShim intMd behind) - k).setWidth 32).toNat n
      (cpuPayload q intShim intMd behind) = bytes := by
  rw [hdrLen_cpuPayload, toNat_backward q.length_emitScion_lt hk, cpuPayload, h,
    ← List.append_assoc q.emitScion, ← List.append_assoc]
  refine bytesAt_append ?_ hn post
  simp only [List.length_append, length_emit, IntCpuH.size_eq]
  omega

/-- `int_shim.length` lies 15 bytes in front of the stack. -/
theorem shimLength_cpuPayload :
    shimLength (cpuPayload q intShim intMd behind) = intShim.length := by
  have hsplit : emit intShim ++ (emit intMd ++ behind) =
      emitFields [4, 2, 2] (intShim.type, intShim.npt, intShim.r, ()) ++
        (emitFields [8] (intShim.length, ()) ++
          (emitFields [16] (intShim.udpPort, ()) ++ (emit intMd ++ behind))) := by
    rw [emit_intShim, List.append_assoc, List.append_assoc]
  rw [shimLength, BitVec.sub_sub, bytesAt_backward q intShim intMd behind (k := 12 + 3) (by decide)
    hsplit (by simp) (by simp), ofNat_ofBytes_emitFields (by decide)]

/-- The fields of INT-MD up to `hopML` fill three bytes. -/
def intMdFront (intMd : IntMdH) : Fields [4, 1, 1, 1, 12, 5] :=
  (intMd.version, intMd.discard, intMd.exceededHopCount, intMd.mtuExceeded, intMd.reserved,
    intMd.hopML, ())

/-- `hopML` is the low part of the byte 10 bytes in front of the stack. -/
theorem intHopSize_cpuPayload :
    intHopSize (cpuPayload q intShim intMd behind) = intMd.hopML.toNat := by
  have hsplit : emit intShim ++ (emit intMd ++ behind) =
      (emit intShim ++ toBytes 2 (packFields _ (intMdFront intMd) / 256)) ++
        (toBytes 1 (packFields _ (intMdFront intMd)) ++
          (emitFields [8] (intMd.remainingHopCount, ()) ++
            (emitFields [16] (intMd.instructionBitmap, ()) ++ (emitFields [16] (intMd.domainID, ()) ++
              (emitFields [16] (intMd.domainInstructions, ()) ++
                (emitFields [16] (intMd.domainFlags, ()) ++ behind)))))) := by
    rw [emit_intMd]
    show _ ++ ((toBytes (2 + 1) (packFields _ (intMdFront intMd)) ++ _) ++ _) = _
    rw [toBytes_add]
    simp only [List.append_assoc, pow_one]
  have hhopML : intMd.hopML.toNat < 2 ^ 5 := intMd.hopML.isLt
  rw [intHopSize, hopMLByte, bytesAt_backward q intShim intMd behind (k := 10) (by decide) hsplit
    (by simp) (by simp), ofBytes_toBytes, BitVec.toNat_ofNat]
  simp only [packFields, intMdFront, List.sum_cons, List.sum_nil]
  omega

theorem instructionBits_cpuPayload :
    instructionBits (cpuPayload q intShim intMd behind) = intMd.instructionBitmap := by
  have hsplit : emit intShim ++ (emit intMd ++ behind) =
      (emit intShim ++ (emitFields _ (intMdFront intMd) ++
        emitFields [8] (intMd.remainingHopCount, ()))) ++
        (emitFields [16] (intMd.instructionBitmap, ()) ++ (emitFields [16] (intMd.domainID, ()) ++
          (emitFields [16] (intMd.domainInstructions, ()) ++
            (emitFields [16] (intMd.domainFlags, ()) ++ behind)))) := by
    rw [emit_intMd]
    simp only [List.append_assoc, intMdFront]
  rw [instructionBits, bytesAt_backward q intShim intMd behind (k := 8) (by decide) hsplit
    (by simp) (by simp), ofNat_ofBytes_emitFields (by decide)]

theorem domainBits_cpuPayload :
    domainBits (cpuPayload q intShim intMd behind) = intMd.domainInstructions := by
  have hsplit : emit intShim ++ (emit intMd ++ behind) =
      (emit intShim ++ (emitFields _ (intMdFront intMd) ++
        (emitFields [8] (intMd.remainingHopCount, ()) ++
          (emitFields [16] (intMd.instructionBitmap, ()) ++
            emitFields [16] (intMd.domainID, ()))))) ++
        (emitFields [16] (intMd.domainInstructions, ()) ++
          (emitFields [16] (intMd.domainFlags, ()) ++ behind)) := by
    rw [emit_intMd]
    simp only [List.append_assoc, intMdFront]
  rw [domainBits, bytesAt_backward q intShim intMd behind (k := 4) (by decide) hsplit
    (by simp) (by simp), ofNat_ofBytes_emitFields (by decide)]

theorem toNat_stackPos_cpuPayload :
    (stackPos (cpuPayload q intShim intMd behind)).toNat = 32 + q.emitScion.length := by
  have hlt := q.length_emitScion_lt
  rw [stackPos, hdrLen_cpuPayload, toNat_add_setWidth]
  all_goals
    rw [BitVec.toNat_ofNat]
    omega

end

end IntController

end ScionInt
