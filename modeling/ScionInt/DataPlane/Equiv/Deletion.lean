import ScionInt.DataPlane.Equiv.Accumulation
import ScionInt.DataPlane.Equiv.Confinement

/-!
# What `delete_int` removes

`delete_int` subtracts `subLen`, the size of the INT headers that the shim announces, from four length
fields, while the bytes that disappear are those of the headers that the parser has extracted: the shim,
INT-MD if the type is MD and the bytes are there, and the stack if it fits into `pre_int_stack`.
`parse_shim` counts the extracted bytes (`IntShimH.extracted`).

Main results: `shrinks_iff`, the shims for which the two numbers agree and no length field wraps, and
`removes_iff`, the hop limit up to which a sink removes the stack.
-/

namespace ScionInt

open Wire INTSwitchEgress

/-! ### What the parser extracts -/

/-- The stack that the shim announces is there and fits into `pre_int_stack`, with `n` bytes behind the
shim. -/
def IntShimH.StackExtracted (intShim : IntShimH) (n : ℕ) : Prop :=
  3 ≤ intShim.length.toNat ∧ intShim.length.toNat ≤ 68 ∧ 4 * intShim.length.toNat ≤ n

instance (intShim : IntShimH) (n : ℕ) : Decidable (intShim.StackExtracted n) :=
  inferInstanceAs (Decidable (_ ∧ _ ∧ _))

/-- The number of bytes of the INT headers that the parser extracts, with `n` bytes behind the shim. -/
def IntShimH.extracted (intShim : IntShimH) (n : ℕ) : ℕ :=
  if intShim.type = INTType.MD ∧ 12 ≤ n then
    if intShim.StackExtracted n then 4 + 4 * intShim.length.toNat else 16
  else 4

theorem IntShimH.extracted_notMd {intShim : IntShimH} {n : ℕ}
    (h : intShim.type ≠ INTType.MD ∨ n < 12) : intShim.extracted n = 4 := by
  rw [extracted, if_neg]
  rintro ⟨htype, hn⟩
  rcases h with h | h
  · exact h htype
  · omega

theorem IntShimH.extracted_stack {intShim : IntShimH} (htype : intShim.type = INTType.MD)
    {rest : List Byte} (hfits : intShim.StackFits rest) :
    intShim.extracted (12 + rest.length) = 4 + 4 * intShim.length.toNat := by
  rw [extracted, if_pos ⟨htype, Nat.le_add_right 12 _⟩,
    if_pos (show intShim.StackExtracted _ from (intShim.stackFits_iff rest).mp hfits)]

theorem IntShimH.extracted_badStack {intShim : IntShimH} (htype : intShim.type = INTType.MD)
    {rest : List Byte} (hfits : ¬ intShim.StackFits rest) :
    intShim.extracted (12 + rest.length) = 16 := by
  rw [extracted, if_pos ⟨htype, Nat.le_add_right 12 _⟩,
    if_neg (show ¬ intShim.StackExtracted _ from fun h => hfits ((intShim.stackFits_iff rest).mpr h))]

/-- A frame in which the parser finds a shim, and the size of the INT headers that it extracts. -/
theorem parse_shim {frame : List Byte} {intShim : IntShimH}
    (h : (parse frame).hdr.intShim = some intShim) :
    ∃ (q : ScionFrame) (intMd : Option IntMdH) (v : Option PreIntStackH)
      (payload : Option PayloadH) (behind : List Byte),
      (parse frame).hdr = q.withInt ⟨some intShim, intMd, { preIntStack := v }⟩ payload ∧
      frame = q.emit ++ (emit intShim ++ behind) ∧
      (IntHeadersT.mk (some intShim) intMd { preIntStack := v }).emit.length =
        intShim.extracted behind.length := by
  have hout := parse_outcome frame
  generalize parse frame = r at hout h
  -- the emitted size for every combination of headers
  have hemit (intMd : Option IntMdH) (v : Option PreIntStackH) :
      (IntHeadersT.mk (some intShim) intMd { preIntStack := v }).emit.length =
        4 + ((emitOpt intMd).length + (VarBits.emitOpt v).length) := by
    simp [IntHeadersT.emit, IntStackT.emit, IntStackT.emitHop]
  have hbehind (intMd : IntMdH) (rest : List Byte) :
      (emit intMd ++ rest).length = 12 + rest.length := by
    rw [List.length_append, length_emit, IntMdH.size_eq]
  -- with a stack it is what the shim announces
  have hstack {intMd : IntMdH} {v : PreIntStackH}
      (hbits : (IntParser.intStackBits intShim).toNat = 8 * v.data.length) :
      4 + ((emitOpt (some intMd)).length + (VarBits.emitOpt (some v)).length) =
        4 + 4 * intShim.length.toNat := by
    have h3 := three_le_length_of_stack hbits
    rw [IntParser.toNat_intStackBits h3] at hbits
    rw [emitOpt_some, VarBits.emitOpt_some, length_emit, IntMdH.size_eq]
    omega
  cases hout with
  | noEthernet | notIpv4 | noIpv4 | notUdp | noUdp | noUdpScion | noInt | noShim => cases h
  | notMd q intShim' rest hport htype =>
    obtain rfl : intShim' = intShim := Option.some.inj h
    refine ⟨q, none, none, none, rest, rfl, rfl, ?_⟩
    rw [hemit, IntShimH.extracted_notMd (.inl htype)]
    rfl
  | noMd q intShim' rest hport htype hlen =>
    obtain rfl : intShim' = intShim := Option.some.inj h
    refine ⟨q, none, none, none, rest, rfl, rfl, ?_⟩
    rw [hemit, IntShimH.extracted_notMd (.inr hlen)]
    rfl
  | emptyStack q intShim' intMd rest hport htype hlen =>
    obtain rfl : intShim' = intShim := Option.some.inj h
    refine ⟨q, some intMd, none, none, emit intMd ++ rest, rfl, rfl, ?_⟩
    have h3 : intShim'.length.toNat = 3 := by
      rw [hlen]
      rfl
    have hfits : intShim'.StackFits rest := (intShim'.stackFits_iff rest).mpr (by omega)
    rw [hemit, hbehind, IntShimH.extracted_stack htype hfits, h3, emitOpt_some, length_emit]
    rfl
  | badStack q intShim' intMd rest hport htype hlen hfits =>
    obtain rfl : intShim' = intShim := Option.some.inj h
    refine ⟨q, some intMd, none, none, emit intMd ++ rest, rfl, rfl, ?_⟩
    rw [hemit, hbehind, IntShimH.extracted_badStack htype hfits, emitOpt_some, length_emit]
    rfl
  | badPayload q intShim' intMd v rest hport htype hlen hbits =>
    obtain rfl : intShim' = intShim := Option.some.inj h
    refine ⟨q, some intMd, some v, none, emit intMd ++ (v.data ++ rest), rfl, rfl, ?_⟩
    rw [hemit, hbehind, IntShimH.extracted_stack htype ⟨v, rest, rfl, hbits⟩]
    exact hstack hbits
  | payload q intShim' intMd v payload rest hport htype hlen hbits =>
    obtain rfl : intShim' = intShim := Option.some.inj h
    refine ⟨q, some intMd, some v, some payload, emit intMd ++ (v.data ++ (payload.data ++ rest)), rfl,
      rfl, ?_⟩
    rw [hemit, hbehind, IntShimH.extracted_stack htype ⟨v, payload.data ++ rest, rfl, hbits⟩]
    exact hstack hbits

/-! ### What the length fields lose -/

/-- The shim announces exactly the headers that the parser extracts, with `n` bytes behind the shim:
nothing if there is no INT-MD, else INT-MD and a stack that is there and fits. -/
def IntShimH.Truthful (intShim : IntShimH) (n : ℕ) : Prop :=
  ((intShim.type ≠ INTType.MD ∨ n < 12) ∧ intShim.length = 0) ∨
    (intShim.type = INTType.MD ∧ intShim.StackExtracted n)

theorem toNat_subLen_eq_iff (intShim : IntShimH) (n : ℕ) :
    (subLen intShim).toNat = intShim.extracted n ↔ intShim.Truthful n := by
  have hzero : intShim.length = 0 ↔ intShim.length.toNat = 0 := BitVec.toNat_inj.symm
  rw [toNat_subLen, IntShimH.extracted, IntShimH.Truthful, hzero]
  by_cases hmd : intShim.type = INTType.MD ∧ 12 ≤ n
  · have hnot : ¬ (intShim.type ≠ INTType.MD ∨ n < 12) := by
      rintro (h | h)
      · exact h hmd.1
      · omega
    rw [if_pos hmd]
    by_cases hstack : intShim.StackExtracted n
    · rw [if_pos hstack]
      exact iff_of_true rfl (.inr ⟨hmd.1, hstack⟩)
    · rw [if_neg hstack]
      refine iff_of_false (fun h => hstack ⟨by omega, by omega, by omega⟩) ?_
      rintro (h | h)
      · exact hnot h.1
      · exact hstack h.2
  · rw [if_neg hmd]
    constructor
    · intro h
      refine .inl ⟨?_, by omega⟩
      by_contra hnot
      push Not at hnot
      exact hmd hnot
    · rintro (h | ⟨htype, h3, -, hn⟩)
      · omega
      · exact absurd ⟨htype, by omega⟩ hmd

/-- A frame whose length fields have lost `n`: those of `q` minus `n`, where no subtraction wraps if those
of `q` are the byte counts they describe. -/
structure ScionFrame.ShrinksTo (q : ScionFrame) (n : ℕ) (q' : ScionFrame) : Prop where
  totalLen : q'.ipv4.totalLen = q.ipv4.totalLen - BitVec.ofNat 16 n
  len : q'.udp.len = q.udp.len - BitVec.ofNat 16 n
  payloadLen : q'.scionCommon.payloadLen = q.scionCommon.payloadLen - BitVec.ofNat 16 n
  udpScionLen : q'.udpScion.len = q.udpScion.len - BitVec.ofNat 16 n
  noWrap : ∀ m, q.LengthsMatch m → q'.GrownBy q n

/-- If the length fields are byte counts, then the shim announces no more than they count from the SCION-UDP
header on. -/
def ScionFrame.CountsInt (q : ScionFrame) (intShim : IntShimH) : Prop :=
  ∀ m, q.LengthsMatch m → 4 + 4 * intShim.length.toNat ≤ 8 + m

/-- Of the length fields that are byte counts those of the SCION headers are the first to wrap. -/
theorem ScionFrame.LengthsMatch.grownBy_subLen_iff {q : ScionFrame} {m : ℕ} {n : BitVec 16}
    (h : q.LengthsMatch m) : (q.addLen (-n)).GrownBy q n.toNat ↔ n.toNat ≤ 8 + m := by
  have hsub (x : BitVec 16) : x.toNat = (x + -n).toNat + n.toNat ↔ n.toNat ≤ x.toNat := by
    have hx := x.isLt
    have hn := n.isLt
    rw [← BitVec.sub_eq_add_neg, BitVec.toNat_sub]
    omega
  obtain ⟨h1, h2, h3, h4⟩ := h
  constructor
  · intro hgrown
    rw [← h4]
    exact (hsub _).mp hgrown.udpScionLen
  · intro hle
    exact ⟨(hsub _).mpr (by omega), (hsub _).mpr (by omega), (hsub _).mpr (by omega),
      (hsub _).mpr (by omega)⟩

/-- The frame that `delete_int` leaves has lost `subLen` and nothing else. -/
theorem shrinksTo_iff (q : ScionFrame) (intShim : IntShimH) (hdrChecksum checksum : BitVec 16) {n : ℕ}
    (hn : n < 2 ^ 16) :
    q.ShrinksTo n (((q.setPort intShim.udpPort).addLen (-subLen intShim)).withChecksums hdrChecksum
      checksum) ↔ (subLen intShim).toNat = n ∧ q.CountsInt intShim := by
  have hwrap {m : ℕ} (hm : q.LengthsMatch m) :
      (((q.setPort intShim.udpPort).addLen (-subLen intShim)).withChecksums hdrChecksum
        checksum).GrownBy q (subLen intShim).toNat ↔ 4 + 4 * intShim.length.toNat ≤ 8 + m := by
    rw [← toNat_subLen, ← hm.grownBy_subLen_iff]
    exact ⟨fun h => ⟨h.totalLen, h.len, h.payloadLen, h.udpScionLen⟩,
      fun h => ⟨h.totalLen, h.len, h.payloadLen, h.udpScionLen⟩⟩
  constructor
  · intro h
    have htotalLen := h.totalLen
    have hfield : q.ipv4.totalLen + -subLen intShim = q.ipv4.totalLen - BitVec.ofNat 16 n := htotalLen
    rw [BitVec.sub_eq_add_neg, BitVec.add_right_inj, BitVec.neg_inj] at hfield
    have hsub : (subLen intShim).toNat = n := by
      rw [hfield, BitVec.toNat_ofNat, Nat.mod_eq_of_lt hn]
    exact ⟨hsub, fun m hm => (hwrap hm).mp (hsub ▸ h.noWrap m hm)⟩
  · rintro ⟨rfl, hcounts⟩
    have hfield (x : BitVec 16) :
        x + -subLen intShim = x - BitVec.ofNat 16 (subLen intShim).toNat := by
      rw [BitVec.ofNat_toNat, BitVec.setWidth_eq, BitVec.sub_eq_add_neg]
    exact ⟨hfield _, hfield _, hfield _, hfield _, fun m hm => (hwrap hm).mpr (hcounts m hm)⟩

/-! ### The copies of a sink -/

/-- The copies, clones apart, on which `delete_int` ran: the received frame without the bytes that the
parser has extracted as INT headers. -/
theorem wire_delete {sw : Switch} {a : Arrival} {c : Packet} {intShim : IntShimH}
    (hrun : sw.RunsClone a) (hshim : (parse a.frame).hdr.intShim = some intShim)
    (hc : c ∈ sw.process a) (horig : ¬ c.isClone) :
    ∃ (q : ScionFrame) (behind rest : List Byte) (hdrChecksum checksum : BitVec 16),
      a.frame = q.emit ++ (emit intShim ++ behind) ∧
      c.wire = (((q.setPort intShim.udpPort).addLen (-subLen intShim)).withChecksums hdrChecksum
        checksum).emit ++ rest ∧
      a.frame.length - c.wire.length = intShim.extracted behind.length := by
  obtain ⟨q, intMd, v, payload, behind, hhdr, hframe, hextracted⟩ := parse_shim hshim
  obtain ⟨p, hp, hrest, hcp⟩ := Switch.mem_process_delete hrun hc horig
  rw [hshim, if_pos Option.isSome_some] at hcp
  obtain ⟨hdrChecksum, checksum, hwire⟩ := wire_withInt (hdr_deleteInt (hp.trans hhdr))
  have hbytes := (parse_outcome a.frame).emit_eq
  have hcrest : c.rest = p.rest := by
    rw [hcp]
    rfl
  rw [hhdr, ScionFrame.emit_withInt, ← hrest] at hbytes
  rw [← hcp, hcrest] at hwire
  refine ⟨q, behind, _, hdrChecksum, checksum, hframe, hwire, ?_⟩
  have hempty : (IntHeadersT.emit {}).length = 0 := rfl
  rw [← hbytes, hwire, ← hextracted]
  simp only [List.length_append, ScionFrame.length_emit, ScionFrame.length_emitScion_withChecksums,
    ScionFrame.length_emitScion_addLen, ScionFrame.length_emitScion_setPort, hempty]
  omega

theorem IntShimH.extracted_lt (intShim : IntShimH) (n : ℕ) : intShim.extracted n < 2 ^ 16 := by
  have hlt : intShim.length.toNat < 2 ^ 8 := intShim.length.isLt
  rw [extracted]
  split_ifs <;> omega

/-- The length fields lose as much as the frame, without wrapping, exactly if the shim announces the headers
that the parser extracts and the length fields, if they are byte counts, count them. -/
theorem shrinks_iff {sw : Switch} {a : Arrival} {c : Packet} {intShim : IntShimH}
    (hrun : sw.RunsClone a) (hshim : (parse a.frame).hdr.intShim = some intShim)
    (hc : c ∈ sw.process a) (horig : ¬ c.isClone) :
    ∃ (q q' : ScionFrame) (behind rest : List Byte),
      a.frame = q.emit ++ (emit intShim ++ behind) ∧ c.wire = q'.emit ++ rest ∧
      (q.ShrinksTo (a.frame.length - c.wire.length) q' ↔
        intShim.Truthful behind.length ∧ q.CountsInt intShim) := by
  obtain ⟨q, behind, rest, hdrChecksum, checksum, hframe, hwire, hremoved⟩ :=
    wire_delete hrun hshim hc horig
  refine ⟨q, _, behind, rest, hframe, hwire, ?_⟩
  rw [hremoved, shrinksTo_iff q intShim hdrChecksum checksum (intShim.extracted_lt _),
    toNat_subLen_eq_iff]

/-- The copy of a sample frame with INT headers that a sink emits for the receiver. -/
@[irreducible] def sampleIntReceived (intShim : IntShimH) (stack : List Byte) : Packet :=
  (sampleCopies .clone_int (sampleIntBytes intShim stack samplePayload)).getD 1 default

/-- `clone_int` runs on the sample frame with INT headers, and this copy of it is emitted. -/
theorem sampleIntReceived_mem :
    ((sampleSwitch .clone_int).RunsClone
      (sampleArrival (sampleIntBytes sampleShim sampleStack samplePayload)) ∧
    (parse (sampleIntBytes sampleShim sampleStack samplePayload)).hdr.intShim = some sampleShim) ∧
    sampleIntReceived sampleShim sampleStack ∈ (sampleSwitch .clone_int).process
      (sampleArrival (sampleIntBytes sampleShim sampleStack samplePayload)) ∧
    ¬ (sampleIntReceived sampleShim sampleStack).isClone := by
  decide +kernel

theorem shrinks_iff_sample :
    ∃ (q q' : ScionFrame) (behind rest : List Byte),
      sampleIntBytes sampleShim sampleStack samplePayload = q.emit ++ (emit sampleShim ++ behind) ∧
      (sampleIntReceived sampleShim sampleStack).wire = q'.emit ++ rest ∧
      (q.ShrinksTo ((sampleIntBytes sampleShim sampleStack samplePayload).length -
        (sampleIntReceived sampleShim sampleStack).wire.length) q' ↔
          sampleShim.Truthful behind.length ∧ q.CountsInt sampleShim) :=
  shrinks_iff (a := sampleArrival (sampleIntBytes sampleShim sampleStack samplePayload))
    sampleIntReceived_mem.1.1 sampleIntReceived_mem.1.2 sampleIntReceived_mem.2.1
    sampleIntReceived_mem.2.2

/-- A shim of another type than MD that announces three words. -/
def foreignShim : IntShimH := ⟨0x3, 1, 0, 3, 40001⟩

/-- A frame with a shim of another type, whose length fields are consistent: it loses 4 bytes, its length
fields lose 16. -/
theorem shrinks_counterexample :
    (sampleIntFrame []).LengthsMatch (4 + 12 + samplePayload.length) ∧
    sampleIntReceived foreignShim [] ∈ (sampleSwitch .clone_int).process
      (sampleArrival (sampleIntBytes foreignShim [] samplePayload)) ∧
    ¬ (sampleIntReceived foreignShim []).isClone ∧
    (sampleIntBytes foreignShim [] samplePayload).length =
      (sampleIntReceived foreignShim []).wire.length + 4 ∧
    word 16 (sampleIntBytes foreignShim [] samplePayload) =
      word 16 (sampleIntReceived foreignShim []).wire + 16 :=
  ⟨⟨by decide, by decide, by decide, by decide⟩, by decide +kernel, by decide +kernel,
    by decide +kernel, by decide +kernel⟩

/-! ### The hop limit -/

theorem length_flatten_records {records : List (List Byte)} {n : ℕ}
    (h : ∀ r ∈ records, r.length = n) : records.flatten.length = records.length * n := by
  rw [List.length_flatten, List.map_congr_left h, List.map_const',
    List.sum_replicate_nat]

/-- The sink removes a stack of `k` records of `w` words, and gives back the frame without INT, exactly if
the stack has at most 65 words. -/
theorem removes_iff {sw : Switch} {a : Arrival} {c : Packet} {q : ScionFrame} {intShim : IntShimH}
    {intMd : IntMdH} {records : List (List Byte)} {w : ℕ} {payload : List Byte}
    {hdrChecksum checksum : BitVec 16} (htype : intShim.type = INTType.MD)
    (hudpPort : intShim.udpPort = q.udpScion.dstPort) (hrecords : ∀ r ∈ records, r.length = 4 * w)
    (hlength : intShim.length.toNat = 3 + records.length * w)
    (hframe : a.frame = (((q.setPort UDP_PORT).addLen
      (BitVec.ofNat 16 (16 + 4 * (records.length * w)))).withChecksums hdrChecksum checksum).emit ++
        (emit intShim ++ (emit intMd ++ (records.flatten ++ payload))))
    (hentry : sw.scionInt.lookup q.dst = some .clone_int) (hc : c ∈ sw.process a)
    (horig : ¬ c.isClone) :
    (VarBits.emitOpt (parse a.frame).hdr.intStack.preIntStack = records.flatten ∧
      SameUpToChecksums c.wire (q.emit ++ payload)) ↔ records.length * w ≤ 65 := by
  have hlen : records.flatten.length = 4 * (records.length * w) := by
    rw [length_flatten_records hrecords, Nat.mul_left_comm]
  rw [← subLen_of_length hlength] at hframe
  constructor
  · rintro ⟨hextracted, -⟩
    -- a longer stack is a parser error behind INT-MD
    by_contra hlong
    have hfits : ¬ intShim.StackFits (records.flatten ++ payload) := by
      rw [IntShimH.stackFits_iff]
      omega
    have hparse := parse_badStack
      (((q.setPort UDP_PORT).addLen (subLen intShim)).withChecksums hdrChecksum checksum) rfl htype
      intMd hfits
    rw [← hframe] at hparse
    rw [hparse] at hextracted
    have hnil : ([] : List Byte).length = records.flatten.length := congrArg List.length hextracted
    rw [hlen, List.length_nil] at hnil
    omega
  · intro hfit
    have hmax : 8 * records.flatten.length ≤ SPACE_FOR_HOPS := by
      rw [hlen, SPACE_FOR_HOPS]
      omega
    obtain ⟨v, pl, accepted, stackLen, rest, hparse, hv, hpl⟩ := parse_int
      (((q.setPort UDP_PORT).addLen (subLen intShim)).withChecksums hdrChecksum checksum) rfl htype
      intMd (v := ⟨records.flatten, hmax⟩) (by rw [hlength, hlen]; omega) payload
    rw [← hframe] at hparse
    obtain ⟨hdrChecksum', checksum', hwire⟩ :=
      wire_sink (congrArg ParsedPacket.hdr hparse) hudpPort hentry hc horig
    refine ⟨?_, ?_⟩
    · rw [hparse]
      exact hv
    · rw [hwire, hparse, hpl]
      exact q.sameUpToChecksums hdrChecksum' checksum' payload

theorem removes_iff_sample :
    (VarBits.emitOpt (parse (sampleIntBytes sampleShim sampleStack samplePayload)).hdr.intStack.preIntStack =
        [sampleStack].flatten ∧
      SameUpToChecksums (sampleIntReceived sampleShim sampleStack).wire
        (sampleFrame.emit ++ samplePayload)) ↔ [sampleStack].length * 5 ≤ 65 :=
  removes_iff (a := sampleArrival (sampleIntBytes sampleShim sampleStack samplePayload)) rfl rfl
    (by decide) rfl (frame_sampleIntBytes sampleShim sampleStack samplePayload)
    (lookup_sampleSwitch _) sampleIntReceived_mem.2.1 sampleIntReceived_mem.2.2

/-- Ten records of 13 words. -/
def longRecords : List (List Byte) := List.replicate 10 (List.replicate 52 0x07)

def longShim : IntShimH := ⟨INTType.MD, 1, 0, 133, 40001⟩

/-- The sink leaves a stack of the declared size in the frame. -/
theorem removes_counterexample :
    (∀ r ∈ longRecords, r.length = 4 * 13) ∧ longRecords.length = NUM_INTER_HOPS.toNat ∧
    (sampleIntFrame longRecords.flatten).CarriesInt longShim longRecords.flatten samplePayload ∧
    sampleIntReceived longShim longRecords.flatten ∈ (sampleSwitch .clone_int).process
      (sampleArrival (sampleIntBytes longShim longRecords.flatten samplePayload)) ∧
    ¬ (sampleIntReceived longShim longRecords.flatten).isClone ∧
    ¬ SameUpToChecksums (sampleIntReceived longShim longRecords.flatten).wire
      (sampleFrame.emit ++ samplePayload) :=
  ⟨by decide, by decide, carriesInt_sampleIntFrame _ _ _ rfl (by decide +kernel) rfl
    (by decide +kernel), by decide +kernel, by decide +kernel, fun h => absurd h.1 (by decide +kernel)⟩

end ScionInt
