import ScionInt.DataPlane.Equiv.Passing
import ScionInt.Wire.Inlay

/-!
# Several sources on one path

`insert_int` does not look for INT in a frame.  On a frame with INT it writes `int_shim` and `int_md` anew,
so that the next switch takes as many bytes for the stack as the last record has, and lays its own record in
behind them.  `Overlaid` is a frame into which switches have laid records in this way.

Main result: `overlaid_path`, all switches of a path keep this form, and a sink removes as many bytes as the
last record has and leaves the rest to the host.
-/

namespace ScionInt

open Wire INTSwitchEgress

/-! ### Frames with records of several switches -/

/-- What a switch inserts: its record, for the bitmaps of its entry. -/
structure Insertion where
  record : List Byte
  instructionBits : BitVec 16
  domainBits : BitVec 16

/-- The payload with the records of the switches, and the length of the last one. -/
def laid (payload : List Byte) (xs : List Insertion) : Inlaid Byte :=
  inlay payload (xs.map Insertion.record)

theorem last_laid (payload : List Byte) (xs : List Insertion) (x : Insertion) :
    (laid payload (xs ++ [x])).last = x.record.length := by
  rw [laid, List.map_append, List.map_singleton, last_inlay]

theorem string_laid (payload : List Byte) (xs : List Insertion) (x : Insertion) :
    (laid payload (xs ++ [x])).string = (laid payload xs).string.take (laid payload xs).last ++
      (x.record ++ (laid payload xs).string.drop (laid payload xs).last) := by
  rw [laid, List.map_append, List.map_singleton, string_inlay]
  rfl

/-- If all records have one length then that of the first switch stays in front, and the others come in
reverse order. -/
theorem laid_same (payload : List Byte) (x : Insertion) {xs : List Insertion}
    (h : ∀ y ∈ xs, y.record.length = x.record.length) :
    laid payload (x :: xs) =
      ⟨x.record.length, x.record ++ ((xs.map Insertion.record).reverse.flatten ++ payload)⟩ := by
  refine inlay_same payload x.record ?_
  intro record hrecord
  obtain ⟨y, hy, rfl⟩ := List.mem_map.mp hrecord
  exact h y hy

namespace ScionFrame

variable (q : ScionFrame)

/-- The length fields count an `int_shim` and an `int_md` for each record. -/
def grown (xs : List Insertion) : ScionFrame :=
  q.addLen (BitVec.ofNat 16 (xs.map fun x => 16 + x.record.length).sum)

/-- The port that the next switch finds. -/
def portBehind (xs : List Insertion) : BitVec 16 := if xs = [] then q.udpScion.dstPort else UDP_PORT

/-- The headers in front of `int_shim`, behind at least one switch. -/
def behind (xs : List Insertion) (hdrChecksum checksum : BitVec 16) : ScionFrame :=
  ((q.grown xs).setPort UDP_PORT).withChecksums hdrChecksum checksum

theorem grown_nil : q.grown [] = q := q.addLen_zero

theorem portBehind_append_singleton (xs : List Insertion) (x : Insertion) :
    q.portBehind (xs ++ [x]) = UDP_PORT :=
  if_neg (List.append_ne_nil_of_right_ne_nil xs (List.cons_ne_nil x []))

/-- The last switch adds the length of its headers to the length fields that it has found. -/
theorem behind_append_singleton (xs : List Insertion) (x : Insertion)
    (port hdrChecksum checksum : BitVec 16) :
    q.behind (xs ++ [x]) hdrChecksum checksum =
      ((((q.grown xs).setPort port).setPort UDP_PORT).addLen
        (BitVec.ofNat 16 (16 + x.record.length))).withChecksums hdrChecksum checksum := by
  unfold behind grown
  rw [List.map_append, List.sum_append, List.map_singleton, List.sum_singleton, BitVec.ofNat_add,
    ← addLen_addLen, setPort_addLen, setPort_setPort]

theorem behind_withChecksums (xs : List Insertion)
    (hdrChecksum checksum hdrChecksum' checksum' : BitVec 16) :
    (q.behind xs hdrChecksum checksum).withChecksums hdrChecksum' checksum' =
      q.behind xs hdrChecksum' checksum' := by
  unfold behind
  rw [withChecksums_withChecksums]

end ScionFrame

section

variable (q : ScionFrame) (payload : List Byte)

/-- The bytes of a frame behind a switch that has inserted `x`, which has `w` words. -/
def insertedBytes (xs : List Insertion) (x : Insertion) (w : ℕ) (hdrChecksum checksum : BitVec 16) :
    List Byte :=
  (q.behind (xs ++ [x]) hdrChecksum checksum).emit ++
    (emit ((sourceShim (q.portBehind xs)).addWords w) ++
      (emit ((sourceMd x.instructionBits x.domainBits).addWords w) ++ (laid payload (xs ++ [x])).string))

/-- The frame `q.emit ++ payload` behind switches that have inserted `xs`, one after the other. -/
inductive Overlaid : List Insertion → List Byte → Prop
  | plain (hdrChecksum checksum : BitVec 16) :
    Overlaid [] ((q.withChecksums hdrChecksum checksum).emit ++ payload)
  | inserted (xs : List Insertion) (x : Insertion) (w : ℕ) (hw : w ≤ 8) (hlength : x.record.length = 4 * w)
      (hdrChecksum checksum : BitVec 16) :
    Overlaid (xs ++ [x]) (insertedBytes q payload xs x w hdrChecksum checksum)

end

variable {q : ScionFrame} {payload : List Byte} {xs : List Insertion} {x : Insertion} {w : ℕ}
  {frame : List Byte}

/-- The next switch takes the first bytes for the stack. -/
theorem parse_insertedBytes (hw : w ≤ 8) (hlength : x.record.length = 4 * w)
    {hdrChecksum checksum : BitVec 16}
    (hframe : frame = insertedBytes q payload xs x w hdrChecksum checksum) :
    ∃ (v : Option PreIntStackH) (pl : Option PayloadH),
      (parse frame).hdr = (q.behind (xs ++ [x]) hdrChecksum checksum).withInt
        ⟨some ((sourceShim (q.portBehind xs)).addWords w),
          some ((sourceMd x.instructionBits x.domainBits).addWords w), { preIntStack := v }⟩ pl ∧
      VarBits.emitOpt v = (laid payload (xs ++ [x])).string.take (laid payload (xs ++ [x])).last ∧
      VarBits.emitOpt pl ++ (parse frame).rest =
        (laid payload (xs ++ [x])).string.drop (laid payload (xs ++ [x])).last := by
  have hlast := last_laid payload xs x
  have hle : (laid payload (xs ++ [x])).last ≤ (laid payload (xs ++ [x])).string.length := last_le _ _
  rw [insertedBytes] at hframe
  -- only the length of the first part matters here, not what has been laid in
  generalize laid payload (xs ++ [x]) = s at hframe hlast hle ⊢
  have htake : (s.string.take s.last).length = 4 * w := by
    rw [List.length_take]
    omega
  have hmax : 8 * (s.string.take s.last).length ≤ SPACE_FOR_HOPS := by
    rw [SPACE_FOR_HOPS]
    omega
  have hlen : 4 * ((sourceShim (q.portBehind xs)).addWords w).length.toNat =
      12 + (s.string.take s.last).length := by
    rw [toNat_length_addWords _ hw]
    omega
  obtain ⟨v, pl, accepted, stackLen, rest, hparse, hv, hpl⟩ := parse_int
    (q.behind (xs ++ [x]) hdrChecksum checksum) rfl rfl
    ((sourceMd x.instructionBits x.domainBits).addWords w) (v := ⟨s.string.take s.last, hmax⟩) hlen
    (s.string.drop s.last)
  dsimp only at hparse
  rw [List.take_append_drop, ← hframe] at hparse
  exact ⟨v, pl, congrArg ParsedPacket.hdr hparse, hv, by rw [hparse, hpl]⟩

theorem Overlaid.eq_insertedBytes (h : Overlaid q payload (xs ++ [x]) frame) :
    ∃ (w : ℕ) (hdrChecksum checksum : BitVec 16), w ≤ 8 ∧ x.record.length = 4 * w ∧
      frame = insertedBytes q payload xs x w hdrChecksum checksum := by
  generalize hall : xs ++ [x] = all at h
  cases h with
  | plain => exact absurd hall (List.append_ne_nil_of_right_ne_nil xs (List.cons_ne_nil x []))
  | inserted xs' x' w hw hlength hdrChecksum checksum =>
    obtain ⟨rfl, hlast⟩ := List.append_inj' hall rfl
    obtain rfl := List.singleton_inj.mp hlast
    exact ⟨w, hdrChecksum, checksum, hw, hlength, rfl⟩

theorem Overlaid.parse (h : Overlaid q payload xs frame) (hport : q.udpScion.dstPort ≠ UDP_PORT) :
    ∃ (hdrChecksum checksum : BitVec 16) (intShim : Option IntShimH) (intMd : Option IntMdH)
      (v : Option PreIntStackH) (pl : Option PayloadH),
      (parse frame).hdr = (((q.grown xs).setPort (q.portBehind xs)).withChecksums
        hdrChecksum checksum).withInt ⟨intShim, intMd, { preIntStack := v }⟩ pl ∧
      VarBits.emitOpt v = (laid payload xs).string.take (laid payload xs).last ∧
      VarBits.emitOpt pl ++ (ScionInt.parse frame).rest =
        (laid payload xs).string.drop (laid payload xs).last := by
  cases h with
  | plain hdrChecksum checksum =>
    have hparse := parse_noInt (q.withChecksums hdrChecksum checksum) hport payload
    refine ⟨hdrChecksum, checksum, none, none, none, none, ?_, rfl, ?_⟩
    · rw [hparse, q.grown_nil]
      rfl
    · rw [hparse]
      rfl
  | inserted xs x w hw hlength hdrChecksum checksum =>
    obtain ⟨v, pl, hhdr, hv, hpl⟩ :=
      @parse_insertedBytes q payload xs x w _ hw hlength hdrChecksum checksum rfl
    rw [q.portBehind_append_singleton]
    exact ⟨hdrChecksum, checksum, _, _, v, pl, hhdr, hv, hpl⟩

/-! ### One switch -/

/-- The INT headers that a switch passes on. -/
theorem emit_preIntStack (intShim : IntShimH) (intMd : IntMdH) (v : Option PreIntStackH) :
    IntHeadersT.emit ⟨some intShim, some intMd, { preIntStack := v }⟩ =
      emit intShim ++ (emit intMd ++ VarBits.emitOpt v) := by
  have hnone : IntStackT.emitHop { preIntStack := v } = [] := rfl
  simp only [IntHeadersT.emit, IntStackT.emit, emitOpt_some, hnone, List.append_nil]

section

variable {sw : Switch} {a : Arrival} {c : Packet}

/-- A switch that inserts INT lays its record in. -/
theorem Overlaid.step_insert (h : Overlaid q payload xs a.frame) (hport : q.udpScion.dstPort ≠ UDP_PORT)
    {instructionBits domainBits : BitVec 16}
    (hentry : sw.scionInt.lookup q.dst = some (.insert_int instructionBits domainBits))
    (hc : c ∈ sw.process a) :
    Overlaid q payload (xs ++ [⟨c.hdr.intStack.emitHop, instructionBits, domainBits⟩]) c.wire := by
  obtain ⟨hdrChecksum, checksum, intShim, intMd, v, pl, hhdr, hv, hpl⟩ := h.parse hport
  obtain ⟨p, r, rfl, hp, hrest, hmeta, -⟩ := Switch.process_insert hhdr hentry hc
  have hstate : p.metadata.intState = 1 := by rw [hmeta]; rfl
  have haddLen : p.metadata.addLen = 0x10 := by rw [hmeta]; rfl
  have hhdr' := hdr_insertStack sw.egress hp hstate haddLen
  obtain ⟨hlen, hw⟩ := length_hopRecord sw.egress p
  have hrecord : (insertStack sw.egress p).hdr.intStack.emitHop = (hopRecord sw.egress p).emitHop := by
    rw [hhdr']
    rfl
  have hrest' : (insertStack sw.egress p).rest = (ScionInt.parse a.frame).rest := by
    rw [insertStack_eq sw.egress p (v := v) (by rw [hp]; rfl) hstate]
    exact hrest
  obtain ⟨hdrChecksum', checksum', hwire⟩ := wire_withInt hhdr'
  -- the record stands behind the stack that the parser has found
  have hbytes : (insertStack sw.egress p).wire = insertedBytes q payload xs
      ⟨(hopRecord sw.egress p).emitHop, instructionBits, domainBits⟩ (words (hopRecord sw.egress p))
      hdrChecksum' checksum' := by
    rw [hwire, insertedBytes, string_laid, ← hv, ← hpl, hrest',
      q.behind_append_singleton xs _ (q.portBehind xs), BitVec.ofNat_add]
    simp only [IntHeadersT.emit, IntStackT.emit, emitOpt_some, List.append_assoc]
    rfl
  rw [hbytes, hrecord]
  exact .inserted xs ⟨(hopRecord sw.egress p).emitHop, instructionBits, domainBits⟩
    (words (hopRecord sw.egress p)) hw hlen hdrChecksum' checksum'

/-- A switch without an entry for the destination changes at most the checksums. -/
theorem Overlaid.step_pass (h : Overlaid q payload xs a.frame) (hport : q.udpScion.dstPort ≠ UDP_PORT)
    (hinsert : ∀ instructionBits domainBits : BitVec 16,
      sw.scionInt.lookup q.dst ≠ some (.insert_int instructionBits domainBits))
    (hclone : sw.scionInt.lookup q.dst ≠ some .clone_int) (hc : c ∈ sw.process a) :
    Overlaid q payload xs c.wire := by
  have hdst : (ScionInt.parse a.frame).hdr.scionDst = q.dst := by
    obtain ⟨hdrChecksum, checksum, intShim, intMd, v, pl, hhdr, -⟩ := h.parse hport
    rw [hhdr]
    rfl
  obtain ⟨hpasses, hruns⟩ := Switch.passes_of_lookup hdst hinsert hclone
  have horig := Switch.not_isClone_of_not_runsClone hruns hc
  obtain ⟨hhdr, hrest⟩ := Switch.process_passes hpasses hc horig
  generalize a.frame = frame at h hhdr hrest
  cases h with
  | plain hdrChecksum checksum =>
    rw [parse_noInt (q.withChecksums hdrChecksum checksum) hport payload] at hhdr hrest
    obtain ⟨hdrChecksum', checksum', hwire⟩ :=
      @wire_withInt c (q.withChecksums hdrChecksum checksum) {} none hhdr
    have hempty : ({} : IntHeadersT).emit = [] := rfl
    rw [hwire, hrest, hempty, VarBits.emitOpt_none, List.nil_append, List.nil_append,
      ScionFrame.withChecksums_withChecksums]
    exact .plain _ _
  | inserted xs x w hw hlength hdrChecksum checksum =>
    obtain ⟨v, pl, hparse, hv, hpl⟩ :=
      @parse_insertedBytes q payload xs x w _ hw hlength hdrChecksum checksum rfl
    obtain ⟨hdrChecksum', checksum', hwire⟩ := wire_withInt (hhdr.trans hparse)
    -- the deparser puts the stack and the payload together again
    have hsplit := List.take_append_drop (laid payload (xs ++ [x])).last (laid payload (xs ++ [x])).string
    rw [← hv, ← hpl] at hsplit
    have hbytes : c.wire = insertedBytes q payload xs x w hdrChecksum' checksum' := by
      rw [hwire, insertedBytes, hrest, ← hsplit, q.behind_withChecksums, emit_preIntStack]
      simp only [List.append_assoc]
    rw [hbytes]
    exact .inserted xs x w hw hlength _ _

/-- A sink removes the headers of the last switch, and as many bytes as its record has. -/
theorem Overlaid.sink (h : Overlaid q payload (xs ++ [x]) a.frame)
    (hentry : sw.scionInt.lookup q.dst = some .clone_int) (hc : c ∈ sw.process a) (horig : ¬ c.isClone) :
    ∃ hdrChecksum checksum : BitVec 16, c.wire =
      (((q.grown xs).setPort (q.portBehind xs)).withChecksums hdrChecksum checksum).emit ++
        (laid payload (xs ++ [x])).string.drop x.record.length := by
  obtain ⟨w, hdrChecksum, checksum, hw, hlength, hframe⟩ := h.eq_insertedBytes
  obtain ⟨v, pl, hparse, -, hpl⟩ := parse_insertedBytes hw hlength hframe
  have hsub : subLen ((sourceShim (q.portBehind xs)).addWords w) =
      BitVec.ofNat 16 (16 + x.record.length) := by
    rw [subLen_of_length (toNat_length_addWords (q.portBehind xs) hw), hlength]
  rw [q.behind_append_singleton xs x (q.portBehind xs), ← hsub] at hparse
  obtain ⟨hdrChecksum', checksum', hwire⟩ := wire_sink hparse rfl hentry hc horig
  rw [hwire, hpl, last_laid]
  exact ⟨_, _, rfl⟩

end

/-! ### Records of one length -/

/-- All sources insert as many bytes as the first one, for the same bitmaps. -/
def SameLine (x : Insertion) (xs : List Insertion) : Prop :=
  ∀ y ∈ xs, y.record.length = x.record.length ∧ y.instructionBits = x.instructionBits ∧
    y.domainBits = x.domainBits

theorem SameLine.last (h : SameLine x xs) {ys : List Insertion} {y : Insertion}
    (hall : x :: xs = ys ++ [y]) :
    y.record.length = x.record.length ∧ y.instructionBits = x.instructionBits ∧
      y.domainBits = x.domainBits := by
  have hmem : y ∈ x :: xs := by
    rw [hall]
    exact List.mem_append_right ys List.mem_cons_self
  rcases List.mem_cons.mp hmem with rfl | hmem
  · exact ⟨rfl, rfl, rfl⟩
  · exact h y hmem

theorem SameLine.string_laid (h : SameLine x xs) (payload : List Byte) :
    (laid payload (x :: xs)).string =
      x.record ++ ((xs.map Insertion.record).reverse.flatten ++ payload) := by
  rw [laid_same payload x fun y hy => (h y hy).1]

/-- What is left of the frame for the host: the records of the other sources, which have `n` bytes each. -/
def HostFrame (q : ScionFrame) (payload : List Byte) (n : ℕ) (xs : List Insertion) (frame : List Byte) :
    Prop :=
  ∃ hdrChecksum checksum : BitVec 16, frame =
    (((q.addLen (BitVec.ofNat 16 (xs.length * (16 + n)))).setPort (q.portBehind xs)).withChecksums
      hdrChecksum checksum).emit ++ ((xs.map Insertion.record).reverse.flatten ++ payload)

/-- If there was no other source the host gets the frame. -/
theorem HostFrame.sameUpToChecksums {n : ℕ} (h : HostFrame q payload n [] frame) :
    SameUpToChecksums frame (q.emit ++ payload) := by
  obtain ⟨hdrChecksum, checksum, rfl⟩ := h
  rw [List.length_nil, Nat.zero_mul]
  have hq : (q.addLen (BitVec.ofNat 16 0)).setPort (q.portBehind []) = q := q.addLen_zero
  rw [hq]
  exact q.sameUpToChecksums hdrChecksum checksum payload

/-! ### Paths -/

/-- What the switch has inserted into a frame for `dst`. -/
def PathHop.insertion (dst : BitVec 16 × BitVec 48) (h : PathHop) : Option Insertion :=
  match h.sw.scionInt.lookup dst with
  | some (.insert_int instructionBits domainBits) => some ⟨h.record, instructionBits, domainBits⟩
  | _ => none

/-- A frame goes from switch to switch and becomes `out`. -/
def PathRun : List Byte → List PathHop → List Byte → Prop
  | frame, [], out => out = frame
  | frame, h :: hops, out => h.arrival.frame = frame ∧ h.copy ∈ h.sw.process h.arrival ∧
    PathRun h.copy.wire hops out

theorem PathHop.insertion_of_insert {dst : BitVec 16 × BitVec 48} {h : PathHop}
    {instructionBits domainBits : BitVec 16}
    (hentry : h.sw.scionInt.lookup dst = some (.insert_int instructionBits domainBits)) :
    h.insertion dst = some ⟨h.record, instructionBits, domainBits⟩ := by
  rw [insertion, hentry]

theorem PathHop.insertion_of_none {dst : BitVec 16 × BitVec 48} {h : PathHop}
    (hentry : ∀ instructionBits domainBits : BitVec 16,
      h.sw.scionInt.lookup dst ≠ some (.insert_int instructionBits domainBits)) :
    h.insertion dst = none := by
  unfold insertion
  split
  · exact absurd ‹_› (hentry _ _)
  · rfl

theorem PathHop.of_insertion {dst : BitVec 16 × BitVec 48} {h : PathHop} (hx : h.insertion dst = some x) :
    h.sw.scionInt.lookup dst = some (.insert_int x.instructionBits x.domainBits) ∧
        x.record = h.record := by
  unfold insertion at hx
  split at hx
  · obtain rfl := Option.some.inj hx
    exact ⟨‹_›, rfl⟩
  · cases hx

/-- A switch that is not a sink keeps the form of the frame. -/
theorem Overlaid.step {h : PathHop} (hover : Overlaid q payload xs h.arrival.frame)
    (hport : q.udpScion.dstPort ≠ UDP_PORT) (hclone : h.sw.scionInt.lookup q.dst ≠ some .clone_int)
    (hmem : h.copy ∈ h.sw.process h.arrival) :
    Overlaid q payload (xs ++ (h.insertion q.dst).toList) h.copy.wire := by
  by_cases hinsert : ∃ instructionBits domainBits : BitVec 16,
      h.sw.scionInt.lookup q.dst = some (.insert_int instructionBits domainBits)
  · obtain ⟨instructionBits, domainBits, hentry⟩ := hinsert
    rw [PathHop.insertion_of_insert hentry]
    exact hover.step_insert hport hentry hmem
  · have hentry : ∀ instructionBits domainBits : BitVec 16,
        h.sw.scionInt.lookup q.dst ≠ some (.insert_int instructionBits domainBits) :=
      fun instructionBits domainBits hentry => hinsert ⟨instructionBits, domainBits, hentry⟩
    rw [PathHop.insertion_of_none hentry, Option.toList_none, List.append_nil]
    exact hover.step_pass hport hentry hclone hmem

/-- All switches of a path keep it. -/
theorem Overlaid.run {out : List Byte} {hops : List PathHop} (hover : Overlaid q payload xs frame)
    (hport : q.udpScion.dstPort ≠ UDP_PORT) (hrun : PathRun frame hops out)
    (hclone : ∀ h ∈ hops, h.sw.scionInt.lookup q.dst ≠ some .clone_int) :
    Overlaid q payload (xs ++ hops.filterMap fun h => h.insertion q.dst) out ∧
    ∀ h ∈ hops, h.copy ∈ h.sw.process h.arrival ∧ ∃ ys, Overlaid q payload ys h.arrival.frame := by
  induction hops generalizing frame xs with
  | nil =>
    rw [List.filterMap_nil, List.append_nil, show out = frame from hrun]
    exact ⟨hover, fun h hh => by cases hh⟩
  | cons first hops ih =>
    obtain ⟨rfl, hmem, hafter⟩ := hrun
    have hfirst := hover.step hport (hclone first List.mem_cons_self) hmem
    obtain ⟨hout, hall⟩ := ih hfirst hafter fun h hh => hclone h (List.mem_cons_of_mem first hh)
    constructor
    · rw [List.append_assoc] at hout
      cases hins : first.insertion q.dst with
      | none =>
        rw [List.filterMap_cons_none hins]
        rw [hins] at hout
        exact hout
      | some y =>
        rw [List.filterMap_cons_some hins]
        rw [hins] at hout
        exact hout
    · intro h hh
      rcases List.mem_cons.mp hh with rfl | hh
      · exact ⟨hmem, xs, hover⟩
      · exact hall h hh

/-- A frame without INT goes through any switches, whatever their tables contain.  It carries the records of
those that have an entry `insert_int` for its destination, in the order of `inlay`, behind the headers of the
last one.  A sink removes these headers and as many bytes as the last record has. -/
theorem overlaid_path {frame : List Byte} {hops : List PathHop} (hport : q.udpScion.dstPort ≠ UDP_PORT)
    (hrun : PathRun (q.emit ++ payload) hops frame)
    (hclone : ∀ h ∈ hops, h.sw.scionInt.lookup q.dst ≠ some .clone_int) :
    Overlaid q payload (hops.filterMap fun h => h.insertion q.dst) frame ∧
    ∀ (xs : List Insertion) (x : Insertion) (sink : Switch) (a : Arrival) (c : Packet),
      (hops.filterMap fun h => h.insertion q.dst) = xs ++ [x] → a.frame = frame →
      sink.scionInt.lookup q.dst = some .clone_int → c ∈ sink.process a → ¬ c.isClone →
      ∃ hdrChecksum checksum : BitVec 16, c.wire =
        (((q.grown xs).setPort (q.portBehind xs)).withChecksums hdrChecksum checksum).emit ++
          (laid payload (xs ++ [x])).string.drop x.record.length := by
  have hstart : Overlaid q payload [] (q.emit ++ payload) := .plain q.ipv4.hdrChecksum q.udp.checksum
  have hoverlaid := (hstart.run hport hrun hclone).1
  rw [List.nil_append] at hoverlaid
  refine ⟨hoverlaid, ?_⟩
  intro xs x sink a c hxs hframe hentry hc horig
  rw [hxs, ← hframe] at hoverlaid
  exact hoverlaid.sink hentry hc horig

/-- The sample frame after two sources: a sink takes the first record for the stack, and the second one
stays in the frame. -/
theorem overlaid_path_sample : ∃ x y : Insertion,
    Overlaid sampleFrame (samplePayload ++ sampleTrailer) [x, y] sampleResent.wire ∧
    ∃ c ∈ (sampleSwitch .clone_int).process (sampleArrival sampleResent.wire), ¬ c.isClone ∧
      ∃ hdrChecksum checksum : BitVec 16, c.wire =
        (((sampleFrame.grown [x]).setPort UDP_PORT).withChecksums hdrChecksum checksum).emit ++
          (laid (samplePayload ++ sampleTrailer) [x, y]).string.drop y.record.length := by
  have hentry := lookup_sampleSwitch (.insert_int 0xffff 0x0001)
  have hclone : ∀ h ∈ [sampleHop, sampleHop2], h.sw.scionInt.lookup sampleFrame.dst ≠ some .clone_int := by
    intro h hh
    have hsw : h.sw = sampleSwitch (.insert_int 0xffff 0x0001) := by
      rcases List.mem_pair.mp hh with rfl | rfl
      · rfl
      · rfl
    rw [hsw, hentry]
    exact fun h => by cases h
  obtain ⟨hoverlaid, hsink⟩ :=
    @overlaid_path sampleFrame (samplePayload ++ sampleTrailer) sampleResent.wire
    [sampleHop, sampleHop2] (by decide) ⟨frame_sampleArrival _, sampleSent_mem, frame_sampleArrival _,
      sampleResent_mem, rfl⟩ hclone
  have hxs : ([sampleHop, sampleHop2].filterMap fun h => h.insertion sampleFrame.dst) =
      [⟨sampleHop.record, 0xffff, 0x0001⟩, ⟨sampleHop2.record, 0xffff, 0x0001⟩] := by
    rw [List.filterMap_cons, PathHop.insertion_of_insert hentry, List.filterMap_cons,
      PathHop.insertion_of_insert hentry, List.filterMap_nil]
  obtain ⟨c, hc, horig⟩ : ∃ c ∈ (sampleSwitch .clone_int).process (sampleArrival sampleResent.wire),
      ¬ c.isClone := by decide +kernel
  rw [hxs] at hoverlaid
  exact ⟨_, _, hoverlaid, c, hc, horig, hsink [⟨sampleHop.record, 0xffff, 0x0001⟩] _ _ _ c hxs
    (frame_sampleArrival _) (lookup_sampleSwitch _) hc horig⟩

end ScionInt
