import ScionInt.ControlPlane.IntController

/-!
# What `handlePacketIn` reads

`walks_readHops` says which windows the loop over the INT stack reads: one for every field that the
two bitmaps select, hop after hop.  With it, `inBounds_handlePacketIn_iff` and
`result_handlePacketIn` describe a whole run in terms of the values at the fixed offsets of the
payload.

Main result: `safe_iff`, the exact condition under which no read is outside the payload and a payload
that is too short is rejected.
-/

namespace ScionInt

open Wire Wire.Scan

namespace IntController

/-! ### The loop -/

/-- The window of a field, if its bit is set. -/
def fieldWidth (bitmap : BitVec 16) (bit width : ℕ) : List ℕ :=
  if bitmap.getLsbD bit then [width] else []

/-- The windows of the fields of one hop. -/
def hopWidths (bitmapInt bitmapScion : BitVec 16) : List ℕ :=
  fieldWidth bitmapInt 15 4 ++ (fieldWidth bitmapInt 14 4 ++ (fieldWidth bitmapInt 13 4 ++
    (fieldWidth bitmapInt 12 4 ++ (fieldWidth bitmapInt 11 8 ++ (fieldWidth bitmapInt 10 8 ++
      (fieldWidth bitmapInt 9 8 ++ (fieldWidth bitmapInt 8 4 ++ (fieldWidth bitmapInt 7 4 ++
        fieldWidth bitmapScion 0 8))))))))

theorem readsWindow_copyBytes (n : ℕ) : ReadsWindow (copyBytes n) n id where
  result_eq _ _ := rfl
  mem_reads_iff _ _ _ := List.mem_range'_1

section

variable {α : Type} {take : BitVec 32 → Scan Stop α} {width : ℕ} {value : List Byte → α}

theorem walks_optionalField (h : ReadsWindow take width value) (hwidth : 0 < width)
    (bitmap : BitVec 16) (bit : ℕ) (store : α → Hop → Hop) :
    Walks (optionalField bitmap bit width take store) (fieldWidth bitmap bit width) := by
  unfold optionalField fieldWidth
  by_cases hbit : bitmap.getLsbD bit
  · simp only [if_pos hbit]
    exact h.walks hwidth store
  · simp only [if_neg hbit]
    exact walks_pure

end

theorem walks_copiedField (bitmap : BitVec 16) (bit : ℕ) {width : ℕ} (hwidth : 0 < width)
    (key : MetadataType) :
    Walks (copiedField bitmap bit width key) (fieldWidth bitmap bit width) :=
  walks_optionalField (readsWindow_copyBytes width) hwidth bitmap bit _

theorem walks_timestampField (bitmap : BitVec 16) (bit : ℕ) (key : MetadataType) :
    Walks (timestampField bitmap bit key) (fieldWidth bitmap bit 8) :=
  walks_optionalField readsWindow_takeUint64 (by omega) bitmap bit _

variable (bitmapInt bitmapScion : BitVec 16)

theorem walks_readHop :
    Walks (readHop bitmapInt bitmapScion) (hopWidths bitmapInt bitmapScion) :=
  (walks_optionalField readsWindow_takeUint32 (by omega) bitmapInt 15 _).bind
    ((walks_copiedField bitmapInt 14 (by omega) _).bind
    ((walks_copiedField bitmapInt 13 (by omega) _).bind
    ((walks_copiedField bitmapInt 12 (by omega) _).bind
    ((walks_timestampField bitmapInt 11 _).bind
    ((walks_timestampField bitmapInt 10 _).bind
    ((walks_copiedField bitmapInt 9 (by omega) _).bind
    ((walks_copiedField bitmapInt 8 (by omega) _).bind
    ((walks_copiedField bitmapInt 7 (by omega) _).bind
    (walks_optionalField readsWindow_takeUint64 (by omega) bitmapScion 0 _)))))))))

theorem walks_addHop :
    Walks (addHop bitmapInt bitmapScion) (hopWidths bitmapInt bitmapScion) where
  result_eq c bs := by
    obtain ⟨hop, hhop⟩ := (walks_readHop bitmapInt bitmapScion).result_eq ⟨c.pos, {}⟩ bs
    rw [addHop, result_bind_ok hhop, result_pure]
    exact ⟨_, rfl⟩
  inBounds_iff c bs := by
    obtain ⟨hop, hhop⟩ := (walks_readHop bitmapInt bitmapScion).result_eq ⟨c.pos, {}⟩ bs
    rw [addHop, inBounds_bind_ok hhop, (walks_readHop bitmapInt bitmapScion).inBounds_iff]
    exact and_iff_left inBounds_pure

theorem walks_readHops (n : ℕ) : Walks (readHops bitmapInt bitmapScion n)
    (List.replicate n (hopWidths bitmapInt bitmapScion)).flatten := by
  induction n with
  | zero => exact walks_pure
  | succ n ih =>
    rw [List.replicate_succ, List.flatten_cons]
    exact (walks_addHop bitmapInt bitmapScion).bind ih

/-! ### The values at the fixed offsets -/

section

variable (payload : List Byte)

def identifier : BitVec 64 := BitVec.ofNat 64 (ofBytes (bytesAt 0 8 payload))

/-- `cpuHdrLen` as the controller reads it. -/
def hdrLen : BitVec 64 := BitVec.ofNat 64 (ofBytes (bytesAt 8 8 payload))

def flowKeyMsg : BitVec 32 := BitVec.ofNat 32 (ofBytes (bytesAt 16 4 payload))

def asAddr : BitVec 64 := BitVec.ofNat 64 (ofBytes (bytesAt 28 8 payload))

def instructionBits : BitVec 16 :=
  BitVec.ofNat 16 (ofBytes (bytesAt ((16 + hdrLen payload - 8).setWidth 32).toNat 2 payload))

def domainBits : BitVec 16 :=
  BitVec.ofNat 16 (ofBytes (bytesAt ((16 + hdrLen payload - 4).setWidth 32).toNat 2 payload))

def shimLength : BitVec 8 :=
  BitVec.ofNat 8 (ofBytes (bytesAt ((16 + hdrLen payload - 12 - 3).setWidth 32).toNat 1 payload))

/-- The byte whose low five bits are `hopML`. -/
def hopMLByte : BitVec 8 :=
  BitVec.ofNat 8 (ofBytes (bytesAt ((16 + hdrLen payload - 10).setWidth 32).toNat 1 payload))

def intStackSize : ℤ := (shimLength payload).toNat - 3

def intHopSize : ℤ := (hopMLByte payload).toNat % 2 ^ 5

/-- The number of iterations of the loop. -/
def numHops : ℕ := ((intStackSize payload).tdiv (intHopSize payload)).toNat

/-- The cursor in front of the INT stack. -/
def stackPos : BitVec 32 := 16 + (hdrLen payload).setWidth 32

/-- The windows that the loop reads. -/
def stackWidths : List ℕ := (List.replicate (numHops payload)
  (hopWidths (instructionBits payload) (domainBits payload))).flatten

end

/-- The report for a payload from whose stack `stack` has been read. -/
def published (nodeID : BitVec 32) (payload : List Byte) (stack : Cursor (List Hop)) :
    Published where
  topic := topicName (asAddr payload) nodeID
  key := { flowId := BitVec.ofNat 32 ((flowKeyMsg payload).toNat % 2 ^ 20) }
  report := {
    hops := stack.value
    packetType := .scion
    truncatedPacket := bytesAt 8 (hdrLen payload).toNat payload }
  pos := stack.pos

section

variable (payload : List Byte)

/-! The reads at the fixed offsets return the values above. -/

theorem result_identifier : result (takeUint64 0 : Scan Stop _) payload = .ok (identifier payload) :=
  readsWindow_takeUint64.result_eq 0 payload

theorem result_hdrLen : result (takeUint64 8 : Scan Stop _) payload = .ok (hdrLen payload) :=
  readsWindow_takeUint64.result_eq 8 payload

theorem result_flowKeyMsg :
    result (takeUint32 16 : Scan Stop _) payload = .ok (flowKeyMsg payload) :=
  readsWindow_takeUint32.result_eq 16 payload

theorem result_asAddr :
    result (takeUint64 (16 + 12) : Scan Stop _) payload = .ok (asAddr payload) :=
  readsWindow_takeUint64.result_eq 28 payload

theorem result_instructionBits :
    result (takeUint16 ((16 + hdrLen payload - 8).setWidth 32) : Scan Stop _) payload =
      .ok (instructionBits payload) :=
  readsWindow_takeUint16.result_eq _ payload

theorem result_domainBits :
    result (takeUint16 ((16 + hdrLen payload - 4).setWidth 32) : Scan Stop _) payload =
      .ok (domainBits payload) :=
  readsWindow_takeUint16.result_eq _ payload

theorem result_shimLength :
    result (takeUint8 ((16 + hdrLen payload - 12 - 3).setWidth 32) : Scan Stop _) payload =
      .ok (shimLength payload) :=
  readsWindow_takeUint8.result_eq _ payload

theorem result_hopML :
    result (takeUint8 ((16 + hdrLen payload - 10).setWidth 32) : Scan Stop _) payload =
      .ok (hopMLByte payload) :=
  readsWindow_takeUint8.result_eq _ payload

theorem result_truncatedPacket (n : ℕ) : result (copyBytes n 8) payload = .ok (bytesAt 8 n payload) :=
  (readsWindow_copyBytes n).result_eq 8 payload

end

/-- The result of `handlePacketIn`, check by check. -/
theorem result_handlePacketIn (nodeID : BitVec 32) {payload : List Byte} {stack : Cursor (List Hop)}
    (hstack : result (readHops (instructionBits payload) (domainBits payload) (numHops payload)
      ⟨stackPos payload, []⟩) payload = .ok stack) :
    result (handlePacketIn nodeID) payload =
      if 16 ≤ payload.length then
        if identifier payload = INT_IDENTIFIER then
          if (hdrLen payload).toNat ≤ payload.length - 16 then
            if intHopSize payload ≠ 0 then
              if (intStackSize payload).tmod (intHopSize payload) = 0 then
                .ok (published nodeID payload stack)
              else .error .rejected
            else .error .divisionByZero
          else .error .rejected
        else .error .rejected
      else .error .rejected := by
  unfold numHops intStackSize intHopSize stackPos at hstack
  unfold handlePacketIn published intStackSize intHopSize
  rw [result_length_bind, result_require_bind, result_bind_ok (result_identifier payload),
    result_bind_ok (result_hdrLen payload), result_require_bind, result_require_bind,
    result_bind_ok (result_flowKeyMsg payload), result_bind_ok (result_asAddr payload),
    result_bind_ok (result_instructionBits payload), result_bind_ok (result_domainBits payload),
    result_bind_ok (result_shimLength payload), result_bind_ok (result_hopML payload),
    result_require_bind, result_require_bind, result_bind_ok hstack,
    result_bind_ok (result_truncatedPacket payload _), result_pure]

/-- An offset counted back from the INT stack is inside the payload once the headers are. -/
theorem toNat_setWidth_sub_le {hdrLen k : BitVec 64} {len w : ℕ} (hw : w ≤ k.toNat) (hk : k.toNat ≤ 16)
    (hlen : hdrLen.toNat ≤ len - 16) (h16 : 16 ≤ len) :
    ((16 + hdrLen - k).setWidth 32).toNat + w ≤ len := by
  have hlt : hdrLen.toNat < 2 ^ 64 := hdrLen.isLt
  rw [BitVec.toNat_setWidth, BitVec.toNat_sub, BitVec.toNat_add]
  simp only [BitVec.ofNat_eq_ofNat, BitVec.toNat_ofNat]
  omega

/-- The reads of `handlePacketIn`: behind the checks those of the fixed offsets, of the stack and of
the headers that are copied into the report. -/
theorem inBounds_handlePacketIn (nodeID : BitVec 32) (payload : List Byte) :
    InBounds (handlePacketIn nodeID) payload ↔
      (16 ≤ payload.length → identifier payload = INT_IDENTIFIER →
        (hdrLen payload).toNat ≤ payload.length - 16 →
        36 ≤ payload.length ∧
          (intHopSize payload ≠ 0 → (intStackSize payload).tmod (intHopSize payload) = 0 →
            WindowsFit (stackPos payload) (stackWidths payload) payload.length)) := by
  have h64 := readsWindow_takeUint64 (ε := Stop)
  have h32 := readsWindow_takeUint32 (ε := Stop)
  have h16 := readsWindow_takeUint16 (ε := Stop)
  have h8 := readsWindow_takeUint8 (ε := Stop)
  -- the loop reads the windows of `stackWidths` and cannot fail
  have hwalk := walks_readHops (instructionBits payload) (domainBits payload) (numHops payload)
  obtain ⟨hops, hstack⟩ := hwalk.result_eq ⟨stackPos payload, []⟩ payload
  have hfits := hwalk.inBounds_iff ⟨stackPos payload, []⟩ payload
  have hnumHops : numHops payload =
    ((intStackSize payload).tdiv (intHopSize payload)).toNat := rfl
  unfold intStackSize intHopSize at hnumHops ⊢
  unfold stackPos at hstack hfits ⊢
  rw [hnumHops] at hstack hfits
  unfold handlePacketIn stackWidths
  rw [inBounds_length_bind, inBounds_require_bind]
  refine forall_congr' fun hlen => ?_
  rw [inBounds_bind_ok (result_identifier payload), inBounds_bind_ok (result_hdrLen payload),
    h64.inBounds_iff (by omega), h64.inBounds_iff (by omega), inBounds_require_bind,
    inBounds_require_bind]
  -- one condition for each read, behind the checks in front of it
  rw [inBounds_bind_ok (result_flowKeyMsg payload), inBounds_bind_ok (result_asAddr payload),
    inBounds_bind_ok (result_instructionBits payload), inBounds_bind_ok (result_domainBits payload),
    inBounds_bind_ok (result_shimLength payload), inBounds_bind_ok (result_hopML payload),
    inBounds_require_bind, inBounds_require_bind, inBounds_bind_ok hstack, hfits,
    inBounds_bind_ok (result_truncatedPacket payload _), h32.inBounds_iff (by omega),
    h64.inBounds_iff (by omega), h16.inBounds_iff (by omega), h16.inBounds_iff (by omega),
    h8.inBounds_iff (by omega), h8.inBounds_iff (by omega)]
  have hsub : 16 + hdrLen payload - 12 - 3 = 16 + hdrLen payload - 15 := by
    rw [BitVec.sub_sub]
    rfl
  rw [hsub]
  constructor
  · rintro ⟨-, -, h⟩ hidentifier hhdrLen
    obtain ⟨-, h36, -, -, -, -, hstackFits⟩ := h hidentifier hhdrLen
    exact ⟨h36, fun hhop hrem => (hstackFits hhop hrem).1⟩
  · intro h
    refine ⟨show 0 + 8 ≤ _ by omega, show 8 + 8 ≤ _ by omega, fun hidentifier hhdrLen => ?_⟩
    obtain ⟨h36, hstackFits⟩ := h hidentifier hhdrLen
    -- the offsets in front of the stack are below `16 + hdrLen`
    have hback (k : BitVec 64) (w : ℕ) (hw : w ≤ k.toNat) (hk : k.toNat ≤ 16) :
        ((16 + hdrLen payload - k).setWidth 32).toNat + w ≤ payload.length :=
      toNat_setWidth_sub_le hw hk hhdrLen hlen
    refine ⟨show 16 + 4 ≤ _ by omega, show 28 + 8 ≤ _ by omega, hback 8 2 (by decide) (by decide),
      hback 4 2 (by decide) (by decide), hback 15 1 (by decide) (by decide),
      hback 10 1 (by decide) (by decide), fun hhop hrem => ⟨hstackFits hhop hrem, ?_, inBounds_pure⟩⟩
    exact (readsWindow_copyBytes _).inBounds_of_le (show 8 + _ ≤ _ by omega)

theorem toNat_add_setWidth {hdrLen : BitVec 64} (h : 16 + hdrLen.toNat < 2 ^ 32) :
    (16 + hdrLen.setWidth 32).toNat = 16 + hdrLen.toNat := by
  simp only [BitVec.toNat_add, BitVec.toNat_setWidth, BitVec.ofNat_eq_ofNat, BitVec.toNat_ofNat]
  omega

/-- In a payload of less than 4 GiB the last field of the last hop decides. -/
theorem windowsFit_stackWidths {payload : List Byte} (hne : stackWidths payload ≠ [])
    (hwrap : 16 + (hdrLen payload).toNat + (stackWidths payload).sum < 2 ^ 32) :
    WindowsFit (stackPos payload) (stackWidths payload) payload.length ↔
      16 + (hdrLen payload).toNat + (stackWidths payload).sum ≤ payload.length := by
  have hpos : (stackPos payload).toNat = 16 + (hdrLen payload).toNat :=
    toNat_add_setWidth (Nat.lt_of_le_of_lt (Nat.le_add_right _ _) hwrap)
  rw [windowsFit_iff hne (by rw [hpos]; exact hwrap), hpos]

/-! ### Safety -/

/-- The payload ends before `int_cpu`, the headers that `int_cpu` counts, the fixed offsets behind it
or the stack that the shim announces. -/
def TooShort (payload : List Byte) : Prop :=
  payload.length < 16 + (hdrLen payload).toNat ∨ payload.length < 36 ∨
    (payload.length : ℤ) < 16 + (hdrLen payload).toNat + 4 * intStackSize payload

/-- No read is outside the payload, and a payload that is too short is rejected. -/
structure Safe (nodeID : BitVec 32) (payload : List Byte) : Prop where
  inBounds : InBounds (handlePacketIn nodeID) payload
  rejected : TooShort payload → result (handlePacketIn nodeID) payload = .error .rejected

/-- The checks of the length of `int_cpu`, of the identifier and of the length of the headers. -/
def HeadersPass (payload : List Byte) : Prop :=
  16 ≤ payload.length ∧ identifier payload = INT_IDENTIFIER ∧
    (hdrLen payload).toNat ≤ payload.length - 16

theorem not_headersPass_iff (payload : List Byte) :
    ¬ HeadersPass payload ↔ payload.length < 16 ∨ identifier payload ≠ INT_IDENTIFIER ∨
      payload.length < 16 + (hdrLen payload).toNat := by
  rw [HeadersPass]
  constructor
  · intro h
    by_contra hor
    push Not at hor
    exact h ⟨hor.1, hor.2.1, by omega⟩
  · rintro (h | h | h) ⟨h16, hidentifier, hhdrLen⟩
    · omega
    · exact h hidentifier
    · omega

/-- A payload that fails one of the first checks is rejected. -/
theorem safe_of_not_headersPass (nodeID : BitVec 32) {payload : List Byte}
    (h : ¬ HeadersPass payload) : Safe nodeID payload := by
  -- the checks come first: the result does not depend on the stack
  obtain ⟨hops, hstack⟩ := (walks_readHops (instructionBits payload) (domainBits payload)
    (numHops payload)).result_eq ⟨stackPos payload, []⟩ payload
  refine ⟨?_, fun _ => ?_⟩
  · rw [inBounds_handlePacketIn]
    exact fun h16 hidentifier hhdrLen => absurd ⟨h16, hidentifier, hhdrLen⟩ h
  · rw [result_handlePacketIn nodeID hstack]
    split_ifs with h16 hidentifier hhdrLen
    · exact absurd ⟨h16, hidentifier, hhdrLen⟩ h
    · exact absurd ⟨h16, hidentifier, hhdrLen⟩ h
    · exact absurd ⟨h16, hidentifier, hhdrLen⟩ h
    all_goals rfl

/-- Behind the first checks the payload is rejected exactly if the size of the stack is not a multiple
of the size of a hop. -/
theorem rejected_iff (nodeID : BitVec 32) {payload : List Byte} (h : HeadersPass payload) :
    result (handlePacketIn nodeID) payload = .error .rejected ↔
      intHopSize payload ≠ 0 ∧ (intStackSize payload).tmod (intHopSize payload) ≠ 0 := by
  obtain ⟨hops, hstack⟩ := (walks_readHops (instructionBits payload) (domainBits payload)
    (numHops payload)).result_eq ⟨stackPos payload, []⟩ payload
  rw [result_handlePacketIn nodeID hstack, if_pos h.1, if_pos h.2.1, if_pos h.2.2]
  split_ifs with hhop hrem
  · simp [hrem]
  · simp [hhop, hrem]
  · simp [hhop]

/-- The controller is safe exactly for payloads that fail one of its checks on lengths and identifier,
and for payloads of 36 bytes that fail its check on the size of the stack or hold the announced stack
and all the fields that the bitmaps select in every hop. -/
theorem safe_iff (nodeID : BitVec 32) (payload : List Byte) :
    Safe nodeID payload ↔
      payload.length < 16 ∨ identifier payload ≠ INT_IDENTIFIER ∨
      payload.length < 16 + (hdrLen payload).toNat ∨
      (36 ≤ payload.length ∧
        ((intHopSize payload ≠ 0 ∧ (intStackSize payload).tmod (intHopSize payload) ≠ 0) ∨
          (16 + (hdrLen payload).toNat + 4 * intStackSize payload ≤ payload.length ∧
            (intHopSize payload ≠ 0 →
              WindowsFit (stackPos payload) (stackWidths payload) payload.length)))) := by
  by_cases hpass : HeadersPass payload
  swap
  · refine iff_of_true (safe_of_not_headersPass nodeID hpass) ?_
    rcases (not_headersPass_iff payload).mp hpass with h | h | h
    · exact .inl h
    · exact .inr (.inl h)
    · exact .inr (.inr (.inl h))
  obtain ⟨h16, hidentifier, hhdrLen⟩ := hpass
  have hrejected := rejected_iff nodeID ⟨h16, hidentifier, hhdrLen⟩
  have hbounds := inBounds_handlePacketIn nodeID payload
  simp only [h16, hidentifier, hhdrLen, forall_const] at hbounds
  -- the first three alternatives are closed now
  have hfirst : ¬ (payload.length < 16 ∨ identifier payload ≠ INT_IDENTIFIER ∨
      payload.length < 16 + (hdrLen payload).toNat) := by
    rw [← not_headersPass_iff]
    exact not_not.mpr ⟨h16, hidentifier, hhdrLen⟩
  constructor
  · rintro ⟨hin, hshort⟩
    obtain ⟨h36, hstack⟩ := hbounds.mp hin
    refine .inr (.inr (.inr ⟨h36, ?_⟩))
    by_cases hrem : intHopSize payload ≠ 0 ∧
        (intStackSize payload).tmod (intHopSize payload) ≠ 0
    · exact .inl hrem
    · -- a payload that is not rejected is not too short
      have hlong : ¬ TooShort payload := fun h => hrem (hrejected.mp (hshort h))
      refine .inr ⟨?_, fun hhop => hstack hhop ?_⟩
      · rw [TooShort] at hlong
        omega
      · by_contra hne
        exact hrem ⟨hhop, hne⟩
  · intro h
    rcases h with h | h | h | ⟨h36, h⟩
    · exact absurd (.inl h) hfirst
    · exact absurd (.inr (.inl h)) hfirst
    · exact absurd (.inr (.inr h)) hfirst
    refine ⟨hbounds.mpr ⟨h36, fun hhop hrem => ?_⟩, fun hshort => hrejected.mpr ?_⟩
    · rcases h with ⟨-, hne⟩ | ⟨-, hfits⟩
      · exact absurd hrem hne
      · exact hfits hhop
    · rcases h with hne | ⟨hlen, -⟩
      · exact hne
      · rw [TooShort] at hshort
        omega

/-- A payload that consists of `int_cpu` only. -/
def bareIntCpu : List Byte := [0, 0, 0, 0, 0, 0x49, 0x4e, 0x54, 0, 0, 0, 0, 0, 0, 0, 0]

/-- The controller reads behind a payload that consists of `int_cpu` only. -/
theorem safe_counterexample : bareIntCpu.length = 16 ∧ ¬ Safe 0 bareIntCpu := by
  refine ⟨rfl, fun h => ?_⟩
  have h36 := (inBounds_handlePacketIn 0 bareIntCpu).mp h.inBounds (by decide) (by decide)
    (by decide)
  exact absurd h36.1 (by decide)

end IntController

end ScionInt
