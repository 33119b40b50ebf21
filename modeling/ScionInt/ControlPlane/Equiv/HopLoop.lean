import ScionInt.ControlPlane.Equiv.Layout

/-!
# Decoding an INT stack undoes encoding it

`HopValues` holds a value for every field of `int_stack_t`.  `HopValues.record` is the record of the
fields that two bitmaps select and `HopValues.hop` what the controller should report for it.  Each step
of the loop body consumes the bytes of its field (`Consumes`), so that `consumes_readHop` follows by
composition and `consumes_readHops` by induction on the number of hops.

Main result: `decode_encode`, for any number of hops behind the headers of a packet-in.
-/

namespace ScionInt

open Wire Wire.Scan

/-- The values of the fields of `int_stack_t` for one hop. -/
structure HopValues where
  nodeID : BitVec 32
  l1InterfaceInID : BitVec 16
  l1InterfaceEgID : BitVec 16
  hopLatency : BitVec 32
  queueID : BitVec 8
  queueOccu : BitVec 24
  ingressTime : BitVec 64
  egressTime : BitVec 64
  l2InterfaceInID : BitVec 32
  l2InterfaceEgID : BitVec 32
  egressIFUtilization : BitVec 32
  bufferID : BitVec 8
  bufferOccu : BitVec 24
  sciAsAddr : BitVec 64
deriving DecidableEq, Inhabited

/-- A field that a bit of a bitmap selects. -/
def selected (n : ℕ) (bitmap : BitVec 16) (bit : ℕ) (value : BitVec (8 * n)) : Option (ScalarH n) :=
  if bitmap.getLsbD bit then some ⟨value⟩ else none

/-- The fields of `int_stack_t` that the bitmaps select. -/
def HopValues.record (v : HopValues) (instructionBits domainBits : BitVec 16) : IntStackT where
  nodeID := selected 4 instructionBits 15 v.nodeID
  l1InterfaceInID := selected 2 instructionBits 14 v.l1InterfaceInID
  l1InterfaceEgID := selected 2 instructionBits 14 v.l1InterfaceEgID
  hopLatency := selected 4 instructionBits 13 v.hopLatency
  queueID := selected 1 instructionBits 12 v.queueID
  queueOccu := selected 3 instructionBits 12 v.queueOccu
  ingressTime := selected 8 instructionBits 11 v.ingressTime
  egressTime := selected 8 instructionBits 10 v.egressTime
  l2InterfaceInID := selected 4 instructionBits 9 v.l2InterfaceInID
  l2InterfaceEgID := selected 4 instructionBits 9 v.l2InterfaceEgID
  egressIFUtilization := selected 4 instructionBits 8 v.egressIFUtilization
  bufferID := selected 1 instructionBits 7 v.bufferID
  bufferOccu := selected 3 instructionBits 7 v.bufferOccu
  sciAsAddr := selected 8 domainBits 0 v.sciAsAddr

/-- The metadata of a hop: the bytes of the selected fields, timestamps multiplied by 1000. -/
def HopValues.metadata (v : HopValues) (instructionBits : BitVec 16) :
    MetadataType → Option (List Byte)
  | .INTERFACE_LEVEL1 => if instructionBits.getLsbD 14 then
      some (toBytes 2 v.l1InterfaceInID.toNat ++ toBytes 2 v.l1InterfaceEgID.toNat) else none
  | .HOP_LATENCY => if instructionBits.getLsbD 13 then some (toBytes 4 v.hopLatency.toNat) else none
  | .QUEUE_OCCUPANCY => if instructionBits.getLsbD 12 then
      some (toBytes 1 v.queueID.toNat ++ toBytes 3 v.queueOccu.toNat) else none
  | .INGRESS_TIMESTAMP => if instructionBits.getLsbD 11 then
      some (toBytes 8 (v.ingressTime.toNat * 1000 % 2 ^ 64)) else none
  | .EGRESS_TIMESTAMP => if instructionBits.getLsbD 10 then
      some (toBytes 8 (v.egressTime.toNat * 1000 % 2 ^ 64)) else none
  | .INTERFACE_LEVEL2 => if instructionBits.getLsbD 9 then
      some (toBytes 4 v.l2InterfaceInID.toNat ++ toBytes 4 v.l2InterfaceEgID.toNat) else none
  | .EGRESS_TX_UTILIZATION => if instructionBits.getLsbD 8 then
      some (toBytes 4 v.egressIFUtilization.toNat) else none
  | .BUFFER_OCCUPANCY => if instructionBits.getLsbD 7 then
      some (toBytes 1 v.bufferID.toNat ++ toBytes 3 v.bufferOccu.toNat) else none

/-- The hop that the controller should report. -/
def HopValues.hop (v : HopValues) (instructionBits domainBits : BitVec 16) : Hop where
  asn := if domainBits.getLsbD 0 then v.sciAsAddr else 0
  nodeId := if instructionBits.getLsbD 15 then v.nodeID else 0
  metadata := v.metadata instructionBits

/-- The bit of the instruction bitmap that asks for a type of metadata. -/
def MetadataType.bit : MetadataType → ℕ
  | .INTERFACE_LEVEL1 => 14
  | .HOP_LATENCY => 13
  | .QUEUE_OCCUPANCY => 12
  | .INGRESS_TIMESTAMP => 11
  | .EGRESS_TIMESTAMP => 10
  | .INTERFACE_LEVEL2 => 9
  | .EGRESS_TX_UTILIZATION => 8
  | .BUFFER_OCCUPANCY => 7

/-! ### The bytes of a record -/

/-- Bytes that are present if a bit of a bitmap is set. -/
def onBit (bitmap : BitVec 16) (bit : ℕ) (bytes : List Byte) : List Byte :=
  if bitmap.getLsbD bit then bytes else []

theorem onBit_append (bitmap : BitVec 16) (bit : ℕ) (xs ys : List Byte) :
    onBit bitmap bit xs ++ onBit bitmap bit ys = onBit bitmap bit (xs ++ ys) := by
  unfold onBit
  split_ifs
  · rfl
  · rfl

theorem emit_scalar (n : ℕ) (value : BitVec (8 * n)) :
    emit (ScalarH.mk value) = toBytes n value.toNat := by
  show toBytes n (value.toNat * 2 ^ 0 + 0) = _
  rw [pow_zero, Nat.mul_one, Nat.add_zero]

theorem emitOpt_selected (n : ℕ) (bitmap : BitVec 16) (bit : ℕ) (value : BitVec (8 * n)) :
    emitOpt (selected n bitmap bit value) = onBit bitmap bit (toBytes n value.toNat) := by
  unfold selected onBit
  split_ifs
  · exact emit_scalar n value
  · rfl

theorem emitHop_record (v : HopValues) (instructionBits domainBits : BitVec 16) :
    (v.record instructionBits domainBits).emitHop =
      onBit instructionBits 15 (toBytes 4 v.nodeID.toNat) ++
      (onBit instructionBits 14 (toBytes 2 v.l1InterfaceInID.toNat ++
        toBytes 2 v.l1InterfaceEgID.toNat) ++
      (onBit instructionBits 13 (toBytes 4 v.hopLatency.toNat) ++
      (onBit instructionBits 12 (toBytes 1 v.queueID.toNat ++ toBytes 3 v.queueOccu.toNat) ++
      (onBit instructionBits 11 (toBytes 8 v.ingressTime.toNat) ++
      (onBit instructionBits 10 (toBytes 8 v.egressTime.toNat) ++
      (onBit instructionBits 9 (toBytes 4 v.l2InterfaceInID.toNat ++
        toBytes 4 v.l2InterfaceEgID.toNat) ++
      (onBit instructionBits 8 (toBytes 4 v.egressIFUtilization.toNat) ++
      (onBit instructionBits 7 (toBytes 1 v.bufferID.toNat ++ toBytes 3 v.bufferOccu.toNat) ++
      onBit domainBits 0 (toBytes 8 v.sciAsAddr.toNat))))))))) := by
  simp only [IntStackT.emitHop, HopValues.record, emitOpt_selected, ← onBit_append,
    List.append_assoc]

namespace IntController

/-! ### One hop -/

/-- What a step of the loop body does to a hop. -/
def onBitStore (bitmap : BitVec 16) (bit : ℕ) (store : Hop → Hop) : Hop → Hop :=
  if bitmap.getLsbD bit then store else id

theorem consumes_optionalField {α : Type} {take : BitVec 32 → Scan Stop α} {width : ℕ}
    {value : List Byte → α} (h : ReadsWindow take width value) (bitmap : BitVec 16) (bit : ℕ)
    (store : α → Hop → Hop) {bytes : List Byte} (hlen : bytes.length = width) :
    Consumes (optionalField bitmap bit width take store) (onBit bitmap bit bytes)
      (onBitStore bitmap bit (store (value bytes))) := by
  unfold optionalField onBit onBitStore
  by_cases hbit : bitmap.getLsbD bit
  · simp only [if_pos hbit]
    exact h.consumes store hlen
  · simp only [if_neg hbit]
    exact consumes_pure

theorem consumes_copiedField (bitmap : BitVec 16) (bit : ℕ) {width : ℕ} (key : MetadataType)
    {bytes : List Byte} (hlen : bytes.length = width) :
    Consumes (copiedField bitmap bit width key) (onBit bitmap bit bytes)
      (onBitStore bitmap bit fun h => h.pushBack key bytes) :=
  consumes_optionalField (readsWindow_copyBytes width) bitmap bit _ hlen

theorem ofNat_ofBytes_toBytes (n : ℕ) (value : BitVec (8 * n)) :
    BitVec.ofNat (8 * n) (ofBytes (toBytes n value.toNat)) = value := by
  have hlt : value.toNat < 256 ^ n := by
    rw [show (256 : ℕ) = 2 ^ 8 from rfl, ← pow_mul]
    exact value.isLt
  rw [ofBytes_toBytes, Nat.mod_eq_of_lt hlt, BitVec.ofNat_toNat, BitVec.setWidth_eq]

theorem consumes_timestampField (bitmap : BitVec 16) (bit : ℕ) (key : MetadataType)
    (timestamp : BitVec 64) :
    Consumes (timestampField bitmap bit key) (onBit bitmap bit (toBytes 8 timestamp.toNat))
      (onBitStore bitmap bit fun h =>
        h.pushBack key (toBytes 8 (timestamp.toNat * 1000 % 2 ^ 64))) := by
  have h := consumes_optionalField (readsWindow_takeUint64 (ε := Stop)) bitmap bit
    (fun timestamp h => h.pushBack key (toBytes 8 (timestamp * 1000).toNat))
    (length_toBytes 8 timestamp.toNat)
  rw [ofNat_ofBytes_toBytes 8 timestamp, BitVec.toNat_mul] at h
  exact h

section

variable (bitmap : BitVec 16) (bit : ℕ) (key : MetadataType) (bytes : List Byte) (h : Hop)

/-- What a step leaves in a field of the hop. -/
theorem field_onBitStore {β : Type} (field : Hop → β) (store : Hop → Hop) :
    field (onBitStore bitmap bit store h) =
      if bitmap.getLsbD bit then field (store h) else field h := by
  unfold onBitStore
  split_ifs
  · rfl
  · rfl

/-- A step does not change a field that its store leaves alone. -/
theorem field_onBitStore_of_eq {β : Type} {field : Hop → β} {store : Hop → Hop}
    (hkeep : field (store h) = field h) : field (onBitStore bitmap bit store h) = field h := by
  rw [field_onBitStore bitmap bit h field store, hkeep, ite_self]

@[simp] theorem asn_push :
    (onBitStore bitmap bit (fun h => h.pushBack key bytes) h).asn = h.asn :=
  field_onBitStore_of_eq bitmap bit h rfl

@[simp] theorem nodeId_push :
    (onBitStore bitmap bit (fun h => h.pushBack key bytes) h).nodeId = h.nodeId :=
  field_onBitStore_of_eq bitmap bit h rfl

/-- A step does not change the metadata of other types. -/
theorem metadata_push_of_ne {k : MetadataType} (hk : k ≠ key) :
    (onBitStore bitmap bit (fun h => h.pushBack key bytes) h).metadata k = h.metadata k := by
  have hkeep : (h.pushBack key bytes).metadata k = h.metadata k := Function.update_of_ne hk _ _
  rw [field_onBitStore bitmap bit h fun h => h.metadata k, hkeep, ite_self]

/-- A step stores its metadata if nothing has stored any before. -/
theorem metadata_push_self (hnew : h.metadata key = none) :
    (onBitStore bitmap bit (fun h => h.pushBack key bytes) h).metadata key =
      if bitmap.getLsbD bit then some bytes else none := by
  rw [field_onBitStore bitmap bit h fun h => h.metadata key, hnew]
  simp [Hop.pushBack, hnew]

@[simp] theorem metadata_nodeId (value : BitVec 32) :
    (onBitStore bitmap bit (fun h => { h with nodeId := value }) h).metadata = h.metadata :=
  field_onBitStore_of_eq bitmap bit h rfl

@[simp] theorem metadata_asn (value : BitVec 64) :
    (onBitStore bitmap bit (fun h => { h with asn := value }) h).metadata = h.metadata :=
  field_onBitStore_of_eq bitmap bit h rfl

@[simp] theorem nodeId_asn (value : BitVec 64) :
    (onBitStore bitmap bit (fun h => { h with asn := value }) h).nodeId = h.nodeId :=
  field_onBitStore_of_eq bitmap bit h rfl

@[simp] theorem asn_nodeId (value : BitVec 32) :
    (onBitStore bitmap bit (fun h => { h with nodeId := value }) h).asn = h.asn :=
  field_onBitStore_of_eq bitmap bit h rfl

@[simp] theorem asn_asn (value : BitVec 64) :
    (onBitStore bitmap bit (fun h => { h with asn := value }) h).asn =
      if bitmap.getLsbD bit then value else h.asn :=
  field_onBitStore bitmap bit h Hop.asn _

@[simp] theorem nodeId_nodeId (value : BitVec 32) :
    (onBitStore bitmap bit (fun h => { h with nodeId := value }) h).nodeId =
      if bitmap.getLsbD bit then value else h.nodeId :=
  field_onBitStore bitmap bit h Hop.nodeId _

end

/-- The loop body consumes a record and reports the hop that the record describes. -/
theorem consumes_readHop (v : HopValues) (bitmapInt bitmapScion : BitVec 16) :
    ∃ g : Hop → Hop, Consumes (readHop bitmapInt bitmapScion)
      (v.record bitmapInt bitmapScion).emitHop g ∧ g {} = v.hop bitmapInt bitmapScion := by
  have hnode := consumes_optionalField (readsWindow_takeUint32 (ε := Stop)) bitmapInt 15
    (fun readNodeID h => { h with nodeId := readNodeID }) (length_toBytes 4 v.nodeID.toNat)
  have has := consumes_optionalField (readsWindow_takeUint64 (ε := Stop)) bitmapScion 0
    (fun readAS h => { h with asn := readAS }) (length_toBytes 8 v.sciAsAddr.toNat)
  rw [ofNat_ofBytes_toBytes 4 v.nodeID] at hnode
  rw [ofNat_ofBytes_toBytes 8 v.sciAsAddr] at has
  rw [emitHop_record]
  refine ⟨_, hnode.bind
    ((consumes_copiedField bitmapInt 14 .INTERFACE_LEVEL1 (by simp)).bind
    ((consumes_copiedField bitmapInt 13 .HOP_LATENCY (by simp)).bind
    ((consumes_copiedField bitmapInt 12 .QUEUE_OCCUPANCY (by simp)).bind
    ((consumes_timestampField bitmapInt 11 .INGRESS_TIMESTAMP v.ingressTime).bind
    ((consumes_timestampField bitmapInt 10 .EGRESS_TIMESTAMP v.egressTime).bind
    ((consumes_copiedField bitmapInt 9 .INTERFACE_LEVEL2 (by simp)).bind
    ((consumes_copiedField bitmapInt 8 .EGRESS_TX_UTILIZATION (by simp)).bind
    ((consumes_copiedField bitmapInt 7 .BUFFER_OCCUPANCY (by simp)).bind has)))))))), ?_⟩
  refine Hop.ext ?_ ?_ (funext fun k => ?_)
  · simp [HopValues.hop]
  · simp [HopValues.hop]
  · cases k
    all_goals simp [HopValues.hop, HopValues.metadata, metadata_push_of_ne, metadata_push_self]

/-- A step stores something if its bit is set. -/
theorem result_optionalField {α : Type} {take : BitVec 32 → Scan Stop α} {width : ℕ}
    {value : List Byte → α} (h : ReadsWindow take width value) (bitmap : BitVec 16) (bit : ℕ)
    (store : α → Hop → Hop) (c : Cursor Hop) (bs : List Byte) :
    ∃ (pos : BitVec 32) (a : α), result (optionalField bitmap bit width take store c) bs =
      .ok ⟨pos, onBitStore bitmap bit (store a) c.value⟩ := by
  unfold optionalField onBitStore
  by_cases hbit : bitmap.getLsbD bit
  · simp only [if_pos hbit]
    rw [result_bind_ok (h.result_eq c.pos bs), result_pure]
    exact ⟨_, _, rfl⟩
  · simp only [if_neg hbit]
    exact ⟨c.pos, value [], rfl⟩

theorem result_copiedField (bitmap : BitVec 16) (bit width : ℕ) (key : MetadataType) (c : Cursor Hop)
    (bs : List Byte) :
    ∃ (pos : BitVec 32) (bytes : List Byte), result (copiedField bitmap bit width key c) bs =
      .ok ⟨pos, onBitStore bitmap bit (fun h => h.pushBack key bytes) c.value⟩ :=
  result_optionalField (readsWindow_copyBytes width) bitmap bit _ c bs

theorem result_timestampField (bitmap : BitVec 16) (bit : ℕ) (key : MetadataType) (c : Cursor Hop)
    (bs : List Byte) :
    ∃ (pos : BitVec 32) (bytes : List Byte), result (timestampField bitmap bit key c) bs =
      .ok ⟨pos, onBitStore bitmap bit (fun h => h.pushBack key bytes) c.value⟩ := by
  obtain ⟨pos, timestamp, h⟩ := result_optionalField (readsWindow_takeUint64 (ε := Stop)) bitmap bit
    (fun timestamp h => h.pushBack key (toBytes 8 (timestamp * 1000).toNat)) c bs
  exact ⟨pos, _, h⟩

/-- Whatever is read, the hop has the metadata whose bits are set. -/
theorem isSome_metadata_readHop {bitmapInt bitmapScion : BitVec 16} {pos : BitVec 32} {c : Cursor Hop}
    {bs : List Byte} (h : result (readHop bitmapInt bitmapScion ⟨pos, {}⟩) bs = .ok c)
    (key : MetadataType) : (c.value.metadata key).isSome = bitmapInt.getLsbD key.bit := by
  unfold readHop at h
  obtain ⟨p15, nodeId, h15⟩ := result_optionalField (readsWindow_takeUint32 (ε := Stop)) bitmapInt 15
    (fun readNodeID h => { h with nodeId := readNodeID }) ⟨pos, {}⟩ bs
  obtain ⟨p14, b14, h14⟩ := result_copiedField bitmapInt 14 4 .INTERFACE_LEVEL1 ⟨p15, _⟩ bs
  obtain ⟨p13, b13, h13⟩ := result_copiedField bitmapInt 13 4 .HOP_LATENCY ⟨p14, _⟩ bs
  obtain ⟨p12, b12, h12⟩ := result_copiedField bitmapInt 12 4 .QUEUE_OCCUPANCY ⟨p13, _⟩ bs
  obtain ⟨p11, b11, h11⟩ := result_timestampField bitmapInt 11 .INGRESS_TIMESTAMP ⟨p12, _⟩ bs
  obtain ⟨p10, b10, h10⟩ := result_timestampField bitmapInt 10 .EGRESS_TIMESTAMP ⟨p11, _⟩ bs
  obtain ⟨p9, b9, h9⟩ := result_copiedField bitmapInt 9 8 .INTERFACE_LEVEL2 ⟨p10, _⟩ bs
  obtain ⟨p8, b8, h8⟩ := result_copiedField bitmapInt 8 4 .EGRESS_TX_UTILIZATION ⟨p9, _⟩ bs
  obtain ⟨p7, b7, h7⟩ := result_copiedField bitmapInt 7 4 .BUFFER_OCCUPANCY ⟨p8, _⟩ bs
  obtain ⟨p0, asn, h0⟩ := result_optionalField (readsWindow_takeUint64 (ε := Stop)) bitmapScion 0
    (fun readAS h => { h with asn := readAS }) ⟨p7, _⟩ bs
  rw [NODE_ID, result_bind_ok h15, INT_L1_IF_ID, result_bind_ok h14, INT_HOP_LATENCY,
    result_bind_ok h13, INT_QUEUE, result_bind_ok h12, INT_IG_TIME, result_bind_ok h11, INT_EG_TIME,
    result_bind_ok h10, INT_L2_IF_ID, result_bind_ok h9, INT_EG_IF_UTIL, result_bind_ok h8,
    INT_BUFFER_INFOS, result_bind_ok h7, AS_ADDR, h0] at h
  rw [← Except.ok.inj h]
  cases key
  all_goals
    simp only [metadata_asn, metadata_nodeId, metadata_push_of_ne, metadata_push_self, ne_eq,
      reduceCtorEq, not_false_eq_true, MetadataType.bit]
    split_ifs with hbit
    · exact hbit.symm
    · exact (eq_false_of_ne_true hbit).symm

/-! ### The stack -/

/-- The bytes of a stack: the records of its hops, one behind the other. -/
def encodeStack (bitmapInt bitmapScion : BitVec 16) (hops : List HopValues) : List Byte :=
  (hops.map fun v => (v.record bitmapInt bitmapScion).emitHop).flatten

theorem encodeStack_cons (bitmapInt bitmapScion : BitVec 16) (v : HopValues)
    (hops : List HopValues) : encodeStack bitmapInt bitmapScion (v :: hops) =
      (v.record bitmapInt bitmapScion).emitHop ++ encodeStack bitmapInt bitmapScion hops := rfl

theorem consumes_addHop (v : HopValues) (bitmapInt bitmapScion : BitVec 16) :
    Consumes (addHop bitmapInt bitmapScion) (v.record bitmapInt bitmapScion).emitHop
      (· ++ [v.hop bitmapInt bitmapScion]) := by
  obtain ⟨g, hconsumes, hg⟩ := consumes_readHop v bitmapInt bitmapScion
  intro before behind c hpos hlen
  have hhop := hconsumes before behind ⟨c.pos, {}⟩ hpos hlen
  rw [addHop, result_bind_ok hhop, result_pure, hg]

/-- The loop reads the hops back, in the order of the stack. -/
theorem consumes_readHops (bitmapInt bitmapScion : BitVec 16) (hops : List HopValues) :
    Consumes (readHops bitmapInt bitmapScion hops.length)
      (encodeStack bitmapInt bitmapScion hops)
      (· ++ hops.map fun v => v.hop bitmapInt bitmapScion) := by
  induction hops with
  | nil => exact consumes_pure.congr fun value => (List.append_nil value).symm
  | cons v hops ih =>
    refine ((consumes_addHop v bitmapInt bitmapScion).bind ih).congr fun value => ?_
    rw [Function.comp_apply, List.append_assoc, List.map_cons, List.singleton_append]

/-! ### The size of a record -/

/-- The number of bytes of a record. -/
def recordSize (bitmapInt bitmapScion : BitVec 16) : ℕ := (hopWidths bitmapInt bitmapScion).sum

theorem length_onBit (bitmap : BitVec 16) (bit : ℕ) (bytes : List Byte) :
    (onBit bitmap bit bytes).length = (fieldWidth bitmap bit bytes.length).sum := by
  unfold onBit fieldWidth
  split_ifs
  · rw [List.sum_singleton]
  · rfl

/-- All records of a stack have the same size. -/
theorem length_emitHop_record (v : HopValues) (bitmapInt bitmapScion : BitVec 16) :
    (v.record bitmapInt bitmapScion).emitHop.length = recordSize bitmapInt bitmapScion := by
  rw [emitHop_record, recordSize, hopWidths]
  simp only [List.length_append, List.sum_append, length_onBit, length_toBytes]

theorem length_encodeStack (bitmapInt bitmapScion : BitVec 16) (hops : List HopValues) :
    (encodeStack bitmapInt bitmapScion hops).length =
      hops.length * recordSize bitmapInt bitmapScion := by
  induction hops with
  | nil => exact (Nat.zero_mul _).symm
  | cons v hops ih =>
    rw [encodeStack_cons, List.length_append, length_emitHop_record, ih, List.length_cons,
      Nat.succ_mul, Nat.add_comm]

theorem eq_false_of_sum_fieldWidth {bitmap : BitVec 16} {bit width : ℕ} (hwidth : 0 < width)
    (h : (fieldWidth bitmap bit width).sum = 0) : bitmap.getLsbD bit = false := by
  unfold fieldWidth at h
  split_ifs at h with hbit
  · rw [List.sum_singleton] at h
    omega
  · exact Bool.eq_false_iff.mpr hbit

/-- A bit that a mask covers is not set if no bit of the mask is. -/
theorem eq_false_of_and_eq_zero {bitmap mask : BitVec 16} (h : bitmap &&& mask = 0) {bit : ℕ}
    (hbit : mask.getLsbD bit = true) : bitmap.getLsbD bit = false := by
  have hand := congrArg (BitVec.getLsbD · bit) h
  simpa [hbit] using hand

/-- A record that selects a field of the controller is not empty. -/
theorem recordSize_pos {bitmapInt bitmapScion : BitVec 16} (hint : bitmapInt &&& 0x007f = 0)
    (hscion : bitmapScion &&& 0xfffe = 0) (hne : bitmapInt ≠ 0 ∨ bitmapScion ≠ 0) :
    0 < recordSize bitmapInt bitmapScion := by
  by_contra hsize
  -- every width of the sum would be zero
  have hsum : (hopWidths bitmapInt bitmapScion).sum = 0 := by
    rw [← recordSize]
    omega
  simp only [hopWidths, List.sum_append, Nat.add_eq_zero_iff] at hsum
  obtain ⟨h15, h14, h13, h12, h11, h10, h9, h8, h7, h0⟩ := hsum
  have hbits {bit width : ℕ} (hwidth : 0 < width)
      (h : (fieldWidth bitmapInt bit width).sum = 0) : bitmapInt.getLsbD bit = false :=
    eq_false_of_sum_fieldWidth hwidth h
  rcases hne with hne | hne
  · refine hne (BitVec.eq_of_getLsbD_eq fun bit hbit => ?_)
    rw [BitVec.ofNat_eq_ofNat, BitVec.getLsbD_zero]
    by_cases hlow : bit < 7
    · refine eq_false_of_and_eq_zero hint ?_
      interval_cases bit
      all_goals rfl
    · have hhigh : 7 ≤ bit := by omega
      interval_cases bit
      · exact hbits (by omega) h7
      · exact hbits (by omega) h8
      · exact hbits (by omega) h9
      · exact hbits (by omega) h10
      · exact hbits (by omega) h11
      · exact hbits (by omega) h12
      · exact hbits (by omega) h13
      · exact hbits (by omega) h14
      · exact hbits (by omega) h15
  · refine hne (BitVec.eq_of_getLsbD_eq fun bit hbit => ?_)
    rw [BitVec.ofNat_eq_ofNat, BitVec.getLsbD_zero]
    by_cases hlow : bit = 0
    · rw [hlow]
      exact eq_false_of_sum_fieldWidth (by omega) h0
    · refine eq_false_of_and_eq_zero hscion ?_
      have hhigh : 1 ≤ bit := by omega
      interval_cases bit
      all_goals rfl

/-! ### The packet-in -/

/-- What `handlePacketIn` publishes for a packet-in whose stack it can read, if INT-MD and the shim
describe a stack of `n` hops. -/
theorem result_cpuPayload (nodeID : BitVec 32) (q : ScionFrame) {intShim : IntShimH}
    {intMd : IntMdH} {n : ℕ} {behind : List Byte} {stack : Cursor (List Hop)}
    (hhopML : intMd.hopML ≠ 0) (hlength : intShim.length.toNat = 3 + n * intMd.hopML.toNat)
    (hstack : result (readHops intMd.instructionBitmap intMd.domainInstructions n
      ⟨stackPos (cpuPayload q intShim intMd behind), []⟩) (cpuPayload q intShim intMd behind) =
        .ok stack) :
    result (handlePacketIn nodeID) (cpuPayload q intShim intMd behind) =
      .ok (published nodeID (cpuPayload q intShim intMd behind) stack) := by
  have hpos : (intMd.hopML.toNat : ℤ) ≠ 0 := by
    intro h
    exact hhopML (BitVec.eq_of_toNat_eq (by simpa using h))
  have hsize : intStackSize (cpuPayload q intShim intMd behind) = n * intMd.hopML.toNat := by
    rw [intStackSize, shimLength_cpuPayload, hlength]
    push_cast
    omega
  have hnumHops : numHops (cpuPayload q intShim intMd behind) = n := by
    rw [numHops, hsize, intHopSize_cpuPayload, Int.mul_tdiv_cancel _ hpos, Int.toNat_natCast]
  have hhdrLen : (hdrLen (cpuPayload q intShim intMd behind)).toNat ≤
      (cpuPayload q intShim intMd behind).length - 16 := by
    have hlt := q.length_emitScion_lt
    rw [hdrLen_cpuPayload, length_cpuPayload, BitVec.toNat_ofNat]
    omega
  have h16 : 16 ≤ (cpuPayload q intShim intMd behind).length := by
    rw [length_cpuPayload]
    omega
  rw [← instructionBits_cpuPayload q intShim intMd behind,
    ← domainBits_cpuPayload q intShim intMd behind, ← hnumHops] at hstack
  rw [result_handlePacketIn nodeID hstack, if_pos h16, if_pos (identifier_cpuPayload _ _ _ _),
    if_pos hhdrLen, intHopSize_cpuPayload, if_pos hpos, hsize, Int.mul_tmod_left, if_pos rfl]

/-- What `handlePacketIn` publishes for an encoded stack whose records are not empty. -/
theorem result_encodeStack (nodeID : BitVec 32) (q : ScionFrame) {intShim : IntShimH}
    {intMd : IntMdH} {hops : List HopValues} (behind : List Byte) (hpos : intMd.hopML ≠ 0)
    (hsize : recordSize intMd.instructionBitmap intMd.domainInstructions = 4 * intMd.hopML.toNat)
    (hlength : intShim.length.toNat = 3 + hops.length * intMd.hopML.toNat) :
    ∃ p : Published, result (handlePacketIn nodeID) (cpuPayload q intShim intMd
        (encodeStack intMd.instructionBitmap intMd.domainInstructions hops ++ behind)) = .ok p ∧
      p.report.hops =
        hops.map (fun v => v.hop intMd.instructionBitmap intMd.domainInstructions) ∧
      p.pos.toNat = 32 + q.emitScion.length +
        (encodeStack intMd.instructionBitmap intMd.domainInstructions hops).length := by
  have hlen := length_encodeStack intMd.instructionBitmap intMd.domainInstructions hops
  rw [hsize, Nat.mul_left_comm] at hlen
  -- the stack lies behind the headers, where the cursor starts
  have hstackPos := toNat_stackPos_cpuPayload q intShim intMd
    (encodeStack intMd.instructionBitmap intMd.domainInstructions hops ++ behind)
  have hbytes : cpuPayload q intShim intMd
      (encodeStack intMd.instructionBitmap intMd.domainInstructions hops ++ behind) =
      cpuPayload q intShim intMd [] ++
        (encodeStack intMd.instructionBitmap intMd.domainInstructions hops ++ behind) := by
    unfold cpuPayload
    simp only [List.append_assoc, List.nil_append]
  have hfront : (cpuPayload q intShim intMd []).length = 32 + q.emitScion.length :=
    length_cpuPayload q intShim intMd []
  have hshort := q.length_emitScion_lt
  have hmax : intShim.length.toNat < 2 ^ 8 := intShim.length.isLt
  have hstack := consumes_readHops intMd.instructionBitmap intMd.domainInstructions hops
    (cpuPayload q intShim intMd []) behind ⟨stackPos _, []⟩ (hstackPos.trans hfront.symm)
    (by
      rw [hfront, hlen]
      omega)
  rw [← hbytes] at hstack
  refine ⟨_, result_cpuPayload nodeID q hpos hlength hstack, rfl, ?_⟩
  show (stackPos _ + BitVec.ofNat 32 _).toNat = _
  rw [toNat_add_ofNat_of_lt, hstackPos]
  rw [hstackPos, hlen]
  omega

/-- `handlePacketIn` reads back the hops of an encoded stack, for any number of hops, and stops at its
end. -/
theorem decode_encode (nodeID : BitVec 32) (q : ScionFrame) (intShim : IntShimH) (intMd : IntMdH)
    (hops : List HopValues) (behind : List Byte) (hint : intMd.instructionBitmap &&& 0x007f = 0)
    (hscion : intMd.domainInstructions &&& 0xfffe = 0)
    (hne : intMd.instructionBitmap ≠ 0 ∨ intMd.domainInstructions ≠ 0)
    (hhopML : ∀ v : HopValues,
      (v.record intMd.instructionBitmap intMd.domainInstructions).emitHop.length =
        4 * intMd.hopML.toNat)
    (hlength : intShim.length.toNat = 3 + hops.length * intMd.hopML.toNat) :
    ∃ p : Published, result (handlePacketIn nodeID) (cpuPayload q intShim intMd
        (encodeStack intMd.instructionBitmap intMd.domainInstructions hops ++ behind)) = .ok p ∧
      p.report.hops =
        hops.map (fun v => v.hop intMd.instructionBitmap intMd.domainInstructions) ∧
      p.pos.toNat = (cpuPayload q intShim intMd
        (encodeStack intMd.instructionBitmap intMd.domainInstructions hops)).length := by
  have hsize : recordSize intMd.instructionBitmap intMd.domainInstructions =
      4 * intMd.hopML.toNat := by
    rw [← hhopML default, length_emitHop_record]
  have hpos : intMd.hopML ≠ 0 := by
    intro h
    have hzero : intMd.hopML.toNat = 0 := by rw [h]; rfl
    have hrecord := recordSize_pos hint hscion hne
    omega
  rw [length_cpuPayload]
  exact result_encodeStack nodeID q behind hpos hsize hlength

/-- Two hops with a node ID, the utilisation of the port, a timestamp and an AS number. -/
def sampleHops : List HopValues :=
  [{ (default : HopValues) with
      nodeID := 2
      ingressTime := 1700000000000000
      egressIFUtilization := 7
      sciAsAddr := 0x0001ff0000000111 },
    { (default : HopValues) with
      nodeID := 1
      ingressTime := 1700000000000123
      egressIFUtilization := 9
      sciAsAddr := 0x0001ff0000000110 }]

/-- The INT-MD header and the shim of the stack of `sampleHops`. -/
def sampleHopsMd : IntMdH :=
  { (default : IntMdH) with
    version := 2
    hopML := 6
    instructionBitmap := 0x8900
    domainID := 1
    domainInstructions := 1 }

def sampleHopsShim : IntShimH := ⟨INTType.MD, 1, 0, 15, 40001⟩

theorem decode_encode_sample :
    ∃ p : Published, result (handlePacketIn 2) (cpuPayload sampleFrame sampleHopsShim sampleHopsMd
        (encodeStack 0x8900 0x0001 sampleHops ++ samplePayload)) = .ok p ∧
      p.report.hops = sampleHops.map (fun v => v.hop 0x8900 0x0001) ∧
      p.pos.toNat = (cpuPayload sampleFrame sampleHopsShim sampleHopsMd
        (encodeStack 0x8900 0x0001 sampleHops)).length :=
  decode_encode 2 sampleFrame sampleHopsShim sampleHopsMd sampleHops samplePayload (by decide)
    (by decide) (by decide) (fun v => length_emitHop_record v _ _) (by decide)

end IntController

end ScionInt
