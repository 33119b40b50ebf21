import ScionInt.Wire.Reader

/-!
# Protocol buffers

The functions that generated code calls are a `Runtime`, which carries what the code relies on: the
numbers that the runtime writes are those that it reads, and their sizes are known in advance.  On top of
it are the writers of the fields of a message and `turn`, the body of the loop in which a message reads
its fields.

A field is a tag, the number of the field and the type of its content, and the content.
`absorbs_field` says that the loop absorbs a field whose content is what its reader reads.
-/

namespace Wire

namespace Protobuf

open Reader

/-- `INT_MAX` -/
def INT_MAX : ℕ := 2 ^ 31 - 1

/-- The longest string or message that is read; the buffer of the parser ends with 16 spare bytes. -/
def maxSize : ℕ := INT_MAX - 16

structure Runtime where
  /-- A number, seven bits in a byte. -/
  varint : ℕ → List Byte
  varintSize : ℕ → ℕ
  readTag : Reader (BitVec 32)
  readVarint32 : Reader (BitVec 32)
  readVarint64 : Reader (BitVec 64)
  /-- The length of a string or a message. -/
  readSize : Reader ℕ
  /-- Read over the content of a field that the message does not have. -/
  unknownFieldParse : BitVec 32 → Reader Unit
  length_varint : ∀ {v}, v < 2 ^ 64 → (varint v).length = varintSize v
  varintSize_eq_one : ∀ {v}, v < 128 → varintSize v = 1
  varintSize_le : ∀ {v}, v < 2 ^ 64 → varintSize v ≤ 10
  readTag_nil : readTag.run [] = none
  reads_tag : ∀ tag, Reads readTag (varint tag.toNat) tag
  reads_varint32 : ∀ v, Reads readVarint32 (varint v.toNat) v
  reads_varint64 : ∀ v, Reads readVarint64 (varint v.toNat) v
  reads_size : ∀ {n}, n ≤ maxSize → Reads readSize (varint n) n

variable (rt : Runtime)

/-! ### Writers -/

/-- `WriteTag` -/
def writeTag (number wireType : ℕ) : List Byte := rt.varint (number * 8 + wireType)

/-- `WriteUInt32` -/
def writeUInt32 (number : ℕ) (v : BitVec 32) : List Byte := writeTag rt number 0 ++ rt.varint v.toNat

/-- `WriteUInt64` -/
def writeUInt64 (number : ℕ) (v : BitVec 64) : List Byte := writeTag rt number 0 ++ rt.varint v.toNat

/-- `WriteEnum`; the sign is extended to 64 bits. -/
def writeEnum (number : ℕ) (v : BitVec 32) : List Byte :=
  writeTag rt number 0 ++ rt.varint (v.signExtend 64).toNat

/-- `WriteFixed32` -/
def writeFixed32 (number : ℕ) (v : BitVec 32) : List Byte := writeTag rt number 5 ++ leBytes 4 v.toNat

/-- `WriteFixed64` -/
def writeFixed64 (number : ℕ) (v : BitVec 64) : List Byte := writeTag rt number 1 ++ leBytes 8 v.toNat

/-- A string or a message behind its size, a `uint32`. -/
def writeLengthDelimited (number size : ℕ) (content : List Byte) : List Byte :=
  writeTag rt number 2 ++ (rt.varint (size % 2 ^ 32) ++ content)

/-- `WriteBytes` -/
def writeBytes (number : ℕ) (bs : List Byte) : List Byte := writeLengthDelimited rt number bs.length bs

/-! ### Sizes -/

/-- `UInt32SizePlusOne` -/
def uint32SizePlusOne (v : BitVec 32) : ℕ := rt.varintSize v.toNat + 1

/-- `UInt64SizePlusOne` -/
def uint64SizePlusOne (v : BitVec 64) : ℕ := rt.varintSize v.toNat + 1

/-- `EnumSize` -/
def enumSize (v : BitVec 32) : ℕ := rt.varintSize (v.signExtend 64).toNat

/-- `BytesSize` and `MessageSize` of a content of the given size -/
def lengthDelimitedSize (size : ℕ) : ℕ := size + rt.varintSize (size % 2 ^ 32)

section

variable {rt} {number wireType : ℕ}

theorem length_writeTag (h : number * 8 + wireType < 128) : (writeTag rt number wireType).length = 1 := by
  rw [writeTag, rt.length_varint (by omega), rt.varintSize_eq_one h]

theorem length_writeUInt32 (h : number < 16) (v : BitVec 32) :
    (writeUInt32 rt number v).length = uint32SizePlusOne rt v := by
  unfold writeUInt32 uint32SizePlusOne
  have hv := v.isLt
  rw [List.length_append, length_writeTag (by omega), rt.length_varint (by omega), Nat.add_comm]

theorem length_writeUInt64 (h : number < 16) (v : BitVec 64) :
    (writeUInt64 rt number v).length = uint64SizePlusOne rt v := by
  unfold writeUInt64 uint64SizePlusOne
  rw [List.length_append, length_writeTag (by omega), rt.length_varint v.isLt, Nat.add_comm]

theorem length_writeEnum (h : number < 16) (v : BitVec 32) :
    (writeEnum rt number v).length = 1 + enumSize rt v := by
  unfold writeEnum enumSize
  rw [List.length_append, length_writeTag (by omega), rt.length_varint (v.signExtend 64).isLt]

theorem length_writeFixed32 (h : number < 15) (v : BitVec 32) :
    (writeFixed32 rt number v).length = 1 + 4 := by
  unfold writeFixed32
  rw [List.length_append, length_writeTag (by omega), length_leBytes]

theorem length_writeFixed64 (h : number < 15) (v : BitVec 64) :
    (writeFixed64 rt number v).length = 1 + 8 := by
  unfold writeFixed64
  rw [List.length_append, length_writeTag (by omega), length_leBytes]

theorem length_writeLengthDelimited (h : number < 15) {size : ℕ} {content : List Byte}
    (hsize : content.length = size) :
    (writeLengthDelimited rt number size content).length = 1 + lengthDelimitedSize rt size := by
  unfold writeLengthDelimited lengthDelimitedSize
  have hmod : size % 2 ^ 32 < 2 ^ 32 := Nat.mod_lt _ (by decide)
  rw [List.length_append, List.length_append, length_writeTag (by omega), rt.length_varint (by omega),
    hsize, Nat.add_comm size]

theorem length_writeBytes (h : number < 15) (bs : List Byte) :
    (writeBytes rt number bs).length = 1 + lengthDelimitedSize rt bs.length :=
  length_writeLengthDelimited h rfl

end

theorem le_lengthDelimitedSize (size : ℕ) : size ≤ lengthDelimitedSize rt size := Nat.le_add_right _ _

theorem lengthDelimitedSize_le (size : ℕ) : lengthDelimitedSize rt size ≤ size + 10 := by
  have hmod : size % 2 ^ 32 < 2 ^ 32 := Nat.mod_lt _ (by decide)
  exact Nat.add_le_add_left (rt.varintSize_le (by omega)) size

/-! ### Readers -/

/-- The content of a string. -/
def readBytes : Reader (List Byte) := do
  let size ← rt.readSize
  bytes size

/-- `ParseMessage` -/
def parseMessage {α : Type} (parse : List Byte → Option α) : Reader α := do
  let size ← rt.readSize
  within size parse

/-- A `fixed32` -/
def readFixed32 : Reader (BitVec 32) := do
  let v ← number 4
  pure (BitVec.ofNat 32 v)

/-- A `fixed64` -/
def readFixed64 : Reader (BitVec 64) := do
  let v ← number 8
  pure (BitVec.ofNat 64 v)

/-- An `enum`, of which the low 32 bits count. -/
def readEnum : Reader (BitVec 32) := do
  let v ← rt.readVarint64
  pure (v.setWidth 32)

section

variable {rt}

theorem mod_eq_of_le_maxSize {n : ℕ} (h : n ≤ maxSize) : n % 2 ^ 32 = n := by
  have hmax : maxSize < 2 ^ 32 := by decide
  exact Nat.mod_eq_of_lt (by omega)

theorem reads_readBytes {bs : List Byte} (h : bs.length ≤ maxSize) :
    Reads (readBytes rt) (rt.varint (bs.length % 2 ^ 32) ++ bs) bs := by
  rw [mod_eq_of_le_maxSize h]
  exact (rt.reads_size h).bind (reads_bytes rfl)

theorem reads_parseMessage {α : Type} {parse : List Byte → Option α} {a : α} {content : List Byte}
    {size : ℕ} (hsize : content.length = size) (h : size ≤ maxSize) (hparse : parse content = some a) :
    Reads (parseMessage rt parse) (rt.varint (size % 2 ^ 32) ++ content) a := by
  rw [mod_eq_of_le_maxSize h]
  exact (rt.reads_size h).bind (reads_within hsize hparse)

theorem reads_readFixed32 (v : BitVec 32) : Reads readFixed32 (leBytes 4 v.toNat) v := by
  have h := (reads_number (n := 4) v.isLt).bind_pure (BitVec.ofNat 32)
  rwa [BitVec.ofNat_toNat, BitVec.setWidth_eq] at h

theorem reads_readFixed64 (v : BitVec 64) : Reads readFixed64 (leBytes 8 v.toNat) v := by
  have h := (reads_number (n := 8) v.isLt).bind_pure (BitVec.ofNat 64)
  rwa [BitVec.ofNat_toNat, BitVec.setWidth_eq] at h

theorem reads_readEnum (v : BitVec 32) :
    Reads (readEnum rt) (rt.varint (v.signExtend 64).toNat) v := by
  have h := (rt.reads_varint64 (v.signExtend 64)).bind_pure (BitVec.setWidth 32)
  have hv : (v.signExtend 64).setWidth 32 = v := by
    ext i hi
    rw [BitVec.getElem_setWidth, BitVec.getLsbD_signExtend, if_pos hi, BitVec.getLsbD_eq_getElem hi]
    simp only [show i < 64 by omega, decide_true, Bool.true_and]
  rwa [hv] at h

end

/-! ### The fields of a message -/

variable {σ : Type}

/-- One turn of the loop: a tag and the content of its field.  A tag that is zero or ends a group ends
the loop in front of the end of the message, which is an error. -/
def turn (field : BitVec 32 → σ → Option (Reader σ)) (s : σ) : Reader σ := do
  let tag ← rt.readTag
  match field tag s with
  | some content => content
  | none =>
    if tag = 0 ∨ tag &&& 7 = 4 then fail
    else do
      rt.unknownFieldParse tag
      pure s

variable {rt} {field : BitVec 32 → σ → Option (Reader σ)}

theorem turn_nil (s : σ) : (turn rt field s).run [] = none := by
  unfold turn
  rw [run_bind, rt.readTag_nil]

variable (rt field) in
/-- The loop over the fields of a message. -/
def internalParse (s : σ) (bs : List Byte) : Option σ := untilEnd (turn rt field) turn_nil s bs

/-- The loop absorbs a field. -/
theorem absorbs_field {number wireType : ℕ} (htag : number * 8 + wireType < 2 ^ 32) {content : List Byte}
    {g : σ → σ}
    (h : ∀ s, ∃ r, field (BitVec.ofNat 32 (number * 8 + wireType)) s = some r ∧ Reads r content (g s)) :
    Absorbs (turn rt field) turn_nil (writeTag rt number wireType ++ content) g := by
  apply absorbs_of_reads
  intro s
  obtain ⟨r, hr, hreads⟩ := h s
  have hread := rt.reads_tag (BitVec.ofNat 32 (number * 8 + wireType))
  rw [BitVec.toNat_ofNat, Nat.mod_eq_of_lt htag] at hread
  refine hread.bind ?_
  rw [hr]
  exact hreads

section

variable (number : ℕ) (hnumber : number < 2 ^ 20)
include hnumber

theorem absorbs_writeUInt32 (set : BitVec 32 → σ → σ)
    (hfield : ∀ s, field (BitVec.ofNat 32 (number * 8)) s =
      some (rt.readVarint32 >>= fun v => pure (set v s))) (v : BitVec 32) :
    Absorbs (turn rt field) turn_nil (writeUInt32 rt number v) (set v) :=
  absorbs_field (by omega) fun s => ⟨_, hfield s, (rt.reads_varint32 v).bind_pure (set · s)⟩

theorem absorbs_writeUInt64 (set : BitVec 64 → σ → σ)
    (hfield : ∀ s, field (BitVec.ofNat 32 (number * 8)) s =
      some (rt.readVarint64 >>= fun v => pure (set v s))) (v : BitVec 64) :
    Absorbs (turn rt field) turn_nil (writeUInt64 rt number v) (set v) :=
  absorbs_field (by omega) fun s => ⟨_, hfield s, (rt.reads_varint64 v).bind_pure (set · s)⟩

theorem absorbs_writeEnum (set : BitVec 32 → σ → σ)
    (hfield : ∀ s, field (BitVec.ofNat 32 (number * 8)) s =
      some (readEnum rt >>= fun v => pure (set v s))) (v : BitVec 32) :
    Absorbs (turn rt field) turn_nil (writeEnum rt number v) (set v) :=
  absorbs_field (by omega) fun s => ⟨_, hfield s, (reads_readEnum v).bind_pure (set · s)⟩

theorem absorbs_writeFixed32 (set : BitVec 32 → σ → σ)
    (hfield : ∀ s, field (BitVec.ofNat 32 (number * 8 + 5)) s =
      some (readFixed32 >>= fun v => pure (set v s))) (v : BitVec 32) :
    Absorbs (turn rt field) turn_nil (writeFixed32 rt number v) (set v) :=
  absorbs_field (by omega) fun s => ⟨_, hfield s, (reads_readFixed32 v).bind_pure (set · s)⟩

theorem absorbs_writeFixed64 (set : BitVec 64 → σ → σ)
    (hfield : ∀ s, field (BitVec.ofNat 32 (number * 8 + 1)) s =
      some (readFixed64 >>= fun v => pure (set v s))) (v : BitVec 64) :
    Absorbs (turn rt field) turn_nil (writeFixed64 rt number v) (set v) :=
  absorbs_field (by omega) fun s => ⟨_, hfield s, (reads_readFixed64 v).bind_pure (set · s)⟩

theorem absorbs_writeBytes (set : List Byte → σ → σ)
    (hfield : ∀ s, field (BitVec.ofNat 32 (number * 8 + 2)) s =
      some (readBytes rt >>= fun bs => pure (set bs s))) {bs : List Byte} (hlen : bs.length ≤ maxSize) :
    Absorbs (turn rt field) turn_nil (writeBytes rt number bs) (set bs) :=
  absorbs_field (by omega) fun s => ⟨_, hfield s, (reads_readBytes hlen).bind_pure (set · s)⟩

/-- A message in a field; `parse s` starts from what the state holds of it. -/
theorem absorbs_writeMessage {α : Type} {parse : σ → List Byte → Option α} (set : α → σ → σ) {a : σ → α}
    (hfield : ∀ s, field (BitVec.ofNat 32 (number * 8 + 2)) s =
      some (parseMessage rt (parse s) >>= fun a => pure (set a s))) {content : List Byte} {size : ℕ}
    (hlen : content.length = size) (hsize : size ≤ maxSize) (hparse : ∀ s, parse s content = some (a s)) :
    Absorbs (turn rt field) turn_nil (writeLengthDelimited rt number size content) fun s => set (a s) s :=
  absorbs_field (by omega) fun s =>
    ⟨_, hfield s, (reads_parseMessage hlen hsize (hparse s)).bind_pure (set · s)⟩

end

end Protobuf

end Wire
