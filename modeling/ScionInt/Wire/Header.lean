import ScionInt.Wire.Bytes

/-!
# Headers made of bit fields

A header type lists the widths of its fields (`Header.widths`) and how its values are read off
and rebuilt from them; everything else is derived once and for all.  `packFields` concatenates
the fields, first field most significant, `emit` writes the result as bytes and `extract` reads
it back from the front of a packet.  `extract_eq_some_iff` says that a successful extraction
splits the packet into the emitted header and the rest, and `emit_injective` that a header is
determined by its bytes.
-/

namespace Wire

/-! ### Bit fields -/

/-- Values of consecutive bit fields of the given widths. -/
@[reducible] def Fields : List ℕ → Type
  | [] => Unit
  | w :: ws => BitVec w × Fields ws

/-- The fields as one number, the first field in the most significant bits. -/
def packFields : (ws : List ℕ) → Fields ws → ℕ
  | [], _ => 0
  | _ :: ws, f => f.1.toNat * 2 ^ ws.sum + packFields ws f.2

/-- The fields of a number, `packFields` read backwards. -/
def unpackFields : (ws : List ℕ) → ℕ → Fields ws
  | [], _ => ()
  | w :: ws, v => (BitVec.ofNat w (v / 2 ^ ws.sum), unpackFields ws v)

theorem packFields_lt : ∀ (ws : List ℕ) (f : Fields ws), packFields ws f < 2 ^ ws.sum
  | [], _ => by simp [packFields]
  | w :: ws, f => by
    have ih := packFields_lt ws f.2
    have hw : f.1.toNat < 2 ^ w := f.1.isLt
    rw [packFields, List.sum_cons, pow_add]
    calc f.1.toNat * 2 ^ ws.sum + packFields ws f.2
        < f.1.toNat * 2 ^ ws.sum + 2 ^ ws.sum := by omega
      _ = (f.1.toNat + 1) * 2 ^ ws.sum := by ring
      _ ≤ 2 ^ w * 2 ^ ws.sum := Nat.mul_le_mul_right _ (by omega)

/-- `unpackFields` ignores everything above the fields. -/
theorem unpackFields_add_mul (ws : List ℕ) (v k : ℕ) :
    unpackFields ws (k * 2 ^ ws.sum + v) = unpackFields ws v := by
  induction ws generalizing k with
  | nil => rfl
  | cons w ws ih =>
    have hk : k * 2 ^ (w :: ws).sum = (k * 2 ^ w) * 2 ^ ws.sum := by
      rw [List.sum_cons, pow_add]; ring
    rw [unpackFields, unpackFields, hk, ih]
    congr 1
    apply BitVec.eq_of_toNat_eq
    rw [BitVec.toNat_ofNat, BitVec.toNat_ofNat, Nat.mul_comm (k * 2 ^ w),
      Nat.mul_add_div (Nat.two_pow_pos _), Nat.add_comm, Nat.add_mul_mod_self_right]

theorem unpackFields_packFields : ∀ (ws : List ℕ) (f : Fields ws),
    unpackFields ws (packFields ws f) = f
  | [], _ => rfl
  | w :: ws, (x, f) => by
    rw [packFields, unpackFields, unpackFields_add_mul, unpackFields_packFields ws f,
      Nat.mul_comm, Nat.mul_add_div (Nat.two_pow_pos _),
      Nat.div_eq_of_lt (packFields_lt ws f), Nat.add_zero, BitVec.ofNat_toNat,
      BitVec.setWidth_eq]

theorem packFields_unpackFields (ws : List ℕ) (v : ℕ) :
    packFields ws (unpackFields ws v) = v % 2 ^ ws.sum := by
  induction ws with
  | nil => simp [packFields, Nat.mod_one]
  | cons w ws ih =>
    have hsplit : v % 2 ^ (w :: ws).sum = v % 2 ^ ws.sum + 2 ^ ws.sum * (v / 2 ^ ws.sum % 2 ^ w) := by
      rw [List.sum_cons, Nat.add_comm w, pow_add, Nat.mod_mul]
    rw [unpackFields, packFields, ih, BitVec.toNat_ofNat, hsplit, Nat.mul_comm, Nat.add_comm]

/-- The bytes of a list of fields. -/
def emitFields (ws : List ℕ) (f : Fields ws) : List Byte := toBytes (ws.sum / 8) (packFields ws f)

@[simp] theorem length_emitFields (ws : List ℕ) (f : Fields ws) :
    (emitFields ws f).length = ws.sum / 8 := length_toBytes _ _

/-- Two lists of fields, one after the other. -/
def Fields.append : {ws ws' : List ℕ} → Fields ws → Fields ws' → Fields (ws ++ ws')
  | [], _, _, g => g
  | _ :: _, _, f, g => (f.1, Fields.append f.2 g)

theorem packFields_append : ∀ {ws ws' : List ℕ} (f : Fields ws) (g : Fields ws'),
    packFields (ws ++ ws') (f.append g) = packFields ws f * 2 ^ ws'.sum + packFields ws' g
  | [], ws', _, g => by simp [packFields, Fields.append]
  | w :: ws, ws', (x, f), g => by
    show x.toNat * 2 ^ (ws ++ ws').sum + packFields (ws ++ ws') (Fields.append f g) = _
    rw [packFields_append f g, packFields, List.sum_append, pow_add]
    ring

/-- Fields that end on a byte boundary are written one after the other. -/
theorem emitFields_append {ws ws' : List ℕ} (f : Fields ws) (g : Fields ws') (h : ws.sum % 8 = 0)
    (h' : ws'.sum % 8 = 0) :
    emitFields (ws ++ ws') (f.append g) = emitFields ws f ++ emitFields ws' g := by
  have hdiv : (ws ++ ws').sum / 8 = ws.sum / 8 + ws'.sum / 8 := by rw [List.sum_append]; omega
  have hpow : 2 ^ ws'.sum = 256 ^ (ws'.sum / 8) := by
    rw [show (256 : ℕ) = 2 ^ 8 from rfl, ← pow_mul, Nat.mul_div_cancel' (Nat.dvd_of_mod_eq_zero h')]
  have hlt : packFields ws' g < 256 ^ (ws'.sum / 8) := hpow ▸ packFields_lt ws' g
  rw [emitFields, hdiv, toBytes_add, packFields_append, hpow, Nat.mul_comm,
    Nat.mul_add_div (by positivity), Nat.div_eq_of_lt hlt, Nat.add_zero]
  congr 1
  exact toBytes_congr (by rw [Nat.mul_add_mod])

/-- Fields of whole bytes are read back as one number. -/
theorem ofBytes_emitFields {ws : List ℕ} (f : Fields ws) (h : ws.sum % 8 = 0) :
    ofBytes (emitFields ws f) = packFields ws f := by
  have hpow : 2 ^ ws.sum = 256 ^ (ws.sum / 8) := by
    rw [show (256 : ℕ) = 2 ^ 8 from rfl, ← pow_mul, Nat.mul_div_cancel' (Nat.dvd_of_mod_eq_zero h)]
  rw [emitFields, ofBytes_toBytes, ← hpow, Nat.mod_eq_of_lt (packFields_lt ws f)]

/-! ### Headers -/

/-- A header of `size` bytes made of bit fields of the given widths. -/
class Header (H : Type) where
  /-- The widths of the fields, in the order in which they are sent. -/
  widths : List ℕ
  /-- The number of bytes of the header. -/
  size : ℕ
  /-- The fields of a header. -/
  toFields : H → Fields widths
  /-- The header with the given fields. -/
  ofFields : Fields widths → H
  ofFields_toFields : ∀ h, ofFields (toFields h) = h
  toFields_ofFields : ∀ f, toFields (ofFields f) = f
  sum_widths : widths.sum = 8 * size

section

variable {H : Type} [Header H]

/-- The header as a number. -/
def pack (h : H) : ℕ := packFields (Header.widths H) (Header.toFields h)

/-- The bytes of a header. -/
def emit (h : H) : List Byte := toBytes (Header.size H) (pack h)

/-- The header in the given bytes. -/
def unpack (H : Type) [Header H] (bs : List Byte) : H :=
  Header.ofFields (unpackFields (Header.widths H) (ofBytes bs))

/-- Read a header from the front of a packet; `none` if the packet is too short. -/
def extract (H : Type) [Header H] (bs : List Byte) : Option (H × List Byte) :=
  if Header.size H ≤ bs.length then
    some (unpack H (bs.take (Header.size H)), bs.drop (Header.size H))
  else none

theorem two_pow_sum_widths (H : Type) [Header H] :
    2 ^ (Header.widths H).sum = 256 ^ Header.size H := by
  rw [Header.sum_widths, pow_mul]
  rfl

theorem pack_lt (h : H) : pack h < 256 ^ Header.size H := by
  rw [← two_pow_sum_widths]; exact packFields_lt _ _

@[simp] theorem length_emit (h : H) : (emit h).length = Header.size H := length_toBytes _ _

@[simp] theorem ofBytes_emit (h : H) : ofBytes (emit h) = pack h := by
  rw [emit, ofBytes_toBytes, Nat.mod_eq_of_lt (pack_lt h)]

theorem emit_eq_emitFields (h : H) : emit h = emitFields (Header.widths H) (Header.toFields h) := by
  rw [emit, emitFields, Header.sum_widths, Nat.mul_div_cancel_left _ (by omega)]
  rfl

theorem unpack_emit (h : H) : unpack H (emit h) = h := by
  rw [unpack, ofBytes_emit, pack, unpackFields_packFields, Header.ofFields_toFields]

theorem emit_unpack {bs : List Byte} (hlen : bs.length = Header.size H) :
    emit (unpack H bs) = bs := by
  have hlt : ofBytes bs < 256 ^ Header.size H := hlen ▸ ofBytes_lt bs
  rw [emit, pack, unpack, Header.toFields_ofFields, packFields_unpackFields, two_pow_sum_widths,
    Nat.mod_eq_of_lt hlt, toBytes_ofBytes hlen]

theorem emit_injective : Function.Injective (emit : H → List Byte) := by
  intro h h' heq
  rw [← unpack_emit h, heq, unpack_emit]

/-- A header in front of a packet is determined by the packet. -/
theorem emit_append_inj {h h' : H} {bs bs' : List Byte} (heq : emit h ++ bs = emit h' ++ bs') :
    h = h' ∧ bs = bs' := by
  obtain ⟨h1, h2⟩ := List.append_inj heq (by rw [length_emit, length_emit])
  exact ⟨emit_injective h1, h2⟩

theorem emit_append_eq_iff {h h' : H} {bs bs' : List Byte} :
    emit h ++ bs = emit h' ++ bs' ↔ h = h' ∧ bs = bs' := by
  refine ⟨emit_append_inj, ?_⟩
  rintro ⟨rfl, rfl⟩
  rfl

@[simp] theorem extract_emit (h : H) (bs : List Byte) : extract H (emit h ++ bs) = some (h, bs) := by
  have hlen : Header.size H ≤ (emit h ++ bs).length := by simp
  rw [extract, if_pos hlen, List.take_left' (length_emit h), List.drop_left' (length_emit h),
    unpack_emit]

/-- A header is extracted exactly when the packet starts with its bytes. -/
theorem extract_eq_some_iff {bs rest : List Byte} {h : H} :
    extract H bs = some (h, rest) ↔ bs = emit h ++ rest := by
  constructor
  · intro hx
    rw [extract] at hx
    split_ifs at hx with hlen
    obtain ⟨rfl, rfl⟩ := Prod.mk.inj (Option.some.inj hx)
    rw [emit_unpack (by rw [List.length_take]; omega), List.take_append_drop]
  · rintro rfl
    exact extract_emit h rest

theorem extract_eq_none_iff {bs : List Byte} : extract H bs = none ↔ bs.length < Header.size H := by
  rw [extract]
  split_ifs with hlen
  · simp only [false_iff]; omega
  · simp only [true_iff]; omega

end

/-- The bytes of a header that may be invalid: an invalid header emits nothing. -/
def emitOpt {H : Type} [Header H] : Option H → List Byte
  | none => []
  | some h => emit h

@[simp] theorem emitOpt_none {H : Type} [Header H] : emitOpt (none : Option H) = [] := rfl

@[simp] theorem emitOpt_some {H : Type} [Header H] (h : H) : emitOpt (some h) = emit h := rfl

/-! ### Variable-length headers -/

/-- A header that is one `varbit` field of at most `max` bits, a whole number of bytes. -/
structure VarBits (max : ℕ) where
  /-- The bytes of the field. -/
  data : List Byte
  length_le : 8 * data.length ≤ max
deriving DecidableEq

/-- The bytes of a `varbit` header that may be invalid. -/
def VarBits.emitOpt {max : ℕ} : Option (VarBits max) → List Byte
  | none => []
  | some v => v.data

@[simp] theorem VarBits.emitOpt_none {max : ℕ} : VarBits.emitOpt (none : Option (VarBits max)) = [] :=
  rfl

@[simp] theorem VarBits.emitOpt_some {max : ℕ} (v : VarBits max) : VarBits.emitOpt (some v) = v.data :=
  rfl

/-- Read `bits` bits from the front of a packet; `none` if they are not whole bytes, exceed the
capacity of the header or the packet is too short. -/
def extractVar (max bits : ℕ) (bs : List Byte) : Option (VarBits max × List Byte) :=
  if h : bits % 8 = 0 ∧ bits ≤ max ∧ bits / 8 ≤ bs.length then
    some (⟨bs.take (bits / 8), by rw [List.length_take]; omega⟩, bs.drop (bits / 8))
  else none

theorem extractVar_eq_some_iff {max bits : ℕ} {bs rest : List Byte} {v : VarBits max} :
    extractVar max bits bs = some (v, rest) ↔ bs = v.data ++ rest ∧ bits = 8 * v.data.length := by
  constructor
  · intro hx
    rw [extractVar] at hx
    split_ifs at hx with hlen
    obtain ⟨rfl, rfl⟩ := Prod.mk.inj (Option.some.inj hx)
    exact ⟨(List.take_append_drop _ _).symm, by simp only [List.length_take]; omega⟩
  · rintro ⟨rfl, rfl⟩
    have hmax := v.length_le
    have hdiv : 8 * v.data.length / 8 = v.data.length := by omega
    rw [extractVar, dif_pos ⟨by omega, by omega, by rw [hdiv, List.length_append]; omega⟩]
    simp only [hdiv, List.take_left, List.drop_left]

end Wire
