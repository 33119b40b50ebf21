import ScionInt.Wire.Header

/-!
# Packet parsers

A parser over a state `σ` (the headers extracted so far and the parser's variables) takes the
part of the packet that is still to be read.  It accepts with a value or rejects; either way it
leaves the state and the rest of the packet as they were at that moment, so that a packet whose
parser failed is still processed with the headers extracted so far.

`bind_accept` and `bind_reject` run a parser one step at a time.  `extractInto_cases` and
`extractVarInto_cases` are the only facts about extraction that a specification needs: the packet
is split into the bytes of the header and the rest, or nothing happens.  `Reaches` says which headers a
parser finds without losing a byte; its rules follow the statements of a parser state.
-/

namespace Wire

/-- A packet parser over the state `σ`; the result `none` is the state `reject`. -/
def Parser (σ α : Type) : Type := σ → List Byte → Option α × σ × List Byte

namespace Parser

variable {σ τ α β H : Type}

/-- `transition accept`. -/
protected def pure (a : α) : Parser σ α := fun s bs => (some a, s, bs)

/-- Run `p` and, if it accepts, continue with `f`. -/
protected def bind (p : Parser σ α) (f : α → Parser σ β) : Parser σ β := fun s bs =>
  match p s bs with
  | (some a, s', bs') => f a s' bs'
  | (none, s', bs') => (none, s', bs')

instance : Monad (Parser σ) where
  pure := Parser.pure
  bind := Parser.bind

/-- `transition accept` with nothing to return. -/
def accept : Parser σ Unit := pure ()

/-- `transition reject`, also the outcome of a `select` without a matching case. -/
def reject : Parser σ α := fun s bs => (none, s, bs)

/-- An assignment to the variables of the parser. -/
def modify (f : σ → σ) : Parser σ Unit := fun s bs => (some (), f s, bs)

/-- The current state. -/
def get : Parser σ σ := fun s bs => (some s, s, bs)

/-- `packet.extract(hdr)`: read a header and store it with `put`. -/
def extractInto [Header H] (put : H → σ → σ) : Parser σ H := fun s bs =>
  match extract H bs with
  | some (h, bs') => (some h, put h s, bs')
  | none => (none, s, bs)

/-- `packet.extract(hdr, bits)` of a header that is one `varbit<max>` field. -/
def extractVarInto {max : ℕ} (bits : BitVec 32) (put : VarBits max → σ → σ) :
    Parser σ (VarBits max) := fun s bs =>
  match extractVar max bits.toNat bs with
  | some (v, bs') => (some v, put v s, bs')
  | none => (none, s, bs)

/-- Apply a sub-parser: `view` gives its variables their initial values and `put` copies them
back, also when the sub-parser rejects. -/
def zoom (view : σ → τ) (put : τ → σ → σ) (p : Parser τ α) : Parser σ α := fun s bs =>
  match p (view s) bs with
  | (a, t, bs') => (a, put t s, bs')

variable {s s' : σ} {bs bs' : List Byte} {a : α} {p : Parser σ α} {f : α → Parser σ β}

theorem bind_accept (h : p s bs = (some a, s', bs')) : (p >>= f) s bs = f a s' bs' := by
  show Parser.bind p f s bs = _
  rw [Parser.bind, h]

theorem bind_reject (h : p s bs = (none, s', bs')) : (p >>= f) s bs = (none, s', bs') := by
  show Parser.bind p f s bs = _
  rw [Parser.bind, h]

@[simp] theorem pure_apply : (pure a : Parser σ α) s bs = (some a, s, bs) := rfl

@[simp] theorem accept_apply : (accept : Parser σ Unit) s bs = (some (), s, bs) := rfl

@[simp] theorem reject_apply : (reject : Parser σ α) s bs = (none, s, bs) := rfl

@[simp] theorem modify_bind_apply (g : σ → σ) (k : Unit → Parser σ β) :
    (modify g >>= k) s bs = k () (g s) bs := rfl

@[simp] theorem modify_apply (g : σ → σ) : modify g s bs = (some (), g s, bs) := rfl

@[simp] theorem get_bind_apply (k : σ → Parser σ β) : (get >>= k) s bs = k s s bs := rfl

@[simp] theorem extractInto_emit [Header H] (put : H → σ → σ) (h : H) :
    extractInto put s (emit h ++ bs) = (some h, put h s, bs) := by
  rw [extractInto, extract_emit]

@[simp] theorem extractInto_bind_emit [Header H] (put : H → σ → σ) (h : H)
    (k : H → Parser σ β) : (extractInto put >>= k) s (emit h ++ bs) = k h (put h s) bs :=
  bind_accept (extractInto_emit put h)

theorem extractVarInto_data {max : ℕ} {bits : BitVec 32} {put : VarBits max → σ → σ}
    (v : VarBits max) (hbits : bits.toNat = 8 * v.data.length) :
    extractVarInto bits put s (v.data ++ bs) = (some v, put v s, bs) := by
  rw [extractVarInto, extractVar_eq_some_iff.mpr ⟨rfl, hbits⟩]

/-- Either the packet starts with a header, or the extraction rejects and changes nothing. -/
theorem extractInto_cases [Header H] (put : H → σ → σ) (s : σ) (bs : List Byte) :
    (∃ (h : H) (rest : List Byte), bs = emit h ++ rest) ∨
    bs.length < Header.size H ∧ extractInto put s bs = (none, s, bs) := by
  cases hx : extract H bs with
  | none => exact Or.inr ⟨extract_eq_none_iff.mp hx, by rw [extractInto, hx]⟩
  | some r =>
    obtain ⟨h, rest⟩ := r
    exact Or.inl ⟨h, rest, extract_eq_some_iff.mp hx⟩

theorem extractVarInto_cases {max : ℕ} (bits : BitVec 32) (put : VarBits max → σ → σ) (s : σ)
    (bs : List Byte) :
    (∃ (v : VarBits max) (rest : List Byte), bs = v.data ++ rest ∧ bits.toNat = 8 * v.data.length ∧
      extractVarInto bits put s bs = (some v, put v s, rest)) ∨
    extractVarInto bits put s bs = (none, s, bs) := by
  cases hx : extractVar max bits.toNat bs with
  | none => exact Or.inr (by rw [extractVarInto, hx])
  | some r =>
    obtain ⟨v, rest⟩ := r
    obtain ⟨h1, h2⟩ := extractVar_eq_some_iff.mp hx
    exact Or.inl ⟨v, rest, h1, h2, by rw [extractVarInto, hx]⟩

/-! ### What a parser has read -/

/-- The bytes of a state are those that were read on the way to it.  From `s` on the packet `bs` there is
a state with the property `good` that can be read from the packet, or the parser rejects in a state that
holds what it has read. -/
def Reaches (emitOf : σ → List Byte) (good : σ → Prop) (p : Parser σ α) (s : σ) (bs : List Byte) : Prop :=
  ∃ (s' : σ) (rest : List Byte), emitOf s ++ bs = emitOf s' ++ rest ∧
    (good s' ∨ p s bs = (none, s', rest))

variable {emitOf : σ → List Byte} {good : σ → Prop}

theorem Reaches.of_good (h : good s) : Reaches emitOf good p s bs := ⟨s, bs, rfl, Or.inl h⟩

theorem Reaches.of_reject (h : p s bs = (none, s, bs)) : Reaches emitOf good p s bs :=
  ⟨s, bs, rfl, Or.inr h⟩

theorem Reaches.modify {g : σ → σ} {k : Unit → Parser σ β} (hemit : emitOf (g s) = emitOf s)
    (hk : Reaches emitOf good (k ()) (g s) bs) : Reaches emitOf good (modify g >>= k) s bs := by
  obtain ⟨s', rest, hbytes, hout⟩ := hk
  rw [hemit] at hbytes
  exact ⟨s', rest, hbytes, hout⟩

theorem Reaches.extractInto [Header H] {put : H → σ → σ} {k : H → Parser σ β}
    (hemit : ∀ h, emitOf (put h s) = emitOf s ++ emit h)
    (hk : ∀ h bs, Reaches emitOf good (k h) (put h s) bs) :
    Reaches emitOf good (extractInto put >>= k) s bs := by
  rcases extractInto_cases put s bs with ⟨h, bs, rfl⟩ | ⟨-, hx⟩
  · obtain ⟨s', rest, hbytes, hout⟩ := hk h bs
    rw [hemit, List.append_assoc] at hbytes
    exact ⟨s', rest, hbytes, hout.imp_right fun hx => (extractInto_bind_emit put h k).trans hx⟩
  · exact .of_reject (bind_reject hx)

theorem Reaches.extractVarInto {max : ℕ} {bits : BitVec 32} {put : VarBits max → σ → σ}
    {k : VarBits max → Parser σ β} (hemit : ∀ v, emitOf (put v s) = emitOf s ++ v.data)
    (hk : ∀ v bs, bits.toNat = 8 * v.data.length → Reaches emitOf good (k v) (put v s) bs) :
    Reaches emitOf good (extractVarInto bits put >>= k) s bs := by
  rcases extractVarInto_cases bits put s bs with ⟨v, bs, rfl, hbits, hv⟩ | hx
  · obtain ⟨s', rest, hbytes, hout⟩ := hk v bs hbits
    rw [hemit, List.append_assoc] at hbytes
    exact ⟨s', rest, hbytes, hout.imp_right fun hx => (bind_accept hv).trans hx⟩
  · exact .of_reject (bind_reject hx)

/-- What follows a sub-parser runs on the state that its variables were copied back to. -/
theorem zoom_bind_apply (view : σ → τ) (put : τ → σ → σ) (q : Parser τ α) (k : α → Parser σ β) :
    (zoom view put q >>= k) s bs = match q (view s) bs with
      | (some a, t, bs') => k a (put t s) bs'
      | (none, t, bs') => (none, put t s, bs') := by
  show Parser.bind (zoom view put q) k s bs = _
  rw [Parser.bind, zoom]
  rcases q (view s) bs with ⟨_ | a, t, bs'⟩ <;> rfl

/-- A sub-parser for a property `good'`, which starts without bytes and accepts what it can read. -/
theorem Reaches.zoom {emitOf' : τ → List Byte} {good' : τ → Prop} {view : σ → τ} {put : τ → σ → σ}
    {q : Parser τ α} {k : α → Parser σ β} (hnil : emitOf' (view s) = [])
    (hemit : ∀ t, emitOf (put t s) = emitOf s ++ emitOf' t) (hq : Reaches emitOf' good' q (view s) bs)
    (haccept : ∀ t bs, good' t → q (view s) (emitOf' t ++ bs) = (some a, t, bs))
    (hk : ∀ t bs, good' t → Reaches emitOf good (k a) (put t s) bs) :
    Reaches emitOf good (zoom view put q >>= k) s bs := by
  obtain ⟨t, bs', hbytes, ht | hx⟩ := hq
  · rw [hnil, List.nil_append] at hbytes
    subst hbytes
    obtain ⟨s', rest, hbytes, hout⟩ := hk t bs' ht
    rw [hemit, List.append_assoc] at hbytes
    refine ⟨s', rest, hbytes, hout.imp_right fun hx => ?_⟩
    rw [zoom_bind_apply, haccept t bs' ht]
    exact hx
  · rw [hnil, List.nil_append] at hbytes
    refine ⟨put t s, bs', ?_, Or.inr ?_⟩
    · rw [hemit, hbytes, List.append_assoc]
    · rw [zoom_bind_apply, hx]

end Parser

end Wire
