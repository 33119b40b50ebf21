import ScionInt.DataPlane.Parser
import Mathlib.Tactic.IntervalCases

/-!
# The SCION parsers

`ScionAdressParser` and `ScionPathParser` consume exactly the headers they extract.  For both, the
relation `Matches` describes the headers that an accepted packet has: the host addresses are those
that `dl` and `sl` announce and the path is the one that `pathType` and the segment lengths announce.
`ScionAdressParser.start_of_matches` and `ScionPathParser.start_of_matches` parse such headers, and
`cpuHdrLen` grows by the number of bytes consumed; the two `start_cases` say that in every other case
the parser rejects and still leaves a packet that is the emitted headers and the rest.  They are put
together from one `reaches_` lemma for each state.
-/

namespace ScionInt

open Wire Wire.Parser

/-! ### Extraction into the variables of a parser -/

@[simp] theorem MetadataT.addCpuHdrLen_addCpuHdrLen (m : MetadataT) (i j : BitVec 64) :
    (m.addCpuHdrLen i).addCpuHdrLen j = m.addCpuHdrLen (i + j) := by
  simp only [MetadataT.addCpuHdrLen, BitVec.add_assoc]

section

variable {σ τ α H : Type} {s : ParserVars σ} {bs : List Byte}

@[simp] theorem addCpuHdrLen_apply (n : BitVec 64) :
    addCpuHdrLen n s bs = (some (), ⟨s.out, s.metadata.addCpuHdrLen n⟩, bs) := rfl

@[simp] theorem addCpuHdrLen_bind_apply (n : BitVec 64) (k : Unit → Parser (ParserVars σ) α) :
    (addCpuHdrLen n >>= k) s bs = k () ⟨s.out, s.metadata.addCpuHdrLen n⟩ bs := rfl

@[simp] theorem extractOut_bind_emit [Header H] (put : H → σ → σ) (h : H)
    (k : H → Parser (ParserVars σ) α) :
    (extractOut put >>= k) s (emit h ++ bs) = k h ⟨put h s.out, s.metadata⟩ bs :=
  extractInto_bind_emit _ h k

/-- Either the packet starts with the header, or the extraction rejects. -/
theorem extractOut_cases [Header H] (put : H → σ → σ) (s : ParserVars σ) (bs : List Byte) :
    (∃ (h : H) (rest : List Byte), bs = emit h ++ rest) ∨
    bs.length < Header.size H ∧ extractOut put s bs = (none, s, bs) :=
  extractInto_cases _ s bs

theorem extractVarOut_bind_data {max : ℕ} {bits : BitVec 32} {put : VarBits max → σ → σ}
    (v : VarBits max) (hbits : bits.toNat = 8 * v.data.length)
    (k : VarBits max → Parser (ParserVars σ) α) :
    (extractVarOut bits put >>= k) s (v.data ++ bs) = k v ⟨put v s.out, s.metadata⟩ bs :=
  bind_accept (extractVarInto_data v hbits)

theorem extractVarOut_cases {max : ℕ} (bits : BitVec 32) (put : VarBits max → σ → σ)
    (s : ParserVars σ) (bs : List Byte) :
    (∃ (v : VarBits max) (rest : List Byte), bs = v.data ++ rest ∧
      bits.toNat = 8 * v.data.length) ∨
    extractVarOut bits put s bs = (none, s, bs) := by
  rcases extractVarInto_cases bits (fun h s => { s with out := put h s.out }) s bs with
    ⟨v, rest, h1, h2, -⟩ | h
  · exact Or.inl ⟨v, rest, h1, h2⟩
  · exact Or.inr h

section

variable {emitOf : σ → List Byte} {good : ParserVars σ → Prop}

theorem reaches_addCpuHdrLen {n : BitVec 64} {k : Unit → Parser (ParserVars σ) α}
    (hk : Reaches (fun s => emitOf s.out) good (k ()) ⟨s.out, s.metadata.addCpuHdrLen n⟩ bs) :
    Reaches (fun s => emitOf s.out) good (addCpuHdrLen n >>= k) s bs :=
  .modify rfl hk

theorem reaches_extractOut [Header H] {put : H → σ → σ} {k : H → Parser (ParserVars σ) α}
    (hemit : ∀ h, emitOf (put h s.out) = emitOf s.out ++ emit h)
    (hk : ∀ h bs, Reaches (fun s => emitOf s.out) good (k h) ⟨put h s.out, s.metadata⟩ bs) :
    Reaches (fun s => emitOf s.out) good (extractOut put >>= k) s bs :=
  .extractInto hemit hk

theorem reaches_extractVarOut {max : ℕ} {bits : BitVec 32} {put : VarBits max → σ → σ}
    {k : VarBits max → Parser (ParserVars σ) α}
    (hemit : ∀ v, emitOf (put v s.out) = emitOf s.out ++ v.data)
    (hk : ∀ v bs, bits.toNat = 8 * v.data.length →
      Reaches (fun s => emitOf s.out) good (k v) ⟨put v s.out, s.metadata⟩ bs) :
    Reaches (fun s => emitOf s.out) good (extractVarOut bits put >>= k) s bs :=
  .extractVarInto hemit hk

end

/-- What follows a sub-parser runs on the headers it left, with its metadata. -/
theorem applyParser_bind_apply [Inhabited τ] (put : τ → σ → σ) (q : Parser (ParserVars τ) Unit)
    (k : Unit → Parser (ParserVars σ) α) :
    (applyParser put q >>= k) s bs = match q ⟨default, s.metadata⟩ bs with
      | (some _, t, bs') => k () ⟨put t.out s.out, t.metadata⟩ bs'
      | (none, t, bs') => (none, ⟨put t.out s.out, t.metadata⟩, bs') := by
  rw [applyParser, zoom_bind_apply]
  rcases q ⟨default, s.metadata⟩ bs with ⟨_ | _, t, bs'⟩ <;> rfl

end

/-! ### Address headers -/

namespace ScionAdressParser

/-- The length of a host address announced by a 2-bit length field. -/
def HostLen.ofBits (bits : BitVec 2) : HostLen :=
  match bits.toNat with
  | 0 => .host_32
  | 1 => .host_64
  | 2 => .host_96
  | _ => .host_128

/-- The number of bytes of a host address. -/
def HostLen.bytes : HostLen → ℕ
  | .host_32 => 4
  | .host_64 => 8
  | .host_96 => 12
  | .host_128 => 16

end ScionAdressParser

open ScionAdressParser

/-- The headers extracted for a host address of the given length. -/
def ScionHostT.HasLen (a : ScionHostT) : HostLen → Prop
  | .host_32 => ∃ h, a = { host32 := some h }
  | .host_64 => ∃ h h2, a = { host32 := some h, host32_2 := some h2 }
  | .host_96 => ∃ h h2 h3, a = { host32 := some h, host32_2 := some h2, host32_3 := some h3 }
  | .host_128 => ∃ h, a = { host128 := some h }

@[simp] theorem ScionHostT.emit_empty : ScionHostT.emit {} = [] := rfl

theorem ScionHostT.HasLen.length_emit {a : ScionHostT} {len : HostLen} (h : a.HasLen len) :
    a.emit.length = len.bytes := by
  cases len with
  | host_32 => obtain ⟨h, rfl⟩ := h; rfl
  | host_64 => obtain ⟨h, h2, rfl⟩ := h; rfl
  | host_96 => obtain ⟨h, h2, h3, rfl⟩ := h; rfl
  | host_128 => obtain ⟨h, rfl⟩ := h; rfl

/-- The address headers announced by the SCION common header. -/
structure ScionAddrT.Matches (a : ScionAddrT) (c : ScionCommonH) : Prop where
  common : a.common.isSome
  dst : a.dst.HasLen (HostLen.ofBits c.dl)
  src : a.src.HasLen (HostLen.ofBits c.sl)

theorem ScionAddrT.Matches.length_emit {a : ScionAddrT} {c : ScionCommonH} (h : a.Matches c) :
    a.emit.length = 16 + (HostLen.ofBits c.dl).bytes + (HostLen.ofBits c.sl).bytes := by
  obtain ⟨x, hx⟩ := Option.isSome_iff_exists.mp h.common
  rw [ScionAddrT.emit, List.length_append, List.length_append, h.dst.length_emit,
    h.src.length_emit, hx]
  rfl

namespace ScionAdressParser

/-! ### Host addresses -/

theorem hostParser_of_hasLen {a : ScionHostT} {len : HostLen} (h : a.HasLen len)
    (rest : List Byte) : hostParser len {} (a.emit ++ rest) = (some (), a, rest) := by
  cases len with
  | host_32 => obtain ⟨h, rfl⟩ := h; simp [hostParser, ScionHostT.emit]
  | host_64 => obtain ⟨h, h2, rfl⟩ := h; simp [hostParser, ScionHostT.emit]
  | host_96 => obtain ⟨h, h2, h3, rfl⟩ := h; simp [hostParser, ScionHostT.emit]
  | host_128 => obtain ⟨h, rfl⟩ := h; simp [hostParser, ScionHostT.emit]

theorem reaches_hostParser (len : HostLen) (bs : List Byte) :
    Reaches ScionHostT.emit (fun a => a.HasLen len) (hostParser len) {} bs := by
  cases len with
  | host_32 =>
    refine .extractInto (fun h => by simp [ScionHostT.emit]) fun h bs => ?_
    exact .of_good ⟨h, rfl⟩
  | host_64 =>
    refine .extractInto (fun h => by simp [ScionHostT.emit]) fun h bs => ?_
    refine .extractInto (fun h2 => by simp [ScionHostT.emit]) fun h2 bs => ?_
    exact .of_good ⟨h, h2, rfl⟩
  | host_96 =>
    refine .extractInto (fun h => by simp [ScionHostT.emit]) fun h bs => ?_
    refine .extractInto (fun h2 => by simp [ScionHostT.emit]) fun h2 bs => ?_
    refine .extractInto (fun h3 => by simp [ScionHostT.emit]) fun h3 bs => ?_
    exact .of_good ⟨h, h2, h3, rfl⟩
  | host_128 =>
    refine .extractInto (fun h => by simp [ScionHostT.emit]) fun h bs => ?_
    exact .of_good ⟨h, rfl⟩

/-! ### `ScionAdressParser` -/

/-- The 16 address states are one: the two host addresses announced by `dl` and `sl`, and
`cpuHdrLen` grows by their bytes. -/
theorem start_eq (c : ScionCommonH) :
    start c = (do
      let _ ← extractOut fun h (a : ScionAddrT) => { a with common := some h }
      addCpuHdrLen 16
      addrDstSrcHost (HostLen.ofBits c.dl) (HostLen.ofBits c.sl)
        (BitVec.ofNat 64 ((HostLen.ofBits c.dl).bytes + (HostLen.ofBits c.sl).bytes))) := by
  have hsel : ∀ dl sl : ℕ, dl < 4 → sl < 4 → ∀ dl' sl' : BitVec 2, dl'.toNat = dl → sl'.toNat = sl →
      start { c with dl := dl', sl := sl' } = (do
        let _ ← extractOut fun h (a : ScionAddrT) => { a with common := some h }
        addCpuHdrLen 16
        addrDstSrcHost (HostLen.ofBits dl') (HostLen.ofBits sl')
          (BitVec.ofNat 64 ((HostLen.ofBits dl').bytes + (HostLen.ofBits sl').bytes))) := by
    intro dl sl hdl hsl dl' sl' h1 h2
    interval_cases dl <;> interval_cases sl <;> (simp only [start, HostLen.ofBits, h1, h2]; rfl)
  exact hsel c.dl.toNat c.sl.toNat c.dl.isLt c.sl.isLt c.dl c.sl rfl rfl

/-- A state `addr_dst_src_host_*` on the two host addresses it extracts. -/
theorem addrDstSrcHost_of_hasLen {dst src : ScionHostT} {dl sl : HostLen} (hdst : dst.HasLen dl)
    (hsrc : src.HasLen sl) (n : BitVec 64) (s : ParserVars ScionAddrT) (rest : List Byte) :
    addrDstSrcHost dl sl n s (dst.emit ++ (src.emit ++ rest)) =
      (some (), ⟨{ s.out with dst := dst, src := src }, s.metadata.addCpuHdrLen n⟩, rest) := by
  rw [addrDstSrcHost, zoom_bind_apply, hostParser_of_hasLen hdst]
  simp only
  rw [zoom_bind_apply, hostParser_of_hasLen hsrc]
  rfl

/-- A state `addr_dst_src_host_*` behind the ISD and AS numbers. -/
theorem reaches_addrDstSrcHost {c : ScionCommonH} {common : ScionAddrCommonH} {n : BitVec 64}
    {m : MetadataT} {bs : List Byte} :
    Reaches (fun s => s.out.emit) (fun s : ParserVars ScionAddrT => s.out.Matches c)
      (addrDstSrcHost (HostLen.ofBits c.dl) (HostLen.ofBits c.sl) n) ⟨{ common := some common }, m⟩
      bs := by
  refine .zoom rfl (fun dst => by simp [ScionAddrT.emit]) (reaches_hostParser _ bs)
    (fun dst bs hdst => hostParser_of_hasLen hdst bs) fun dst bs hdst => ?_
  refine .zoom rfl (fun src => by simp [ScionAddrT.emit]) (reaches_hostParser _ bs)
    (fun src bs hsrc => hostParser_of_hasLen hsrc bs) fun src bs hsrc => ?_
  exact .of_good ⟨rfl, hdst, hsrc⟩

theorem start_of_matches {a : ScionAddrT} {c : ScionCommonH} (h : a.Matches c) (m : MetadataT)
    (rest : List Byte) :
    start c ⟨{}, m⟩ (a.emit ++ rest) =
      (some (), ⟨a, m.addCpuHdrLen (BitVec.ofNat 64 a.emit.length)⟩, rest) := by
  rw [h.length_emit, start_eq]
  obtain ⟨hcommon, hdst, hsrc⟩ := h
  obtain ⟨common, dst, src⟩ := a
  obtain ⟨x, rfl⟩ := Option.isSome_iff_exists.mp hcommon
  simp only [ScionAddrT.emit, emitOpt_some, List.append_assoc, extractOut_bind_emit,
    addCpuHdrLen_bind_apply]
  rw [addrDstSrcHost_of_hasLen hdst hsrc, MetadataT.addCpuHdrLen_addCpuHdrLen, Nat.add_assoc,
    BitVec.ofNat_add 16]
  rfl

theorem reaches_start (c : ScionCommonH) (m : MetadataT) (bs : List Byte) :
    Reaches (fun s => s.out.emit) (fun s : ParserVars ScionAddrT => s.out.Matches c) (start c) ⟨{}, m⟩
      bs := by
  rw [start_eq]
  refine reaches_extractOut (fun h => by simp [ScionAddrT.emit]) fun common bs => ?_
  exact reaches_addCpuHdrLen reaches_addrDstSrcHost

/-- Every outcome of `ScionAdressParser`: the address headers that `dl` and `sl` announce, or a
packet that ends before them. -/
theorem start_cases (c : ScionCommonH) (m : MetadataT) (bs : List Byte) :
    ∃ (a : ScionAddrT) (rest : List Byte), bs = a.emit ++ rest ∧
      (a.Matches c ∨ ∃ m', start c ⟨{}, m⟩ bs = (none, ⟨a, m'⟩, rest)) := by
  obtain ⟨⟨a, m'⟩, rest, hbytes, hout⟩ := reaches_start c m bs
  exact ⟨a, rest, hbytes, hout.imp_right fun hx => ⟨m', hx⟩⟩

end ScionAdressParser

/-! ### Path headers -/

open ScionPathParser

/-- The path headers announced by the path type and, for a SCION path, by the segment lengths. -/
inductive ScionPathT.Matches : BitVec 8 → ScionPathT → Prop
  | onehop (info : ScionInfoFieldH) (hops : ScionHopFieldH) (hlen : hops.data.length = 24) :
    Matches PathType.ONEHOP { infoField0 := some info, hopFields := some hops }
  | oneSegment (pathMeta : ScionPathMetaH) (info : ScionInfoFieldH) (hops : ScionHopFieldH)
    (hseg : pathMeta.seg1Len = 0 ∧ pathMeta.seg2Len = 0)
    (hlen : (hopLen pathMeta).toNat = 8 * hops.data.length) :
    Matches PathType.SCION
      { pathMeta := some pathMeta, infoField0 := some info, hopFields := some hops }
  | twoSegments (pathMeta : ScionPathMetaH) (info info1 : ScionInfoFieldH) (hops : ScionHopFieldH)
    (hseg : pathMeta.seg1Len ≠ 0 ∧ pathMeta.seg2Len = 0)
    (hlen : (hopLen pathMeta).toNat = 8 * hops.data.length) :
    Matches PathType.SCION
      { pathMeta := some pathMeta, infoField0 := some info, infoField1 := some info1,
        hopFields := some hops }
  | threeSegments (pathMeta : ScionPathMetaH) (info info1 info2 : ScionInfoFieldH)
    (hops : ScionHopFieldH) (hseg : pathMeta.seg2Len ≠ 0)
    (hlen : (hopLen pathMeta).toNat = 8 * hops.data.length) :
    Matches PathType.SCION
      { pathMeta := some pathMeta, infoField0 := some info, infoField1 := some info1,
        infoField2 := some info2, hopFields := some hops }

namespace ScionPathParser

theorem setWidth_hopLen_div {pathMeta : ScionPathMetaH} {n : ℕ}
    (h : (hopLen pathMeta).toNat = 8 * n) : (hopLen pathMeta).setWidth 64 / 8 = BitVec.ofNat 64 n := by
  have hlt : (hopLen pathMeta).toNat < 2 ^ 32 := (hopLen pathMeta).isLt
  apply BitVec.eq_of_toNat_eq
  rw [BitVec.toNat_udiv, BitVec.toNat_setWidth, h, BitVec.toNat_ofNat]
  show 8 * n % 2 ^ 64 / 8 = n % 2 ^ 64
  omega

theorem hop_fields_data {pathMeta : ScionPathMetaH} (hops : ScionHopFieldH)
    (hlen : (hopLen pathMeta).toNat = 8 * hops.data.length) (s : ParserVars ScionPathT)
    (rest : List Byte) :
    hop_fields pathMeta s (hops.data ++ rest) = (some (), ⟨{ s.out with hopFields := some hops },
      s.metadata.addCpuHdrLen (BitVec.ofNat 64 hops.data.length)⟩, rest) := by
  rw [hop_fields, extractVarOut_bind_data hops hlen, addCpuHdrLen_apply, setWidth_hopLen_div hlen]

theorem start_of_matches {p : ScionPathT} {c : ScionCommonH} (h : p.Matches c.pathType)
    (m : MetadataT) (rest : List Byte) :
    start c ⟨{}, m⟩ (p.emit ++ rest) =
      (some (), ⟨p, m.addCpuHdrLen (BitVec.ofNat 64 p.emit.length)⟩, rest) := by
  generalize hpt : c.pathType = pathType at h
  cases h with
  | onehop info hops hlen =>
    have hne : c.pathType ≠ PathType.SCION := by rw [hpt]; decide
    have hbits : (192 : BitVec 32).toNat = 8 * hops.data.length := by rw [hlen]; rfl
    have hemit : ScionPathT.emit { infoField0 := some info, hopFields := some hops } =
        emit info ++ hops.data := by simp [ScionPathT.emit]
    rw [start, if_neg hne, if_pos hpt, path_onehop, hemit, List.append_assoc,
      extractOut_bind_emit, extractVarOut_bind_data hops hbits, addCpuHdrLen_apply,
      List.length_append, length_emit, hlen]
    rfl
  | oneSegment pathMeta info hops hseg hlen =>
    have hemit : ScionPathT.emit
        { pathMeta := some pathMeta, infoField0 := some info, hopFields := some hops } =
        emit pathMeta ++ (emit info ++ hops.data) := by simp [ScionPathT.emit]
    have hlength : (emit pathMeta ++ (emit info ++ hops.data)).length =
        12 + hops.data.length := by simp; omega
    rw [start, if_pos hpt, path_scion, hemit, hlength, List.append_assoc, List.append_assoc,
      extractOut_bind_emit, addCpuHdrLen_bind_apply, if_pos hseg, info_field_0,
      extractOut_bind_emit, addCpuHdrLen_bind_apply, hop_fields_data hops hlen, BitVec.ofNat_add,
      MetadataT.addCpuHdrLen_addCpuHdrLen, MetadataT.addCpuHdrLen_addCpuHdrLen]
    rfl
  | twoSegments pathMeta info info1 hops hseg hlen =>
    have hne : ¬ (pathMeta.seg1Len = 0 ∧ pathMeta.seg2Len = 0) := fun h => hseg.1 h.1
    have hemit : ScionPathT.emit ⟨some pathMeta, some info, some info1, none, some hops⟩ =
        emit pathMeta ++ (emit info ++ (emit info1 ++ hops.data)) := by
      simp [ScionPathT.emit]
    have hlength : (emit pathMeta ++ (emit info ++ (emit info1 ++ hops.data))).length =
        20 + hops.data.length := by simp; omega
    rw [start, if_pos hpt, path_scion, hemit, hlength, List.append_assoc, List.append_assoc,
      List.append_assoc, extractOut_bind_emit, addCpuHdrLen_bind_apply, if_neg hne,
      if_pos hseg.2, info_field_1, extractOut_bind_emit, extractOut_bind_emit,
      addCpuHdrLen_bind_apply, hop_fields_data hops hlen, BitVec.ofNat_add,
      MetadataT.addCpuHdrLen_addCpuHdrLen, MetadataT.addCpuHdrLen_addCpuHdrLen]
    rfl
  | threeSegments pathMeta info info1 info2 hops hseg hlen =>
    have hne : ¬ (pathMeta.seg1Len = 0 ∧ pathMeta.seg2Len = 0) := fun h => hseg h.2
    have hemit : ScionPathT.emit ⟨some pathMeta, some info, some info1, some info2, some hops⟩ =
        emit pathMeta ++ (emit info ++ (emit info1 ++ (emit info2 ++ hops.data))) := by
      simp [ScionPathT.emit]
    have hlength : (emit pathMeta ++ (emit info ++ (emit info1 ++ (emit info2 ++
        hops.data)))).length = 28 + hops.data.length := by simp; omega
    rw [start, if_pos hpt, path_scion, hemit, hlength, List.append_assoc, List.append_assoc,
      List.append_assoc, List.append_assoc, extractOut_bind_emit, addCpuHdrLen_bind_apply,
      if_neg hne, if_neg hseg, info_field_2, extractOut_bind_emit, extractOut_bind_emit,
      extractOut_bind_emit, addCpuHdrLen_bind_apply, hop_fields_data hops hlen, BitVec.ofNat_add,
      MetadataT.addCpuHdrLen_addCpuHdrLen, MetadataT.addCpuHdrLen_addCpuHdrLen]
    rfl

section

variable {pathMeta : ScionPathMetaH} {m : MetadataT} {bs : List Byte}

/-- The path headers of the given type. -/
def MatchesType (pathType : BitVec 8) (s : ParserVars ScionPathT) : Prop := s.out.Matches pathType

/-- The state `hop_fields` behind path headers that lack the hop fields only. -/
theorem reaches_hop_fields {p : ScionPathT}
    (hemit : ∀ hops : ScionHopFieldH, ScionPathT.emit { p with hopFields := some hops } =
      p.emit ++ hops.data)
    (hmatch : ∀ hops : ScionHopFieldH, (hopLen pathMeta).toNat = 8 * hops.data.length →
      ScionPathT.Matches PathType.SCION { p with hopFields := some hops }) :
    Reaches (fun s => s.out.emit) (MatchesType PathType.SCION) (hop_fields pathMeta) ⟨p, m⟩ bs :=
  reaches_extractVarOut hemit fun hops _ hlen => .of_good (hmatch hops hlen)

theorem reaches_info_field_0 (hseg : pathMeta.seg1Len = 0 ∧ pathMeta.seg2Len = 0) :
    Reaches (fun s => s.out.emit) (MatchesType PathType.SCION) (info_field_0 pathMeta)
      ⟨{ pathMeta := some pathMeta }, m⟩ bs := by
  refine reaches_extractOut (fun h => by simp [ScionPathT.emit]) fun info bs => ?_
  refine reaches_addCpuHdrLen (reaches_hop_fields (fun hops => by simp [ScionPathT.emit]) ?_)
  exact fun hops hlen => .oneSegment pathMeta info hops hseg hlen

theorem reaches_info_field_1 (hseg : pathMeta.seg1Len ≠ 0 ∧ pathMeta.seg2Len = 0) :
    Reaches (fun s => s.out.emit) (MatchesType PathType.SCION) (info_field_1 pathMeta)
      ⟨{ pathMeta := some pathMeta }, m⟩ bs := by
  refine reaches_extractOut (fun h => by simp [ScionPathT.emit]) fun info bs => ?_
  refine reaches_extractOut (fun h => by simp [ScionPathT.emit]) fun info1 bs => ?_
  refine reaches_addCpuHdrLen (reaches_hop_fields (fun hops => by simp [ScionPathT.emit]) ?_)
  exact fun hops hlen => .twoSegments pathMeta info info1 hops hseg hlen

theorem reaches_info_field_2 (hseg : pathMeta.seg2Len ≠ 0) :
    Reaches (fun s => s.out.emit) (MatchesType PathType.SCION) (info_field_2 pathMeta)
      ⟨{ pathMeta := some pathMeta }, m⟩ bs := by
  refine reaches_extractOut (fun h => by simp [ScionPathT.emit]) fun info bs => ?_
  refine reaches_extractOut (fun h => by simp [ScionPathT.emit]) fun info1 bs => ?_
  refine reaches_extractOut (fun h => by simp [ScionPathT.emit]) fun info2 bs => ?_
  refine reaches_addCpuHdrLen (reaches_hop_fields (fun hops => by simp [ScionPathT.emit]) ?_)
  exact fun hops hlen => .threeSegments pathMeta info info1 info2 hops hseg hlen

theorem reaches_path_scion :
    Reaches (fun s => s.out.emit) (MatchesType PathType.SCION) path_scion ⟨{}, m⟩ bs := by
  refine reaches_extractOut (fun h => by simp [ScionPathT.emit]) fun pathMeta bs => ?_
  refine reaches_addCpuHdrLen ?_
  split_ifs with h12 h2
  · exact reaches_info_field_0 h12
  · exact reaches_info_field_1 ⟨fun h1 => h12 ⟨h1, h2⟩, h2⟩
  · exact reaches_info_field_2 h2

theorem reaches_path_onehop :
    Reaches (fun s => s.out.emit) (MatchesType PathType.ONEHOP) path_onehop ⟨{}, m⟩ bs := by
  refine reaches_extractOut (fun h => by simp [ScionPathT.emit]) fun info bs => ?_
  refine reaches_extractVarOut (fun v => by simp [ScionPathT.emit]) fun hops bs hbits => ?_
  have h192 : (192 : BitVec 32).toNat = 192 := rfl
  exact .of_good (.onehop info hops (by omega))

theorem reaches_start (c : ScionCommonH) (m : MetadataT) (bs : List Byte) :
    Reaches (fun s => s.out.emit) (MatchesType c.pathType) (start c) ⟨{}, m⟩ bs := by
  unfold start
  split_ifs with hs ho
  · rw [hs]
    exact reaches_path_scion
  · rw [ho]
    exact reaches_path_onehop
  · exact .of_reject rfl

end

/-- Every outcome of `ScionPathParser`: the path headers that the path type announces, or a packet
that ends before them, or whose path type is unsupported. -/
theorem start_cases (c : ScionCommonH) (m : MetadataT) (bs : List Byte) :
    ∃ (p : ScionPathT) (rest : List Byte), bs = p.emit ++ rest ∧
      (p.Matches c.pathType ∨ ∃ m', start c ⟨{}, m⟩ bs = (none, ⟨p, m'⟩, rest)) := by
  obtain ⟨⟨p, m'⟩, rest, hbytes, hout⟩ := reaches_start c m bs
  exact ⟨p, rest, hbytes, hout.imp_right fun hx => ⟨m', hx⟩⟩

end ScionPathParser

end ScionInt
