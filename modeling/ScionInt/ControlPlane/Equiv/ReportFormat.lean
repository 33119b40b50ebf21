import ScionInt.ControlPlane.ReportFormat
import ScionInt.Wire.Varint

/-!
# Reports on the wire

Each message is written in exactly the bytes that `byteSizeLong` counts, and reading these bytes into a
message merges the message that was written into it.  Field by field the loop of the parser absorbs what
the serialiser has written; a field that is not written is one that `mergeFrom` leaves alone.

Main results: `FlowKey.parse_internalSerialize`, `Report.parse_serialize`, `Report.merge_serialize`.
-/

namespace ScionInt

namespace Telemetry

open Wire Protobuf Reader

variable {rt : Runtime}

theorem length_ite {c : Prop} [Decidable c] {bs : List Byte} {n : ℕ} (h : bs.length = n) :
    (if c then bs else []).length = if c then n else 0 := by
  split_ifs
  · exact h
  · rfl

/-- A field that is only set if it is not the default is set in any case. -/
theorem ite_ne_default {α : Type} [DecidableEq α] (a b : α) : (if a ≠ b then a else b) = a := by
  split_ifs with h
  · rfl
  · exact (not_not.mp h).symm

theorem length_flatMap_of {τ : Type} (size : τ → ℕ) {items : List τ} {enc : τ → List Byte}
    (h : ∀ item ∈ items, (enc item).length = 1 + size item) :
    (items.flatMap enc).length = 1 * items.length + (items.map size).sum := by
  induction items with
  | nil => rfl
  | cons item items ih =>
    have hitems := ih fun x hx => h x (List.mem_cons_of_mem item hx)
    rw [List.flatMap_cons, List.length_append, h item List.mem_cons_self, hitems, List.length_cons,
      List.map_cons, List.sum_cons]
    omega

/-! ### `IPv6Address` -/

namespace IPv6Address

theorem length_internalSerialize (m : IPv6Address) :
    (m.internalSerialize rt).length = m.byteSizeLong := by
  unfold internalSerialize byteSizeLong
  rw [List.length_append, length_ite (length_writeFixed64 (by decide) _),
    length_ite (length_writeFixed64 (by decide) _)]

theorem byteSizeLong_le (m : IPv6Address) : m.byteSizeLong ≤ maxSize := by
  unfold byteSizeLong
  have hmax : 18 ≤ maxSize := by decide
  split_ifs <;> omega

variable (rt) in
/-- What the parser of an address absorbs. -/
abbrev Absorbs (bytes : List Byte) (g : IPv6Address → IPv6Address) : Prop :=
  Reader.Absorbs (turn rt parseField) turn_nil bytes g

theorem internalParse_internalSerialize (s m : IPv6Address) :
    s.internalParse rt (m.internalSerialize rt) = some (s.mergeFrom m) := by
  have hhigh : Absorbs rt (if m.high ≠ 0 then writeFixed64 rt 1 m.high else []) _ :=
    .ite fun _ => absorbs_writeFixed64 1 (by decide) (fun v (s : IPv6Address) => { s with high := v })
      (fun _ => rfl) _
  have hlow : Absorbs rt (if m.low ≠ 0 then writeFixed64 rt 2 m.low else []) _ :=
    .ite fun _ => absorbs_writeFixed64 2 (by decide) (fun v (s : IPv6Address) => { s with low := v })
      (fun _ => rfl) _
  exact (hhigh.append hlow).untilEnd_eq s

end IPv6Address

/-! ### `FlowKey` -/

theorem IPv6Address.mergeFrom_empty (m : IPv6Address) : mergeFrom {} m = m := by
  unfold mergeFrom
  apply IPv6Address.ext
  all_goals simp only [apply_ite IPv6Address.high, apply_ite IPv6Address.low, ite_self, ite_ne_default]

theorem IpAddress.mergeFrom_notSet (ip : IpAddress) : IpAddress.notSet.mergeFrom ip = ip := by
  cases ip with
  | notSet => rfl
  | ipv4 v => rfl
  | ipv6 m => exact congrArg _ m.mergeFrom_empty

namespace FlowKey

theorem length_serializeIp {ipv4 ipv6 : ℕ} (h4 : ipv4 < 15) (h6 : ipv6 < 15) (ip : IpAddress) :
    (serializeIp rt ipv4 ipv6 ip).length = ipSize rt ip := by
  cases ip with
  | notSet => rfl
  | ipv4 v => exact length_writeFixed32 h4 v
  | ipv6 m => exact length_writeLengthDelimited h6 m.length_internalSerialize

theorem length_internalSerialize (m : FlowKey) : (m.internalSerialize rt).length = m.byteSizeLong rt := by
  unfold internalSerialize byteSizeLong
  simp only [List.length_append]
  rw [length_ite (length_writeUInt64 (by decide) _), length_ite (length_writeUInt64 (by decide) _),
    length_ite (length_writeUInt32 (by decide) _), length_serializeIp (by decide) (by decide),
    length_serializeIp (by decide) (by decide), length_ite (length_writeUInt32 (by decide) _),
    length_ite (length_writeUInt32 (by decide) _), length_ite (length_writeEnum (by decide) _)]
  omega

variable (rt) in
/-- What the parser of a flow key absorbs. -/
abbrev Absorbs (bytes : List Byte) (g : FlowKey → FlowKey) : Prop :=
  Reader.Absorbs (turn rt (parseField rt)) turn_nil bytes g

theorem absorbs_serializeIp (ipv4 ipv6 : ℕ) (h4 : ipv4 < 2 ^ 20) (h6 : ipv6 < 2 ^ 20)
    (get : FlowKey → IpAddress) (set : IpAddress → FlowKey → FlowKey) (hset : ∀ m, set (get m) m = m)
    (hipv4 : ∀ s, parseField rt (BitVec.ofNat 32 (ipv4 * 8 + 5)) s =
      some (readFixed32 >>= fun v => pure (set (.ipv4 v) s)))
    (hipv6 : ∀ s, parseField rt (BitVec.ofNat 32 (ipv6 * 8 + 2)) s =
      some (parseMessage rt ((get s).mutableIpv6.internalParse rt) >>= fun m => pure (set (.ipv6 m) s)))
    (ip : IpAddress) :
    Absorbs rt (serializeIp rt ipv4 ipv6 ip) (fun s => set ((get s).mergeFrom ip) s) := by
  cases ip with
  | notSet => exact absorbs_nil.congr fun s => (hset s).symm
  | ipv4 v => exact absorbs_writeFixed32 ipv4 h4 (fun v s => set (.ipv4 v) s) hipv4 v
  | ipv6 m =>
    exact absorbs_writeMessage ipv6 h6 (fun m s => set (.ipv6 m) s) hipv6 m.length_internalSerialize
      m.byteSizeLong_le fun s => (get s).mutableIpv6.internalParse_internalSerialize m

theorem absorbs_internalSerialize (m : FlowKey) :
    Absorbs rt (m.internalSerialize rt) (·.mergeFrom m) := by
  have hdstAs : Absorbs rt (if m.dstAs ≠ 0 then writeUInt64 rt 1 m.dstAs else []) _ :=
    .ite fun _ => absorbs_writeUInt64 1 (by decide) (fun v (s : FlowKey) => { s with dstAs := v })
      (fun _ => rfl) _
  have hsrcAs : Absorbs rt (if m.srcAs ≠ 0 then writeUInt64 rt 2 m.srcAs else []) _ :=
    .ite fun _ => absorbs_writeUInt64 2 (by decide) (fun v (s : FlowKey) => { s with srcAs := v })
      (fun _ => rfl) _
  have hflowId : Absorbs rt (if m.flowId ≠ 0 then writeUInt32 rt 3 m.flowId else []) _ :=
    .ite fun _ => absorbs_writeUInt32 3 (by decide) (fun v (s : FlowKey) => { s with flowId := v })
      (fun _ => rfl) _
  have hdstIp : Absorbs rt (serializeIp rt 4 5 m.dstIp) _ :=
    absorbs_serializeIp 4 5 (by decide) (by decide) FlowKey.dstIp
    (fun ip (s : FlowKey) => { s with dstIp := ip }) (fun _ => rfl) (fun _ => rfl) (fun _ => rfl) m.dstIp
  have hsrcIp : Absorbs rt (serializeIp rt 6 7 m.srcIp) _ :=
    absorbs_serializeIp 6 7 (by decide) (by decide) FlowKey.srcIp
    (fun ip (s : FlowKey) => { s with srcIp := ip }) (fun _ => rfl) (fun _ => rfl) (fun _ => rfl) m.srcIp
  have hdstPort : Absorbs rt (if m.dstPort ≠ 0 then writeUInt32 rt 8 m.dstPort else []) _ :=
    .ite fun _ => absorbs_writeUInt32 8 (by decide) (fun v (s : FlowKey) => { s with dstPort := v })
      (fun _ => rfl) _
  have hsrcPort : Absorbs rt (if m.srcPort ≠ 0 then writeUInt32 rt 9 m.srcPort else []) _ :=
    .ite fun _ => absorbs_writeUInt32 9 (by decide) (fun v (s : FlowKey) => { s with srcPort := v })
      (fun _ => rfl) _
  have hprotocol : Absorbs rt (if m.protocol ≠ 0 then writeEnum rt 10 m.protocol else []) _ :=
    .ite fun _ => absorbs_writeEnum 10 (by decide) (fun v (s : FlowKey) => { s with protocol := v })
      (fun _ => rfl) _
  have hall := ((((((hdstAs.append hsrcAs).append hflowId).append hdstIp).append hsrcIp).append
    hdstPort).append hsrcPort).append hprotocol
  refine hall.congr fun s => ?_
  -- the setters commute
  unfold mergeFrom
  apply FlowKey.ext
  all_goals simp only [apply_ite FlowKey.dstAs, apply_ite FlowKey.srcAs, apply_ite FlowKey.flowId,
    apply_ite FlowKey.dstIp, apply_ite FlowKey.srcIp, apply_ite FlowKey.dstPort,
    apply_ite FlowKey.srcPort,
    apply_ite FlowKey.protocol, ite_self]

theorem mergeFrom_empty (m : FlowKey) : mergeFrom {} m = m := by
  unfold mergeFrom
  apply FlowKey.ext
  all_goals simp only [apply_ite FlowKey.dstAs, apply_ite FlowKey.srcAs, apply_ite FlowKey.flowId,
    apply_ite FlowKey.dstIp, apply_ite FlowKey.srcIp, apply_ite FlowKey.dstPort,
    apply_ite FlowKey.srcPort,
    apply_ite FlowKey.protocol, ite_self, ite_ne_default, IpAddress.mergeFrom_notSet]

/-- A flow key is written in `byteSizeLong` bytes and read back from them, and reading the bytes of some
flow keys into another one merges them into it. -/
theorem parse_internalSerialize (rt : Runtime) (s m : FlowKey) (ms : List FlowKey) :
    (m.internalSerialize rt).length = m.byteSizeLong rt ∧
      parseFromString rt (m.internalSerialize rt) = some m ∧
      s.internalParse rt (ms.flatMap (internalSerialize rt)) = some (ms.foldl mergeFrom s) := by
  have hone : parseFromString rt (m.internalSerialize rt) = some (mergeFrom {} m) :=
    m.absorbs_internalSerialize.untilEnd_eq {}
  rw [mergeFrom_empty] at hone
  have hall : Absorbs rt (ms.flatMap (internalSerialize rt)) (ms.foldl mergeFrom ·) :=
    absorbs_flatMap mergeFrom fun m _ => m.absorbs_internalSerialize
  exact ⟨m.length_internalSerialize, hone, hall.untilEnd_eq s⟩

/-- A flow to an IPv4 host. -/
def sampleFlowKey : FlowKey where
  dstAs := 0xff0000000112
  srcAs := 0xff0000000111
  flowId := 1
  dstIp := .ipv4 0x0a000002
  dstPort := 40001

theorem parse_internalSerialize_sample :
    (sampleFlowKey.internalSerialize base128).length = sampleFlowKey.byteSizeLong base128 ∧
      parseFromString base128 (sampleFlowKey.internalSerialize base128) = some sampleFlowKey ∧
      internalParse base128 { dstIp := .ipv6 {}, srcPort := 40000 }
        ([sampleFlowKey, sampleFlowKey].flatMap (internalSerialize base128)) =
          some ([sampleFlowKey, sampleFlowKey].foldl mergeFrom { dstIp := .ipv6 {}, srcPort := 40000 }) :=
  parse_internalSerialize base128 _ sampleFlowKey [sampleFlowKey, sampleFlowKey]

end FlowKey

/-! ### `Hop` -/

theorem lookup_mergeMetadata (m other : Metadata) (key : BitVec 32) :
    (mergeMetadata m other).lookup key = (other.lookup key).or (m.lookup key) := by
  unfold mergeMetadata AList.lookup
  have hnodup := other.nodupKeys
  generalize other.entries = entries at hnodup
  induction entries generalizing m with
  | nil => rfl
  | cons entry entries ih =>
    obtain ⟨a, b⟩ := entry
    have hcons := List.nodupKeys_cons.mp hnodup
    rw [List.foldl_cons, ih _ hcons.2]
    rcases eq_or_ne key a with rfl | hne
    · rw [List.dlookup_eq_none.mpr hcons.1, List.dlookup_cons_eq]
      exact AList.lookup_insert m
    · rw [List.dlookup_cons_ne entries (⟨a, b⟩ : (_ : BitVec 32) × List Byte) hne]
      exact congrArg _ (AList.lookup_insert_ne hne)

namespace MetadataEntry

theorem length_content (m : MetadataEntry) :
    (writeUInt32 rt 1 m.key ++ writeBytes rt 2 m.value).length = m.cachedSize rt := by
  unfold cachedSize
  rw [List.length_append, length_writeUInt32 (by decide), length_writeBytes (by decide),
    uint32SizePlusOne]
  omega

theorem length_internalSerialize (m : MetadataEntry) :
    (m.internalSerialize rt 3).length = 1 + m.byteSizeLong rt :=
  length_writeLengthDelimited (by decide) m.length_content

variable (rt) in
/-- What the parser of an entry absorbs. -/
abbrev Absorbs (bytes : List Byte) (g : MetadataEntry → MetadataEntry) : Prop :=
  Reader.Absorbs (turn rt (parseField rt)) turn_nil bytes g

theorem internalParse_content {m : MetadataEntry} (h : m.cachedSize rt ≤ maxSize) :
    internalParse rt {} (writeUInt32 rt 1 m.key ++ writeBytes rt 2 m.value) = some m := by
  have hvalue : m.value.length ≤ maxSize := by
    have hle := le_lengthDelimitedSize rt m.value.length
    unfold cachedSize at h
    omega
  have hkey : Absorbs rt (writeUInt32 rt 1 m.key) _ :=
    absorbs_writeUInt32 1 (by decide) (fun v (s : MetadataEntry) => { s with key := v }) (fun _ => rfl) _
  have hbytes : Absorbs rt (writeBytes rt 2 m.value) _ :=
    absorbs_writeBytes 2 (by decide) (fun v (s : MetadataEntry) => { s with value := v }) (fun _ => rfl)
      hvalue
  exact (hkey.append hbytes).untilEnd_eq {}

end MetadataEntry

namespace Hop

theorem length_internalSerialize (m : Hop) : (m.internalSerialize rt).length = m.byteSizeLong rt := by
  unfold internalSerialize byteSizeLong
  rw [List.length_append, List.length_append, length_ite (length_writeUInt64 (by decide) _),
    length_ite (length_writeUInt32 (by decide) _),
    length_flatMap_of (MetadataEntry.byteSizeLong rt) fun entry _ => entry.length_internalSerialize]
  omega

variable (rt) in
/-- What the parser of a hop absorbs. -/
abbrev Absorbs (bytes : List Byte) (g : Hop → Hop) : Prop :=
  Reader.Absorbs (turn rt (parseField rt)) turn_nil bytes g

theorem cachedSize_le {m : Hop} {entry : MetadataEntry} (h : entry ∈ m.entries) :
    entry.cachedSize rt ≤ m.byteSizeLong rt := by
  have hsum : entry.byteSizeLong rt ≤ (m.entries.map (MetadataEntry.byteSizeLong rt)).sum :=
    List.single_le_sum (by simp) _ (List.mem_map_of_mem h)
  have hle : entry.cachedSize rt ≤ entry.byteSizeLong rt := le_lengthDelimitedSize rt _
  unfold byteSizeLong
  omega

theorem foldl_insertEntry (s m : Hop) :
    m.entries.foldl insertEntry s = { s with metadata := mergeMetadata s.metadata m.metadata } := by
  unfold entries mergeMetadata
  rw [List.foldl_map]
  generalize m.metadata.entries = entries
  induction entries generalizing s with
  | nil => rfl
  | cons entry entries ih =>
    rw [List.foldl_cons, ih]
    rfl

theorem internalParse_internalSerialize (s : Hop) {m : Hop} (h : m.byteSizeLong rt ≤ maxSize) :
    s.internalParse rt (m.internalSerialize rt) = some (s.mergeFrom m) := by
  have hasn : Absorbs rt (if m.asn ≠ 0 then writeUInt64 rt 1 m.asn else []) _ :=
    .ite fun _ => absorbs_writeUInt64 1 (by decide) (fun v (s : Hop) => { s with asn := v })
      (fun _ => rfl) _
  have hnodeId : Absorbs rt (if m.nodeId ≠ 0 then writeUInt32 rt 2 m.nodeId else []) _ :=
    .ite fun _ => absorbs_writeUInt32 2 (by decide) (fun v (s : Hop) => { s with nodeId := v })
      (fun _ => rfl) _
  have hmetadata : Absorbs rt (m.entries.flatMap (MetadataEntry.internalSerialize rt 3)) _ :=
    absorbs_flatMap insertEntry fun entry hentry =>
      have hsize := (cachedSize_le hentry).trans h
      absorbs_writeMessage 3 (by decide) (fun entry (s : Hop) => s.insertEntry entry) (fun _ => rfl)
        entry.length_content hsize fun _ => MetadataEntry.internalParse_content hsize
  refine (((hasn.append hnodeId).append hmetadata).untilEnd_eq s).trans (congrArg some ?_)
  rw [foldl_insertEntry]
  unfold mergeFrom
  split_ifs <;> rfl

end Hop

/-! ### `Report` -/

namespace Report

theorem length_internalSerialize (m : Report) : (m.internalSerialize rt).length = m.byteSizeLong rt := by
  unfold internalSerialize byteSizeLong
  have hhop (hop : Hop) :
      (writeLengthDelimited rt 1 (hop.byteSizeLong rt) (hop.internalSerialize rt)).length =
        1 + lengthDelimitedSize rt (hop.byteSizeLong rt) :=
    length_writeLengthDelimited (by decide) hop.length_internalSerialize
  rw [List.length_append, List.length_append, length_flatMap_of _ fun hop _ => hhop hop,
    length_ite (length_writeEnum (by decide) _), length_ite (length_writeBytes (by decide) _)]
  omega

variable (rt) in
/-- What the parser of a report absorbs. -/
abbrev Absorbs (bytes : List Byte) (g : Report → Report) : Prop :=
  Reader.Absorbs (turn rt (parseField rt)) turn_nil bytes g

theorem byteSizeLong_hop_le {m : Report} {hop : Hop} (h : hop ∈ m.hops) :
    hop.byteSizeLong rt ≤ m.byteSizeLong rt := by
  have hsum : lengthDelimitedSize rt (hop.byteSizeLong rt) ≤
      (m.hops.map fun hop => lengthDelimitedSize rt (hop.byteSizeLong rt)).sum :=
    List.single_le_sum (by simp) _ (List.mem_map_of_mem (f := fun hop : Hop => _) h)
  have hle := le_lengthDelimitedSize rt (hop.byteSizeLong rt)
  unfold byteSizeLong
  omega

theorem length_truncatedPacket_le (m : Report) : m.truncatedPacket.length ≤ m.byteSizeLong rt := by
  unfold byteSizeLong
  have hle := le_lengthDelimitedSize rt m.truncatedPacket.length
  rcases eq_or_ne m.truncatedPacket [] with h | h
  · rw [h]
    exact Nat.zero_le _
  · rw [if_pos h]
    omega

theorem foldl_addHop (s : Report) (hops : List Hop) :
    hops.foldl (fun s hop => { s with hops := s.hops ++ [Hop.mergeFrom {} hop] }) s =
      { s with hops := s.hops ++ hops.map (Hop.mergeFrom {}) } := by
  induction hops generalizing s with
  | nil => rw [List.foldl_nil, List.map_nil, List.append_nil]
  | cons hop hops ih =>
    rw [List.foldl_cons, ih, List.map_cons, List.append_assoc]
    rfl

theorem absorbs_internalSerialize {m : Report} (h : m.byteSizeLong rt ≤ maxSize) :
    Absorbs rt (m.internalSerialize rt) (·.mergeFrom m) := by
  have hhops : Absorbs rt (m.hops.flatMap fun hop =>
      writeLengthDelimited rt 1 (hop.byteSizeLong rt) (hop.internalSerialize rt)) _ :=
    absorbs_flatMap (fun (s : Report) hop => { s with hops := s.hops ++ [Hop.mergeFrom {} hop] })
      fun hop hmem =>
        have hsize := (byteSizeLong_hop_le hmem).trans h
        absorbs_writeMessage 1 (by decide) (fun hop (s : Report) => { s with hops := s.hops ++ [hop] })
          (fun _ => rfl) hop.length_internalSerialize hsize
          fun _ => Hop.internalParse_internalSerialize {} hsize
  have hpacketType : Absorbs rt (if m.packetType ≠ 0 then writeEnum rt 2 m.packetType else []) _ :=
    .ite fun _ => absorbs_writeEnum 2 (by decide) (fun v (s : Report) => { s with packetType := v })
      (fun _ => rfl) _
  have htruncatedPacket :
      Absorbs rt (if m.truncatedPacket ≠ [] then writeBytes rt 3 m.truncatedPacket else []) _ :=
    .ite fun _ => absorbs_writeBytes 3 (by decide) (fun v (s : Report) => { s with truncatedPacket := v })
      (fun _ => rfl) (m.length_truncatedPacket_le.trans h)
  refine ((hhops.append hpacketType).append htruncatedPacket).congr fun s => ?_
  rw [foldl_addHop]
  unfold mergeFrom
  split_ifs <;> rfl

end Report

/-! ### Maps in another order -/

/-- Hops that differ only in the order of their maps. -/
structure Hop.Same (m m' : Hop) : Prop where
  asn : m.asn = m'.asn
  nodeId : m.nodeId = m'.nodeId
  lookup : ∀ key, m.metadata.lookup key = m'.metadata.lookup key

structure Report.Same (m m' : Report) : Prop where
  hops : List.Forall₂ Hop.Same m.hops m'.hops
  packetType : m.packetType = m'.packetType
  truncatedPacket : m.truncatedPacket = m'.truncatedPacket

theorem Hop.same_mergeFrom (m : Hop) : (Hop.mergeFrom {} m).Same m := by
  unfold mergeFrom
  constructor
  · simp only [apply_ite Hop.asn, ite_self, ite_ne_default]
  · simp only [apply_ite Hop.nodeId, ite_self, ite_ne_default]
  · intro key
    simp only [apply_ite Hop.metadata, ite_self]
    rw [lookup_mergeMetadata, AList.lookup_empty, Option.or_none]

theorem Report.same_mergeFrom (m : Report) : (Report.mergeFrom {} m).Same m := by
  unfold mergeFrom
  constructor
  · simp only [apply_ite Report.hops, ite_self, List.nil_append]
    rw [List.forall₂_map_left_iff]
    exact List.forall₂_same.mpr fun hop _ => hop.same_mergeFrom
  · simp only [apply_ite Report.packetType, ite_self, ite_ne_default]
  · simp only [apply_ite Report.truncatedPacket, ite_self, ite_ne_default]

/-- A report that is not too long is written in `byteSizeLong` bytes and read back from them, up to the
order of its maps. -/
theorem Report.parse_serialize (rt : Runtime) {m : Report} (h : m.byteSizeLong rt ≤ maxSize) :
    ∃ bytes parsed, m.serializeToString rt = some bytes ∧ bytes.length = m.byteSizeLong rt ∧
      parseFromString rt bytes = some parsed ∧ parsed.Same m := by
  have hmax : maxSize ≤ INT_MAX := by decide
  exact ⟨m.internalSerialize rt, mergeFrom {} m, if_pos (h.trans hmax), m.length_internalSerialize,
    (absorbs_internalSerialize h).untilEnd_eq {}, m.same_mergeFrom⟩

/-- Reading the bytes of some reports into another one merges them into it. -/
theorem Report.merge_serialize (rt : Runtime) (s : Report) {ms : List Report}
    (h : ∀ m ∈ ms, m.byteSizeLong rt ≤ maxSize) :
    s.internalParse rt (ms.flatMap (internalSerialize rt)) = some (ms.foldl mergeFrom s) := by
  have hall : Absorbs rt (ms.flatMap (internalSerialize rt)) (ms.foldl mergeFrom ·) :=
    absorbs_flatMap mergeFrom fun m hm => absorbs_internalSerialize (h m hm)
  exact hall.untilEnd_eq s

/-- A report of one hop. -/
def sampleReport : Report where
  hops := [{ asn := 0xff0000000110, nodeId := 7, metadata := (∅ : Metadata).insert 2 [0, 0, 0, 9] }]
  packetType := 4
  truncatedPacket := [1, 2, 3]

theorem Report.parse_serialize_sample :
    ∃ bytes parsed, sampleReport.serializeToString base128 = some bytes ∧
    bytes.length = sampleReport.byteSizeLong base128 ∧ parseFromString base128 bytes = some parsed ∧
    parsed.Same sampleReport :=
  parse_serialize base128 (by decide)

theorem Report.merge_serialize_sample :
    internalParse base128 {} ([sampleReport, sampleReport].flatMap (internalSerialize base128)) =
      some ([sampleReport, sampleReport].foldl mergeFrom {}) :=
  merge_serialize base128 {} (by decide)

end Telemetry

end ScionInt
