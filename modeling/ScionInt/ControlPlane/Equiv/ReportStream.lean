import ScionInt.ControlPlane.Equiv.Published
import ScionInt.ControlPlane.Equiv.ReportFormat
import ScionInt.ControlPlane.Equiv.TcpClient

/-!
# From the INT stack to the receiver of the reports

The controller decodes a packet-in, writes its report as a message and sends it over TCP.  The receiver
takes the stream apart and reads the messages.  However the maps are ordered and wherever the connection
breaks, it gets the reports of the controller, in their order, up to the break (`received_reports`).

On the way: the metadata of a hop has at most 64 bytes for each type and a report at most 252 hops, so
that a report is little longer than the packet-in and far shorter than what the library refuses.
-/

namespace ScionInt

open Wire Wire.Scan Wire.Protobuf

namespace IntController

/-! ### The size of a hop -/

/-- The number of metadata bytes of a type. -/
def metadataLength (key : MetadataType) (h : Hop) : ℕ := ((h.metadata key).getD []).length

/-- A step stores at most `n` more bytes of each type. -/
def Grows (f : Cursor Hop → Scan Stop (Cursor Hop)) (n : ℕ) : Prop :=
  ∀ key c bs c', result (f c) bs = .ok c' → metadataLength key c'.value ≤ metadataLength key c.value + n

theorem Grows.bind {f f' : Cursor Hop → Scan Stop (Cursor Hop)} {n n' : ℕ} (h : Grows f n)
    (h' : Grows f' n') :
    Grows (fun c => f c >>= f') (n + n') := by
  intro key c bs c' hrun
  cases hfirst : result (f c) bs with
  | error e =>
    rw [result_bind_error hfirst] at hrun
    cases hrun
  | ok mid =>
    rw [result_bind_ok hfirst] at hrun
    have hmid := h key c bs mid hfirst
    have hend := h' key mid bs c' hrun
    omega

theorem metadataLength_pushBack (key key' : MetadataType) (bytes : List Byte) (h : Hop) :
    metadataLength key (h.pushBack key' bytes) ≤ metadataLength key h + bytes.length := by
  unfold metadataLength Hop.pushBack
  rcases eq_or_ne key key' with rfl | hne
  · dsimp only
    rw [Function.update_self, Option.getD_some, List.length_append]
  · dsimp only
    rw [Function.update_of_ne hne]
    exact Nat.le_add_right _ _

theorem grows_optionalField {α : Type} {take : BitVec 32 → Scan Stop α} {width n : ℕ}
    {value : List Byte → α} (h : ReadsWindow take width value) (bitmap : BitVec 16) (bit : ℕ)
    {store : α → Hop → Hop}
    (hstore : ∀ key bytes h, bytes.length = width →
      metadataLength key (store (value bytes) h) ≤ metadataLength key h + n) :
    Grows (optionalField bitmap bit width take store) n := by
  intro key c bs c' hrun
  unfold optionalField at hrun
  split_ifs at hrun with hbit
  · rw [result_bind_ok (h.result_eq c.pos bs), result_pure] at hrun
    cases hrun
    exact hstore key _ c.value (length_bytesAt _ _ _)
  · rw [result_pure] at hrun
    cases hrun
    exact Nat.le_add_right _ _

theorem grows_copiedField (bitmap : BitVec 16) (bit width : ℕ) (key : MetadataType) :
    Grows (copiedField bitmap bit width key) width := by
  refine grows_optionalField (readsWindow_copyBytes width) bitmap bit fun key' bytes h hlen => ?_
  have hpush := metadataLength_pushBack key' key bytes h
  rwa [hlen] at hpush

theorem grows_timestampField (bitmap : BitVec 16) (bit : ℕ) (key : MetadataType) :
    Grows (timestampField bitmap bit key) 8 := by
  refine grows_optionalField readsWindow_takeUint64 bitmap bit fun key' bytes h hlen => ?_
  have hpush := metadataLength_pushBack key' key
    (toBytes 8 (BitVec.ofNat 64 (ofBytes bytes) * 1000).toNat) h
  rwa [length_toBytes] at hpush

theorem grows_NODE_ID (bitmap : BitVec 16) : Grows (NODE_ID bitmap) 0 :=
  grows_optionalField readsWindow_takeUint32 bitmap 15 fun _ _ _ _ => le_rfl

theorem grows_AS_ADDR (bitmap : BitVec 16) : Grows (AS_ADDR bitmap) 0 :=
  grows_optionalField readsWindow_takeUint64 bitmap 0 fun _ _ _ _ => le_rfl

theorem grows_readHop (bitmapInt bitmapScion : BitVec 16) : Grows (readHop bitmapInt bitmapScion) 44 :=
  (grows_NODE_ID bitmapInt).bind
    ((grows_copiedField bitmapInt 14 4 _).bind
    ((grows_copiedField bitmapInt 13 4 _).bind
    ((grows_copiedField bitmapInt 12 4 _).bind
    ((grows_timestampField bitmapInt 11 _).bind
    ((grows_timestampField bitmapInt 10 _).bind
    ((grows_copiedField bitmapInt 9 8 _).bind
    ((grows_copiedField bitmapInt 8 4 _).bind
    ((grows_copiedField bitmapInt 7 4 _).bind
    (grows_AS_ADDR bitmapScion)))))))))

/-- No value of the hop is longer than 44 bytes. -/
def Short (h : Hop) : Prop := ∀ key, metadataLength key h ≤ 44

theorem short_readHop {bitmapInt bitmapScion : BitVec 16} {pos : BitVec 32} {bs : List Byte}
    {c : Cursor Hop} (h : result (readHop bitmapInt bitmapScion ⟨pos, {}⟩) bs = .ok c) :
    Short c.value := by
  intro key
  exact grows_readHop bitmapInt bitmapScion key _ bs c h

/-- The loop adds one hop in each iteration. -/
theorem hops_readHops {bitmapInt bitmapScion : BitVec 16} {n : ℕ} {bs : List Byte}
    {c c' : Cursor (List Hop)}
    (h : result (readHops bitmapInt bitmapScion n c) bs = .ok c') (hshort : ∀ hop ∈ c.value, Short hop) :
    c'.value.length = c.value.length + n ∧ ∀ hop ∈ c'.value, Short hop := by
  induction n generalizing c with
  | zero =>
    rw [readHops, result_pure] at h
    cases h
    exact ⟨rfl, hshort⟩
  | succ n ih =>
    obtain ⟨hop, hhop⟩ := (walks_readHop bitmapInt bitmapScion).result_eq ⟨c.pos, {}⟩ bs
    have hadd : result (addHop bitmapInt bitmapScion c) bs =
        .ok ⟨c.pos + BitVec.ofNat 32 (hopWidths bitmapInt bitmapScion).sum, c.value ++ [hop]⟩ := by
      rw [addHop, result_bind_ok hhop, result_pure]
    rw [readHops, result_bind_ok hadd] at h
    have hall : ∀ x ∈ c.value ++ [hop], Short x := by
      intro x hx
      rcases List.mem_append.mp hx with hx | hx
      · exact hshort x hx
      · rw [List.mem_singleton.mp hx]
        exact short_readHop hhop
    obtain ⟨hlen, hvalue⟩ := ih h hall
    rw [List.length_append, List.length_singleton] at hlen
    exact ⟨by omega, hvalue⟩

/-- The length of the shim is one byte. -/
theorem numHops_le (payload : List Byte) : numHops payload ≤ 252 := by
  have hle : ((intStackSize payload).tdiv (intHopSize payload)).natAbs ≤ (intStackSize payload).natAbs := by
    rw [Int.natAbs_tdiv]
    exact Nat.div_le_self _ _
  have hlen := (shimLength payload).isLt
  unfold numHops
  generalize (intStackSize payload).tdiv (intHopSize payload) = n at hle ⊢
  unfold intStackSize at hle
  omega

/-- The hops of a published report are few and short, and its packet is part of the payload. -/
theorem report_bounds {nodeID : BitVec 32} {payload : List Byte} {p : Published}
    (h : result (handlePacketIn nodeID) payload = .ok p) :
    p.report.hops.length ≤ 252 ∧ (∀ hop ∈ p.report.hops, Short hop) ∧
      p.report.truncatedPacket.length ≤ payload.length := by
  obtain ⟨hops, hstack⟩ := (walks_readHops (instructionBits payload) (domainBits payload)
    (numHops payload)).result_eq ⟨stackPos payload, []⟩ payload
  obtain ⟨hlen, hshort⟩ := hops_readHops hstack fun hop hmem => by cases hmem
  have hnum := numHops_le payload
  rw [result_handlePacketIn nodeID hstack] at h
  split_ifs at h with h16 hidentifier hhdrLen
  obtain rfl := Except.ok.inj h
  refine ⟨?_, hshort, ?_⟩
  · rw [List.length_nil, Nat.zero_add] at hlen
    exact hlen.trans_le hnum
  · show (bytesAt 8 (hdrLen payload).toNat payload).length ≤ _
    rw [length_bytesAt]
    omega

end IntController

/-! ### The size of a message -/

namespace Telemetry

variable {rt : Runtime}

/-- What follows from an entry of the other list holds of every entry. -/
theorem forall_mem_of_forall₂ {τ τ' : Type} {R : τ → τ' → Prop} {P : τ → Prop} {xs : List τ}
    {ys : List τ'} (h : List.Forall₂ R xs ys) (hP : ∀ x y, R x y → y ∈ ys → P x) : ∀ x ∈ xs, P x := by
  induction h with
  | nil => exact fun x hx => by cases hx
  | cons hxy _ ih =>
    rw [List.forall_mem_cons]
    exact ⟨hP _ _ hxy List.mem_cons_self, ih fun x y hR hy => hP x y hR (List.mem_cons_of_mem _ hy)⟩

/-- A sum of bounded terms. -/
theorem sum_map_le {τ : Type} {items : List τ} {size : τ → ℕ} {n : ℕ}
    (h : ∀ item ∈ items, size item ≤ n) :
    (items.map size).sum ≤ items.length * n := by
  have hsum := List.sum_le_card_nsmul (items.map size) n fun k hk => by
    obtain ⟨item, hmem, rfl⟩ := List.mem_map.mp hk
    exact h item hmem
  simpa using hsum

theorem MetadataEntry.byteSizeLong_le (rt : Runtime) (m : MetadataEntry) :
    m.byteSizeLong rt ≤ m.value.length + 32 := by
  have hkey := rt.varintSize_le (show m.key.toNat < 2 ^ 64 by have := m.key.isLt; omega)
  have hvalue := lengthDelimitedSize_le rt m.value.length
  have hentry := lengthDelimitedSize_le rt (m.cachedSize rt)
  unfold byteSizeLong
  unfold cachedSize at hentry ⊢
  omega

/-- The numbers of the eight types. -/
def typeNumbers : List (BitVec 32) := [1, 2, 3, 4, 5, 6, 7, 8]

theorem typeNumber_mem (key : MetadataType) : typeNumber key ∈ typeNumbers := by
  cases key
  all_goals decide

namespace Hop

variable {m : Hop} {hop : ScionInt.Hop}

theorem Represents.length_entries_le (h : m.Represents hop) : m.entries.length ≤ 8 := by
  have hsub : m.metadata.keys ⊆ typeNumbers := by
    intro number hmem
    obtain ⟨key, rfl⟩ := h.keys number (AList.mem_keys.mpr hmem)
    exact typeNumber_mem key
  have hle := (m.metadata.keys_nodup.subperm hsub).length_le
  have hkeys : m.metadata.keys.length = m.entries.length := by
    unfold entries AList.keys List.keys
    rw [List.length_map, List.length_map]
  rw [← hkeys]
  exact hle

theorem Represents.length_value_le (h : m.Represents hop) (hshort : IntController.Short hop)
    {entry : MetadataEntry} (hentry : entry ∈ m.entries) : entry.value.length ≤ 44 := by
  obtain ⟨⟨number, value⟩, hmem, rfl⟩ := List.mem_map.mp hentry
  have hlookup : m.metadata.lookup number = some value := AList.mem_lookup_iff.mpr hmem
  have hkey : number ∈ m.metadata := by
    rw [← AList.lookup_isSome, hlookup]
    rfl
  obtain ⟨key, rfl⟩ := h.keys number hkey
  rw [h.lookup key] at hlookup
  have hle := hshort key
  unfold IntController.metadataLength at hle
  rw [hlookup] at hle
  exact hle

theorem Represents.byteSizeLong_le (rt : Runtime) (h : m.Represents hop)
    (hshort : IntController.Short hop) :
    m.byteSizeLong rt ≤ 638 := by
  have hcount := h.length_entries_le
  have hsum : (m.entries.map (MetadataEntry.byteSizeLong rt)).sum ≤ m.entries.length * 76 :=
    sum_map_le fun entry hentry => by
      have hvalue := h.length_value_le hshort hentry
      have hsize := entry.byteSizeLong_le rt
      omega
  have hasn := rt.varintSize_le m.asn.isLt
  have hnodeId := rt.varintSize_le (show m.nodeId.toNat < 2 ^ 64 by have := m.nodeId.isLt; omega)
  unfold byteSizeLong uint64SizePlusOne uint32SizePlusOne
  split_ifs
  all_goals omega

/-- The receiver's hop represents what the sender's hop represents. -/
theorem Represents.of_same {m' : Hop} (h : m.Represents hop) (hsame : m'.Same m) : m'.Represents hop where
  asn := hsame.asn.trans h.asn
  nodeId := hsame.nodeId.trans h.nodeId
  lookup key := (hsame.lookup _).trans (h.lookup key)
  keys number hmem := by
    apply h.keys
    rw [← AList.lookup_isSome, ← hsame.lookup, AList.lookup_isSome]
    exact hmem

end Hop

namespace Report

variable {m : Report} {report : ScionInt.Report}

theorem Represents.byteSizeLong_le (rt : Runtime) (h : m.Represents report)
    (hshort : ∀ hop ∈ report.hops, IntController.Short hop) :
    m.byteSizeLong rt ≤ 649 * report.hops.length + report.truncatedPacket.length + 22 := by
  have hhops : ∀ hop ∈ m.hops, hop.byteSizeLong rt ≤ 638 :=
    forall_mem_of_forall₂ h.hops fun hop hop' hhop hmem => hhop.byteSizeLong_le rt (hshort hop' hmem)
  have hsum : (m.hops.map fun hop => lengthDelimitedSize rt (hop.byteSizeLong rt)).sum ≤
      m.hops.length * 648 :=
    sum_map_le fun hop hmem => by
      have hhop := hhops hop hmem
      have hsize := lengthDelimitedSize_le rt (hop.byteSizeLong rt)
      omega
  have htruncated := lengthDelimitedSize_le rt m.truncatedPacket.length
  have henum := rt.varintSize_le (m.packetType.signExtend 64).isLt
  rw [← h.hops.length_eq, ← h.truncatedPacket]
  unfold byteSizeLong enumSize
  split_ifs
  all_goals omega

theorem Represents.of_same {m' : Report} (h : m.Represents report) (hsame : m'.Same m) :
    m'.Represents report where
  hops := by
    have htrans {hops hops' : List Hop} {reported : List ScionInt.Hop} (h : List.Forall₂ Hop.Same hops' hops)
        (hrep : List.Forall₂ Hop.Represents hops reported) : List.Forall₂ Hop.Represents hops' reported := by
      induction h generalizing reported with
      | nil => exact hrep
      | cons hhop _ ih =>
        cases hrep with
        | cons hfirst hrest => exact .cons (hfirst.of_same hhop) (ih hrest)
    exact htrans hsame.hops h.hops
  packetType := hsame.packetType.trans h.packetType
  truncatedPacket := hsame.truncatedPacket.trans h.truncatedPacket

end Report

/-! ### Messages for all reports -/

def types : List MetadataType :=
  [.INTERFACE_LEVEL1, .HOP_LATENCY, .QUEUE_OCCUPANCY, .INGRESS_TIMESTAMP, .EGRESS_TIMESTAMP,
    .INTERFACE_LEVEL2, .EGRESS_TX_UTILIZATION, .BUFFER_OCCUPANCY]

/-- The values of the types in a list. -/
def entriesOf (hop : ScionInt.Hop) (keys : List MetadataType) : List ((_ : BitVec 32) × List Byte) :=
  keys.filterMap fun key => (hop.metadata key).map fun value => ⟨typeNumber key, value⟩

/-- A message for a hop. -/
def Hop.of (hop : ScionInt.Hop) : Hop where
  asn := hop.asn
  nodeId := hop.nodeId
  metadata := (entriesOf hop types).toAList

/-- A message for a report. -/
def Report.of (report : ScionInt.Report) : Report where
  hops := report.hops.map Hop.of
  packetType := packetTypeNumber report.packetType
  truncatedPacket := report.truncatedPacket

theorem typeNumber_injective : Function.Injective typeNumber := by
  intro key key' h
  cases key
  all_goals
    cases key'
    all_goals first | rfl | exact absurd h (by decide)

theorem dlookup_entriesOf (hop : ScionInt.Hop) (key : MetadataType) (keys : List MetadataType) :
    (entriesOf hop keys).dlookup (typeNumber key) = if key ∈ keys then hop.metadata key else none := by
  unfold entriesOf
  induction keys with
  | nil => rfl
  | cons key' keys ih =>
    rcases eq_or_ne key key' with rfl | hne
    · rw [if_pos List.mem_cons_self]
      cases hvalue : hop.metadata key with
      | none =>
        rw [List.filterMap_cons_none (by rw [hvalue]; rfl), ih, hvalue]
        exact ite_self none
      | some value =>
        rw [List.filterMap_cons_some (by rw [hvalue]; rfl)]
        exact List.dlookup_cons_eq (β := fun _ => List Byte) _ _ value
    · have hmem : key ∈ key' :: keys ↔ key ∈ keys := by simp [hne]
      rw [if_congr hmem rfl rfl, ← ih]
      cases hvalue : hop.metadata key' with
      | none => rw [List.filterMap_cons_none (by rw [hvalue]; rfl)]
      | some value =>
        rw [List.filterMap_cons_some (by rw [hvalue]; rfl)]
        exact List.dlookup_cons_ne _ _ fun h => hne (typeNumber_injective h)

theorem Hop.represents_of (hop : ScionInt.Hop) : (Hop.of hop).Represents hop where
  asn := rfl
  nodeId := rfl
  lookup key := by
    unfold Hop.of
    rw [AList.lookup_to_alist, dlookup_entriesOf, if_pos]
    cases key
    all_goals decide
  keys number hmem := by
    unfold Hop.of at hmem
    rw [← AList.lookup_isSome, AList.lookup_to_alist, List.dlookup_isSome] at hmem
    obtain ⟨value, hmem⟩ := List.exists_of_mem_keys hmem
    obtain ⟨key, -, hkey⟩ := List.mem_filterMap.mp hmem
    obtain ⟨_, -, hentry⟩ := Option.map_eq_some_iff.mp hkey
    exact ⟨key, (congrArg Sigma.fst hentry).symm⟩

theorem Report.represents_of (report : ScionInt.Report) : (Report.of report).Represents report where
  hops := by
    unfold Report.of
    rw [List.forall₂_map_left_iff]
    exact List.forall₂_same.mpr fun hop _ => Hop.represents_of hop
  packetType := rfl
  truncatedPacket := rfl

end Telemetry

/-! ### The stream -/

namespace TcpClient

theorem filter_silent (reports : List (List Byte)) : (reports.map silent).filter isComplete = [] := by
  rw [List.filter_eq_nil_iff]
  intro s hs
  obtain ⟨report, -, rfl⟩ := List.mem_map.mp hs
  exact fun hcomplete => frame_ne_nil report (of_decide_eq_true hcomplete).symm

theorem count_silent (reports : List (List Byte)) :
    ((reports.map silent).map Sent.result).count true = 0 := by
  rw [List.count_eq_zero, List.map_map]
  intro hmem
  obtain ⟨report, -, hresult⟩ := List.mem_map.mp hmem
  cases hresult

/-- The calls whose frames are complete come first, and a call that has returned true is one of them. -/
theorem Trace.filter_isComplete {calls : List Sent} (h : Trace calls) :
    ∃ n, calls.filter isComplete = calls.take n ∧ (calls.map Sent.result).count true ≤ n := by
  induction h with
  | inactive reports => exact ⟨0, filter_silent reports, (count_silent reports).le⟩
  | sent hlen hwrites _ ih =>
    rename_i report writes rest _
    obtain ⟨n, hfilter, hcount⟩ := ih
    have hcomplete : isComplete ⟨report, writes, true⟩ := decide_eq_true hwrites.written_of_sent
    refine ⟨n + 1, ?_, ?_⟩
    · rw [List.filter_cons_of_pos hcomplete, hfilter, List.take_succ_cons]
    · rw [List.map_cons, List.count_cons_self]
      exact Nat.succ_le_succ hcount
  | failed reports hlen hwrites =>
    rename_i report writes
    have hcount : (((⟨report, writes, false⟩ : Sent) :: reports.map silent).map Sent.result).count true = 0 := by
      rw [List.map_cons, List.count_cons_of_ne Bool.false_ne_true, count_silent]
    by_cases hcomplete : isComplete ⟨report, writes, false⟩
    · -- the error was reported behind the last byte
      refine ⟨1, ?_, hcount.trans_le (Nat.zero_le 1)⟩
      rw [List.filter_cons_of_pos hcomplete, filter_silent]
      rfl
    · refine ⟨0, ?_, hcount.le⟩
      rw [List.filter_cons_of_neg hcomplete, filter_silent]
      rfl

end TcpClient

namespace IntController

/-- What the controller publishes for one packet-in after the other. -/
def publishedAll (nodeID : BitVec 32) (payloads : List (List Byte)) : List Published :=
  payloads.filterMap fun payload => (result (handlePacketIn nodeID) payload).toOption

theorem exists_payload {nodeID : BitVec 32} {payloads : List (List Byte)} {p : Published}
    (h : p ∈ publishedAll nodeID payloads) :
    ∃ payload ∈ payloads, result (handlePacketIn nodeID) payload = .ok p := by
  obtain ⟨payload, hmem, hp⟩ := List.mem_filterMap.mp h
  refine ⟨payload, hmem, ?_⟩
  cases hresult : result (handlePacketIn nodeID) payload with
  | error e =>
    rw [hresult] at hp
    cases hp
  | ok p' =>
    rw [hresult] at hp
    exact congrArg _ (Option.some.inj hp)

end IntController

open IntController TcpClient

namespace Telemetry

variable {rt : Runtime}

theorem Report.Represents.byteSizeLong_le_maxSize {m : Report} {nodeID : BitVec 32} {payload : List Byte}
    {p : Published} (h : m.Represents p.report) (hp : result (handlePacketIn nodeID) payload = .ok p)
    (hlen : payload.length ≤ 2 ^ 30) : m.byteSizeLong rt ≤ maxSize := by
  obtain ⟨hhops, hshort, htruncated⟩ := report_bounds hp
  have hsize := h.byteSizeLong_le rt hshort
  have hmax : maxSize = 2 ^ 31 - 1 - 16 := rfl
  omega

/-- Whatever the network does, the receiver reads the first messages that a client sends, up to the order of
their maps, and none that was sent is missing. -/
theorem received_messages (rt : Runtime) (net : Network) {client : TcpClient}
    (hstart : client.writes = []) {messages : List Report}
    (hbound : ∀ m ∈ messages, m.byteSizeLong rt ≤ maxSize) :
    ∃ strings received n,
      List.Forall₂ (fun m string => m.serializeToString rt = some string) messages strings ∧
      List.Forall₂ (fun string m => Report.parseFromString rt string = some m)
        (splitFrames 4 (sendAll net strings client).2.stream) received ∧
      List.Forall₂ Report.Same received (messages.take n) ∧
      ((sendAll net strings client).1.map Sent.result).count true ≤ n := by
  have hmax : maxSize < 2 ^ 32 := by decide
  have hshort : ∀ string ∈ messages.map (Report.internalSerialize rt), string.length < 2 ^ 32 := by
    rw [List.forall_mem_map]
    intro m hm
    rw [m.length_internalSerialize]
    exact (hbound m hm).trans_lt hmax
  obtain ⟨htrace, hwrites⟩ := trace_sendAll net hshort client
  have hreports := map_report_sendAll net (messages.map (Report.internalSerialize rt)) client
  rw [hstart, List.nil_append] at hwrites
  -- the frames that have been written as a whole are those of the first `n` messages
  obtain ⟨n, hfilter, hcount⟩ := htrace.filter_isComplete
  refine ⟨messages.map (Report.internalSerialize rt), (messages.take n).map (Report.mergeFrom {}), n, ?_, ?_, ?_,
    hcount⟩
  · rw [List.forall₂_map_right_iff]
    refine List.forall₂_same.mpr fun m hm => if_pos ((hbound m hm).trans ?_)
    decide
  · rw [stream_eq_streamOf hwrites, htrace.splitFrames_stream, hfilter, List.map_take, hreports,
      ← List.map_take, List.forall₂_map_left_iff, List.forall₂_map_right_iff]
    exact List.forall₂_same.mpr fun m hm =>
      (Report.absorbs_internalSerialize (hbound m (List.mem_of_mem_take hm))).untilEnd_eq {}
  · rw [List.forall₂_map_left_iff]
    exact List.forall₂_same.mpr fun m _ => m.same_mergeFrom

/-- The messages that are made of the reports represent them. -/
theorem represents_of_reports (reports : List Published) :
    List.Forall₂ (fun m (p : Published) => m.Represents p.report)
      (reports.map fun p => Report.of p.report) reports := by
  rw [List.forall₂_map_left_iff]
  exact List.forall₂_same.mpr fun p _ => Report.represents_of p.report

/-- Messages with the content of other ones represent the same reports. -/
theorem represents_of_same {messages received : List Report} {reports : List Published}
    (hsame : List.Forall₂ Report.Same received messages)
    (h : List.Forall₂ (fun m (p : Published) => m.Represents p.report) messages reports) :
    List.Forall₂ (fun m (p : Published) => m.Represents p.report) received reports := by
  induction hsame generalizing reports with
  | nil => exact h
  | cons hm _ ih =>
    cases h with
    | cons hp hps => exact .cons (hp.of_same hm) (ih hps)

/-- Whatever packet-ins the controller gets, however the maps of its messages are ordered and whatever the
network does, the receiver reads the messages of the first reports, and none that was sent is missing. -/
theorem received_reports (rt : Runtime) (net : Network) (err : Bool) (nodeID : BitVec 32)
    {payloads : List (List Byte)} (hlen : ∀ payload ∈ payloads, payload.length ≤ 2 ^ 30)
    {messages : List Report} (hmessages : List.Forall₂ (fun m (p : Published) => m.Represents p.report)
      messages (publishedAll nodeID payloads)) :
    ∃ strings received n,
      List.Forall₂ (fun m string => m.serializeToString rt = some string) messages strings ∧
      List.Forall₂ (fun string m => Report.parseFromString rt string = some m)
        (splitFrames 4 (sendAll net strings (createClient err {}).2).2.stream) received ∧
      List.Forall₂ (fun m (p : Published) => m.Represents p.report) received
        ((publishedAll nodeID payloads).take n) ∧
      ((sendAll net strings (createClient err {}).2).1.map Sent.result).count true ≤ n := by
  have hbound : ∀ m ∈ messages, m.byteSizeLong rt ≤ maxSize :=
    forall_mem_of_forall₂ hmessages fun m p hm hp => by
      obtain ⟨payload, hmem, hresult⟩ := exists_payload hp
      exact hm.byteSizeLong_le_maxSize hresult (hlen payload hmem)
  obtain ⟨strings, received, n, hstrings, hreceived, hsame, hcount⟩ :=
    received_messages rt net (writes_createClient err) hbound
  exact ⟨strings, received, n, hstrings, hreceived,
    represents_of_same hsame (List.forall₂_take n hmessages), hcount⟩

/-- A packet-in of 24 bytes of headers and a stack of one hop, which consists of its node ID. -/
def samplePayload : List Byte :=
  [0, 0, 0, 0, 0, 0x49, 0x4e, 0x54, 0, 0, 0, 0, 0, 0, 0, 24] ++
  [0, 0, 0, 5, 0, 0, 0, 0, 0, 4, 0, 0, 0, 0, 1, 0, 0x80, 0, 0, 0, 0, 0, 0, 0] ++ [0, 0, 0, 9]

/-- The second of three packet-ins is rejected, and the connection breaks in the second report. -/
theorem received_reports_sample :
    let net : Network := fun n => if n = 3 then some 5 else none
    let payloads := [samplePayload, bareIntCpu, samplePayload]
    let messages := (publishedAll 7 payloads).map fun p => Report.of p.report
    (result (handlePacketIn 7) samplePayload).toOption.isSome ∧
    ∃ strings received n,
      List.Forall₂ (fun m string => m.serializeToString base128 = some string) messages strings ∧
      List.Forall₂ (fun string m => Report.parseFromString base128 string = some m)
        (splitFrames 4 (sendAll net strings (createClient false {}).2).2.stream) received ∧
      List.Forall₂ (fun m (p : Published) => m.Represents p.report) received
        ((publishedAll 7 payloads).take n) ∧
      ((sendAll net strings (createClient false {}).2).1.map Sent.result).count true ≤ n := by
  intro net payloads messages
  exact ⟨by decide +kernel, received_reports base128 net false 7 (by decide)
    (represents_of_reports (publishedAll 7 payloads))⟩

end Telemetry

end ScionInt
