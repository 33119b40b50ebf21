import ScionInt.ControlPlane.Construction
import ScionInt.ControlPlane.Equiv.ReadIntTable
import ScionInt.ControlPlane.Equiv.Reported

/-!
# When the controllers are constructed

`splitIpAddress` takes every text for an endpoint that has a number behind its first colon, whatever follows
the number, and a port that is too large loses its upper bits (`splitIpAddress_eq_ok_iff`).  From there and
from what makes the other texts fail, `ControlPlane.construct_iff` says for which arguments `main` gets its
controllers, what they are, and what an exception is about.  `System.reports_of_arguments` is about the
reports of the program that is started with them.
-/

namespace ScionInt

open Wire

/-! ### The endpoint -/

/-- The text ends at the first colon. -/
theorem getline_colon {ip : List Char} (h : ':' ∉ ip) (s : List Char) :
    getline ':' (ip ++ ':' :: s) = some (ip, s) := by
  have hip : ∀ c ∈ ip, decide (c ≠ ':') = true := by
    intro c hc
    rw [decide_eq_true_eq]
    rintro rfl
    exact h hc
  rw [getline, if_neg (List.append_ne_nil_of_right_ne_nil ip (List.cons_ne_nil ':' s)),
    List.takeWhile_append_of_pos hip, List.dropWhile_append_of_pos hip]
  simp

theorem colon_ne_nil (ip s : List Char) : ip ++ ':' :: s ≠ [] :=
  List.append_ne_nil_of_right_ne_nil ip (List.cons_ne_nil ':' s)

theorem eq_of_colon {ip ip' s s' : List Char} (h : ':' ∉ ip) (h' : ':' ∉ ip')
    (heq : ip ++ ':' :: s = ip' ++ ':' :: s') : ip = ip' ∧ s = s' := by
  have hline := getline_colon h s
  rw [heq, getline_colon h' s'] at hline
  obtain ⟨rfl, rfl⟩ := Prod.mk.inj (Option.some.inj hline)
  exact ⟨rfl, rfl⟩

/-- The port is the number behind the first colon. -/
theorem splitIpAddress_colon {ip : List Char} (h : ':' ∉ ip) (s ipAddress : List Char)
    (port : BitVec 16) :
    splitIpAddress (ip ++ ':' :: s) ipAddress port =
      (stoiDec s).map fun port => (ip, port.setWidth 16) := by
  have hport : stoiDec ((getline ':' s).getD ([], [])).1 = stoiDec s := by
    unfold getline
    split_ifs with hs
    · rw [hs]
      rfl
    · exact stoiDec_takeWhile (by decide) (by decide) (by decide) (by decide) s
  rw [splitIpAddress, if_pos (by simp), getline_colon h]
  show (do let port ← stoiDec ((getline ':' s).getD ([], [])).1; pure (ip, port.setWidth 16)) = _
  rw [hport]
  cases stoiDec s with
  | error e => rfl
  | ok v => rfl

/-- Without a colon there is no port. -/
theorem splitIpAddress_of_not_mem {address : List Char} (hne : address ≠ []) (h : ':' ∉ address)
    (ipAddress : List Char) (port : BitVec 16) :
    splitIpAddress address ipAddress port = .error .invalidArgument := by
  have hall : ∀ c ∈ address, decide (c ≠ ':') = true := by
    intro c hc
    rw [decide_eq_true_eq]
    rintro rfl
    exact h hc
  have hline : getline ':' address = some (address, []) := by
    rw [getline, if_neg hne, List.takeWhile_eq_self_iff.mpr hall, List.dropWhile_eq_nil_iff.mpr hall]
    rfl
  rw [splitIpAddress, if_pos (List.length_pos_iff.mpr hne), hline]
  rfl

/-- The number in front of what follows the port. -/
def portOf (t : DecimalText) : BitVec 16 := BitVec.ofInt 16 t.number

theorem setWidth_ofInt_number (t : DecimalText) :
    (BitVec.ofInt 32 t.number).setWidth 16 = portOf t := by
  apply BitVec.eq_of_toNat_eq
  rw [portOf, BitVec.toNat_setWidth, BitVec.toNat_ofInt, BitVec.toNat_ofInt]
  omega

/-- The texts that are taken for an endpoint: a number behind the first colon that is an `int`. -/
theorem splitIpAddress_eq_ok_iff {address : List Char} (hne : address ≠ []) {ip ipAddress : List Char}
    {port port₀ : BitVec 16} :
    splitIpAddress address ipAddress port₀ = .ok (ip, port) ↔
      ∃ t : DecimalText, ':' ∉ ip ∧ address = ip ++ ':' :: t.text ∧ t.InRange ∧ port = portOf t := by
  constructor
  · intro h
    by_cases hcolon : ':' ∈ address
    · obtain ⟨front, s, rfl, hfront⟩ := List.eq_append_cons_of_mem hcolon
      rw [splitIpAddress_colon hfront] at h
      cases hstoi : stoiDec s with
      | error e =>
        rw [hstoi] at h
        cases h
      | ok v =>
        rw [hstoi] at h
        obtain ⟨t, rfl, hrange, rfl⟩ := stoiDec_eq_ok_iff.mp hstoi
        obtain ⟨rfl, rfl⟩ := Prod.mk.inj (Except.ok.inj h)
        exact ⟨t, hfront, rfl, hrange, setWidth_ofInt_number t⟩
    · rw [splitIpAddress_of_not_mem hne hcolon] at h
      cases h
  · rintro ⟨t, hip, rfl, hrange, rfl⟩
    rw [splitIpAddress_colon hip, t.stoiDec_text, if_pos hrange, ← setWidth_ofInt_number]
    rfl

example : splitIpAddress "255.127.63.31:54321".toList [] 0 = .ok ("255.127.63.31".toList, 54321) := by
  decide +kernel

example : splitIpAddress "127.0.0.1: 70000x:1".toList [] 0 = .ok ("127.0.0.1".toList, 4464) := by
  decide +kernel

/-- A text without such a number is refused, and so is a number that is not an `int`. -/
theorem splitIpAddress_eq_error_iff {address : List Char} (hne : address ≠ []) {ipAddress : List Char}
    {port : BitVec 16} {e : Exception} :
    splitIpAddress address ipAddress port = .error e ↔
      (e = .invalidArgument ∧ ∀ ip (t : DecimalText), ':' ∉ ip → address ≠ ip ++ ':' :: t.text) ∨
      (e = .outOfRange ∧
        ∃ ip, ∃ t : DecimalText, ':' ∉ ip ∧ address = ip ++ ':' :: t.text ∧ ¬ t.InRange) := by
  by_cases hcolon : ':' ∈ address
  · obtain ⟨front, s, rfl, hfront⟩ := List.eq_append_cons_of_mem hcolon
    have hmap : (stoiDec s).map (fun port => (front, port.setWidth 16)) = .error e ↔
        stoiDec s = .error e := by
      cases stoiDec s with
      | error e' => simp [Except.map]
      | ok v => simp [Except.map]
    rw [splitIpAddress_colon hfront, hmap, stoiDec_eq_error_iff]
    -- there is only one way to take the text apart at its first colon
    refine or_congr (and_congr_right fun _ => ?_) (and_congr_right fun _ => ?_)
    · constructor
      · intro h ip t hip heq
        exact h t (eq_of_colon hfront hip heq).2.symm
      · rintro h t rfl
        exact h front t hfront rfl
    · constructor
      · rintro ⟨t, rfl, hrange⟩
        exact ⟨front, t, hfront, rfl, hrange⟩
      · rintro ⟨ip, t, hip, heq, hrange⟩
        exact ⟨t, (eq_of_colon hfront hip heq).2.symm, hrange⟩
  · rw [splitIpAddress_of_not_mem hne hcolon, Except.error.injEq]
    have hnone (ip : List Char) (t : DecimalText) : address ≠ ip ++ ':' :: t.text := by
      rintro rfl
      exact hcolon (by simp)
    constructor
    · rintro rfl
      exact Or.inl ⟨rfl, fun ip t _ => hnone ip t⟩
    · rintro (⟨rfl, -⟩ | ⟨-, ip, t, -, heq, -⟩)
      · rfl
      · exact absurd heq (hnone ip t)

/-! ### The connection -/

namespace IntController

variable {Address : Type} {makeAddress : List Char → Except Exception Address}
  {connect : Endpoint Address → Bool}

/-- The addresses of a receiver, and the endpoint that is made of them. -/
inductive Names (makeAddress : List Char → Except Exception Address) :
    List Char → Option (Endpoint Address) → Prop
  | noReceiver : Names makeAddress [] none
  | receiver {ip : List Char} {t : DecimalText} {addr : Address} (hip : ':' ∉ ip) (hrange : t.InRange)
    (haddr : makeAddress ip = .ok addr) : Names makeAddress (ip ++ ':' :: t.text) (some ⟨addr, portOf t⟩)

/-- An endpoint that is printed is named. -/
theorem Names.print {ip : List Char} (hip : ':' ∉ ip) {addr : Address} (haddr : makeAddress ip = .ok addr)
    (port : BitVec 16) :
    Names makeAddress (ip ++ ':' :: Nat.toDigits 10 port.toNat) (some ⟨addr, port⟩) := by
  have hhead : ∀ c ∈ ([] : List Char).head?, c.isDigit = false := fun c hc => by cases hc
  have hnumber : (DecimalText.print port.toNat [] hhead).number = port.toNat :=
    DecimalText.number_print port.toNat [] hhead
  have htext : (DecimalText.print port.toNat [] hhead).text = Nat.toDigits 10 port.toNat :=
    List.append_nil _
  have hrange : (DecimalText.print port.toNat [] hhead).InRange := by
    rw [DecimalText.InRange, hnumber]
    omega
  have hport : portOf (DecimalText.print port.toNat [] hhead) = port := by
    rw [portOf, hnumber, BitVec.ofInt_natCast, BitVec.ofNat_toNat, BitVec.setWidth_eq]
  have hnames := Names.receiver hip hrange haddr
  rwa [htext, hport] at hnames

/-- The addresses that are refused, and the exceptions. -/
inductive Refuses (makeAddress : List Char → Except Exception Address) : List Char → Exception → Prop
  | noPort {tcpAddress : List Char} (hne : tcpAddress ≠ [])
    (hnone : ∀ ip (t : DecimalText), ':' ∉ ip → tcpAddress ≠ ip ++ ':' :: t.text) :
    Refuses makeAddress tcpAddress .invalidArgument
  | port {ip : List Char} {t : DecimalText} (hip : ':' ∉ ip) (hrange : ¬ t.InRange) :
    Refuses makeAddress (ip ++ ':' :: t.text) .outOfRange
  | addr {ip : List Char} {t : DecimalText} {e : Exception} (hip : ':' ∉ ip) (hrange : t.InRange)
    (haddr : makeAddress ip = .error e) : Refuses makeAddress (ip ++ ':' :: t.text) e

/-- The client has a connection if there is an endpoint and `connect` reports no error. -/
def socketOf (connect : Endpoint Address → Bool) (endpoint : Option (Endpoint Address)) : TcpClient where
  isActive := endpoint.any fun ep => !connect ep

/-- The client is the one that `createClient` returns if it is told of an error when there is no
endpoint. -/
theorem socketOf_eq (connect : Endpoint Address → Bool) (endpoint : Option (Endpoint Address)) :
    socketOf connect endpoint = (TcpClient.createClient (endpoint.all connect) {}).2 := by
  cases endpoint with
  | none => rfl
  | some ep =>
    unfold socketOf TcpClient.createClient
    cases hconnect : connect ep with
    | true => simp [hconnect]
    | false => simp [hconnect]

theorem createTcpSocket_of_error {tcpAddress : List Char} (hne : tcpAddress ≠ []) {e : Exception}
    (h : splitIpAddress tcpAddress [] 0 = .error e) :
    createTcpSocket makeAddress connect tcpAddress = .error e := by
  rw [createTcpSocket, if_pos (List.length_pos_iff.mpr hne), h]
  rfl

theorem createTcpSocket_of_ok {tcpAddress ip : List Char} {port : BitVec 16} (hne : tcpAddress ≠ [])
    (h : splitIpAddress tcpAddress [] 0 = .ok (ip, port)) :
    createTcpSocket makeAddress connect tcpAddress = (makeAddress ip).map fun addr =>
      (socketOf connect (some ⟨addr, port⟩), some ⟨addr, port⟩) := by
  rw [createTcpSocket, if_pos (List.length_pos_iff.mpr hne), h]
  simp only [socketOf_eq]
  show (do let addr ← makeAddress ip; _) = _
  cases makeAddress ip with
  | error e => rfl
  | ok addr => rfl

theorem Names.createTcpSocket {tcpAddress : List Char} {endpoint : Option (Endpoint Address)}
    (h : Names makeAddress tcpAddress endpoint) :
    IntController.createTcpSocket makeAddress connect tcpAddress =
      .ok (socketOf connect endpoint, endpoint) := by
  cases h with
  | noReceiver => rfl
  | @receiver ip t addr hip hrange haddr =>
    have hne := colon_ne_nil ip t.text
    rw [createTcpSocket_of_ok hne ((splitIpAddress_eq_ok_iff hne).mpr ⟨_, hip, rfl, hrange, rfl⟩), haddr]
    rfl

theorem Refuses.createTcpSocket {tcpAddress : List Char} {e : Exception}
    (h : Refuses makeAddress tcpAddress e) :
    IntController.createTcpSocket makeAddress connect tcpAddress = .error e := by
  cases h with
  | noPort hne hnone =>
    exact createTcpSocket_of_error hne ((splitIpAddress_eq_error_iff hne).mpr (Or.inl ⟨rfl, hnone⟩))
  | @port ip t hip hrange =>
    have hne := colon_ne_nil ip t.text
    exact createTcpSocket_of_error hne
      ((splitIpAddress_eq_error_iff hne).mpr (Or.inr ⟨rfl, _, _, hip, rfl, hrange⟩))
  | @addr ip t e hip hrange haddr =>
    have hne := colon_ne_nil ip t.text
    rw [createTcpSocket_of_ok hne ((splitIpAddress_eq_ok_iff hne).mpr ⟨_, hip, rfl, hrange, rfl⟩), haddr]
    rfl

/-- Every text either names an endpoint or none, or is refused. -/
theorem names_or_refuses (makeAddress : List Char → Except Exception Address) (tcpAddress : List Char) :
    (∃ endpoint, Names makeAddress tcpAddress endpoint) ∨ ∃ e, Refuses makeAddress tcpAddress e := by
  by_cases hne : tcpAddress = []
  · rw [hne]
    exact Or.inl ⟨none, .noReceiver⟩
  · cases hsplit : splitIpAddress tcpAddress [] 0 with
    | error e =>
      rcases (splitIpAddress_eq_error_iff hne).mp hsplit with
        ⟨rfl, hnone⟩ | ⟨rfl, ip, t, hip, rfl, hrange⟩
      · exact Or.inr ⟨_, .noPort hne hnone⟩
      · exact Or.inr ⟨_, .port hip hrange⟩
    | ok result =>
      obtain ⟨ip, port⟩ := result
      obtain ⟨t, hip, rfl, hrange, -⟩ := (splitIpAddress_eq_ok_iff hne).mp hsplit
      cases haddr : makeAddress ip with
      | error e => exact Or.inr ⟨e, .addr hip hrange haddr⟩
      | ok addr => exact Or.inl ⟨_, .receiver hip hrange haddr⟩

end IntController

/-! ### The INT table -/

/-- A line that is not a comment. -/
def isEntryLine (line : List Char) : Bool := line.headD '\x00' ≠ '#'

def entryLines (text : List Char) : List (List Char) := (getlines '\n' text).filter isEntryLine

/-- The first word of a line. -/
def addressWord (line : List Char) : List Char := (IStream.word { rest := line } []).1

/-- What is read of an address without a large number. -/
def readAddress (address : List Char) : BitVec 16 × BitVec 64 :=
  (BitVec.ofNat 16 (hexValue (isdDigits address)), asOfParts (asDigits address) 0)

/-- What is read of a line. -/
def readLine (line : List Char) : IntTableLine where
  addr := ((readAddress (addressWord line)).1.setWidth 64 <<< 48) + (readAddress (addressWord line)).2
  bitmapInt := ((IStream.word { rest := line } []).2.hexUint16 0).1
  bitmapScion := (((IStream.word { rest := line } []).2.hexUint16 0).2.hexUint16 0).1

theorem readIntTableLine_eq (line : List Char) :
    readIntTableLine line =
      if HasLargeNumber (addressWord line) then .error .outOfRange else .ok (readLine line) := by
  rw [readIntTableLine]
  dsimp only
  rw [splitScionAddress_eq, ← addressWord]
  split_ifs
  · rfl
  · rfl

theorem readIntTableLoop_eq (lists : IntTableLists) (line : List Char) :
    readIntTableLoop lists line =
      if isEntryLine line then
        if HasLargeNumber (addressWord line) then .error .outOfRange
        else .ok (lists.append [readLine line])
      else .ok lists := by
  rw [readIntTableLoop, readIntTableLine_eq, isEntryLine]
  simp only [decide_eq_true_eq]
  split_ifs
  · rfl
  · rfl
  · rfl

/-- A large number in an address makes the constructor fail; nothing else in the table does. -/
theorem readIntTable_eq (text : List Char) (lists : IntTableLists) :
    readIntTable (some text) lists =
      if ∃ line ∈ entryLines text, HasLargeNumber (addressWord line) then .error .outOfRange
      else .ok (lists.append ((entryLines text).map readLine)) := by
  show (getlines '\n' text).foldlM readIntTableLoop lists = _
  unfold entryLines
  induction getlines '\n' text generalizing lists with
  | nil => simp [IntTableLists.append, pure, Except.pure]
  | cons line lines ih =>
    rw [List.foldlM_cons, readIntTableLoop_eq]
    by_cases hentry : isEntryLine line
    · rw [if_pos hentry, List.filter_cons_of_pos hentry]
      by_cases hlarge : HasLargeNumber (addressWord line)
      · rw [if_pos hlarge, if_pos ⟨line, List.mem_cons_self, hlarge⟩]
        rfl
      · rw [if_neg hlarge]
        show lines.foldlM readIntTableLoop _ = _
        rw [ih, IntTableLists.append_append]
        simp only [List.exists_mem_cons_iff, hlarge, false_or]
        rfl
    · rw [if_neg hentry, List.filter_cons_of_neg hentry]
      exact ih lists

/-! ### The controllers -/

theorem MacLearningCtrl.construct_eq (memory : BitVec 32) (p4Info : P4Info) :
    construct memory p4Info =
      if Preamble.idOf p4Info.digests DIGEST_MAC_LEARN_NAME memory = 0 then
        .error (.runtimeError "P4Info does not contain a digest of the name macLearnMsg_t")
      else .ok (Preamble.idOf p4Info.digests DIGEST_MAC_LEARN_NAME memory) := rfl

/-- That there is no such digest is only noticed if the memory happens to be zero. -/
theorem MacLearningCtrl.construct_of_missing {p4Info : P4Info}
    (h : ∀ digest ∈ p4Info.digests, digest.name ≠ DIGEST_MAC_LEARN_NAME) (memory : BitVec 32) :
    (∃ e, construct memory p4Info = .error e) ↔ memory = 0 := by
  have hnone : p4Info.digests.find? (fun digest => digest.name = DIGEST_MAC_LEARN_NAME) = none :=
    List.find?_eq_none.mpr fun digest hdigest => by simpa using h digest hdigest
  have hid : Preamble.idOf p4Info.digests DIGEST_MAC_LEARN_NAME memory = memory := by
    rw [Preamble.idOf, hnone]
    rfl
  rw [construct_eq, hid]
  split_ifs with hzero
  · exact iff_of_true ⟨_, rfl⟩ hzero
  · refine iff_of_false ?_ hzero
    rintro ⟨e, he⟩
    cases he

/-- Behind the checks of the counter and of the address of the host. -/
theorem IntController.construct_eq {Address : Type} (makeAddress : List Char → Except Exception Address)
    (connect : Endpoint Address → Bool) {p4Info : P4Info} {hostASStr : List Char} (nodeId : BitVec 32)
    (intTable : Option (List Char)) (tcpAddress : List Char)
    (hcounter : Preamble.idOf p4Info.counters COUNTER_TX_BYTE_NAME 0 ≠ 0)
    (hhost : ¬ HasLargeNumber hostASStr) :
    construct makeAddress connect p4Info hostASStr nodeId intTable tcpAddress = (do
      let (tcpSocket, endpoint) ← createTcpSocket makeAddress connect tcpAddress
      let lists ← readIntTable intTable {}
      pure {
        counterTxId := Preamble.idOf p4Info.counters COUNTER_TX_BYTE_NAME 0
        tcpSocket, endpoint
        config := {
          hostISD := (readAddress hostASStr).1
          hostAS := (readAddress hostASStr).2
          nodeID := nodeId
          intTable := lists.lines } }) := by
  rw [construct, splitScionAddress_eq, if_neg hhost]
  dsimp only
  rw [if_neg hcounter]
  rfl

namespace ControlPlane

open IntController

section

variable {Address : Type} (makeAddress : List Char → Except Exception Address)
  (connect : Endpoint Address → Bool) (memory : BitVec 32) (p4Info : P4Info) (asAddress : List Char)
  (nodeId : BitVec 32) (intTable tcpAddress : Option (List Char))

/-- The constructors accept their arguments and return these values. -/
structure Accepted (macLearnDigestId : BitVec 32) (a : Attributes Address) : Prop where
  digest : Preamble.idOf p4Info.digests MacLearningCtrl.DIGEST_MAC_LEARN_NAME memory = macLearnDigestId
  digest_ne : macLearnDigestId ≠ 0
  counter : Preamble.idOf p4Info.counters COUNTER_TX_BYTE_NAME 0 = a.counterTxId
  counter_ne : a.counterTxId ≠ 0
  host : ¬ HasLargeNumber asAddress
  endpoint : Names makeAddress (tcpAddress.getD []) a.endpoint
  socket : a.tcpSocket = socketOf connect a.endpoint
  table : ∃ text, intTable = some text ∧
    (¬ ∃ line ∈ entryLines text, HasLargeNumber (addressWord line)) ∧
    a.config = {
      hostISD := (readAddress asAddress).1
      hostAS := (readAddress asAddress).2
      nodeID := nodeId
      intTable := (entryLines text).map readLine }

/-- What an exception of a constructor is about. -/
inductive Refused : Exception → Prop
  | digest (h : Preamble.idOf p4Info.digests MacLearningCtrl.DIGEST_MAC_LEARN_NAME memory = 0) :
    Refused (.runtimeError "P4Info does not contain a digest of the name macLearnMsg_t")
  | counter (h : Preamble.idOf p4Info.counters COUNTER_TX_BYTE_NAME 0 = 0) :
    Refused (.runtimeError "P4Info does not contain a counter of the name txCounter")
  | host (h : HasLargeNumber asAddress) : Refused .outOfRange
  | receiver {e : Exception} (h : Refuses makeAddress (tcpAddress.getD []) e) : Refused e
  | noTable (h : intTable = none) : Refused (.runtimeError "ERROR: Failed to open int_table.txt")
  | table {text : List Char} (h : intTable = some text) {line : List Char}
    (hline : line ∈ entryLines text) (hlarge : HasLargeNumber (addressWord line)) : Refused .outOfRange

end

variable {Address : Type} {makeAddress : List Char → Except Exception Address}
  {connect : Endpoint Address → Bool} {memory : BitVec 32} {p4Info : P4Info} {asAddress : List Char}
  {nodeId : BitVec 32} {intTable tcpAddress : Option (List Char)}

/-- The constructors return the values with which they accept their arguments. -/
theorem Accepted.construct {macLearnDigestId : BitVec 32} {a : Attributes Address}
    (h : Accepted makeAddress connect memory p4Info asAddress nodeId intTable tcpAddress macLearnDigestId
      a) :
    ControlPlane.construct makeAddress connect memory p4Info asAddress nodeId intTable tcpAddress =
      .ok (macLearnDigestId, a) := by
  obtain ⟨text, htext, hnone, hconfig⟩ := h.table
  have hmac : MacLearningCtrl.construct memory p4Info = .ok macLearnDigestId := by
    rw [MacLearningCtrl.construct_eq, h.digest, if_neg h.digest_ne]
  have hint : IntController.construct makeAddress connect p4Info asAddress nodeId intTable
      (tcpAddress.getD []) = .ok a := by
    have hcounter := h.counter ▸ h.counter_ne
    rw [IntController.construct_eq makeAddress connect nodeId intTable _ hcounter h.host,
      h.endpoint.createTcpSocket, htext, readIntTable_eq, if_neg hnone]
    show Except.ok _ = _
    rw [IntTableLists.lines_append, ← hconfig, ← h.socket, h.counter]
  rw [ControlPlane.construct, hmac, hint]
  rfl

/-- The configuration is the one that is made of the texts alone. -/
theorem Accepted.create {macLearnDigestId : BitVec 32} {a : Attributes Address}
    (h : Accepted makeAddress connect memory p4Info asAddress nodeId intTable tcpAddress macLearnDigestId
      a) :
    IntController.create asAddress nodeId intTable = .ok a.config := by
  obtain ⟨text, htext, hnone, hconfig⟩ := h.table
  rw [IntController.create, splitScionAddress_eq, if_neg h.host, htext, readIntTable_eq, if_neg hnone]
  show Except.ok _ = _
  rw [IntTableLists.lines_append, hconfig]
  rfl

/-- The constructors accept their arguments or refuse them. -/
theorem construct_or_refused (makeAddress : List Char → Except Exception Address)
    (connect : Endpoint Address → Bool) (memory : BitVec 32) (p4Info : P4Info) (asAddress : List Char)
    (nodeId : BitVec 32) (intTable tcpAddress : Option (List Char)) :
    (∃ macLearnDigestId a,
      Accepted makeAddress connect memory p4Info asAddress nodeId intTable tcpAddress macLearnDigestId
        a) ∨
    ∃ e, Refused makeAddress memory p4Info asAddress intTable tcpAddress e ∧
      ControlPlane.construct makeAddress connect memory p4Info asAddress nodeId intTable tcpAddress =
        .error e := by
  -- the checks in the order of the constructors
  by_cases hdigest : Preamble.idOf p4Info.digests MacLearningCtrl.DIGEST_MAC_LEARN_NAME memory = 0
  · refine Or.inr ⟨_, .digest hdigest, ?_⟩
    rw [ControlPlane.construct, MacLearningCtrl.construct_eq, if_pos hdigest]
    rfl
  -- what the constructor of `IntController` throws is thrown
  have hthrow {e : Exception} (h : IntController.construct makeAddress connect p4Info asAddress nodeId
      intTable (tcpAddress.getD []) = .error e) :
      ControlPlane.construct makeAddress connect memory p4Info asAddress nodeId intTable tcpAddress =
        .error e := by
    rw [ControlPlane.construct, MacLearningCtrl.construct_eq, if_neg hdigest, h]
    rfl
  by_cases hcounter : Preamble.idOf p4Info.counters COUNTER_TX_BYTE_NAME 0 = 0
  · refine Or.inr ⟨_, .counter hcounter, hthrow ?_⟩
    rw [IntController.construct]
    dsimp only
    rw [if_pos hcounter]
    rfl
  by_cases hhost : HasLargeNumber asAddress
  · refine Or.inr ⟨_, .host hhost, hthrow ?_⟩
    rw [IntController.construct, splitScionAddress_eq, if_pos hhost]
    dsimp only
    rw [if_neg hcounter]
    rfl
  rw [IntController.construct_eq makeAddress connect nodeId intTable _ hcounter hhost] at hthrow
  rcases names_or_refuses makeAddress (tcpAddress.getD []) with ⟨endpoint, hnames⟩ | ⟨e, hrefuses⟩
  · rw [hnames.createTcpSocket] at hthrow
    cases intTable with
    | none => exact Or.inr ⟨_, .noTable rfl, hthrow rfl⟩
    | some text =>
      rw [readIntTable_eq] at hthrow
      by_cases hlines : ∃ line ∈ entryLines text, HasLargeNumber (addressWord line)
      · obtain ⟨line, hline, hlarge⟩ := hlines
        rw [if_pos ⟨line, hline, hlarge⟩] at hthrow
        exact Or.inr ⟨_, .table rfl hline hlarge, hthrow rfl⟩
      · refine Or.inl ⟨_, {
          counterTxId := _
          config := _
          tcpSocket := socketOf connect endpoint
          endpoint := endpoint }, {
            digest := rfl
            digest_ne := hdigest
            counter := rfl
            counter_ne := hcounter
            host := hhost
            endpoint := hnames
            socket := rfl
            table := ⟨text, rfl, hlines, rfl⟩ }⟩
  · rw [hrefuses.createTcpSocket] at hthrow
    exact Or.inr ⟨e, .receiver hrefuses, hthrow rfl⟩

/-- If the constructors return, they have accepted their arguments. -/
theorem Accepted.of_construct {macLearnDigestId : BitVec 32} {a : Attributes Address}
    (h : ControlPlane.construct makeAddress connect memory p4Info asAddress nodeId intTable tcpAddress =
      .ok (macLearnDigestId, a)) :
    Accepted makeAddress connect memory p4Info asAddress nodeId intTable tcpAddress macLearnDigestId a := by
  rcases construct_or_refused makeAddress connect memory p4Info asAddress nodeId intTable tcpAddress with
    ⟨macLearnDigestId', a', haccepted⟩ | ⟨e, -, herror⟩
  · obtain ⟨rfl, rfl⟩ := Prod.mk.inj (Except.ok.inj (haccepted.construct.symm.trans h))
    exact haccepted
  · rw [herror] at h
    cases h

end ControlPlane

/-! ### From the arguments to the reports -/

namespace IntController

/-- Nothing is sent without a connection. -/
theorem stream_sendAll_socketOf {Address : Type} {connect : Endpoint Address → Bool}
    {endpoint : Option (Endpoint Address)} (h : ∀ ep, endpoint = some ep → connect ep = true)
    (net : Network) (strings : List (List Byte)) :
    ((socketOf connect endpoint).sendAll net strings).2.stream = [] := by
  have hinactive : (socketOf connect endpoint).isActive = false := by
    cases endpoint with
    | none => rfl
    | some ep => simp [socketOf, h ep rfl]
  rw [TcpClient.sendAll_of_not_isActive net strings hinactive]
  rfl

end IntController

namespace System

open IntController TcpClient Telemetry Wire.Protobuf

/-- From the command line to the receiver: if `main` gets its controllers, then in every run with them the
messages that the receiver reads represent reports on different frames for the host that is named in the
arguments, in the order of these, no report that was sent is missing, and if there is a message at all then
the arguments name the receiver and the connection to it has been accepted. -/
theorem reports_of_arguments {Address : Type} {makeAddress : List Char → Except Exception Address}
    {connect : Endpoint Address → Bool} {memory : BitVec 32} {p4Info : P4Info} {asAddress : List Char}
    {nodeId : BitVec 32} {intTable tcpAddress : Option (List Char)} {macLearnDigestId : BitVec 32}
    {a : Attributes Address} (rt : Runtime) (net : Network)
    (hconstruct : ControlPlane.construct makeAddress connect memory p4Info asAddress nodeId intTable
      tcpAddress = .ok (macLearnDigestId, a)) {s : System} (h : Reachable macLearnDigestId a.config s)
    (hframes : ∀ r ∈ s.history, r.arrival.frame.length ≤ 2 ^ 16) {messages : List Telemetry.Report}
    (hmessages : List.Forall₂ (fun m (p : Published) => m.Represents p.report) messages s.reports) :
    IntController.create asAddress nodeId intTable = .ok a.config ∧
    ∃ strings received receptions,
      List.Forall₂ (fun m string => m.serializeToString rt = some string) messages strings ∧
      List.Forall₂ (fun string m => Telemetry.Report.parseFromString rt string = some m)
        (splitFrames 4 (a.tcpSocket.sendAll net strings).2.stream) received ∧
      List.Sublist receptions s.history ∧
      List.Forall₂ (fun r m => ∃ p, FromClone a.config r p ∧ m.Represents p.report) receptions received ∧
      ((a.tcpSocket.sendAll net strings).1.map Sent.result).count true ≤ received.length ∧
      (received ≠ [] → ∃ ep, Names makeAddress (tcpAddress.getD []) (some ep) ∧ connect ep = false) := by
  have haccepted := ControlPlane.Accepted.of_construct hconstruct
  have hstart : a.tcpSocket.writes = [] := by
    rw [haccepted.socket]
    rfl
  obtain ⟨strings, received, receptions, hstrings, hreceived, hsublist, hfrom, hcount⟩ :=
    h.received rt net hstart hframes hmessages
  refine ⟨haccepted.create, strings, received, receptions, hstrings, hreceived, hsublist, hfrom, hcount, ?_⟩
  intro hne
  -- otherwise the stream is empty
  by_contra hnone
  have hrefused : ∀ ep, a.endpoint = some ep → connect ep = true := by
    intro ep hep
    by_contra hconnect
    exact hnone ⟨ep, hep ▸ haccepted.endpoint, eq_false_of_ne_true hconnect⟩
  rw [haccepted.socket, stream_sendAll_socketOf hrefused, splitFrames_nil,
    List.forall₂_nil_left_iff] at hreceived
  exact hne hreceived

def sampleP4Info : P4Info where
  counters := [⟨5, "txCounter"⟩]
  digests := [⟨1, "macLearnMsg_t"⟩]

/-- What is constructed for AS `1-ff00:0:112` with an empty INT table. -/
def sampleAttributes : Attributes (List Char) where
  counterTxId := 5
  config := sampleSink
  tcpSocket := { isActive := true }
  endpoint := some ⟨"127.0.0.1".toList, 9093⟩

theorem reports_of_arguments_sample : ∃ s : System, s.reports.length = 1 ∧
    IntController.create "1-ff00:0:112".toList 7 (some []) = .ok sampleSink ∧
    ∃ (strings : List (List Byte)) (received : List Telemetry.Report) (receptions : List Reception),
      List.Forall₂ (fun (m : Telemetry.Report) string => m.serializeToString base128 = some string)
        (s.reports.map fun p => Telemetry.Report.of p.report) strings ∧
      List.Forall₂ (fun string m => Telemetry.Report.parseFromString base128 string = some m)
        (splitFrames 4 (sampleAttributes.tcpSocket.sendAll (fun _ => none) strings).2.stream) received ∧
      List.Sublist receptions s.history ∧
      List.Forall₂ (fun r (m : Telemetry.Report) => ∃ p, FromClone sampleSink r p ∧
        m.Represents p.report) receptions received ∧
      ((sampleAttributes.tcpSocket.sendAll (fun _ => none) strings).1.map Sent.result).count true ≤
        received.length ∧
      (received ≠ [] → ∃ ep, Names (Except.ok (ε := Exception)) "127.0.0.1:9093".toList (some ep) ∧
        (ep.port != 9093) = false) := by
  obtain ⟨s, hs, harrivals, hreports⟩ := exists_sampleReported
  have hconstruct : ControlPlane.construct Except.ok (fun ep => ep.port != 9093) 0 sampleP4Info
      "1-ff00:0:112".toList 7 (some []) (some "127.0.0.1:9093".toList) = .ok (1, sampleAttributes) := rfl
  exact ⟨s, hreports, reports_of_arguments base128 (fun _ => none) hconstruct hs
    (length_le_of_arrivals harrivals) (Telemetry.represents_of_reports s.reports)⟩

end System

end ScionInt
