import ScionInt.ControlPlane.Equiv.AddressConversion
import ScionInt.ControlPlane.Equiv.Published

/-!
# The topic of a sink

The name of a topic is made of the destination AS in the packet and the node ID of the controller.  For an
AS whose address is written as it is printed it is the name with the groups of that address, and no two
sinks share it (`topic_of_sink`).
-/

namespace ScionInt

open Wire Wire.Scan

namespace ScionAddressText

/-- The groups are written as they are printed. -/
structure IsPrinted (host : ScionAddressText) : Prop where
  g1 : IsPrintedHex host.g1.digits
  g2 : IsPrintedHex host.g2.digits
  g3 : IsPrintedHex host.g3.digits

theorem isPrinted_format (isd : BitVec 16) (as : BitVec 64) : (format isd as).IsPrinted :=
  ⟨isPrintedHex_toDigits _, isPrintedHex_toDigits _, isPrintedHex_toDigits _⟩

/-- The topic of the sink with the given node ID in the AS of a host. -/
def topic (host : ScionAddressText) (nodeID : BitVec 32) : String :=
  "AS" ++ String.ofList host.g1.digits ++ "_" ++ String.ofList host.g2.digits ++ "_" ++
    String.ofList host.g3.digits ++ "-" ++ IntController.hex nodeID.toNat

end ScionAddressText

namespace IntController

theorem hex_hexValue {cs : List Char} (h : IsPrintedHex cs) : hex (hexValue cs) = String.ofList cs := by
  rw [hex, h.toDigits_hexValue]

/-- The ISD in front of the AS makes no difference to the topic. -/
theorem topicName_eq_topic {host : ScionAddressText} (hhost : host.IsPrinted) {asAddr : BitVec 64}
    (h : asAddr.toNat % 2 ^ 48 = host.asAddress.toNat) (nodeID : BitVec 32) :
    topicName asAddr nodeID = host.topic nodeID := by
  have h1 := host.g1.value_lt
  have h2 := host.g2.value_lt
  have h3 := host.g3.value_lt
  rw [host.toNat_asAddress] at h
  have hg1 : asAddr.toNat / 2 ^ 32 % 2 ^ 16 = hexValue host.g1.digits := by
    show _ = host.g1.value
    omega
  have hg2 : asAddr.toNat / 2 ^ 16 % 2 ^ 16 = hexValue host.g2.digits := by
    show _ = host.g2.value
    omega
  have hg3 : asAddr.toNat % 2 ^ 16 = hexValue host.g3.digits := by
    show _ = host.g3.value
    omega
  rw [topicName, hg1, hg2, hg3, hex_hexValue hhost.g1, hex_hexValue hhost.g2, hex_hexValue hhost.g3]
  rfl

/-- Two numbers in front of a separator, which ends both of them. -/
theorem toDigits_append_inj {m n : ℕ} {sep : Char} {xs ys : List Char} (hsep : isHex sep = false)
    (h : Nat.toDigits 16 m ++ sep :: xs = Nat.toDigits 16 n ++ sep :: ys) : m = n ∧ xs = ys := by
  have hread (k : ℕ) (zs : List Char) :
      (Nat.toDigits 16 k ++ sep :: zs).takeWhile isHex = Nat.toDigits 16 k ∧
        (Nat.toDigits 16 k ++ sep :: zs).dropWhile isHex = sep :: zs :=
    IStream.takeWhile_append_of_head (fun _ hc => (of_mem_toDigits hc).1) fun c hc => by
      obtain rfl : sep = c := Option.some.inj hc
      exact hsep
  obtain ⟨hm, hxs⟩ := hread m xs
  obtain ⟨hn, hys⟩ := hread n ys
  rw [h] at hm hxs
  refine ⟨?_, (List.cons_eq_cons.mp (hxs.symm.trans hys)).2⟩
  rw [← hexValue_toDigits m, ← hm, hn, hexValue_toDigits]

/-- The AS and the node ID can be read off the name. -/
theorem topicName_inj {a a' : BitVec 64} {n n' : BitVec 32} (h : topicName a n = topicName a' n') :
    a.toNat % 2 ^ 48 = a'.toNat % 2 ^ 48 ∧ n = n' := by
  have hlist := congrArg String.toList h
  have hunderscore : "_".toList = ['_'] := rfl
  have hminus : "-".toList = ['-'] := rfl
  simp only [topicName, hex, String.toList_append, String.toList_ofList, hunderscore, hminus,
    List.append_assoc, List.singleton_append] at hlist
  obtain ⟨h1, hlist⟩ := toDigits_append_inj (by decide) (List.append_cancel_left hlist)
  obtain ⟨h2, hlist⟩ := toDigits_append_inj (by decide) hlist
  obtain ⟨h3, hlist⟩ := toDigits_append_inj (by decide) hlist
  have hnode := congrArg hexValue hlist
  rw [hexValue_toDigits, hexValue_toDigits] at hnode
  exact ⟨by omega, BitVec.eq_of_toNat_eq hnode⟩

/-- `p` is what the controller with the given node ID publishes about a packet to the AS of a host. -/
structure PublishedFor (host : ScionAddressText) (as : BitVec 64) (nodeID : BitVec 32) (p : Published) :
    Prop where
  split : ∃ isd, splitScionAddress host.text = .ok (isd, as)
  accepted : ∃ payload, result (handlePacketIn nodeID) payload = .ok p ∧
    (asAddr payload).toNat % 2 ^ 48 = as.toNat

theorem topic_eq_topicName {nodeID : BitVec 32} {payload : List Byte} {p : Published}
    (h : result (handlePacketIn nodeID) payload = .ok p) :
    p.topic = topicName (asAddr payload) nodeID := by
  obtain ⟨-, stack, rfl⟩ := eq_published_of_result h
  rfl

theorem PublishedFor.topic_eq {host : ScionAddressText} {as : BitVec 64} {nodeID : BitVec 32}
    {p : Published} (h : PublishedFor host as nodeID p) (hhost : host.IsPrinted) :
    p.topic = host.topic nodeID := by
  obtain ⟨isd, hsplit⟩ := h.split
  obtain ⟨payload, hresult, has⟩ := h.accepted
  rw [host.splitScionAddress_text] at hsplit
  obtain ⟨-, rfl⟩ := Prod.mk.inj (Except.ok.inj hsplit)
  rw [topic_eq_topicName hresult]
  exact topicName_eq_topic hhost has nodeID

/-- The reports of a sink go to the topic of that sink, and to no other sink's. -/
theorem topic_of_sink {host host' : ScionAddressText} (hhost : host.IsPrinted) (hhost' : host'.IsPrinted)
    {as as' : BitVec 64} {nodeID nodeID' : BitVec 32} {p p' : Published}
    (h : PublishedFor host as nodeID p) (h' : PublishedFor host' as' nodeID' p') :
    p.topic = host.topic nodeID ∧ p'.topic = host'.topic nodeID' ∧
      ((as, nodeID) ≠ (as', nodeID') → p.topic ≠ p'.topic) := by
  refine ⟨h.topic_eq hhost, h'.topic_eq hhost', ?_⟩
  rintro hne htopic
  obtain ⟨payload, hresult, has⟩ := h.accepted
  obtain ⟨payload', hresult', has'⟩ := h'.accepted
  rw [topic_eq_topicName hresult, topic_eq_topicName hresult'] at htopic
  obtain ⟨hmod, hnode⟩ := topicName_inj htopic
  rw [has, has'] at hmod
  exact hne (Prod.ext (BitVec.eq_of_toNat_eq hmod) hnode)

theorem topic_of_sink_sample :
    ∃ (host : ScionAddressText) (p : Published), host.text = "1-ff00:0:112".toList ∧
      result (handlePacketIn 7) (reportClone 0x8d00 0x0001).wire = .ok p ∧
      p.topic = "ASff00_0_112-7" := by
  let host := ScionAddressText.format 1 0xff0000000112
  obtain ⟨p, hp⟩ := result_reportClone
  have hhost : host.IsPrinted := ScionAddressText.isPrinted_format _ _
  have hsplit : splitScionAddress host.text = .ok (1, 0xff0000000112) := by decide +kernel
  have has : (asAddr (reportClone 0x8d00 0x0001).wire).toNat % 2 ^ 48 = 0xff0000000112 := by
    decide +kernel
  have hpublished : PublishedFor host 0xff0000000112 7 p := ⟨⟨1, hsplit⟩, _, hp, has⟩
  have htext : host.text = "1-ff00:0:112".toList := by decide +kernel
  have htopic : host.topic 7 = "ASff00_0_112-7" := by decide +kernel
  exact ⟨host, p, htext, hp, (topic_of_sink hhost hhost hpublished hpublished).1.trans htopic⟩

end IntController

end ScionInt
