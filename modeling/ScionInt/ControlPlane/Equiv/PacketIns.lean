import ScionInt.ControlPlane.Equiv.Clone
import ScionInt.ControlPlane.Equiv.Policy
import ScionInt.ControlPlane.Equiv.Published
import ScionInt.ControlPlane.Equiv.Topic
import ScionInt.DataPlane.Equiv.Confinement
import ScionInt.DataPlane.Equiv.L2Switch
import ScionInt.ControlPlane.System

/-!
# The packet-ins for a frame

While no entry sends a frame itself to the CPU port and the only clone session leads there, the switch
sends at most one packet-in for a frame, and only for a frame with INT headers on which `clone_int` runs
(`packetIns_eq`).  Whatever lies behind `int_shim`, the controller finds the flow ID and the destination of
the frame in it (`reports_clone`).
-/

namespace ScionInt

open Wire Wire.Scan

/-! ### The ports of a frame -/

namespace Switch

variable {sw : Switch} {a : Arrival}

/-- The ingress control leaves `egress_spec` alone or sets it to the port of an entry. -/
theorem egressSpec_ingress (sw : Switch) (a : Arrival) :
    (sw.ingress a).packet.stdMeta.egressSpec = 0 ∨
    ∃ mac, sw.l2.forwardTable.lookup mac = some (.forward (sw.ingress a).packet.stdMeta.egressSpec) := by
  obtain ⟨e, hverify⟩ := MyVerifyChecksum_checksumError (receive a)
  have hspec : (MyVerifyChecksum (receive a)).stdMeta.egressSpec = 0 := by
    rw [hverify]
    rfl
  have hint : (sw.ingress a).packet.stdMeta =
      (L2Switch.apply sw.l2 (MyVerifyChecksum (receive a))).1.stdMeta :=
    INTSwitchIngress.stdMeta_apply _ _
  rw [hint]
  unfold L2Switch.apply
  split_ifs
  · unfold L2Switch.forwardOrFlood
    split
    · rename_i port hlookup
      exact .inr ⟨_, hlookup⟩
    · exact .inl hspec
    · exact .inl hspec
  · exact .inl hspec

/-- Neither `forward_table` nor a multicast group leads to the CPU port. -/
structure AvoidsCpu (sw : Switch) : Prop where
  forwardTable : ∀ mac, sw.l2.forwardTable.lookup mac ≠ some (.forward CPU_PORT)
  mcastGroups : ∀ group replicas, sw.mcastGroups.lookup group = some replicas →
    ∀ r ∈ replicas, r.egressPort ≠ CPU_PORT

theorem AvoidsCpu.egressPort_ne (h : sw.AvoidsCpu) {p : Packet} (hp : p ∈ sw.originals a) :
    p.stdMeta.egressPort ≠ CPU_PORT := by
  unfold originals at hp
  dsimp only at hp
  split_ifs at hp
  · cases hgroup : sw.mcastGroups.lookup (sw.ingress a).packet.stdMeta.mcastGrp with
    | none =>
      rw [hgroup] at hp
      cases hp
    | some replicas =>
      rw [hgroup] at hp
      obtain ⟨r, hr, rfl⟩ := List.mem_map.mp hp
      exact h.mcastGroups _ replicas hgroup r hr
  · rw [List.mem_singleton.mp hp]
    show (sw.ingress a).packet.stdMeta.egressSpec ≠ CPU_PORT
    intro hcpu
    rcases egressSpec_ingress sw a with hzero | ⟨mac, hlookup⟩
    · rw [hcpu] at hzero
      exact absurd hzero (by decide)
    · rw [hcpu] at hlookup
      exact h.forwardTable mac hlookup
  · cases hp

/-- The replica for the CPU port. -/
def cpuReplica : Replica where
  egressPort := CPU_PORT
  inst := 1

/-- The packet for the controller. -/
def cpuCopy (sw : Switch) (a : Arrival) : Packet :=
  INTSwitchEgress.keepIntCpu (sw.clonePacket a cpuReplica)

/-- The frame is cloned: `clone_int` runs on it, and it has INT headers. -/
def Cloned (sw : Switch) (a : Arrival) : Prop := sw.RunsClone a ∧ (parse a.frame).hdr.intShim.isSome

instance (sw : Switch) (a : Arrival) : Decidable (sw.Cloned a) := inferInstanceAs (Decidable (_ ∧ _))

/-- The packet-ins for a frame are those for its clones. -/
theorem packetIns_eq (havoids : sw.AvoidsCpu)
    (hsessions : ∀ session replicas, sw.cloneSessions.lookup session = some replicas →
      session = 1 ∧ replicas = [cpuReplica]) (a : Arrival) :
    sw.packetIns a =
      if sw.Cloned a ∧ (sw.cloneSessions.lookup 1).isSome then [(sw.cpuCopy a).wire] else [] := by
  -- what is not a clone leaves on another port
  have horiginals : (((sw.originals a).filterMap sw.myEgress).filter fun c =>
      c.stdMeta.egressPort = CPU_PORT) = [] := by
    rw [List.filter_eq_nil_iff]
    intro c hc
    obtain ⟨p, hp, hout⟩ := List.mem_filterMap.mp hc
    obtain ⟨c', hout', -, hport⟩ := myEgress_original hp
    obtain rfl := Option.some.inj (hout.symm.trans hout')
    rw [hport]
    simpa using havoids.egressPort_ne hp
  have hclones : (sw.clones a).filterMap sw.myEgress =
      if sw.Cloned a ∧ (sw.cloneSessions.lookup 1).isSome then [sw.cpuCopy a] else [] := by
    cases hsession : sw.cloneSessions.lookup 1 with
    | none =>
      have hnone : sw.clones a = [] := by
        unfold clones
        by_cases hrun : sw.RunsClone a
        · rw [ingress_clone hrun]
          dsimp only
          rw [hsession]
          rfl
        · rw [ingress_noClone hrun]
      rw [hnone, if_neg fun h => by simp at h]
      rfl
    | some replicas =>
      -- the egress drops the clone of a frame without INT headers
      obtain rfl := (hsessions 1 replicas hsession).2
      rw [egress_clones hsession]
      by_cases hcloned : sw.Cloned a
      · rw [if_pos (show sw.RunsClone a ∧ _ from hcloned), if_pos ⟨hcloned, rfl⟩]
        rfl
      · rw [if_neg (show ¬ (sw.RunsClone a ∧ _) from hcloned), if_neg fun h => hcloned h.1]
  unfold packetIns process
  rw [List.filterMap_append, List.filter_append, horiginals, List.append_nil, hclones]
  split_ifs
  · rfl
  · rfl

/-- The packet for the controller is a clone that leaves the switch. -/
theorem cpuCopy_mem (hcloned : sw.Cloned a) (hsession : sw.cloneSessions.lookup 1 = some [cpuReplica]) :
    sw.cpuCopy a ∈ sw.process a ∧ (sw.cpuCopy a).isClone := by
  refine ⟨?_, rfl⟩
  have hclones := egress_clones (a := a) hsession
  rw [if_pos (show sw.RunsClone a ∧ _ from hcloned)] at hclones
  unfold process
  rw [List.filterMap_append, hclones]
  exact List.mem_append_left _ (List.mem_singleton.mpr rfl)

end Switch

/-! ### What a packet-in says -/

/-- A frame with INT headers. -/
theorem parse_intShim {frame : List Byte} (h : (parse frame).hdr.intShim.isSome) :
    ∃ (q : ScionFrame) (x : IntHeadersT) (payload : Option PayloadH),
      (parse frame).hdr = q.withInt x payload ∧ q.udpScion.dstPort = UDP_PORT := by
  have hout := parse_outcome frame
  generalize parse frame = r at hout h
  cases hout with
  | noEthernet | notIpv4 | noIpv4 | notUdp | noUdp | noUdpScion | noInt | noShim => cases h
  | notMd q _ _ hport | noMd q _ _ hport | emptyStack q _ _ _ hport | badStack q _ _ _ hport
  | badPayload q _ _ _ _ hport | payload q _ _ _ _ _ hport => exact ⟨q, _, _, rfl, hport⟩

/-- The bytes of a packet-in: `int_cpu`, the SCION headers of the frame, and what was parsed behind
them. -/
theorem wire_cpuCopy (sw : Switch) {a : Arrival} {q : ScionFrame} {x : IntHeadersT}
    {payload : Option PayloadH} (hhdr : (parse a.frame).hdr = q.withInt x payload) :
    ∃ cpuHdrLen, (sw.cpuCopy a).wire =
      emit (IntCpuH.mk INT_IDENTIFIER cpuHdrLen) ++ (q.emitScion ++ (x.emit ++ (parse a.frame).rest)) := by
  have hclone : (sw.clonePacket a Switch.cpuReplica).hdr = q.withInt x payload := hhdr
  refine ⟨(sw.clonePacket a Switch.cpuReplica).metadata.cpuHdrLen, ?_⟩
  rw [Switch.cpuCopy, wire_other rfl rfl, hdr_keepIntCpu hclone, List.append_assoc, List.append_assoc]
  rfl

/-- A packet-in is not much longer than the frame. -/
theorem length_wire_cpuCopy (sw : Switch) {a : Arrival} (h : (parse a.frame).hdr.intShim.isSome) :
    (sw.cpuCopy a).wire.length ≤ a.frame.length + 16 := by
  obtain ⟨q, x, payload, hhdr, -⟩ := parse_intShim h
  obtain ⟨cpuHdrLen, hwire⟩ := wire_cpuCopy sw hhdr
  have hframe := congrArg List.length (parse_outcome a.frame).emit_eq
  rw [hhdr, ScionFrame.emit_withInt, ScionFrame.emit] at hframe
  rw [hwire]
  simp only [List.length_append, length_emit, IntCpuH.size_eq] at hframe ⊢
  omega

namespace IntController

/-- The topic depends on the AS only. -/
theorem topicName_congr {a a' : BitVec 64} (h : a.toNat % 2 ^ 48 = a'.toNat % 2 ^ 48)
    (nodeID : BitVec 32) :
    topicName a nodeID = topicName a' nodeID := by
  have h1 : a.toNat / 2 ^ 32 % 2 ^ 16 = a'.toNat / 2 ^ 32 % 2 ^ 16 := by omega
  have h2 : a.toNat / 2 ^ 16 % 2 ^ 16 = a'.toNat / 2 ^ 16 % 2 ^ 16 := by omega
  have h3 : a.toNat % 2 ^ 16 = a'.toNat % 2 ^ 16 := by omega
  rw [topicName, topicName, h1, h2, h3]

section

variable (h : IntCpuH) (q : ScionFrame) (behind : List Byte)

/-- The flow ID is where the SCION common header starts. -/
theorem flowKeyMsg_intCpu : (flowKeyMsg (emit h ++ (q.emitScion ++ behind))).toNat % 2 ^ 20 =
    q.scionCommon.flowID.toNat := by
  have hbytes : bytesAt 16 4 (emit h ++ (q.emitScion ++ behind)) =
      emitFields [4, 8, 20] (q.scionCommon.version, q.scionCommon.qos, q.scionCommon.flowID, ()) := by
    rw [ScionFrame.emitScion, emit_scionCommon]
    simp only [List.append_assoc]
    exact bytesAt_append (by simp) (by simp) _
  have hlt := packFields_lt [4, 8, 20]
    (q.scionCommon.version, q.scionCommon.qos, q.scionCommon.flowID, ())
  have hflow : q.scionCommon.flowID.toNat < 2 ^ 20 := q.scionCommon.flowID.isLt
  rw [flowKeyMsg, hbytes, ofBytes_emitFields _ rfl, BitVec.toNat_ofNat]
  simp only [packFields, List.sum_cons, List.sum_nil] at hlt ⊢
  omega

/-- The destination is behind the SCION common header. -/
theorem asAddr_intCpu : (asAddr (emit h ++ (q.emitScion ++ behind))).toNat =
    q.dst.1.toNat * 2 ^ 48 + q.dst.2.toNat := by
  obtain ⟨common, hcommon⟩ := Option.isSome_iff_exists.mp q.addr_matches.common
  have hdst : q.dst = (common.dstISD, common.dstAS) := by
    rw [ScionFrame.dst, hcommon]
    rfl
  have hbytes : bytesAt 28 8 (emit h ++ (q.emitScion ++ behind)) =
      emitFields [16, 48] (common.dstISD, common.dstAS, ()) := by
    rw [ScionFrame.emitScion, ScionAddrT.emit, hcommon, emitOpt_some, emit_scionAddrCommon]
    simp only [List.append_assoc]
    rw [← List.append_assoc]
    exact bytesAt_append (by simp) (by simp) _
  have hlt := packFields_lt [16, 48] (common.dstISD, common.dstAS, ())
  rw [asAddr, hbytes, ofBytes_emitFields _ rfl, BitVec.toNat_ofNat, hdst]
  simp only [packFields, List.sum_cons, List.sum_nil] at hlt ⊢
  omega

end

/-- The report is about a frame for the host: it goes to the topic of the host, under the flow ID of the
frame. -/
structure ReportsOn (c : Config) (a : Arrival) (p : Published) : Prop where
  frame : ∃ (q : ScionFrame) (rest : List Byte), a.frame = q.emit ++ rest ∧
      q.udpScion.dstPort = UDP_PORT ∧
    q.dst = c.host ∧ p.key.flowId.toNat = q.scionCommon.flowID.toNat
  topic : p.topic = topicName c.hostAS c.nodeID

/-- Only the host is a sink. -/
theorem Config.eq_host {c : Config} {dst : BitVec 16 × BitVec 48} (h : c.policy dst = some .clone_int) :
    dst = c.host := by
  unfold policy at h
  split_ifs at h with hdst
  · exact hdst
  · obtain ⟨line, -, hline⟩ := Option.map_eq_some_iff.mp h
    cases hline

/-- The controller reports on the clone of a frame for the host, whatever lies behind `int_shim`. -/
theorem reports_clone {c : Config} {sw : Switch} {a : Arrival} {p : Published} (hcloned : sw.Cloned a)
    (hpolicy : ∀ dst action, sw.scionInt.lookup dst = some action → c.policy dst = some action)
    (hresult : result (handlePacketIn c.nodeID) (sw.cpuCopy a).wire = .ok p) : ReportsOn c a p := by
  obtain ⟨q, x, payload, hhdr, hport⟩ := parse_intShim hcloned.2
  obtain ⟨cpuHdrLen, hwire⟩ := wire_cpuCopy sw hhdr
  have hdst : q.dst = c.host := by
    have hentry := hcloned.1.2.2
    rw [hhdr] at hentry
    exact Config.eq_host (hpolicy _ _ hentry)
  obtain ⟨-, stack, rfl⟩ := eq_published_of_result hresult
  rw [hwire]
  constructor
  · have hframe := (parse_outcome a.frame).emit_eq
    rw [hhdr, ScionFrame.emit_withInt, List.append_assoc] at hframe
    refine ⟨q, _, hframe.symm, hport, hdst, ?_⟩
    show (BitVec.ofNat 32 _).toNat = _
    have hlt : q.scionCommon.flowID.toNat < 2 ^ 20 := q.scionCommon.flowID.isLt
    rw [flowKeyMsg_intCpu, BitVec.toNat_ofNat, Nat.mod_eq_of_lt (by omega)]
  · refine topicName_congr ?_ c.nodeID
    have hlt := q.dst.2.isLt
    have has : q.dst.2.toNat = c.hostAS.toNat % 2 ^ 48 := by
      rw [hdst, Config.host, BitVec.toNat_ofNat]
    rw [asAddr_intCpu]
    omega

end IntController

end ScionInt
