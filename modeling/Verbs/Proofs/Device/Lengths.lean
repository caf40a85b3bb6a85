import Mathlib.Tactic
import Verbs.Proofs.Device.Direct
import Verbs.Proofs.Device.TwoSided
import Verbs.Proofs.Device.Verdicts
import Verbs.Proofs.Memory.Access

/-!
The lengths that completions tell. What a request moves is all that its windows hold; a completion
has 32 bits to say how much that is. A window of a peer is no longer than this, so that an operation
on the peer's memory always finds room; the windows of a send can hold more together, and then both
completions tell its lowest 32 bits.
-/

namespace Verbs

namespace Memory

variable {m m' : Memory} {nic peerNic : NicId} {sgl : List LocalSlice} {op : SendOp}
  {remote : RemoteSlice} {data : Bytes} {len : Nat}

/-- What an operation may come to: it has moved what its windows hold, which is no more than the
window of the peer holds, or it has failed. -/
def Sized (sgl : List LocalSlice) (remote? : Option RemoteSlice) : Except Status Nat → Prop
  | .ok len => len = LocalSlice.totalLen sgl ∧ ∀ remote, remote? = some remote →
      len ≤ remote.len.toNat
  | .error e => e ≠ .success

/-! ### Local windows -/

lemma gather_error {e : Status} (h : m.gather nic sgl = .error e) : e = .locProtErr := by
  induction sgl generalizing e with
  | nil => cases h
  | cons s sgl ih =>
    rw [gather] at h
    rcases hs : m.resolveLocal nic s with e' | ⟨id, r, off⟩
    · rw [hs] at h
      cases h
      exact resolveLocal_error hs
    · rcases hrest : m.gather nic sgl with e' | data
      · rw [hs, hrest] at h
        cases h
        exact ih hrest
      · rw [hs, hrest] at h
        cases h

lemma sized_error {remote? : Option RemoteSlice} {e : Status} (he : e ≠ .success) :
    Sized sgl remote? (.error e) := he

lemma sized_scatter {remote? : Option RemoteSlice} (hlen : Sized sgl remote? (.ok len)) :
    Sized sgl remote? ((m.scatter nic sgl data).2.map fun _ => len) := by
  rcases hscatter : (m.scatter nic sgl data).2 with e | ⟨⟩
  · rcases scatter_error hscatter with rfl | rfl <;> exact sized_error (by decide)
  · exact hlen

/-! ### Windows of a peer -/

lemma resolveRemote_error {perm : Permission} {e : Status}
    (h : m.resolveRemote nic remote len perm = .error e) : e = .remAccessErr := by
  unfold resolveRemote at h
  split at h
  · cases h
    rfl
  · split at h
    · cases h
      rfl
    · split at h
      · split at h <;> cases h
        rfl
      · cases h
        rfl

lemma writeRemote_cases (m : Memory) (nic : NicId) (remote : RemoteSlice) (data : Bytes) :
    m.writeRemote nic remote data = .error .remAccessErr ∨
      data.length ≤ remote.len.toNat ∧ ∃ m', m.writeRemote nic remote data = .ok m' := by
  rcases hs : m.resolveRemote nic remote data.length .remoteWrite with e | ⟨id, r, off⟩
  · rw [resolveRemote_error hs] at hs
    exact Or.inl (by simp [writeRemote, hs, bind, Except.bind])
  · exact Or.inr ⟨(resolveRemote_eq_ok hs).1,
      by simp [writeRemote, hs, bind, Except.bind, pure, Except.pure]⟩

lemma readRemote_cases (m : Memory) (nic : NicId) (remote : RemoteSlice) (len : Nat) :
    m.readRemote nic remote len = .error .remAccessErr ∨
      len ≤ remote.len.toNat ∧ ∃ data, m.readRemote nic remote len = .ok data := by
  rcases hs : m.resolveRemote nic remote len .remoteRead with e | ⟨id, r, off⟩
  · rw [resolveRemote_error hs] at hs
    exact Or.inl (by simp [readRemote, hs, bind, Except.bind])
  · exact Or.inr ⟨(resolveRemote_eq_ok hs).1,
      by simp [readRemote, hs, bind, Except.bind, pure, Except.pure]⟩

lemma updateRemote_cases (m : Memory) (nic : NicId) (remote : RemoteSlice)
    (f : UInt64 → UInt64) :
    (∃ e, e ≠ .success ∧ m.updateRemote nic remote f = .error e) ∨
      8 ≤ remote.len.toNat ∧ ∃ updated, m.updateRemote nic remote f = .ok updated := by
  rcases hs : m.resolveRemote nic remote 8 .remoteAtomic with e | ⟨id, r, off⟩
  · rw [resolveRemote_error hs] at hs
    exact Or.inl ⟨.remAccessErr, by decide, by simp [updateRemote, hs, bind, Except.bind]⟩
  · by_cases haligned : off % 8 = 0
    · exact Or.inr ⟨(resolveRemote_eq_ok hs).1,
        by simp [updateRemote, hs, haligned, bind, Except.bind, pure, Except.pure]⟩
    · exact Or.inl ⟨.remInvReqErr, by decide,
        by simp [updateRemote, hs, haligned, bind, Except.bind]⟩

/-! ### One-sided operations -/

lemma atomic_sized (m : Memory) (nic peerNic : NicId) (sgl : List LocalSlice)
    (remote : RemoteSlice) (f : UInt64 → UInt64) :
    Sized sgl (some remote) (m.atomic nic peerNic sgl remote f).2 := by
  unfold atomic
  split
  · exact sized_error (by decide)
  · rename_i hlength
    rw [not_not] at hlength
    rcases updateRemote_cases m peerNic remote f with ⟨e, hfailed, hword⟩ |
      ⟨hlen, ⟨old, updated⟩, hword⟩
    · rw [hword]
      exact hfailed
    · rw [hword]
      refine sized_scatter ⟨hlength.symm, ?_⟩
      rintro _ ⟨⟩
      exact hlen

lemma oneSided_sized (m : Memory) (nic peerNic : NicId) (sgl : List LocalSlice) (op : SendOp) :
    Sized sgl op.remote? (m.oneSided nic peerNic sgl op).2 := by
  cases op with
  | send imm => exact sized_error (by decide)
  | write remote imm =>
    simp only [oneSided]
    rcases hgather : m.gather nic sgl with e | data
    · rw [gather_error hgather]
      exact sized_error (by decide)
    · dsimp only
      rcases writeRemote_cases m peerNic remote data with hwrite | ⟨hlen, m', hwrite⟩
      · rw [hwrite]
        exact sized_error (by decide)
      · rw [hwrite]
        refine ⟨length_of_gather hgather, ?_⟩
        rintro _ ⟨⟩
        exact hlen
  | read remote =>
    simp only [oneSided]
    rcases readRemote_cases m peerNic remote (LocalSlice.totalLen sgl) with
      hread | ⟨hlen, data, hread⟩
    · rw [hread]
      exact sized_error (by decide)
    · rw [hread]
      refine sized_scatter ⟨rfl, ?_⟩
      rintro _ ⟨⟩
      exact hlen
  | compareSwap remote compare swap => exact atomic_sized m nic peerNic sgl remote _
  | fetchAdd remote add => exact atomic_sized m nic peerNic sgl remote _

end Memory

namespace Device

variable {d : Device} {b id peerId : QpId} {q peer : QueuePair} {w : SendRequest}
  {remote : Endpoint} {memory : Memory} {m : Message} {r : Receive} {len : Nat}
  {ops : List Operation} {op : Operation} {report : Report} {p : Posting}

/-! ### One request -/

/-- The number of bytes that a request comes to, if it turns into a message or succeeds. -/
def Dispatch.result : Dispatch → Except Status Nat
  | .message _ _ m => .ok m.payload.length
  | .outcome status len => if status = .success then .ok len else .error status

lemma dispatch_sized (d : Device) (id : QpId) (q : QueuePair) (w : SendRequest)
    (remote : Endpoint) :
    Memory.Sized w.sgl w.op.remote? (d.dispatch id q w remote).2.result := by
  unfold dispatch
  dsimp only
  split
  · exact Memory.sized_error (by decide)
  · rename_i peerId peer hroute
    have hsided := Memory.oneSided_sized d.memory q.nic peer.nic w.sgl w.op
    split
    · exact Memory.sized_error (by decide)
    · split
      · rename_i imm hop
        rcases hgather : d.memory.gather q.nic w.sgl with status | data
        · rw [Memory.gather_error hgather]
          exact Memory.sized_error (by decide)
        · exact ⟨Memory.length_of_gather hgather, by simp [hop, SendOp.remote?]⟩
      all_goals
        split
        · rename_i hone
          rw [hone] at hsided
          exact hsided
        · rename_i hone
          rw [hone] at hsided
          simp only [Dispatch.result, if_neg (show _ ≠ Status.success from hsided)]
          exact hsided

/-! ### Runs -/

/-- A completion with success is that of a request that was done at once, or one of the two of a
message and a receive that have met. -/
lemma success_cases (hreport : report ∈ (run ops).pushes op)
    (hok : report.completion.status = .success) :
    (∃ id w q len, op = .postSend id w ∧ (run ops).qps.get? id = some q ∧
        report = (run ops).sendReport q w .success len ∧
        (run ops).accepts op = [(run ops).sendPosting id q w] ∧
        Memory.Sized w.sgl w.op.remote? (.ok len)) ∨
      ∃ b m r, (m, r) ∈ (run ops).landings b op ∧
        (report.posting = m.posting ∨ report.posting = r.posting) := by
  have hsuccess : report.completion.status.isSuccess = true := by rw [hok]; rfl
  -- a completion with success condemns nobody, which rules out all that goes wrong below
  have hfine : ∀ {ps qps}, ¬ QueuePairs.Condemned ps qps report := fun h =>
    Bool.false_ne_true (h.status.symm.trans hsuccess)
  have hverdict := verdict ops op report hreport
  set d := run ops with hd
  cases hverdict with
  | condemned h => exact (hfine h).elim
  | met hmet _ _ hposting _ => exact Or.inr ⟨_, _, _, hmet, hposting⟩
  | @done id w q hop hq hstate _ _ _ =>
    subst hop
    rcases hreports : d.sendReports id w with e | ⟨d', out⟩
    · rw [(postSend_of_error hreports).2] at hreport
      cases hreport
    · have haccepts : d.accepts (.postSend id w) = [d.sendPosting id q w] := by
        simp [accepts, hreports, hq]
      have hbacked := every_backed_mono (balanced ops).backed
        (List.subset_append_left (accepted ops) (d.accepts (.postSend id w)))
      have hmade : MadeBy (accepted ops ++ d.accepts (.postSend id w)) d.nextPosting id :=
        ⟨d.sendPosting id q w, by simp [haccepts], rfl, rfl⟩
      obtain ⟨q', hq', ⟨remote, -, hremote, hexecute⟩ | ⟨herror, -, -⟩⟩ :=
        sendReports_cases hreports
      · cases hq.symm.trans hq'
        rcases execute_cases d id q w remote with ⟨memory, peerId, peer, m, hdispatch, -⟩ |
          ⟨memory, status, len, hdispatch, hdone⟩
        · have hsends : d.sends (.postSend id w) = some (peerId, peer, m) := by
            simp [sends, hreports, hq, hstate, hremote, hdispatch]
          rcases sends_met hbacked hsends hmade report hreport with h | ⟨r, hmet, -, -, hposting, -⟩
          · exact (hfine h).elim
          · exact Or.inr ⟨_, _, _, hmet, hposting⟩
        · have hsized := dispatch_sized d id q w remote
          cases hexecute.symm.trans hdone
          rw [(postSend_of_ok hreports).2] at hreport
          rw [hdispatch] at hsized
          by_cases hstatus : status = .success
          · subst hstatus
            rw [List.mem_singleton.mp hreport]
            exact Or.inl ⟨id, w, q, len, rfl, hq, rfl, haccepts, hsized⟩
          · refine (hfine (QueuePairs.complete_condemned hbacked hmade ?_ report hreport)).elim
            exact Bool.eq_false_iff.mpr (mt Status.isSuccess_iff.mp hstatus)
      · cases hq.symm.trans hq'
        cases hstate.symm.trans herror

lemma handed_sized (hm : m ∈ handed b ops) :
    ∃ w : SendRequest, ⟨m.posting, m.sender, m.senderCq, m.wrId, .send w.sgl w.op⟩ ∈ accepted ops ∧
      Memory.Sized w.sgl w.op.remote? (.ok m.payload.length) := by
  obtain ⟨s, hs, hm⟩ := (mem_along _).mp hm
  obtain ⟨peer, hsends, -⟩ := sends_of_mem_hands hm
  obtain ⟨id, w, q, remote, memory, -, -, -, hdispatch, haccepts, -⟩ := sends_spec hsends
  obtain ⟨-, -, hcarries⟩ := dispatch_message hdispatch
  have hsized := dispatch_sized s.1 id q w remote
  rw [hdispatch] at hsized
  refine ⟨w, (mem_along _).mpr ⟨s, hs, ?_⟩, hsized⟩
  rw [haccepts, sendPosting, hcarries.posting, hcarries.sender, hcarries.senderCq, hcarries.wrId]
  exact List.mem_singleton_self _

lemma byteLen_of_success {sgl : List LocalSlice} {work : SendOp} (hp : p ∈ accepted ops)
    (hwork : p.work = .send sgl work) (hreport : report ∈ pushed ops)
    (hown : report.posting = p.number) (hok : report.completion.status = .success) :
    ∃ len, report.completion.byteLen = UInt32.ofNat len ∧
      Memory.Sized sgl work.remote? (.ok len) := by
  have hbalanced := balanced ops
  obtain ⟨s, hs, hpushed⟩ := (mem_along _).mp hreport
  obtain ⟨before, after, hops, hbefore⟩ := split_of_mem_steps hs
  rw [hbefore] at hpushed
  rcases success_cases hpushed hok with ⟨id, w, q, len, -, -, rfl, haccepts, hsized⟩ |
    ⟨b, m, r, hmet, hposting⟩
  · have hmine : (run before).sendPosting id q w ∈ accepted ops :=
      (mem_along _).mpr ⟨s, hs, by rw [hbefore, haccepts]; exact List.mem_singleton_self _⟩
    obtain rfl := hbalanced.eq_of_number hp hmine hown.symm
    cases hwork
    exact ⟨len, rfl, hsized⟩
  · have hlanded : (m, r) ∈ landed b ops := (mem_along _).mpr ⟨s, hs, hbefore ▸ hmet⟩
    rw [(inOrder b ops).landed] at hlanded
    obtain ⟨hm, hr⟩ := List.of_mem_zip hlanded
    rcases hposting with hposting | hposting
    · obtain ⟨w, hmine, hsized⟩ := handed_sized hm
      obtain rfl := hbalanced.eq_of_number hp hmine (hown.symm.trans hposting)
      cases hwork
      refine ⟨m.payload.length, ?_, hsized⟩
      obtain ⟨q, -, htold⟩ := landed_of_mem_landings hmet
      have hone : ∀ status, m.report status ∈ (run before).pushes s.2 →
          report = m.report status := fun status hmem =>
        hbalanced.report_unique hp hreport hown
          ((mem_along _).mpr ⟨s, hs, hbefore ▸ hmem⟩) (hposting.symm.trans hown)
      generalize (run before).pushes s.2 = out at htold hone
      cases htold with
      | taken => rw [hone .success (by simp)]; rfl
      | refused =>
        rw [hone .remOpErr (by simp)] at hok
        cases hok
    · obtain ⟨cq, hmine⟩ := accepted_of_mem_received hr
      obtain rfl := hbalanced.eq_of_number hp hmine (hown.symm.trans hposting)
      cases hwork

/-! ### A region that is sent again and again -/

def repeated (n : UInt32) : List LocalSlice := List.replicate 1024 ⟨⟨4096, n⟩, 1⟩

lemma totalLen_repeated (n : UInt32) : LocalSlice.totalLen (repeated n) = 1024 * n.toNat := by
  rw [LocalSlice.totalLen, repeated, List.map_replicate]
  exact (List.sum_replicate ..).trans (smul_eq_mul ..)

def widePlan : QpPlan := ⟨1, some 2, some 2, { maxSendSge := 1024, maxRecvSge := 1024 }, 0⟩

def wideQp (qpn peer : UInt32) : QueuePair :=
  { fabric := 0, nic := 1, endpoint := ⟨1, qpn, 0⟩, caps := widePlan.caps, sendCq := 2, recvCq := 2
    state := .rts, remote := some ⟨1, peer, 0⟩ }

def widePair : List Operation :=
  [.addFabric, .openNic 0 { maxSge := 1024 }, .createCq {} 8, .createQp widePlan,
    .createQp widePlan, .connect 3 ⟨1, 2, 0⟩, .connect 4 ⟨1, 1, 0⟩]

def field (n : UInt32) : Region := ⟨1, 4096, List.replicate n.toNat 0, 1, 2, .full⟩

def prepared (n : UInt32) : List Operation := widePair ++ [.register 1 4096 n.toUInt64 .full]

lemma run_prepared (n : UInt32) :
    run (prepared n) =
      { run widePair with
        nics := (run widePair).nics.modify 1 fun a => { a with nextKey := a.nextKey + 2 }
        memory := (run widePair).memory.insert 5 (field n)
        nextId := 6 } := by
  have hnic : ∃ a, (run widePair).nics.get? 1 = some a ∧ a.nextKey = 1 := ⟨_, by cbv, rfl⟩
  obtain ⟨a, ha, hkey⟩ := hnic
  have hid : (run widePair).nextId = 5 := by cbv
  have hlen : n.toUInt64.toNat < UInt32.size := n.toNat_lt
  rw [prepared, run_snoc, perform, register, ha]
  dsimp only
  rw [if_neg (Nat.not_le.mpr hlen), hkey, if_neg (by decide), hid]
  rfl

lemma facing_prepared (n : UInt32) :
    (run (prepared n)).Facing 3 (wideQp 1 2) ⟨1, 2, 0⟩ 4 (wideQp 2 1) := by
  rw [run_prepared]
  exact ⟨by cbv, rfl, rfl, by cbv⟩

lemma spans_prepared (n : UInt32) :
    (run (prepared n)).memory.regions.get? 5 = some (field n) ∧
      ∃ spans, (run (prepared n)).memory.spans 1 5 (field n).bytes.length (repeated n) =
        some spans := by
  have hmemory : (run (prepared n)).memory = Memory.insert {} 5 (field n) := by
    rw [run_prepared]
    rfl
  have hlookup : (Memory.insert {} 5 (field n)).lookup 1 1 = some (5, field n) := rfl
  have hbase : (field n).base ≤ 4096 := UInt64.le_refl 4096
  rw [hmemory]
  refine ⟨rfl, _, Memory.spans_replicate hlookup rfl hbase ?_ 1024⟩
  simp [field]

def wave (n : UInt32) : SendRequest := ⟨11, repeated n, .send none⟩

def waveReports (n : UInt32) : List Report :=
  [⟨0, 2, ⟨10, .success, .recv, UInt32.ofNat (1024 * n.toNat), none⟩⟩,
    ⟨1, 2, ⟨11, .success, .send, UInt32.ofNat (1024 * n.toNat), none⟩⟩]

/-- Where a receive waits for the message, both ends succeed, and tell what 32 bits can of it. -/
lemma sendReports_wave (n : UInt32) :
    ∃ d q, run (prepared n ++ [.postRecv 4 ⟨10, repeated n⟩]) = d ∧ d.qps.get? 3 = some q ∧
      d.sendPosting 3 q (wave n) = ⟨1, 3, 2, 11, .send (repeated n) (.send none)⟩ ∧
      ∃ d' out, d.sendReports 3 (wave n) = .ok (d', out) ∧ out = waveReports n := by
  have hfacing := facing_prepared n
  have hadmits : (wideQp 2 1).Admits ⟨10, repeated n⟩ :=
    ⟨rfl, rfl, by decide, (List.length_replicate ..).trans_le (by decide)⟩
  obtain ⟨q, hsame, hfacing'⟩ := hfacing.awaiting ⟨10, repeated n⟩
  have hperform := (postRecv_of_ok (recvReports_waits hfacing.peerFound hadmits)).1
  have hrun := (run_snoc (prepared n) (.postRecv 4 ⟨10, repeated n⟩)).trans hperform
  obtain ⟨hregion, spans, hspans⟩ := spans_prepared n
  have hgather := Memory.gather_of_spans hregion hspans
  have hlength := Memory.length_of_gather hgather
  obtain ⟨memory, hscatter⟩ := Memory.scatter_of_spans hregion
    (show Permission.full.contains .localWrite by decide) hspans hlength.le
  have hsge : (repeated n).length ≤ q.caps.maxSendSge.toNat := by
    rw [hsame.caps]
    exact (List.length_replicate ..).trans_le (by decide)
  have haccepts : (wideQp 2 1).acceptsFrom q.endpoint := by
    rw [hsame.endpoint]
    decide
  have hsent := hfacing'.sendReports_taken (w := wave n) hsge haccepts rfl rfl
    (by rw [hsame.nic]; exact hgather) hscatter
  have hnext : (run (prepared n)).nextPosting = 0 := by
    rw [run_prepared]
    cbv
  refine ⟨_, q, hrun, hfacing'.found, ?_, _, _, hsent, ?_⟩
  · rw [sendPosting, hsame.sendCq, awaiting, hnext]
    rfl
  · rw [hlength, totalLen_repeated, takenReport, sendReport, hsame.sendCq, awaiting, receive, hnext]
    rfl

/-- The region is sent 1024 times over in one message, and received in the same places. -/
def flood (n : UInt32) : List Operation :=
  prepared n ++ [.postRecv 4 ⟨10, repeated n⟩] ++ [.postSend 3 (wave n)]

lemma accepted_flood (n : UInt32) :
    ⟨1, 3, 2, 11, .send (repeated n) (.send none)⟩ ∈ accepted (flood n) := by
  obtain ⟨d, q, hd, hq, hposting, d', out, hreports, -⟩ := sendReports_wave n
  have haccepts : d.accepts (.postSend 3 (wave n)) =
      [⟨1, 3, 2, 11, .send (repeated n) (.send none)⟩] := by
    rw [← hposting]
    simp [accepts, hreports, hq]
  rw [flood, accepted_snoc, hd, haccepts]
  exact List.mem_append_right _ (List.mem_singleton_self _)

lemma pushed_flood (n : UInt32) : waveReports n ⊆ pushed (flood n) := by
  obtain ⟨d, q, hd, -, -, d', out, hreports, hout⟩ := sendReports_wave n
  rw [flood, pushed_snoc, hd, (postSend_of_ok hreports).2, hout]
  exact List.subset_append_right _ _

/-! ### What is told -/

/-- **What completions tell of lengths.** A request on the send queue that succeeds has moved all
that its windows hold; its completion tells the lowest 32 bits of that. This is the number itself
just if it is below `2 ^ 32`, which it is where the request names a window of the peer; a send can
move more. A receive that the request has met succeeds too and tells the same. -/
theorem lengths_reported (ops : List Operation) (p : Posting) (hp : p ∈ accepted ops)
    (sgl : List LocalSlice) (work : SendOp) (hwork : p.work = .send sgl work) (report : Report)
    (hreport : report ∈ pushed ops) (hown : report.posting = p.number)
    (hok : report.completion.status = .success) :
    let total := LocalSlice.totalLen sgl
    let told := report.completion.byteLen
    told = UInt32.ofNat total ∧ (told.toNat = total ↔ total < 2 ^ 32) ∧
      (∀ remote, work.remote? = some remote → told.toNat = total) ∧
      ∀ b m r, (m, r) ∈ landed b ops → m.posting = p.number →
        m.payload.length = total ∧ ∃ p' ∈ accepted ops, p'.number = r.posting ∧
          ∃ report', reportsOf ops p' = [report'] ∧ report'.completion.status = .success ∧
            report'.completion.byteLen = told := by
  intro total told
  obtain ⟨len, htold, hlen, hremote⟩ := byteLen_of_success hp hwork hreport hown hok
  have hmod : told.toNat = total % 2 ^ 32 := by
    rw [show told = UInt32.ofNat len from htold, hlen]
    exact UInt32.toNat_ofNat'
  refine ⟨htold.trans (congrArg UInt32.ofNat hlen), ?_, fun remote hnamed => ?_,
    fun b m r hmet hposting => ?_⟩
  · rw [hmod]
    exact Nat.mod_eq_iff_lt (by decide)
  · have hle := hremote remote hnamed
    have hlt := remote.len.toNat_lt
    rw [hmod]
    exact Nat.mod_eq_of_lt (by omega)
  · have hbalanced := balanced ops
    obtain ⟨p₁, hp₁, p', hp', _, c, c', hnumber, -, -, -, -, hnumber', -, -, hc, hc', hagree, -⟩ :=
      landed_completed hmet
    obtain rfl := hbalanced.eq_of_number hp₁ hp (hnumber.trans hposting)
    obtain ⟨report', hreports', rfl⟩ := List.map_eq_singleton_iff.mp hc'
    rw [hbalanced.reportsOf_eq hp hreport hown] at hc
    obtain rfl : report.completion = c := (List.cons.inj hc).1
    have hsuccess : report'.completion.status.isSuccess = true := by
      rw [← hagree.success, hok]
      rfl
    refine ⟨?_, p', hp', hnumber', report', hreports', Status.isSuccess_iff.mp hsuccess,
      hagree.byteLen hsuccess⟩
    rw [(inOrder b ops).landed] at hmet
    obtain ⟨w, hmine, htotal, -⟩ := handed_sized (List.of_mem_zip hmet).1
    obtain rfl := hbalanced.eq_of_number hp hmine hposting.symm
    cases hwork
    exact htotal

theorem lengths_reported_kilobyte :
    ∃ p ∈ accepted (flood 1), ∃ report ∈ pushed (flood 1), report.posting = p.number ∧
      report.completion.status = .success ∧ LocalSlice.totalLen (repeated 1) = 1024 ∧
      report.completion.byteLen.toNat = 1024 := by
  have hp := accepted_flood 1
  have hreport := pushed_flood 1 (List.mem_cons_of_mem _ (List.mem_singleton_self _))
  have htotal : LocalSlice.totalLen (repeated 1) = 1024 := totalLen_repeated 1
  obtain ⟨-, hexact, -⟩ :=
    lengths_reported (flood 1) _ hp (repeated 1) (.send none) rfl _ hreport rfl rfl
  exact ⟨_, hp, _, hreport, rfl, rfl, htotal, (hexact.mpr (by rw [htotal]; decide)).trans htotal⟩

/-- A message of `2 ^ 32` bytes is told to have none, at both ends. -/
theorem told_length_wraps :
    ∃ p ∈ accepted (flood 4194304), p.work = .send (repeated 4194304) (.send none) ∧
      LocalSlice.totalLen (repeated 4194304) = 2 ^ 32 ∧
      (∃ report ∈ pushed (flood 4194304), report.posting = p.number ∧
        report.completion.status = .success ∧ report.completion.byteLen = 0) ∧
      ∃ report ∈ pushed (flood 4194304), report.completion.opcode = .recv ∧
        report.completion.status = .success ∧ report.completion.byteLen = 0 :=
  ⟨_, accepted_flood _, rfl, totalLen_repeated _,
    ⟨_, pushed_flood _ (List.mem_cons_of_mem _ (List.mem_singleton_self _)), rfl, rfl, rfl⟩,
    _, pushed_flood _ List.mem_cons_self, rfl, rfl, rfl⟩

end Device

end Verbs
