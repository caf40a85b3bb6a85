import Mathlib.Tactic
import Verbs.Proofs.Device.Once
import Verbs.Proofs.Device.Protection
import Verbs.Proofs.Device.Verdicts

/-!
What is left of an operation that fails. A write looks at the windows of both ends before it moves a
byte, so it moves all of them or none. An atomic runs on the word of the peer first, and only then
puts what the word was into its own windows: where one of these turns out not to be writable, the
word has changed, some of the windows may be filled, and the poster is told that it has failed.
-/

namespace Verbs

namespace SendOp

/-- Whether the operation changes memory without telling the peer. -/
def isSilentChange : SendOp → Bool
  | write _ none | compareSwap _ _ _ | fetchAdd _ _ => true
  | send _ | write _ (some _) | read _ => false

lemma isSilentChange_of_isAtomic {op : SendOp} (h : op.isAtomic) : op.isSilentChange := by
  cases op with
  | compareSwap | fetchAdd => rfl
  | send | write | read => cases h

def update? : SendOp → Option (RemoteSlice × (UInt64 → UInt64))
  | compareSwap remote compare swap => some (remote, fun v => if v = compare then swap else v)
  | fetchAdd remote add => some (remote, (· + add))
  | send _ | write _ _ | read _ => none

end SendOp

namespace Memory

variable {m m' : Memory} {nic peerNic : NicId} {sgl : List LocalSlice} {remote : RemoteSlice}
  {f : UInt64 → UInt64} {op : SendOp} {status : Status}

/-- An atomic that gets stuck half way: the word of the peer is updated, and then a window that is
to hold what the word was is not valid. -/
inductive Stuck (m : Memory) (nic peerNic : NicId) (sgl : List LocalSlice) (op : SendOp) :
    Memory → Prop where
  | mk {remote : RemoteSlice} {f : UInt64 → UInt64} {old : UInt64} {updated after : Memory}
      (atomic : op.update? = some (remote, f)) (length : LocalSlice.totalLen sgl = 8)
      (word : m.updateRemote peerNic remote f = .ok (old, updated))
      (windows :
        updated.scatter nic sgl (Bytes.ofNatLE 8 old.toNat) = (after, .error .locProtErr)) :
      Stuck m nic peerNic sgl op after

/-- An atomic that fails has done nothing, or is stuck. -/
lemma atomic_error (hop : op.update? = some (remote, f))
    (h : m.atomic nic peerNic sgl remote f = (m', .error status)) :
    (m' = m ∧ ∀ m'', ¬ m.Stuck nic peerNic sgl op m'') ∨
      (status = .locProtErr ∧ m.Stuck nic peerNic sgl op m') := by
  unfold atomic at h
  split at h
  · rename_i hlength
    cases h
    refine Or.inl ⟨rfl, fun m'' hstuck => ?_⟩
    obtain ⟨-, hlength', -, -⟩ := hstuck
    exact hlength hlength'
  · rename_i hlength
    rw [not_not] at hlength
    split at h
    · rename_i hword
      cases h
      refine Or.inl ⟨rfl, fun m'' hstuck => ?_⟩
      obtain ⟨hop', -, hword', -⟩ := hstuck
      cases hop.symm.trans hop'
      cases hword.symm.trans hword'
    · rename_i old updated hword
      rcases hscatter : updated.scatter nic sgl (Bytes.ofNatLE 8 old.toNat) with
        ⟨after, error | ⟨⟩⟩
      · rw [hscatter] at h
        cases h
        have hprot : status = .locProtErr :=
          scatter_error_of_le (by simp [hlength]) (congrArg Prod.snd hscatter)
        subst hprot
        exact Or.inr ⟨rfl, hop, hlength, hword, hscatter⟩
      · rw [hscatter] at h
        cases h

lemma oneSided_error (hop : op.isSilentChange)
    (h : m.oneSided nic peerNic sgl op = (m', .error status)) :
    (m' = m ∧ ∀ m'', ¬ m.Stuck nic peerNic sgl op m'') ∨
      (status = .locProtErr ∧ m.Stuck nic peerNic sgl op m') := by
  cases op with
  | send | read => cases hop
  | write remote imm =>
    refine Or.inl ⟨?_, fun m'' hstuck => ?_⟩
    · simp only [oneSided] at h
      split at h
      · cases h
        rfl
      · split at h <;> cases h
        rfl
    · obtain ⟨hupdate, -⟩ := hstuck
      cases hupdate
  | compareSwap remote compare swap => exact atomic_error rfl h
  | fetchAdd remote add => exact atomic_error rfl h

end Memory

namespace Device

variable {d : Device} {id peerId : QpId} {q peer : QueuePair} {w : SendRequest} {remote : Endpoint}
  {memory : Memory} {status : Status} {len : Nat} {ops later : List Operation} {p : Posting}
  {r : Report}

/-- A request of a connected queue pair is an atomic that gets stuck. -/
def Stalls (d : Device) (id : QpId) (w : SendRequest) (after : Memory) : Prop :=
  ∃ q peerId peer, d.qps.get? id = some q ∧ q.state = .rts ∧ d.peerOf q = some (peerId, peer) ∧
    peer.acceptsFrom q.endpoint ∧ d.memory.Stuck q.nic peer.nic w.sgl w.op after

/-! ### One request -/

lemma dispatch_silent (hop : w.op.isSilentChange) {m : Message} :
    d.dispatch id q w remote ≠ (memory, .message peerId peer m) := by
  intro h
  obtain ⟨-, -, hcarries⟩ := dispatch_message h
  have hpayload := hcarries.payload
  split at hpayload
  · rename_i hsend
    rw [hsend] at hop
    cases hop
  · rename_i hwrite
    rw [hwrite] at hop
    cases hop
  · exact hpayload

lemma dispatch_reached (hop : w.op.isSilentChange)
    (hroute : d.route ⟨q.fabric, remote.lid, remote.qpn⟩ = some (peerId, peer))
    (haccepts : peer.acceptsFrom q.endpoint) :
    d.dispatch id q w remote =
      match d.memory.oneSided q.nic peer.nic w.sgl w.op with
      | (memory, .ok len) => (memory, .outcome .success len)
      | (memory, .error status) => (memory, .outcome status 0) := by
  obtain ⟨wrId, sgl, op⟩ := w
  rcases hsided : d.memory.oneSided q.nic peer.nic sgl op with ⟨memory, status | len⟩
  all_goals
    cases op with
    | send | read => cases hop
    | write remote imm =>
      cases imm with
      | none => simp only [dispatch, hroute, haccepts, not_true_eq_false, if_false, hsided]
      | some imm => cases hop
    | compareSwap | fetchAdd =>
      simp only [dispatch, hroute, haccepts, not_true_eq_false, if_false, hsided]

lemma dispatch_failed (hop : w.op.isSilentChange) (hq : d.qps.get? id = some q)
    (hstate : q.state = .rts) (hremote : q.remote = some remote)
    (h : d.dispatch id q w remote = (memory, .outcome status len)) (hfailed : status ≠ .success) :
    (memory = d.memory ∧ ∀ m', ¬ d.Stalls id w m') ∨
      (status = .locProtErr ∧ d.Stalls id w memory) := by
  rcases hroute : d.route ⟨q.fabric, remote.lid, remote.qpn⟩ with - | ⟨peerId, peer⟩
  · simp only [dispatch, hroute] at h
    cases h
    refine Or.inl ⟨rfl, ?_⟩
    rintro m' ⟨q', _, _, hq', -, hbound, -⟩
    cases hq.symm.trans hq'
    simp [peerOf, hremote, hroute] at hbound
  · have hbound : d.peerOf q = some (peerId, peer) := by simp [peerOf, hremote, hroute]
    by_cases haccepts : peer.acceptsFrom q.endpoint
    · have hstalls : ∀ m', d.Stalls id w m' ↔
          d.memory.Stuck q.nic peer.nic w.sgl w.op m' := by
        refine fun m' => ⟨?_, fun hstuck => ⟨q, peerId, peer, hq, hstate, hbound, haccepts, hstuck⟩⟩
        rintro ⟨q', _, _, hq', -, hbound', -, hstuck⟩
        cases hq.symm.trans hq'
        cases hbound.symm.trans hbound'
        exact hstuck
      rw [dispatch_reached hop hroute haccepts] at h
      rcases hone : d.memory.oneSided q.nic peer.nic w.sgl w.op with ⟨memory', error | len'⟩
      · rw [hone] at h
        cases h
        simp only [hstalls]
        exact Memory.oneSided_error hop hone
      · rw [hone] at h
        cases h
        exact absurd rfl hfailed
    · simp only [dispatch, hroute, haccepts] at h
      cases h
      refine Or.inl ⟨rfl, ?_⟩
      rintro m' ⟨q', _, _, hq', -, hbound', haccepts', -⟩
      cases hq.symm.trans hq'
      cases hbound.symm.trans hbound'
      exact haccepts haccepts'

/-! ### Runs -/

lemma mem_along_of_mem {β : Type} {f : Device → Operation → List β} {op : Operation} {x : β}
    (hx : x ∈ f (run ops) op) (later : List Operation) : x ∈ along f (ops ++ op :: later) := by
  have hsnoc : x ∈ along f (ops ++ [op]) := by
    rw [along_snoc]
    exact List.mem_append_right _ hx
  rw [← List.singleton_append, ← List.append_assoc]
  exact (along_extends f _ later).subset hsnoc

lemma own_report {own : Report} (hp : p ∈ (run ops).accepts (.postSend id w))
    (hpushes : own ∈ (run ops).pushes (.postSend id w)) (hposting : own.posting = p.number)
    (hr : r ∈ pushed (ops ++ .postSend id w :: later)) (hown : r.posting = p.number) :
    r = own :=
  (balanced _).report_unique (mem_along_of_mem hp later) hr hown
    (mem_along_of_mem hpushes later) hposting

/-- **A write or an atomic that fails has done nothing**, whatever windows it names and whatever
becomes of it later, unless it is an atomic that gets stuck: one of eight bytes that may run on the
word of the peer, and whose own windows may not be written to. Then the word is updated all the
same, and the windows before the one that is not valid are filled. -/
theorem failed_without_effect (ops later : List Operation) (id : QpId) (w : SendRequest)
    (hop : w.op.isSilentChange) (p : Posting) (hp : p ∈ (run ops).accepts (.postSend id w))
    (r : Report) (hr : r ∈ pushed (ops ++ .postSend id w :: later)) (hown : r.posting = p.number)
    (hfailed : r.completion.status ≠ .success) :
    let d := run ops
    let d' := run (ops ++ [.postSend id w])
    (d'.memory = d.memory ∧ ∀ m, ¬ d.Stalls id w m) ∨
      (r.completion.status = .locProtErr ∧ d.Stalls id w d'.memory) := by
  intro d d'
  rcases hreports : d.sendReports id w with e | ⟨after, out⟩
  · simp [accepts, d, hreports] at hp
  · obtain ⟨hperform, hpushes⟩ := postSend_of_ok hreports
    obtain ⟨q, hq, hcases⟩ := sendReports_cases hreports
    obtain rfl : p = d.sendPosting id q w := by
      simpa [accepts, d, hreports, hq] using hp
    have hmemory : d'.memory = after.memory := by
      rw [show d' = d.perform (.postSend id w) from run_snoc _ _, hperform, record_memory]
    rw [hmemory]
    rcases hcases with ⟨remote, hstate, hremote, hexecute⟩ | ⟨hstate, rfl, rfl⟩
    · rcases execute_cases d id q w remote with ⟨_, _, _, _, hmessage, -⟩ |
        ⟨memory, status, len, hdispatch, hdone⟩
      · exact absurd hmessage (dispatch_silent hop)
      · cases hexecute.symm.trans hdone
        have hmem : d.sendReport q w status len ∈ d.pushes (.postSend id w) := by
          rw [hpushes]
          exact QueuePairs.mem_complete _ _ _
        obtain rfl := own_report hp hmem rfl hr hown
        exact dispatch_failed hop hq hstate hremote hdispatch hfailed
    · refine Or.inl ⟨rfl, ?_⟩
      rintro m ⟨q', _, _, hq', hstate', -⟩
      cases hq.symm.trans hq'
      cases hstate.symm.trans hstate'

def words : List Operation :=
  [.addFabric, .openNic 0 {}, .createCq {} 8, .createQp ⟨1, some 2, some 2, {}, 0⟩,
    .createQp ⟨1, some 2, some 2, {}, 0⟩, .connect 3 ⟨1, 2, 0⟩, .connect 4 ⟨1, 1, 0⟩,
    .register 1 4096 8 .remoteAtomic]

def strayWrite : SendRequest := ⟨10, [⟨⟨4096, 8⟩, 1⟩], .write ⟨⟨4096, 8⟩, 9⟩ none⟩

theorem failed_without_effect_stray :
    ∃ p ∈ (run words).accepts (.postSend 3 strayWrite),
      ∃ r ∈ pushed (words ++ [.postSend 3 strayWrite, .dropQp 3]), r.posting = p.number ∧
        r.completion.status = .remAccessErr ∧
        (run (words ++ [.postSend 3 strayWrite])).memory = (run words).memory := by
  have haccepts : (run words).accepts (.postSend 3 strayWrite) =
      [⟨0, 3, 2, 10, .send strayWrite.sgl strayWrite.op⟩] := by cbv
  have hpushed : pushed (words ++ [.postSend 3 strayWrite, .dropQp 3]) =
      [⟨0, 2, ⟨10, .remAccessErr, .rdmaWrite, 0, none⟩⟩] := by cbv
  have hp := haccepts ▸ List.mem_singleton_self _
  have hr := hpushed ▸ List.mem_singleton_self _
  refine ⟨_, hp, _, hr, rfl, rfl, ?_⟩
  rcases failed_without_effect words [.dropQp 3] 3 strayWrite rfl _ hp _ hr rfl (by decide) with
    ⟨hmemory, -⟩ | ⟨hprot, -⟩
  · exact hmemory
  · cases hprot

def strayFetch : SendRequest := ⟨10, [⟨⟨4096, 8⟩, 9⟩], .fetchAdd ⟨⟨4096, 8⟩, 2⟩ 1⟩

/-- An atomic that is stuck: it has failed, and the word is another one. -/
theorem failed_atomic_changes_word :
    strayFetch.op.isSilentChange ∧
      ((run words).pushes (.postSend 3 strayFetch)).map (·.completion.status) = [.locProtErr] ∧
      (run words).memory.byte? (5, 0) = some 0 ∧
      ((run words).perform (.postSend 3 strayFetch)).memory.byte? (5, 0) = some 1 :=
  ⟨rfl, by cbv, by cbv, by cbv⟩

end Device

end Verbs
