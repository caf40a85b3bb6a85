import Mathlib.Algebra.BigOperators.Group.Multiset.Basic
import Mathlib.Tactic
import Verbs.Proofs.Device.Run

/-!
The books of a device. In every run the completions that were pushed and those that are still owed
balance the requests that were accepted, so each accepted request either waits in one place or has
been completed once.
-/

namespace Verbs

/-- Whether an operation takes a receive of the peer. -/
def SendOp.twoSided : SendOp → Bool
  | .send _ | .write _ (some _) => true
  | .write _ none | .read _ | .compareSwap _ _ _ | .fetchAdd _ _ => false

/-- What a queue pair holds goes back to requests that were accepted; its receives are its own. -/
structure QueuePair.Backed (ps : List Posting) (id : QpId) (q : QueuePair) : Prop where
  recvs : ∀ r ∈ q.recvs, ⟨r.posting, id, q.recvCq, r.wrId, .recv r.sgl⟩ ∈ ps
  inbox : ∀ m ∈ q.inbox, ∃ sgl op, op.twoSided ∧ m.opcode = op.opcode ∧
    ⟨m.posting, m.sender, m.senderCq, m.wrId, .send sgl op⟩ ∈ ps

namespace QueuePair.Backed

variable {ps : List Posting} {id : QpId} {q : QueuePair}

lemma mono {ps' : List Posting} (h : q.Backed ps id) (hsub : ps ⊆ ps') : q.Backed ps' id where
  recvs r hr := hsub (h.recvs r hr)
  inbox m hm := by
    obtain ⟨sgl, op, htwo, hop, hmem⟩ := h.inbox m hm
    exact ⟨sgl, op, htwo, hop, hsub hmem⟩

lemma of_failed (q : QueuePair) : q.failed.Backed ps id where
  recvs := by simp [QueuePair.failed]
  inbox := by simp [QueuePair.failed]

lemma of_recvs_cons {r : Receive} {rest : List Receive} (h : q.Backed ps id)
    (hr : q.recvs = r :: rest) : { q with recvs := rest }.Backed ps id where
  recvs s hs := h.recvs s (by rw [hr]; exact List.mem_cons_of_mem _ hs)
  inbox := h.inbox

lemma of_inbox_cons {m : Message} {rest : List Message} (h : q.Backed ps id)
    (hm : q.inbox = m :: rest) : { q with inbox := rest }.Backed ps id where
  recvs := h.recvs
  inbox n hn := h.inbox n (by rw [hm]; exact List.mem_cons_of_mem _ hn)

end QueuePair.Backed

lemma Device.Carries.twoSided {d : Device} {id : QpId} {q : QueuePair} {w : SendRequest}
    {m : Message} (h : d.Carries id q w m) : w.op.twoSided := by
  have hp := h.payload
  rcases hw : w.op with imm | ⟨s, - | imm⟩ | s | ⟨s, old, new⟩ | ⟨s, add⟩ <;> rw [hw] at hp
  · rfl
  · exact hp.elim
  · rfl
  all_goals exact hp.elim

namespace Device

/-! ### One operation -/

variable {d d' : Device} {op : Operation} {out : List Report} {ps : List Posting}

lemma Effect.unique (h : Effect d op d' out ps) (hu : Table.Unique d.qps) :
    Table.Unique d'.qps := by
  cases h with
  | quiet qps => rw [qps]; exact hu
  | create q new qps => rw [qps]; exact Table.unique_set hu _ _
  | connect q found state => exact Table.unique_set hu _ _
  | execute q remote found state bound => exact execute_unique hu _ _ _ _
  | flushSend q found state out flushed => exact hu
  | flushRecv q found state out flushed => exact hu
  | land q found state alive m rest inbox landed land =>
    rw [record_qps, ← land]
    exact land_unique (by exact Table.unique_set hu _ _) _ _ _ _
  | wait q found state alive inbox room => exact Table.unique_set hu _ _
  | drop q found => exact QueuePairs.drop_unique hu _

lemma Effect.numbers (h : Effect d op d' out ps) :
    d'.nextPosting = d.nextPosting + ps.length ∧
      ps.map (·.number) = List.range' d.nextPosting ps.length := by
  cases h with
  | quiet qps nextPosting => exact ⟨nextPosting, rfl⟩
  | create q new qps nextPosting => exact ⟨nextPosting, rfl⟩
  | connect q found state => exact ⟨rfl, rfl⟩
  | execute q remote found state bound =>
    obtain ⟨memory, qps, hframe⟩ := execute_frame d ‹_› q ‹_› remote
    rw [record_nextPosting, hframe]
    exact ⟨rfl, rfl⟩
  | flushSend q found state out flushed => exact ⟨rfl, rfl⟩
  | flushRecv q found state out flushed => exact ⟨rfl, rfl⟩
  | @land id w q found state alive m rest inbox landed land =>
    obtain ⟨memory, qps, hframe⟩ :=
      land_frame (d.unboxed id q rest) id { q with inbox := rest } m (d.receive w)
    rw [land] at hframe
    rw [record_nextPosting, hframe]
    exact ⟨rfl, rfl⟩
  | wait q found state alive inbox room => exact ⟨rfl, rfl⟩
  | drop q found => exact ⟨rfl, rfl⟩

/-- What operations do to single queue pairs keeps a property of theirs. -/
structure Kept (P : QpId → QueuePair → Prop) : Prop where
  failed : ∀ id q, P id q → P id q.failed
  connected : ∀ id q peer, P id q → q.state = .reset →
    P id { q with remote := some peer, state := .rts }
  taken : ∀ id q r rest, P id q → q.recvs = r :: rest → P id { q with recvs := rest }
  unboxed : ∀ id q m rest, P id q → q.inbox = m :: rest → P id { q with inbox := rest }

/-- A property of every queue pair is kept if each change to a single queue pair keeps it. -/
lemma Effect.every_of {P : QpId → QueuePair → Prop} (h : Effect d op d' out ps)
    (hall : d.qps.Every P) (hfailed : ∀ id q, P id q → P id q.failed)
    (htaken : ∀ id q r rest, P id q → q.recvs = r :: rest → P id { q with recvs := rest })
    (hunboxed : ∀ id q m rest, P id q → q.inbox = m :: rest → P id { q with inbox := rest })
    (hnew : ∀ plan q, op = .createQp plan → q.New plan → d'.nextId = d.nextId + 1 →
      P d.nextId q)
    (hconnect : ∀ id q peer, op = .connect id peer → d.qps.get? id = some q → q.state = .reset →
      P id q → P id { q with remote := some peer, state := .rts })
    (hmessage : ∀ id w q peerId peer m, op = .postSend id w → ps = [d.sendPosting id q w] →
      P peerId peer → peer.acceptsFrom q.endpoint → d.Carries id q w m →
      P peerId { peer with inbox := peer.inbox ++ [m] })
    (hreceive : ∀ id w q, op = .postRecv id w → ps = [d.recvPosting id q w] → P id q →
      q.state.canPostRecv → q.state ≠ .error → q.inbox = [] →
      q.recvs.length < q.caps.maxRecvWr.toNat →
      P id { q with recvs := q.recvs ++ [d.receive w] }) :
    d'.qps.Every P := by
  cases h with
  | quiet qps =>
    rw [qps]
    exact hall
  | create q new qps nextPosting nextId =>
    rw [qps]
    exact QueuePairs.Every.set hall (hnew _ q rfl new nextId)
  | @connect id peer q found state =>
    exact hall.set (hconnect id q peer rfl found state (hall _ _ found))
  | @execute id w q remote found state bound =>
    rw [record_qps]
    exact execute_every id q w remote hall hfailed htaken fun peerId peer m =>
      hmessage id w q peerId peer m rfl rfl
  | flushSend q found state out flushed => exact hall
  | flushRecv q found state out flushed => exact hall
  | @land id w q found state alive m rest inbox landed land =>
    have hset : QueuePairs.Every P (d.qps.set id { q with inbox := rest }) :=
      hall.set (hunboxed id q m rest (hall _ _ found) inbox)
    have := hset.failed (land_failed (d.unboxed id q rest) id { q with inbox := rest } m
      (d.receive w)) hfailed
    rwa [land] at this
  | @wait id w q found state alive inbox room =>
    exact hall.set (hreceive id w q rfl rfl (hall _ _ found) state alive inbox room)
  | @drop id q found =>
    exact (QueuePairs.Every.erase hall id).failed (QueuePairs.drop_failed d.qps id) hfailed

lemma Effect.every {P : QpId → QueuePair → Prop} (h : Effect d op d' out ps)
    (hall : d.qps.Every P) (hkept : Kept P)
    (hnew : ∀ plan q, op = .createQp plan → q.New plan → d'.nextId = d.nextId + 1 →
      P d.nextId q)
    (hmessage : ∀ id w q peerId peer m, op = .postSend id w → ps = [d.sendPosting id q w] →
      P peerId peer → peer.acceptsFrom q.endpoint → d.Carries id q w m →
      P peerId { peer with inbox := peer.inbox ++ [m] })
    (hreceive : ∀ id w q, op = .postRecv id w → ps = [d.recvPosting id q w] → P id q →
      q.state.canPostRecv → q.state ≠ .error → q.inbox = [] →
      P id { q with recvs := q.recvs ++ [d.receive w] }) :
    d'.qps.Every P :=
  h.every_of hall hkept.failed hkept.taken hkept.unboxed hnew
    (fun id q peer _ _ hreset hq => hkept.connected id q peer hq hreset) hmessage
    fun id w q hop hps hq hstate halive hinbox _ => hreceive id w q hop hps hq hstate halive hinbox

lemma Effect.nextId_le (h : Effect d op d' out ps) : d.nextId ≤ d'.nextId := by
  cases h with
  | quiet qps nextPosting nextId => exact nextId
  | create q new qps nextPosting nextId => omega
  | @execute id w q remote found state bound =>
    obtain ⟨memory, qps, hframe⟩ := execute_frame d id q w remote
    rw [record_nextId, hframe]
  | @land id w q found state alive m rest inbox landed land =>
    obtain ⟨memory, qps, hframe⟩ :=
      land_frame (d.unboxed id q rest) id { q with inbox := rest } m (d.receive w)
    rw [land] at hframe
    rw [record_nextId, hframe]
    rfl
  | connect | flushSend | flushRecv | wait | drop => exact le_rfl

def NamedBefore (n : Nat) (qps : QueuePairs) : Prop := qps.Every fun id _ => id < n

lemma NamedBefore.get?_eq_none {n : Nat} {qps : QueuePairs} (h : NamedBefore n qps) :
    qps.get? n = none := by
  rcases hq : qps.get? n with - | q
  · rfl
  · exact absurd (h n q hq) (lt_irrefl n)

lemma Effect.named (h : Effect d op d' out ps) (hn : NamedBefore d.nextId d.qps) :
    NamedBefore d'.nextId d'.qps := by
  refine h.every (fun id q hq => (hn id q hq).trans_le h.nextId_le)
    ⟨fun _ _ h => h, fun _ _ _ h _ => h, fun _ _ _ _ h _ => h, fun _ _ _ _ h _ => h⟩ ?_
    (fun _ _ _ _ _ _ _ _ h _ _ => h) (fun _ _ _ _ _ h _ _ _ => h)
  intro plan q hop hnew hnext
  rw [hnext]
  exact Nat.lt_succ_self _

/-- The completions that are owed after an operation, with those it pushed, are those that were
owed before it and those of the requests it accepted. -/
lemma Effect.dues (h : Effect d op d' out ps) (hu : Table.Unique d.qps)
    (hn : NamedBefore d.nextId d.qps) :
    paid out + d'.qps.dues = d.qps.dues + (ps.map (·.due) : Multiset Due) := by
  cases h with
  | quiet qps => simp [qps]
  | create q new qps =>
    have hq : q.dues = 0 := by simp [QueuePair.dues, new.recvs, new.inbox]
    rw [qps, QueuePairs.dues, Table.total_set_of_none hn.get?_eq_none, hq]
    simp [QueuePairs.dues]
  | connect q found state =>
    exact (zero_add _).trans
      (QueuePairs.dues_set_of_add hu found (x := 0) (by simp [QueuePair.dues]))
  | execute q remote found state bound => exact execute_dues hu _ _ _ _
  | flushSend q found state out flushed =>
    rw [flushed, add_comm]
    rfl
  | flushRecv q found state out flushed =>
    rw [flushed, add_comm]
    rfl
  | @land id w q found state alive m rest inbox landed land =>
    have hland := land_dues (d := d.unboxed id q rest) (by exact Table.unique_set hu _ _) id
      { q with inbox := rest } m (d.receive w)
    rw [land] at hland
    rw [record_qps, hland]
    exact congrArg (· + _) (QueuePairs.dues_set_add hu found (QueuePair.dues_of_inbox_cons inbox))
  | wait q found state alive inbox room =>
    exact (zero_add _).trans (QueuePairs.dues_set_of_add hu found (q.dues_recvs_append _))
  | drop q found => exact (QueuePairs.drop_dues hu _).trans (add_zero _).symm

lemma Effect.backed (h : Effect d op d' out ps) {ps₀ : List Posting}
    (hb : d.qps.Every fun id q => q.Backed ps₀ id) :
    d'.qps.Every fun id q => q.Backed (ps₀ ++ ps) id := by
  refine h.every (fun id q hq => (hb id q hq).mono (List.subset_append_left _ _)) ?_ ?_ ?_ ?_
  · exact ⟨fun _ q _ => .of_failed q, fun _ _ _ h _ => ⟨h.recvs, h.inbox⟩,
      fun _ _ _ _ h hr => h.of_recvs_cons hr, fun _ _ _ _ h hm => h.of_inbox_cons hm⟩
  · intro plan q hop hnew hnext
    exact ⟨by simp [hnew.recvs], by simp [hnew.inbox]⟩
  · intro id w q peerId peer m hop hps hpeer haccepts hcarries
    refine ⟨hpeer.recvs, fun n hn => ?_⟩
    rcases List.mem_append.mp hn with hn | hn
    · exact hpeer.inbox n hn
    · rw [List.mem_singleton.mp hn]
      refine ⟨w.sgl, w.op, hcarries.twoSided, hcarries.opcode, List.mem_append_right _ ?_⟩
      rw [hcarries.posting, hcarries.sender, hcarries.senderCq, hcarries.wrId, hps]
      exact List.mem_singleton_self _
  · intro id w q hop hps hq hstate halive hinbox
    refine ⟨fun r hr => ?_, hq.inbox⟩
    rcases List.mem_append.mp hr with hr | hr
    · exact hq.recvs r hr
    · rw [List.mem_singleton.mp hr, hps]
      exact List.mem_append_right _ (List.mem_singleton_self _)

/-! ### Runs -/

/-- The books of a run. -/
structure Balanced (ops : List Operation) : Prop where
  unique : Table.Unique (run ops).qps
  named : NamedBefore (run ops).nextId (run ops).qps
  numbers : (accepted ops).map (·.number) = List.range (run ops).nextPosting
  balance : paid (pushed ops) + (run ops).qps.dues = ((accepted ops).map (·.due) : Multiset Due)
  backed : (run ops).qps.Every fun id q => q.Backed (accepted ops) id

lemma balanced_nil : Balanced [] where
  unique := Table.unique_empty
  named := fun _ _ h => nomatch h
  numbers := rfl
  balance := rfl
  backed := fun _ _ h => nomatch h

lemma Balanced.snoc {ops : List Operation} (h : Balanced ops) (op : Operation) :
    Balanced (ops ++ [op]) := by
  have he := perform_effect (run ops) op
  obtain ⟨hnext, hnumbers⟩ := he.numbers
  refine ⟨?_, ?_, ?_, ?_, ?_⟩
  · rw [run_snoc]
    exact he.unique h.unique
  · rw [run_snoc]
    exact he.named h.named
  · rw [run_snoc, hnext, accepted_snoc, List.map_append, hnumbers, h.numbers,
      List.range'_eq_map_range, ← List.range_add]
  · have hdues := he.dues h.unique h.named
    rw [run_snoc, pushed_snoc, accepted_snoc, paid_append, add_assoc, hdues, ← add_assoc,
      h.balance, List.map_append, Multiset.coe_add]
  · rw [run_snoc, accepted_snoc]
    exact he.backed h.backed

/-- The books of every run balance. -/
lemma balanced (ops : List Operation) : Balanced ops := by
  induction ops using List.reverseRecOn with
  | nil => exact balanced_nil
  | append_singleton ops op ih => exact ih.snoc op

end Device

end Verbs
