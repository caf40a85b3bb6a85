import Mathlib.Tactic
import Verbs.Proofs.Device.Identity
import Verbs.Proofs.Device.Once
import Verbs.Proofs.Device.Turns

/-!
Messages and receives meet in order. The messages that were handed to a queue pair and the receives
that it accepted are paired off one by one; what waits is what one side is ahead of the other.
-/

namespace Verbs

/-! ### Two queues -/

/-- Messages and receives have been paired off in order, and what is left of either side waits. -/
structure InOrder (handed : List Message) (received : List Receive)
    (landed : List (Message × Receive)) (live : Option (List Receive × List Message)) : Prop where
  landed : landed = handed.zip received
  recvs : ∀ rs ms, live = some (rs, ms) → rs = received.drop handed.length
  inbox : ∀ rs ms, live = some (rs, ms) → ms = handed.drop received.length

section Zip

variable {α β : Type}

lemma zip_append_left (xs xs' : List α) (ys : List β) :
    (xs ++ xs').zip ys = xs.zip ys ++ xs'.zip (ys.drop xs.length) := by
  induction xs generalizing ys with
  | nil => rfl
  | cons x xs ih =>
    cases ys with
    | nil => simp
    | cons y ys => simp [ih]

lemma zip_append_right (xs : List α) (ys ys' : List β) :
    xs.zip (ys ++ ys') = xs.zip ys ++ (xs.drop ys.length).zip ys' := by
  induction ys generalizing xs with
  | nil => simp
  | cons y ys ih =>
    cases xs with
    | nil => simp
    | cons x xs => simp [ih]

end Zip

namespace InOrder

variable {handed hs : List Message} {received ts : List Receive}
  {landed ls : List (Message × Receive)} {live left : Option (List Receive × List Message)}

lemma turn (h : InOrder handed received landed live) (ht : Device.Turn live left hs ts ls) :
    InOrder (handed ++ hs) (received ++ ts) (landed ++ ls) left := by
  cases ht with
  | idle hleft =>
    simp only [List.append_nil]
    refine ⟨h.landed, fun rs ms hlive => ?_, fun rs ms hlive => ?_⟩
    · rcases hleft with rfl | rfl
      · exact h.recvs rs ms hlive
      · cases hlive
    · rcases hleft with rfl | rfl
      · exact h.inbox rs ms hlive
      · cases hlive
  | queue ms m =>
    -- no receive waits, so all those received so far have met their messages
    have hrecvs := h.recvs [] ms rfl
    have hinbox := h.inbox [] ms rfl
    have hle : received.length ≤ handed.length := List.drop_eq_nil_iff.mp hrecvs.symm
    refine ⟨?_, fun rs ms' hlive => ?_, fun rs ms' hlive => ?_⟩
    · rw [List.append_nil, List.append_nil, zip_append_left, ← hrecvs, List.zip_nil_right,
        List.append_nil]
      exact h.landed
    · cases hlive
      rw [List.append_nil, List.length_append, List.drop_eq_nil_of_le (by omega)]
    · cases hlive
      rw [List.append_nil, List.drop_append_of_le_length hle, ← hinbox]
  | land rs r ms m hleft =>
    -- a receive waits, so fewer messages than receives have come, and the oldest one is the next
    have hrecvs := h.recvs (r :: rs) ms rfl
    have hinbox := h.inbox (r :: rs) ms rfl
    have hlt : handed.length < received.length := by
      by_contra hle
      rw [List.drop_eq_nil_of_le (by omega)] at hrecvs
      cases hrecvs
    refine ⟨?_, fun rs' ms' hlive => ?_, fun rs' ms' hlive => ?_⟩
    · rw [List.append_nil, zip_append_left, ← hrecvs, ← h.landed]
      rfl
    · rcases hleft with rfl | rfl <;> cases hlive
      rw [List.append_nil, List.length_append, ← List.drop_drop, ← hrecvs]
      rfl
    · rcases hleft with rfl | rfl <;> cases hlive
      rw [hinbox, List.append_nil, List.drop_eq_nil_of_le (by omega),
        List.drop_eq_nil_of_le (by simp; omega)]
  | wait rs r =>
    have hrecvs := h.recvs rs [] rfl
    have hinbox := h.inbox rs [] rfl
    have hle : handed.length ≤ received.length := List.drop_eq_nil_iff.mp hinbox.symm
    refine ⟨?_, fun rs' ms' hlive => ?_, fun rs' ms' hlive => ?_⟩
    · rw [List.append_nil, List.append_nil, zip_append_right, ← hinbox, List.zip_nil_left,
        List.append_nil]
      exact h.landed
    · cases hlive
      rw [List.append_nil, List.drop_append_of_le_length hle, ← hrecvs]
    · cases hlive
      rw [List.append_nil, List.length_append, List.drop_eq_nil_of_le (by omega)]
  | meet rs r ms m hleft =>
    -- the other way round: a message waits, so it is the next for the new receive
    have hrecvs := h.recvs rs (m :: ms) rfl
    have hinbox := h.inbox rs (m :: ms) rfl
    have hlt : received.length < handed.length := by
      by_contra hle
      rw [List.drop_eq_nil_of_le (by omega)] at hinbox
      cases hinbox
    refine ⟨?_, fun rs' ms' hlive => ?_, fun rs' ms' hlive => ?_⟩
    · rw [List.append_nil, zip_append_right, ← hinbox, ← h.landed, List.zip_cons_cons,
        List.zip_nil_right]
    · rcases hleft with rfl | rfl <;> cases hlive
      rw [hrecvs, List.append_nil, List.drop_eq_nil_of_le (by omega),
        List.drop_eq_nil_of_le (by simp; omega)]
    · rcases hleft with rfl | rfl <;> cases hlive
      rw [List.append_nil, List.length_append, ← List.drop_drop, ← hinbox]
      rfl

end InOrder

namespace Device

/-! ### Runs -/

/-- The messages handed to a queue pair in a run, until it failed. -/
def handed (b : QpId) (ops : List Operation) : List Message := along (hands b) ops

def received (b : QpId) (ops : List Operation) : List Receive := along (takes b) ops

def landed (b : QpId) (ops : List Operation) : List (Message × Receive) := along (landings b) ops

lemma inOrder (b : QpId) (ops : List Operation) :
    InOrder (handed b ops) (received b ops) (landed b ops) ((run ops).live b) := by
  induction ops using List.reverseRecOn with
  | nil =>
    refine ⟨rfl, fun rs ms hlive => ?_, fun rs ms hlive => ?_⟩ <;> cases hlive <;> rfl
  | append_singleton ops op ih =>
    rw [run_snoc, handed, received, landed, along_snoc, along_snoc, along_snoc]
    exact ih.turn (perform_turn (balanced ops).named (proper ops) b op)

variable {d : Device} {b id : QpId} {m : Message} {r : Receive} {op : Operation} {p : Posting}
  {ops : List Operation}

lemma state_error_foldl (hid : id < d.nextId) (h : ∀ q, d.qps.get? id = some q → q.state = .error)
    (ops : List Operation) (q : QueuePair) (hq : (ops.foldl perform d).qps.get? id = some q) :
    q.state = .error := by
  refine kept_foldl (P := fun q => q.state = .error) ⟨fun _ _ _ => rfl, fun _ q _ hstate hreset => ?_,
    fun _ _ _ _ h _ => h, fun _ _ _ _ h _ => h⟩ (fun _ _ h => h) (fun _ _ h => h) hid h ops q hq
  cases hstate.symm.trans hreset

lemma accepted_of_mem_handed (h : m ∈ handed b ops) :
    ∃ s ∈ steps {} ops, ∃ w q, s.2 = .postSend m.sender w ∧ s.1.qps.get? m.sender = some q ∧
      s.1.accepts s.2 = [⟨m.posting, m.sender, m.senderCq, m.wrId, .send w.sgl w.op⟩] ∧
      s.1.Carries m.sender q w m := by
  obtain ⟨s, hs, hm⟩ := (mem_along _).mp h
  obtain ⟨peer, hsends, -⟩ := sends_of_mem_hands hm
  obtain ⟨id, w, q, remote, memory, hop, hq, -, hdispatch, haccepts, -⟩ := sends_spec hsends
  obtain ⟨-, -, hcarries⟩ := dispatch_message hdispatch
  refine ⟨s, hs, w, q, ?_, ?_, ?_, ?_⟩
  · rw [hop, hcarries.sender]
  · rw [hcarries.sender, hq]
  · rw [haccepts, sendPosting, hcarries.posting, hcarries.sender, hcarries.senderCq, hcarries.wrId]
  · rw [hcarries.sender]
    exact hcarries

lemma mem_accepted_of_mem_handed (h : m ∈ handed b ops) :
    ∃ sgl op, ⟨m.posting, m.sender, m.senderCq, m.wrId, .send sgl op⟩ ∈ accepted ops := by
  obtain ⟨s, hs, w, q, -, -, haccepts, -⟩ := accepted_of_mem_handed h
  exact ⟨w.sgl, w.op, (mem_along _).mpr ⟨s, hs, by rw [haccepts]; exact List.mem_singleton_self _⟩⟩

lemma accepted_of_mem_received (h : r ∈ received b ops) :
    ∃ cq, ⟨r.posting, b, cq, r.wrId, .recv r.sgl⟩ ∈ accepted ops := by
  obtain ⟨s, hs, hr⟩ := (mem_along _).mp h
  obtain ⟨w, q, d', out, hop, hq, -, rfl, -, hreports⟩ := recv_of_mem_takes hr
  refine ⟨q.recvCq, (mem_along _).mpr ⟨s, hs, ?_⟩⟩
  rw [hop]
  simp [accepts, hreports, hq, recvPosting, receive]

end Device

end Verbs
