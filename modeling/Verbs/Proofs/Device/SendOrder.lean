import Mathlib.Tactic
import Verbs.Proofs.Device.Admission

/-!
The order in which messages are answered. What one queue pair has sent to another is answered in the
order in which it was posted, and what is answered comes before what still waits. Other requests get
ahead of it: those that fail before they become a message, and those that are flushed.
-/

namespace Verbs

/-- The numbers, of some, under which something is reported, unless it is that the receive could not
take the message. -/
def answered (numbers : List Nat) (out : List Report) : List Nat :=
  ((own numbers out).filter (·.completion.status ≠ .remOpErr)).map (·.posting)

/-- The numbers, of some, that are those of messages. -/
def under (numbers : List Nat) (ms : List Message) : List Nat :=
  (ms.map (·.posting)).filter (· ∈ numbers)

def Posting.isMessageOf (a : QpId) (p : Posting) : Bool :=
  p.qp = a && match p.work with
    | .send _ op => op.twoSided
    | .recv _ => false

lemma Posting.isMessageOf_iff {a : QpId} {p : Posting} :
    p.isMessageOf a ↔ p.qp = a ∧ ∃ sgl op, p.work = .send sgl op ∧ op.twoSided := by
  rw [isMessageOf, Bool.and_eq_true, decide_eq_true_eq]
  refine and_congr_right fun _ => ?_
  cases p.work with
  | send sgl op => simp
  | recv sgl => simp

variable {numbers : List Nat} {report : Report} {out : List Report} {m : Message}
  {ms : List Message}

@[simp] lemma answered_nil (numbers : List Nat) : answered numbers [] = [] := rfl

lemma answered_append (numbers : List Nat) (out out' : List Report) :
    answered numbers (out ++ out') = answered numbers out ++ answered numbers out' := by
  rw [answered, own_append, List.filter_append, List.map_append]
  rfl

lemma answered_cons_of_mem (h : report.posting ∈ numbers)
    (hs : report.completion.status ≠ .remOpErr) :
    answered numbers (report :: out) = report.posting :: answered numbers out := by
  rw [answered, own_cons_of_mem h, List.filter_cons_of_pos (by simpa using hs), List.map_cons]
  rfl

lemma answered_cons_of_notMem (h : report.posting ∉ numbers) :
    answered numbers (report :: out) = answered numbers out := by
  rw [answered, own_cons_of_notMem h]
  rfl

lemma answered_cons_refused (hs : report.completion.status = .remOpErr) :
    answered numbers (report :: out) = answered numbers out := by
  by_cases h : report.posting ∈ numbers
  · rw [answered, own_cons_of_mem h, List.filter_cons_of_neg (by simpa using hs)]
    rfl
  · exact answered_cons_of_notMem h

lemma answered_eq_nil (h : ∀ report ∈ out, report.posting ∉ numbers) : answered numbers out = [] := by
  have hown : own numbers out = [] :=
    List.filter_eq_nil_iff.mpr fun report hreport => by simpa using h report hreport
  rw [answered, hown]
  rfl

@[simp] lemma under_nil (numbers : List Nat) : under numbers [] = [] := rfl

lemma under_append (numbers : List Nat) (ms ms' : List Message) :
    under numbers (ms ++ ms') = under numbers ms ++ under numbers ms' := by
  rw [under, List.map_append, List.filter_append]
  rfl

lemma under_cons_of_mem (h : m.posting ∈ numbers) :
    under numbers (m :: ms) = m.posting :: under numbers ms :=
  List.filter_cons_of_pos (by simpa using h)

lemma under_cons_of_notMem (h : m.posting ∉ numbers) :
    under numbers (m :: ms) = under numbers ms :=
  List.filter_cons_of_neg (by simpa using h)

lemma under_eq_nil (h : ∀ m ∈ ms, m.posting ∉ numbers) : under numbers ms = [] := by
  refine List.filter_eq_nil_iff.mpr fun n hn => ?_
  obtain ⟨m, hm, rfl⟩ := List.mem_map.mp hn
  simpa using h m hm

/-- Some numbers are those of messages to one queue pair, as far as this one goes. -/
structure QueuePair.Addressed (numbers : List Nat) (b id : QpId) (q : QueuePair) : Prop where
  recvs : ∀ r ∈ q.recvs, r.posting ∉ numbers
  inbox : ∀ m ∈ q.inbox, m.posting ∈ numbers → id = b

namespace QueuePairs

variable {qps qps' : QueuePairs} {b id : QpId} {q : QueuePair}

/-- The numbers, of some, under which messages wait at a queue pair. -/
def awaited (numbers : List Nat) (qps : QueuePairs) (b : QpId) : List Nat :=
  match qps.get? b with
  | some q => under numbers q.inbox
  | none => []

lemma awaited_of_found (h : qps.get? b = some q) : awaited numbers qps b = under numbers q.inbox := by
  simp only [awaited, h]

lemma awaited_set_of_ne (qps : QueuePairs) (q : QueuePair) (hb : b ≠ id) :
    awaited numbers (qps.set id q) b = awaited numbers qps b := by
  simp only [awaited, Table.get?_set_of_ne _ _ hb]

lemma awaited_set_of_inbox {q' : QueuePair} (hq : qps.get? id = some q) (h : q'.inbox = q.inbox)
    (b : QpId) : awaited numbers (qps.set id q') b = awaited numbers qps b := by
  by_cases hb : b = id
  · subst hb
    rw [awaited_of_found hq, awaited_of_found (Table.get?_set_self _ _ _), h]
  · exact awaited_set_of_ne qps q' hb

lemma addressed_failed (q : QueuePair) : q.failed.Addressed numbers b id :=
  ⟨by simp [QueuePair.failed], by simp [QueuePair.failed]⟩

/-- All the messages under the numbers were in one inbox, so it is taken as a whole or not at
all. -/
lemma awaited_given_up (hall : qps.Every (QueuePair.Addressed numbers b)) (hq : qps.get? id = some q)
    (hself : awaited numbers qps' id = []) (hothers : ∀ j, j ≠ id → qps'.get? j = qps.get? j) :
    (under numbers q.inbox = awaited numbers qps b ∧ awaited numbers qps' b = []) ∨
      (under numbers q.inbox = [] ∧ awaited numbers qps' b = awaited numbers qps b) := by
  by_cases hb : id = b
  · subst hb
    exact Or.inl ⟨(awaited_of_found hq).symm, hself⟩
  · refine Or.inr ⟨under_eq_nil fun m hm hmem => hb ((hall id q hq).inbox m hm hmem), ?_⟩
    simp only [awaited, hothers b (Ne.symm hb)]

lemma awaited_modify_failed (hall : qps.Every (QueuePair.Addressed numbers b))
    (hq : qps.get? id = some q) :
    (under numbers q.inbox = awaited numbers qps b ∧
        awaited numbers (qps.modify id fun _ => q.failed) b = []) ∨
      (under numbers q.inbox = [] ∧
        awaited numbers (qps.modify id fun _ => q.failed) b = awaited numbers qps b) := by
  refine awaited_given_up hall hq ?_ fun j hj => by rw [Table.get?_modify, if_neg hj]
  have hfailed : (qps.modify id fun _ => q.failed).get? id = some q.failed := by
    simp [Table.get?_modify, hq]
  rw [awaited_of_found hfailed]
  rfl

lemma answered_flushes (hall : qps.Every (QueuePair.Addressed numbers b)) (hq : qps.get? id = some q)
    (out : List Report) : answered numbers (q.flushes ++ out) = answered numbers out := by
  have hnone : answered numbers q.flushes = [] := by
    refine answered_eq_nil fun report hreport => ?_
    obtain ⟨r, hr, rfl⟩ := List.mem_map.mp hreport
    exact (hall id q hq).recvs r hr
  rw [answered_append, hnone, List.nil_append]

/-- Refused messages are answered in the order in which they are refused. The inbox with the numbers
is refused as a whole, so they are all in the list or all in the inbox. -/
lemma refuse_answered (hall : qps.Every (QueuePair.Addressed numbers b)) (ms : List Message)
    (hone : under numbers ms = [] ∨ awaited numbers qps b = []) :
    answered numbers (refuse qps ms).2 ++ awaited numbers (refuse qps ms).1 b =
      under numbers ms ++ awaited numbers qps b := by
  fun_induction refuse qps ms with
  | case1 qps => rfl
  | case2 qps m rest h qps' out heq ih =>
    by_cases hm : m.posting ∈ numbers
    · rw [under_cons_of_mem hm] at hone ⊢
      have hrest := ih hall (Or.inr (hone.resolve_left (List.cons_ne_nil _ _)))
      rw [heq] at hrest
      rw [answered_cons_of_mem (by exact hm) (by simp [Message.report])]
      exact congrArg (m.posting :: ·) hrest
    · rw [under_cons_of_notMem hm] at hone ⊢
      have hrest := ih hall hone
      rw [heq] at hrest
      rw [answered_cons_of_notMem (by exact hm)]
      exact hrest
  | case3 qps m rest s h qps' out heq ih =>
    have hall' : Every (QueuePair.Addressed numbers b) (qps.modify m.sender fun _ => s.failed) :=
      hall.failed (.of_modify h) fun _ q _ => addressed_failed q
    have hgiven := awaited_modify_failed hall h
    rw [under_append, heq] at ih
    by_cases hm : m.posting ∈ numbers
    · rw [under_cons_of_mem hm] at hone ⊢
      have hnone := hone.resolve_left (List.cons_ne_nil _ _)
      rw [hnone] at hgiven ⊢
      obtain ⟨hs, hleft⟩ : under numbers s.inbox = [] ∧
          awaited numbers (qps.modify m.sender fun _ => s.failed) b = [] := hgiven.elim id id
      rw [hs, hleft] at ih
      rw [answered_cons_of_mem (by exact hm) (by simp [Message.report]), answered_flushes hall h]
      exact congrArg (m.posting :: ·) (ih hall' (Or.inr rfl))
    · rw [under_cons_of_notMem hm] at hone ⊢
      rw [answered_cons_of_notMem (by exact hm), answered_flushes hall h]
      rcases hgiven with ⟨hs, hleft⟩ | ⟨hs, hleft⟩
      · rw [hs, hleft] at ih
        rw [ih hall' (Or.inr rfl)]
        rcases hone with hnone | hnone <;> simp [hnone]
      · rw [hs, hleft, List.nil_append] at ih
        exact ih hall' hone

lemma fail_answered (hall : qps.Every (QueuePair.Addressed numbers b)) (id : QpId) :
    answered numbers (fail qps id).2 ++ awaited numbers (fail qps id).1 b = awaited numbers qps b := by
  unfold fail
  split
  · rfl
  · rename_i q h
    have hgiven := awaited_modify_failed hall h
    have hrefuse := refuse_answered (hall.failed (.of_modify h) fun _ q _ => addressed_failed q)
      q.inbox (hgiven.elim (fun h => Or.inr h.2) fun h => Or.inl h.1)
    dsimp only
    rw [answered_flushes hall h, hrefuse]
    rcases hgiven with ⟨hinbox, hleft⟩ | ⟨hinbox, hleft⟩ <;> simp [hinbox, hleft]

lemma finish_answered (hall : qps.Every (QueuePair.Addressed numbers b)) (m : Message) :
    answered numbers (finish qps m .remOpErr).2 ++ awaited numbers (finish qps m .remOpErr).1 b =
      awaited numbers qps b := by
  have hfinish : finish qps m .remOpErr =
      ((fail qps m.sender).1, m.report .remOpErr :: (fail qps m.sender).2) := by
    simp [finish, Status.isSuccess]
  rw [hfinish, answered_cons_refused rfl]
  exact fail_answered hall m.sender

lemma complete_answered (hall : qps.Every (QueuePair.Addressed numbers b)) (id : QpId)
    (hreport : report.posting ∉ numbers) :
    answered numbers (complete qps id report).2 ++ awaited numbers (complete qps id report).1 b =
      awaited numbers qps b := by
  unfold complete
  split
  · rw [answered_cons_of_notMem hreport]
    rfl
  · dsimp only
    rw [answered_cons_of_notMem hreport]
    exact fail_answered hall id

lemma drop_answered (hall : qps.Every (QueuePair.Addressed numbers b)) (id : QpId) :
    answered numbers (drop qps id).2 ++ awaited numbers (drop qps id).1 b = awaited numbers qps b := by
  unfold drop
  split
  · rfl
  · rename_i q h
    have herased : awaited numbers (qps.erase id) id = [] := by simp [awaited]
    have hgiven := awaited_given_up hall h herased fun j hj => by
      rw [Table.get?_erase, if_neg hj]
    have hrefuse := refuse_answered (hall.erase id) q.inbox
      (hgiven.elim (fun h => Or.inr h.2) fun h => Or.inl h.1)
    dsimp only
    rw [answered_flushes hall h, hrefuse]
    rcases hgiven with ⟨hinbox, hleft⟩ | ⟨hinbox, hleft⟩ <;> simp [hinbox, hleft]

end QueuePairs

namespace Device

open QueuePairs

variable {d : Device} {a b c id : QpId} {q : QueuePair} {r : Receive} {op : Operation}
  {w : SendRequest} {ops : List Operation} {p : Posting}

/-! ### One operation -/

lemma land_answered (hall : d.qps.Every (QueuePair.Addressed numbers b)) (hr : r.posting ∉ numbers)
    (id : QpId) (q : QueuePair) (m : Message) :
    (answered numbers (d.land id q m r).2 ++ awaited numbers (d.land id q m r).1.qps b).Sublist
      (under numbers [m] ++ awaited numbers d.qps b) := by
  rcases land_cases d id q m r with ⟨memory, -, hland⟩ | ⟨memory, status, -, -, hland⟩
  · rw [hland, answered_cons_of_notMem (by exact hr)]
    by_cases hm : m.posting ∈ numbers
    · rw [answered_cons_of_mem (by exact hm) (by simp [Message.report]), under_cons_of_mem hm]
      exact List.Sublist.refl _
    · rw [answered_cons_of_notMem (by exact hm), under_cons_of_notMem hm]
      exact List.Sublist.refl _
  · have hfail := fail_answered hall id
    have hfinish := finish_answered
      (hall.failed (fail_failed d.qps id) fun _ q _ => addressed_failed q) m
    rw [hland, answered_cons_of_notMem (by exact hr), answered_append, List.append_assoc]
    dsimp only
    rw [hfinish, hfail]
    exact List.sublist_append_right _ _

/-- What an operation answers, with what waits after it, is in the order of what waited before it
and what it hands over. -/
def Answers (numbers : List Nat) (b : QpId) (d : Device) (op : Operation) : Prop :=
  (answered numbers (d.pushes op) ++ awaited numbers (d.perform op).qps b).Sublist
    (awaited numbers d.qps b ++ under numbers (d.hands b op))

lemma Answers.of_eq (hhands : d.hands b op = [])
    (h : answered numbers (d.pushes op) ++ awaited numbers (d.perform op).qps b =
      awaited numbers d.qps b) : Answers numbers b d op := by
  rw [Answers, h, hhands, under_nil, List.append_nil]

lemma hands_of_sends_none (h : d.sends op = none) (b : QpId) : d.hands b op = [] := by
  simp only [hands, h]

lemma postSend_answers (hall : d.qps.Every (QueuePair.Addressed numbers b))
    (hsides : ∀ q, d.qps.get? b = some q → q.recvs = [] ∨ q.inbox = [])
    (hnew : d.nextPosting ∈ numbers → ∃ peer m, d.sends (.postSend id w) = some (b, peer, m)) :
    Answers numbers b d (.postSend id w) := by
  rcases hsends : d.sends (.postSend id w) with - | ⟨peerId, peer, m⟩
  · have hnot : d.nextPosting ∉ numbers := fun h => by
      obtain ⟨peer, m, h⟩ := hnew h
      cases hsends.symm.trans h
    refine .of_eq (hands_of_sends_none hsends b) ?_
    rcases perform_of_sends_none hsends with ⟨hqps, hout⟩ | ⟨report, hreport, hqps, hpushes⟩
    · rw [answered_eq_nil fun report hreport => by rw [hout report hreport]; exact hnot, hqps]
      rfl
    · rw [hqps, hpushes]
      exact complete_answered hall id (hreport ▸ hnot)
  · obtain ⟨_, _, q, remote, memory, hop, hq, hstate, hdispatch, -, hperform, hpushes⟩ :=
      sends_spec hsends
    cases hop
    obtain ⟨hroute, hreaches, hcarries⟩ := dispatch_message hdispatch
    have hpeer := (get?_of_route hroute).2
    have halive := alive_of_acceptsFrom hreaches
    have haddressed := hall _ _ hpeer
    -- only a message to the queue pair in question has one of the numbers
    have hother : peerId ≠ b → m.posting ∉ numbers := fun hb hmem => by
      obtain ⟨peer', m', h⟩ := hnew (hcarries.posting ▸ hmem)
      cases hsends.symm.trans h
      exact hb rfl
    have hhands : d.hands b (.postSend id w) = if peerId = b then [m] else [] := by
      by_cases hb : peerId = b <;> simp [hands, hsends, halive.1, hb]
    rw [Answers, hperform, hpushes, record_qps, hhands]
    rcases deliver_cases (d.posted memory) peerId halive m with
      ⟨hrecvs, hdeliver⟩ | ⟨r, rest, hrecvs, hdeliver⟩
    · rw [hdeliver, answered_nil, List.nil_append]
      dsimp only [posted]
      by_cases hb : peerId = b
      · subst hb
        rw [if_pos rfl, awaited_of_found hpeer, awaited_of_found (Table.get?_set_self _ _ _),
          under_append]
      · rw [if_neg hb, under_nil, List.append_nil]
        rw [awaited_set_of_ne _ _ (Ne.symm hb)]
    · have haddressed := hall _ _ hpeer
      have hall' : Every (QueuePair.Addressed numbers b)
          (d.qps.set peerId { peer with recvs := rest }) :=
        hall.set ⟨fun r hr => haddressed.recvs r (hrecvs ▸ List.mem_cons_of_mem _ hr),
          haddressed.inbox⟩
      have hland := land_answered
        (d := { d.posted memory with qps := d.qps.set peerId { peer with recvs := rest } }) hall'
        (haddressed.recvs r (hrecvs ▸ List.mem_cons_self)) peerId { peer with recvs := rest } m
      have hkeeps : awaited numbers (d.qps.set peerId { peer with recvs := rest }) b =
          awaited numbers d.qps b := awaited_set_of_inbox hpeer (by rfl) b
      rw [hdeliver]
      refine hland.trans ?_
      dsimp only
      rw [hkeeps]
      by_cases hb : peerId = b
      · subst hb
        -- a receive waits there, so no message does, and the new one is answered in its turn
        have hinbox : peer.inbox = [] := (hsides peer hpeer).resolve_left (by simp [hrecvs])
        rw [if_pos rfl, awaited_of_found hpeer, hinbox, under_nil, List.append_nil, List.nil_append]
      · rw [if_neg hb, under_cons_of_notMem (hother hb), under_nil, List.nil_append, List.append_nil]

lemma postRecv_answers (hall : d.qps.Every (QueuePair.Addressed numbers b)) {w : RecvRequest}
    (hnew : d.nextPosting ∉ numbers) : Answers numbers b d (.postRecv id w) := by
  rcases hreports : d.recvReports id w with e | ⟨d', out⟩
  · obtain ⟨hperform, hpushes⟩ := postRecv_of_error hreports
    exact .of_eq rfl (by rw [hpushes, hperform]; rfl)
  · obtain ⟨hperform, hpushes⟩ := postRecv_of_ok hreports
    obtain ⟨q, hq, ⟨-, rfl, rfl⟩ | ⟨-, -, ⟨m, rest, hinbox, hland⟩ | ⟨-, -, rfl, rfl⟩⟩⟩ :=
      recvReports_cases hreports
    · refine .of_eq rfl ?_
      rw [hpushes, hperform, answered_cons_of_notMem (by exact hnew)]
      rfl
    · have haddressed := hall _ _ hq
      have hall' : Every (QueuePair.Addressed numbers b) (d.qps.set id { q with inbox := rest }) :=
        hall.set ⟨haddressed.recvs, fun m hm =>
          haddressed.inbox m (hinbox ▸ List.mem_cons_of_mem _ hm)⟩
      have hsub := land_answered (d := d.unboxed id q rest) (r := d.receive w) hall' hnew id
        { q with inbox := rest } m
      have hhands : d.hands b (.postRecv id w) = [] := rfl
      rw [hland] at hsub
      rw [Answers, hpushes, hperform, hhands, under_nil, List.append_nil]
      refine hsub.trans ?_
      dsimp only [unboxed]
      by_cases hb : id = b
      · subst hb
        rw [awaited_of_found hq, awaited_of_found (Table.get?_set_self _ _ _), hinbox, ← under_append,
          List.singleton_append]
      · have hm : m.posting ∉ numbers := fun hmem =>
          hb (haddressed.inbox m (hinbox ▸ List.mem_cons_self) hmem)
        rw [under_cons_of_notMem hm, under_nil, List.nil_append,
          awaited_set_of_ne _ _ (Ne.symm hb)]
    · refine .of_eq rfl ?_
      rw [hpushes, hperform, answered_nil, List.nil_append]
      exact awaited_set_of_inbox hq (by rfl) b

lemma Effect.answers {d' : Device} (h : Effect d op d' out []) (hn : NamedBefore d.nextId d.qps)
    (hall : d.qps.Every (QueuePair.Addressed numbers b)) :
    answered numbers out ++ awaited numbers d'.qps b = awaited numbers d.qps b := by
  cases h with
  | quiet qps =>
    rw [qps]
    rfl
  | create q new qps =>
    rw [qps, answered_nil, List.nil_append]
    by_cases hb : b = d.nextId
    · rw [hb, awaited_of_found (Table.get?_set_self _ _ _), new.inbox]
      simp [awaited, hn.get?_eq_none]
    · exact awaited_set_of_ne _ _ hb
  | connect q found state =>
    rw [answered_nil, List.nil_append]
    exact awaited_set_of_inbox found (by rfl) b
  | drop q found => exact drop_answered hall _

lemma perform_answers (op : Operation) (hall : d.qps.Every (QueuePair.Addressed numbers b))
    (hn : NamedBefore d.nextId d.qps)
    (hsides : ∀ q, d.qps.get? b = some q → q.recvs = [] ∨ q.inbox = [])
    (hnew : d.nextPosting ∈ numbers → ∃ peer m, d.sends op = some (b, peer, m)) :
    Answers numbers b d op := by
  have heffect := perform_effect d op
  cases op with
  | postSend id w => exact postSend_answers hall hsides hnew
  | postRecv id w => exact postRecv_answers hall fun h => by obtain ⟨_, _, h⟩ := hnew h; cases h
  | addFabric | openNic | skipLids | createCq | poll | register | deregister | fill | createQp
  | connect | dropQp => exact .of_eq rfl (heffect.answers hn hall)

/-! ### Runs -/

def sentTo (a b : QpId) (ops : List Operation) : List Message :=
  (handed b ops).filter (·.sender = a)

def numbersTo (a b : QpId) (ops : List Operation) : List Nat := (sentTo a b ops).map (·.posting)

/-- The completions of the messages that one queue pair has sent to another, but for those that a
receive could not take, in the order in which they were pushed. -/
def answersTo (a b : QpId) (ops : List Operation) : List Report :=
  (own (numbersTo a b ops) (pushed ops)).filter (·.completion.status ≠ .remOpErr)

def waitingFrom (a b : QpId) (d : Device) : List Message :=
  match d.qps.get? b with
  | some q => q.inbox.filter (·.sender = a)
  | none => []

lemma handed_once {m m' : Message} (hm : m ∈ handed b ops) (hm' : m' ∈ handed c ops)
    (h : m.posting = m'.posting) : b = c := by
  have hnodup := nodup_along
    (fun d op => (d.sends op).toList.map fun s => (s.1, s.2.2.posting)) Prod.snd (fun d op => by
      rcases hsends : d.sends op with - | ⟨peerId, peer, m⟩
      · exact List.nil_sublist _
      · obtain ⟨id, w, q, remote, memory, -, -, -, hdispatch, haccepts, -⟩ := sends_spec hsends
        obtain ⟨-, -, hcarries⟩ := dispatch_message hdispatch
        simp [haccepts, sendPosting, hcarries.posting]) ops
  have hmem : ∀ {c : QpId} {m : Message}, m ∈ handed c ops → (c, m.posting) ∈
      along (fun d op => (d.sends op).toList.map fun s => (s.1, s.2.2.posting)) ops := by
    intro c m hm
    obtain ⟨s, hs, hm⟩ := (mem_along _).mp hm
    obtain ⟨peer, hsends, -⟩ := sends_of_mem_hands hm
    exact (mem_along _).mpr ⟨s, hs, by simp [hsends]⟩
  exact congrArg Prod.fst (List.inj_on_of_nodup_map hnodup (hmem hm) (hmem hm') h)

lemma mem_numbersTo (hm : m ∈ handed b ops) : m.posting ∈ numbersTo a b ops ↔ m.sender = a := by
  constructor
  · intro hmem
    obtain ⟨m', hm', hposting⟩ := List.mem_map.mp hmem
    obtain ⟨hm', hsender⟩ := List.mem_filter.mp hm'
    rw [← List.inj_on_of_nodup_map (nodup_handed b ops) hm' hm hposting]
    exact of_decide_eq_true hsender
  · exact fun hsender => List.mem_map.mpr ⟨m, List.mem_filter.mpr ⟨hm, by simpa using hsender⟩, rfl⟩

lemma under_numbersTo (hms : ms ⊆ handed b ops) :
    under (numbersTo a b ops) ms = (ms.filter (·.sender = a)).map (·.posting) := by
  rw [under, List.filter_map]
  refine congrArg _ (List.filter_congr fun m hm => ?_)
  simpa using mem_numbersTo (hms hm)

lemma handed_snoc (b : QpId) (ops : List Operation) (op : Operation) :
    handed b (ops ++ [op]) = handed b ops ++ (run ops).hands b op := along_snoc _ ops op

lemma addressed (a b : QpId) (ops : List Operation) (op : Operation) :
    (run ops).qps.Every (QueuePair.Addressed (numbersTo a b (ops ++ [op])) b) := by
  have hbalanced := balanced (ops ++ [op])
  intro id q hq
  refine ⟨fun r hr hmem => ?_, fun m hm hmem => ?_⟩
  · obtain ⟨m, hm, hposting⟩ := List.mem_map.mp hmem
    obtain ⟨sgl, op', hsend⟩ := mem_accepted_of_mem_handed (List.mem_of_mem_filter hm)
    have hrecv := ((balanced ops).backed id q hq).recvs r hr
    have hsame := hbalanced.eq_of_number hsend
      (accepted_snoc ops op ▸ List.mem_append_left _ hrecv) hposting
    cases congrArg Posting.work hsame
  · obtain ⟨m', hm', hposting⟩ := List.mem_map.mp hmem
    have hthere : m ∈ handed id (ops ++ [op]) := by
      rw [handed_snoc]
      exact List.mem_append_left _ (mem_handed_of_mem_inbox hq hm)
    exact handed_once hthere (List.mem_of_mem_filter hm') hposting.symm

lemma posting_lt (hm : m ∈ handed b ops) : m.posting < (run ops).nextPosting := by
  obtain ⟨sgl, op, hp⟩ := mem_accepted_of_mem_handed hm
  exact number_lt hp

lemma posting_of_mem_hands (h : m ∈ d.hands b op) : m.posting = d.nextPosting := by
  obtain ⟨w, q, peer, -, hposting, -⟩ := sender_of_mem_hands h
  exact hposting.symm

lemma awaited_numbersTo {ops' : List Operation} (h : handed b ops ⊆ handed b ops') :
    awaited (numbersTo a b ops') (run ops).qps b =
      (waitingFrom a b (run ops)).map (·.posting) := by
  unfold awaited waitingFrom
  split
  · rename_i q hq
    exact under_numbersTo fun m hm => h (mem_handed_of_mem_inbox hq hm)
  · rfl

lemma numbersTo_snoc (a b : QpId) (ops : List Operation) (op : Operation) :
    numbersTo a b (ops ++ [op]) =
      numbersTo a b ops ++ under (numbersTo a b (ops ++ [op])) ((run ops).hands b op) := by
  rw [under_numbersTo (by rw [handed_snoc]; exact List.subset_append_right _ _), numbersTo, sentTo,
    handed_snoc, List.filter_append, List.map_append]
  rfl

lemma answersTo_snoc (a b : QpId) (ops : List Operation) (op : Operation) :
    (answersTo a b (ops ++ [op])).map (·.posting) = (answersTo a b ops).map (·.posting) ++
      answered (numbersTo a b (ops ++ [op])) ((run ops).pushes op) := by
  have hold : own (numbersTo a b (ops ++ [op])) (pushed ops) =
      own (numbersTo a b ops) (pushed ops) := by
    refine List.filter_congr fun report hreport => ?_
    obtain ⟨p, hp, hcompleted⟩ := (balanced ops).completedBy hreport
    have hlt := number_lt hp
    rw [numbersTo_snoc, decide_eq_decide, List.mem_append, hcompleted.1]
    refine or_iff_left fun hmem => ?_
    obtain ⟨m, hm, hposting⟩ := List.mem_map.mp (List.mem_of_mem_filter hmem)
    have := posting_of_mem_hands hm
    omega
  rw [answersTo, pushed_snoc, own_append, hold, List.filter_append, List.map_append]
  rfl

lemma answers_sublist (a b : QpId) (ops : List Operation) :
    ((answersTo a b ops).map (·.posting) ++
      (waitingFrom a b (run ops)).map (·.posting)).Sublist (numbersTo a b ops) := by
  induction ops using List.reverseRecOn with
  | nil => exact List.Sublist.refl _
  | append_singleton ops op ih =>
    have hbalanced := balanced ops
    have hsub : handed b ops ⊆ handed b (ops ++ [op]) := by
      rw [handed_snoc]
      exact List.subset_append_left _ _
    have hnew : (run ops).nextPosting ∈ numbersTo a b (ops ++ [op]) →
        ∃ peer m, (run ops).sends op = some (b, peer, m) := by
      intro hmem
      rw [numbersTo_snoc] at hmem
      rcases List.mem_append.mp hmem with hmem | hmem
      · obtain ⟨m, hm, hposting⟩ := List.mem_map.mp hmem
        exact absurd (posting_lt (List.mem_of_mem_filter hm)) (by omega)
      · obtain ⟨m, hm, -⟩ := List.mem_map.mp (List.mem_of_mem_filter hmem)
        obtain ⟨peer, hsends, -⟩ := sends_of_mem_hands hm
        exact ⟨peer, m, hsends⟩
    have hstep := perform_answers op (addressed a b ops op) hbalanced.named (sides b ops) hnew
    rw [Answers, ← run_snoc, awaited_numbersTo (List.Subset.refl _), awaited_numbersTo hsub]
      at hstep
    have hall := ih.append (List.Sublist.refl
      (under (numbersTo a b (ops ++ [op])) ((run ops).hands b op)))
    rw [← numbersTo_snoc, List.append_assoc] at hall
    rw [answersTo_snoc, List.append_assoc]
    exact ((List.Sublist.refl _).append hstep).trans hall

lemma numbersTo_sublist (a b : QpId) (ops : List Operation) :
    (numbersTo a b ops).Sublist (((accepted ops).filter (·.isMessageOf a)).map (·.number)) := by
  rw [numbersTo, sentTo, handed, accepted, along, along, List.filter_flatMap, List.filter_flatMap]
  refine sublist_along (f := fun d op => (d.hands b op).filter (·.sender = a))
    (g := fun d op => (d.accepts op).filter (·.isMessageOf a)) (fun d op => ?_) ops
  rcases hhands : d.hands b op with - | ⟨m, rest⟩
  · exact List.nil_sublist _
  · have hmem : m ∈ d.hands b op := by rw [hhands]; exact List.mem_cons_self
    obtain ⟨peer, hsends, hone⟩ := sends_of_mem_hands hmem
    obtain ⟨id, w, q, remote, memory, -, -, -, hdispatch, haccepts, -⟩ := sends_spec hsends
    obtain ⟨-, -, hcarries⟩ := dispatch_message hdispatch
    rw [← hhands, hone, haccepts]
    by_cases hid : id = a <;>
      simp [Posting.isMessageOf, sendPosting, hcarries.sender, hcarries.posting, hcarries.twoSided,
        hid]

lemma sends_or_completed (hp : p ∈ d.accepts op) (hm : p.isMessageOf a) :
    (∃ c peer m, d.sends op = some (c, peer, m) ∧ peer.state ≠ .error ∧ m.posting = p.number ∧
      m.sender = a) ∨ ∃ r ∈ d.pushes op, p.CompletedBy r := by
  cases op with
  | postSend id w =>
    rcases hreports : d.sendReports id w with e | ⟨d', out⟩
    · simp [accepts, hreports] at hp
    · obtain ⟨q, hq, hcases⟩ := sendReports_cases hreports
      obtain rfl : p = d.sendPosting id q w := by simpa [accepts, hreports, hq] using hp
      rw [(postSend_of_ok hreports).2]
      rcases hcases with ⟨remote, hstate, hremote, hexecute⟩ | ⟨-, -, rfl⟩
      · rcases execute_cases d id q w remote with ⟨memory, c, peer, m, hdispatch, -⟩ |
          ⟨memory, status, len, -, hdone⟩
        · obtain ⟨-, haccepts, hcarries⟩ := dispatch_message hdispatch
          have hid : id = a := (Posting.isMessageOf_iff.mp hm).1
          refine Or.inl ⟨c, peer, m, ?_, (alive_of_acceptsFrom haccepts).1, hcarries.posting,
            hcarries.sender.trans hid⟩
          simp [sends, hreports, hq, hstate, hremote, hdispatch]
        · cases hexecute.symm.trans hdone
          exact Or.inr ⟨_, mem_complete _ _ _, rfl, rfl, rfl, rfl⟩
      · exact Or.inr ⟨_, List.mem_singleton_self _, rfl, rfl, rfl, rfl⟩
  | postRecv id w =>
    simp only [accepts] at hp
    split at hp
    · obtain ⟨q, -, rfl⟩ := List.mem_map.mp hp
      obtain ⟨-, _, _, hw, -⟩ := Posting.isMessageOf_iff.mp hm
      cases hw
    · cases hp
  | _ => cases hp

lemma waits_or_answered (hm : m ∈ sentTo a b ops) :
    m ∈ waitingFrom a b (run ops) ∨ ∃ r ∈ pushed ops, r.posting = m.posting ∧
      (r ∈ answersTo a b ops ∨ r.completion.status = .remOpErr) := by
  have hbalanced := balanced ops
  have hhanded := List.mem_of_mem_filter hm
  obtain ⟨sgl, op, hp⟩ := mem_accepted_of_mem_handed hhanded
  rcases hbalanced.waits_or_completed hp with ⟨place, hplaces, hwaits, -⟩ | ⟨-, r, hreports, -⟩
  · have hplace : place ∈ (run ops).places := by
      have hmem : place ∈ (run ops).placesOf _ := hplaces ▸ List.mem_singleton_self place
      exact List.mem_of_mem_filter hmem
    obtain ⟨id, q, hq, hthere⟩ := mem_places hbalanced.unique hplace
    rcases List.mem_append.mp hthere with hthere | hthere
    · obtain ⟨r, -, rfl⟩ := List.mem_map.mp hthere
      exact hwaits.elim
    · obtain ⟨m', hm', rfl⟩ := List.mem_map.mp hthere
      have hposting : m'.posting = m.posting := hwaits.2.1
      have hhanded' := mem_handed_of_mem_inbox hq hm'
      obtain rfl := handed_once hhanded' hhanded hposting
      obtain rfl := List.inj_on_of_nodup_map (nodup_handed id ops) hhanded' hhanded hposting
      refine Or.inl ?_
      simp only [waitingFrom, hq]
      exact List.mem_filter.mpr ⟨hm', (List.mem_filter.mp hm).2⟩
  · have hr : r ∈ reportsOf ops _ := hreports ▸ List.mem_singleton_self r
    obtain ⟨hpushed, hposting⟩ := List.mem_filter.mp hr
    have hposting : r.posting = m.posting := of_decide_eq_true hposting
    refine Or.inr ⟨r, hpushed, hposting, ?_⟩
    by_cases hstatus : r.completion.status = .remOpErr
    · exact Or.inr hstatus
    · have hnumber : r.posting ∈ numbersTo a b ops := hposting ▸ List.mem_map_of_mem hm
      exact Or.inl (List.mem_filter.mpr
        ⟨List.mem_filter.mpr ⟨hpushed, by simpa using hnumber⟩, by simpa using hstatus⟩)

/-- **Messages are answered in order.** What one queue pair has sent to another is answered in the
order in which it was posted, each on the ring for its sends, and what is answered comes before what
still waits; the answer that a receive could not take the message is left out. Every request that
takes a receive of the peer goes to one queue pair, or is completed while it is posted. -/
theorem messages_answered_in_order (a b : QpId) (ops : List Operation) :
    ((accepted ops).map (·.number)).Pairwise (· < ·) ∧
    ((answersTo a b ops).map (·.posting) ++ (waitingFrom a b (run ops)).map (·.posting)).Sublist
      (((accepted ops).filter (·.isMessageOf a)).map (·.number)) ∧
    (∀ r ∈ answersTo a b ops, ∃ p ∈ accepted ops, p.isMessageOf a ∧ p.CompletedBy r ∧
      ∀ q, (run ops).qps.get? a = some q → r.cq = q.sendCq) ∧
    (∀ m ∈ sentTo a b ops, m ∈ waitingFrom a b (run ops) ∨ ∃ r ∈ pushed ops,
      r.posting = m.posting ∧ (r ∈ answersTo a b ops ∨ r.completion.status = .remOpErr)) ∧
    ∀ p ∈ accepted ops, p.isMessageOf a → (∃! c, p.number ∈ numbersTo a c ops) ∨
      ∃ s ∈ steps {} ops, p ∈ s.1.accepts s.2 ∧ ∃ r ∈ s.1.pushes s.2, p.CompletedBy r := by
  have hbalanced := balanced ops
  refine ⟨?_, (answers_sublist a b ops).trans (numbersTo_sublist a b ops), fun r hr => ?_,
    fun m hm => waits_or_answered hm, fun p hp hm => ?_⟩
  · rw [hbalanced.numbers]
    exact List.pairwise_lt_range
  · obtain ⟨hown, -⟩ := List.mem_filter.mp hr
    obtain ⟨hpushed, hnumber⟩ := List.mem_filter.mp hown
    obtain ⟨p, hp, hmine⟩ := List.mem_map.mp
      ((numbersTo_sublist a b ops).subset (of_decide_eq_true hnumber))
    obtain ⟨hp, hmessage⟩ := List.mem_filter.mp hp
    obtain ⟨p', hp', hcompleted⟩ := hbalanced.completedBy hpushed
    obtain rfl := hbalanced.eq_of_number hp hp' (hmine.trans hcompleted.1)
    obtain ⟨ha, sgl, op, hw, -⟩ := Posting.isMessageOf_iff.mp hmessage
    refine ⟨p, hp, hmessage, hcompleted, fun q hq => ?_⟩
    rw [hcompleted.2.1, cq_of_mem_accepted hp (ha ▸ hq), hw]
    rfl
  · obtain ⟨s, hs, hacc⟩ := (mem_along _).mp hp
    rcases sends_or_completed hacc hm with ⟨c, peer, m, hsends, halive, hposting, hsender⟩ | hdone
    · have hm : m ∈ handed c ops := (mem_along _).mpr ⟨s, hs, by simp [hands, hsends, halive]⟩
      refine Or.inl ⟨c, hposting ▸ (mem_numbersTo hm).mpr hsender, fun c' hc' => ?_⟩
      obtain ⟨m', hm', hposting'⟩ := List.mem_map.mp hc'
      exact handed_once (List.mem_of_mem_filter hm') hm (hposting'.trans hposting.symm)
    · exact Or.inr ⟨s, hs, hacc, hdone⟩

/-- The completions of the requests of a queue pair that take a receive of the peer, in the order in
which they were pushed. -/
def messageCompletions (a : QpId) (ops : List Operation) : List Report :=
  own (((accepted ops).filter (·.isMessageOf a)).map (·.number)) (pushed ops)

/-- While a message waits, the next one fails for its windows and the one after it is flushed. -/
def overtaken : List Operation :=
  [.addFabric, .openNic 0 {}, .createCq {} 8, .createQp ⟨1, some 2, some 2, {}, 0⟩,
    .createQp ⟨1, some 2, some 2, {}, 0⟩, .connect 3 ⟨1, 2, 0⟩, .connect 4 ⟨1, 1, 0⟩,
    .postSend 3 ⟨10, [], .send none⟩, .postSend 3 ⟨11, [⟨⟨0, 0, by decide⟩, 9⟩], .send none⟩,
    .postSend 3 ⟨12, [], .send none⟩, .postRecv 4 ⟨13, []⟩]

theorem messages_answered_in_order_overtaken :
    ∃ r, answersTo 3 4 overtaken = [r] ∧ ∃ p ∈ accepted overtaken, p.isMessageOf 3 ∧
      p.CompletedBy r ∧ ∀ q, (run overtaken).qps.get? 3 = some q → r.cq = q.sendCq := by
  have hlength : (answersTo 3 4 overtaken).length = 1 := by cbv
  obtain ⟨r, hr⟩ := List.length_eq_one_iff.mp hlength
  have hmem : r ∈ answersTo 3 4 overtaken := hr ▸ List.mem_singleton_self r
  exact ⟨r, hr, (messages_answered_in_order 3 4 overtaken).2.2.1 r hmem⟩

def rerouted : List Operation :=
  [.addFabric, .openNic 0 {}, .createCq {} 8, .createQp ⟨1, some 2, some 2, {}, 0⟩,
    .createQp ⟨1, some 2, some 2, {}, 0⟩, .connect 3 ⟨1, 2, 0⟩, .connect 4 ⟨1, 1, 0⟩,
    .postSend 3 ⟨10, [], .send none⟩, .skipLids 0 65535, .openNic 0 {},
    .createQp ⟨5, some 2, some 2, {}, 0⟩, .createQp ⟨5, some 2, some 2, {}, 0⟩,
    .connect 7 ⟨1, 1, 0⟩, .postRecv 7 ⟨11, []⟩, .postSend 3 ⟨12, [], .send none⟩,
    .postRecv 4 ⟨13, []⟩]

/-- The completions of all messages of a queue pair are not in the order in which they were posted,
and not even where all of them succeed. -/
theorem messages_overtaken :
    ¬ ((messageCompletions 3 overtaken).map (·.posting)).Pairwise (· < ·) ∧
    ¬ ((messageCompletions 3 rerouted).map (·.posting)).Pairwise (· < ·) ∧
    ∀ report ∈ messageCompletions 3 rerouted, report.completion.status = .success := by
  have hovertaken : (messageCompletions 3 overtaken).map (·.posting) = [1, 2, 0] := by cbv
  have hrerouted : (messageCompletions 3 rerouted).map (·.posting) = [2, 0] := by cbv
  have hstatus : (messageCompletions 3 rerouted).map (·.completion.status) =
      [.success, .success] := by cbv
  rw [hovertaken, hrerouted]
  refine ⟨by decide, by decide, fun report hreport => ?_⟩
  have hmem : report.completion.status ∈ [Status.success, .success] :=
    hstatus ▸ List.mem_map_of_mem hreport
  simpa using hmem

end Device

end Verbs
