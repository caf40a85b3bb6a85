import Mathlib.Tactic
import Verbs.Proofs.Device.Matching

/-!
The completions of the receives of one queue pair. They are pushed in the order in which the
receives were accepted: a receive that meets a message is the oldest one, and those that are given
up go all together, with nothing after them that waits.
-/

namespace Verbs

def own (numbers : List Nat) (out : List Report) : List Report :=
  out.filter fun r => r.posting ∈ numbers

@[simp] lemma own_nil (numbers : List Nat) : own numbers [] = [] := rfl

lemma own_append (numbers : List Nat) (out out' : List Report) :
    own numbers (out ++ out') = own numbers out ++ own numbers out' :=
  List.filter_append ..

variable {numbers : List Nat} {report : Report} {out : List Report}

lemma own_cons_of_mem (h : report.posting ∈ numbers) :
    own numbers (report :: out) = report :: own numbers out :=
  List.filter_cons_of_pos (by simpa using h)

lemma own_cons_of_notMem (h : report.posting ∉ numbers) :
    own numbers (report :: out) = own numbers out :=
  List.filter_cons_of_neg (by simpa using h)

/-- Some numbers are those of the receives of one queue pair, as far as this one goes. -/
structure QueuePair.Apart (numbers : List Nat) (b id : QpId) (q : QueuePair) : Prop where
  recvs : ∀ r ∈ q.recvs, r.posting ∈ numbers ↔ id = b
  inbox : ∀ m ∈ q.inbox, m.posting ∉ numbers

def Posting.isReceiveOf (b : QpId) (p : Posting) : Bool :=
  p.qp = b && match p.work with
    | .recv _ => true
    | .send _ _ => false

namespace QueuePairs

variable {qps : QueuePairs} {b id : QpId} {q : QueuePair} {m : Message}

/-- The completions of the receives that wait at a queue pair, should it give them up. -/
def flushesOf (qps : QueuePairs) (b : QpId) : List Report :=
  match qps.get? b with
  | some q => q.flushes
  | none => []

lemma flushesOf_of_found (h : qps.get? b = some q) : qps.flushesOf b = q.flushes := by
  simp only [flushesOf, h]

lemma flushesOf_set_of_ne (qps : QueuePairs) (q : QueuePair) (hb : b ≠ id) :
    flushesOf (qps.set id q) b = flushesOf qps b := by
  simp only [flushesOf, Table.get?_set_of_ne _ _ hb]

lemma own_flushes (h : q.Apart numbers b id) :
    own numbers q.flushes = if id = b then q.flushes else [] := by
  by_cases hb : id = b
  · rw [if_pos hb]
    refine List.filter_eq_self.mpr fun report hreport => ?_
    obtain ⟨r, hr, rfl⟩ := List.mem_map.mp hreport
    simpa using (h.recvs r hr).mpr hb
  · rw [if_neg hb]
    refine List.filter_eq_nil_iff.mpr fun report hreport => ?_
    obtain ⟨r, hr, rfl⟩ := List.mem_map.mp hreport
    simpa using fun hmem => hb ((h.recvs r hr).mp hmem)

lemma own_modify_failed (hall : qps.Every (QueuePair.Apart numbers b)) (hq : qps.get? id = some q) :
    own numbers q.flushes ++ flushesOf (qps.modify id fun _ => q.failed) b = flushesOf qps b := by
  rw [own_flushes (hall id q hq)]
  by_cases hb : id = b
  · subst hb
    rw [if_pos rfl, flushesOf_of_found hq]
    simp [flushesOf, Table.get?_modify, hq, QueuePair.failed, QueuePair.flushes]
  · rw [if_neg hb, List.nil_append]
    simp only [flushesOf, Table.get?_modify, if_neg (Ne.symm hb)]

lemma apart_failed (q : QueuePair) : q.failed.Apart numbers b id :=
  ⟨by simp [QueuePair.failed], by simp [QueuePair.failed]⟩

lemma refuse_own (hall : qps.Every (QueuePair.Apart numbers b)) (ms : List Message)
    (hms : ∀ m ∈ ms, m.posting ∉ numbers) :
    own numbers (refuse qps ms).2 ++ flushesOf (refuse qps ms).1 b = flushesOf qps b := by
  fun_induction refuse qps ms with
  | case1 qps => rfl
  | case2 qps m rest h qps' out heq ih =>
    have hrest := ih hall fun m hm => hms m (List.mem_cons_of_mem _ hm)
    rw [heq] at hrest
    rw [own_cons_of_notMem (by exact hms m List.mem_cons_self)]
    exact hrest
  | case3 qps m rest s h qps' out heq ih =>
    have hrest := ih (hall.failed (.of_modify h) fun _ q _ => apart_failed q) fun n hn => by
      rcases List.mem_append.mp hn with hn | hn
      · exact (hall _ _ h).inbox n hn
      · exact hms n (List.mem_cons_of_mem _ hn)
    rw [heq] at hrest
    rw [own_cons_of_notMem (by exact hms m List.mem_cons_self), own_append, List.append_assoc,
      hrest, own_modify_failed hall h]

lemma fail_own (hall : qps.Every (QueuePair.Apart numbers b)) (id : QpId) :
    own numbers (fail qps id).2 ++ flushesOf (fail qps id).1 b = flushesOf qps b := by
  unfold fail
  split
  · rfl
  · rename_i q h
    have hrefuse := refuse_own (hall.failed (.of_modify h) fun _ q _ => apart_failed q) q.inbox
      (hall _ _ h).inbox
    simp only [own_append, List.append_assoc]
    rw [hrefuse, own_modify_failed hall h]

lemma finish_own (hall : qps.Every (QueuePair.Apart numbers b)) (hm : m.posting ∉ numbers)
    (s : Status) :
    own numbers (finish qps m s).2 ++ flushesOf (finish qps m s).1 b = flushesOf qps b := by
  have hreport : (m.report s).posting ∉ numbers := hm
  unfold finish
  split
  · rw [own_cons_of_notMem hreport]
    rfl
  · simp only [own_cons_of_notMem hreport]
    exact fail_own hall m.sender

lemma complete_own (hall : qps.Every (QueuePair.Apart numbers b)) (id : QpId)
    (hreport : report.posting ∉ numbers) :
    own numbers (complete qps id report).2 ++ flushesOf (complete qps id report).1 b =
      flushesOf qps b := by
  unfold complete
  split
  · rw [own_cons_of_notMem hreport]
    rfl
  · simp only [own_cons_of_notMem hreport]
    exact fail_own hall id

lemma drop_own (hall : qps.Every (QueuePair.Apart numbers b)) (id : QpId) :
    own numbers (drop qps id).2 ++ flushesOf (drop qps id).1 b = flushesOf qps b := by
  unfold drop
  split
  · rfl
  · rename_i q h
    have hrefuse := refuse_own (hall.erase id) q.inbox (hall _ _ h).inbox
    simp only [own_append, List.append_assoc]
    rw [hrefuse, own_flushes (hall _ _ h)]
    by_cases hb : id = b
    · subst hb
      simp [flushesOf, h]
    · simp [hb, flushesOf, Table.get?_erase, Ne.symm hb]

end QueuePairs

namespace Device

variable {d : Device} {b id : QpId} {q : QueuePair} {m : Message} {r : Receive} {op : Operation}

/-! ### One operation -/

def newReceives (b : QpId) (d : Device) (op : Operation) : List Nat :=
  ((d.accepts op).filter (·.isReceiveOf b)).map (·.number)

/-- What is told of the receives of a queue pair while those that wait change from `before` to
`after`: the oldest come first, behind all of them those that are new, and each is given up or has
met a message. -/
structure Told (before after own : List Report) (new : List Nat) (met : List Nat) : Prop where
  order : own.map (·.posting) ++ after.map (·.posting) = before.map (·.posting) ++ new
  outcome : ∀ report ∈ own, report.completion.status = .wrFlushErr ∨ report.posting ∈ met

lemma Told.of_append {before after own : List Report} {met : List Nat}
    (h : own ++ after = before)
    (hbefore : ∀ report ∈ before, report.completion.status = .wrFlushErr) :
    Told before after own [] met where
  order := by rw [← h, List.map_append, List.append_nil]
  outcome report hreport :=
    Or.inl (hbefore report (by rw [← h]; exact List.mem_append_left _ hreport))

lemma status_of_mem_flushesOf {qps : QueuePairs} (h : report ∈ qps.flushesOf b) :
    report.completion.status = .wrFlushErr := by
  unfold QueuePairs.flushesOf at h
  split at h
  · obtain ⟨r, -, rfl⟩ := List.mem_map.mp h
    rfl
  · cases h

lemma land_told (hall : d.qps.Every (QueuePair.Apart numbers b)) (hm : m.posting ∉ numbers)
    (hr : r.posting ∈ numbers ↔ id = b) (q : QueuePair) :
    ∃ status, own numbers (d.land id q m r).2 ++ (d.land id q m r).1.qps.flushesOf b =
      (if id = b then [r.report q.recvCq m status] else []) ++ d.qps.flushesOf b := by
  have hcons : ∀ status out, own numbers (r.report q.recvCq m status :: out) =
      (if id = b then [r.report q.recvCq m status] else []) ++ own numbers out := by
    intro status out
    by_cases hb : id = b
    · rw [if_pos hb, own_cons_of_mem (by exact hr.mpr hb)]
      rfl
    · rw [if_neg hb, own_cons_of_notMem (by exact fun h => hb (hr.mp h))]
      rfl
  rcases land_cases d id q m r with ⟨memory, -, hland⟩ | ⟨memory, status, -, -, hland⟩
  · refine ⟨.success, ?_⟩
    rw [hland, hcons, own_cons_of_notMem (by exact hm), own_nil, List.append_nil]
  · refine ⟨status, ?_⟩
    have hfail := QueuePairs.fail_own hall id
    have hfinish := QueuePairs.finish_own
      (hall.failed (QueuePairs.fail_failed d.qps id) fun _ q _ => QueuePairs.apart_failed q)
      hm .remOpErr
    rw [hland, hcons, own_append]
    simp only [List.append_assoc]
    rw [hfinish, hfail]

lemma Told.of_land {before after own rest : List Report} {new met : List Nat}
    (h : own ++ after = report :: rest)
    (hrest : ∀ report ∈ rest, report.completion.status = .wrFlushErr) (hmet : report.posting ∈ met)
    (hbefore : before.map (·.posting) ++ new = report.posting :: rest.map (·.posting)) :
    Told before after own new met where
  order := by rw [← List.map_append, h, hbefore, List.map_cons]
  outcome report' hreport := by
    have hmem : report' ∈ report :: rest := by
      rw [← h]
      exact List.mem_append_left _ hreport
    rcases List.mem_cons.mp hmem with rfl | hmem
    · exact Or.inr hmet
    · exact Or.inl (hrest report' hmem)

lemma newReceives_postSend (b : QpId) (d : Device) (id : QpId) (w : SendRequest) :
    newReceives b d (.postSend id w) = [] := by
  simp only [newReceives, accepts]
  split
  · rcases d.qps.get? id with - | q <;> simp [Posting.isReceiveOf, sendPosting]
  · rfl

lemma postSend_told (hall : d.qps.Every (QueuePair.Apart numbers b)) {w : SendRequest}
    (hnew : d.nextPosting ∉ numbers) :
    Told (d.qps.flushesOf b) ((d.perform (.postSend id w)).qps.flushesOf b)
      (own numbers (d.pushes (.postSend id w))) []
      ((d.landings b (.postSend id w)).map (·.2.posting)) := by
  rcases hsends : d.sends (.postSend id w) with - | ⟨peerId, peer, m⟩
  · rcases perform_of_sends_none hsends with ⟨hqps, hout⟩ | ⟨report, hreport, hqps, hpushes⟩
    · have hown : own numbers (d.pushes (.postSend id w)) = [] :=
        List.filter_eq_nil_iff.mpr fun r hr => by simpa [hout r hr] using hnew
      refine .of_append ?_ fun _ => status_of_mem_flushesOf
      rw [hown, hqps, List.nil_append]
    · refine .of_append ?_ fun _ => status_of_mem_flushesOf
      rw [hqps, hpushes]
      exact QueuePairs.complete_own hall id (hreport ▸ hnew)
  · obtain ⟨_, _, q, remote, memory, hop, hq, hstate, hdispatch, -, hperform, hpushes⟩ :=
      sends_spec hsends
    cases hop
    obtain ⟨hroute, hreaches, hcarries⟩ := dispatch_message hdispatch
    have hpeer := (get?_of_route hroute).2
    have hm : m.posting ∉ numbers := hcarries.posting ▸ hnew
    have halive := alive_of_acceptsFrom hreaches
    rw [hperform, hpushes, record_qps]
    rcases deliver_cases (d.posted memory) peerId halive m with
      ⟨hrecvs, hdeliver⟩ | ⟨r, rest, hrecvs, hdeliver⟩
    · refine .of_append ?_ fun _ => status_of_mem_flushesOf
      rw [hdeliver, own_nil, List.nil_append]
      by_cases hb : b = peerId
      · subst hb
        rw [QueuePairs.flushesOf_of_found hpeer,
          QueuePairs.flushesOf_of_found (Table.get?_set_self _ _ _)]
        rfl
      · exact QueuePairs.flushesOf_set_of_ne _ _ hb
    · -- the message takes the oldest receive; all the others wait on behind it
      have hapart := hall _ _ hpeer
      have hall' : QueuePairs.Every (QueuePair.Apart numbers b)
          (d.qps.set peerId { peer with recvs := rest }) :=
        hall.set ⟨fun r hr => hapart.recvs r (hrecvs ▸ List.mem_cons_of_mem _ hr), hapart.inbox⟩
      obtain ⟨status, htold⟩ := land_told
        (d := { d.posted memory with qps := d.qps.set peerId { peer with recvs := rest } })
        (r := r) hall' hm (hapart.recvs r (hrecvs ▸ List.mem_cons_self)) { peer with recvs := rest }
      rw [hdeliver]
      by_cases hb : peerId = b
      · subst hb
        have hlandings : d.landings peerId (.postSend id w) = [(m, r)] := by
          simp [landings_of_sends hsends hpeer halive.1, hrecvs]
        rw [if_pos rfl] at htold
        refine .of_land htold (fun _ => status_of_mem_flushesOf) ?_ ?_
        · rw [hlandings]
          exact List.mem_singleton_self _
        · rw [List.append_nil, QueuePairs.flushesOf_of_found hpeer,
            QueuePairs.flushesOf_of_found (Table.get?_set_self _ _ _)]
          simp [QueuePair.flushes, hrecvs, Receive.report]
      · rw [if_neg hb, List.nil_append] at htold
        refine .of_append ?_ fun _ => status_of_mem_flushesOf
        exact htold.trans (QueuePairs.flushesOf_set_of_ne _ _ (Ne.symm hb))

lemma recv_land_told (hall : d.qps.Every (QueuePair.Apart numbers b))
    (hp : d.qps.Every fun _ q => q.Proper)
    (hsides : ∀ q, d.qps.get? b = some q → q.recvs = [] ∨ q.inbox = []) {w : RecvRequest}
    {d' : Device} {q : QueuePair} {rest : List Message} (hq : d.qps.get? id = some q)
    (hreports : d.recvReports id w = .ok (d', out)) (hcan : q.state.canPostRecv)
    (halive : q.state ≠ .error) (hinbox : q.inbox = m :: rest)
    (hland : (d.unboxed id q rest).land id { q with inbox := rest } m (d.receive w) = (d', out))
    (hmine : d.nextPosting ∈ numbers ↔ id = b) :
    Told (d.qps.flushesOf b) (d'.qps.flushesOf b) (own numbers out)
      (if id = b then [d.nextPosting] else [])
      ((d.landings b (.postRecv id w)).map (·.2.posting)) := by
  have hapart := hall _ _ hq
  have hall' : QueuePairs.Every (QueuePair.Apart numbers b)
      (d.qps.set id { q with inbox := rest }) :=
    hall.set ⟨hapart.recvs, fun n hn => hapart.inbox n (hinbox ▸ List.mem_cons_of_mem _ hn)⟩
  obtain ⟨status, htold⟩ := land_told (d := d.unboxed id q rest) (r := d.receive w) hall'
    (hapart.inbox m (hinbox ▸ List.mem_cons_self)) hmine { q with inbox := rest }
  rw [hland] at htold
  by_cases hb : id = b
  · subst hb
    have hrecvs : q.recvs = [] := by
      rcases hsides q hq with h | h
      · exact h
      · rw [hinbox] at h
        cases h
    have hrts := (hp _ _ hq).rts hcan halive
    have hlandings : d.landings id (.postRecv id w) = [(m, d.receive w)] := by
      simp [landings_of_recvReports hreports hq hrts, hinbox]
    have hnone : (d.unboxed id q rest).qps.flushesOf id = [] := by
      have hfound : (d.unboxed id q rest).qps.get? id = some { q with inbox := rest } :=
        Table.get?_set_self _ _ _
      simp [QueuePairs.flushesOf_of_found hfound, QueuePair.flushes, hrecvs]
    rw [if_pos rfl, hnone, List.append_nil] at htold
    rw [if_pos rfl]
    refine .of_land htold (fun _ h => by cases h) ?_ ?_
    · rw [hlandings]
      exact List.mem_singleton_self _
    · rw [QueuePairs.flushesOf_of_found hq, QueuePair.flushes, hrecvs]
      rfl
  · rw [if_neg hb, List.nil_append] at htold
    rw [if_neg hb]
    refine .of_append ?_ fun _ => status_of_mem_flushesOf
    exact htold.trans (QueuePairs.flushesOf_set_of_ne _ _ (Ne.symm hb))

lemma postRecv_told (hall : d.qps.Every (QueuePair.Apart numbers b))
    (hp : d.qps.Every fun _ q => q.Proper)
    (hsides : ∀ q, d.qps.get? b = some q → q.recvs = [] ∨ q.inbox = []) {w : RecvRequest}
    (hnew : d.nextPosting ∈ numbers ↔ d.nextPosting ∈ newReceives b d (.postRecv id w)) :
    Told (d.qps.flushesOf b) ((d.perform (.postRecv id w)).qps.flushesOf b)
      (own numbers (d.pushes (.postRecv id w))) (newReceives b d (.postRecv id w))
      ((d.landings b (.postRecv id w)).map (·.2.posting)) := by
  rcases hreports : d.recvReports id w with e | ⟨d', out⟩
  · have hnone : newReceives b d (.postRecv id w) = [] := by simp [newReceives, accepts, hreports]
    obtain ⟨hperform, hpushes⟩ := postRecv_of_error hreports
    rw [hnone, hpushes, hperform]
    exact .of_append rfl fun _ => status_of_mem_flushesOf
  · obtain ⟨hperform, hpushes⟩ := postRecv_of_ok hreports
    obtain ⟨q, hq, hcases⟩ := recvReports_cases hreports
    have haccepts : d.accepts (.postRecv id w) = [d.recvPosting id q w] := by
      simp [accepts, hreports, hq]
    have hnewReceives : newReceives b d (.postRecv id w) =
        if id = b then [d.nextPosting] else [] := by
      rw [newReceives, haccepts]
      by_cases hb : id = b <;> simp [Posting.isReceiveOf, recvPosting, hb]
    have hmine : d.nextPosting ∈ numbers ↔ id = b := by
      rw [hnew, hnewReceives]
      by_cases hb : id = b <;> simp [hb]
    rw [hpushes, hperform, record_qps, hnewReceives]
    rcases hcases with ⟨hstate, rfl, rfl⟩ | ⟨hcan, halive, ⟨m, rest, hinbox, hland⟩ |
      ⟨hinbox, -, rfl, rfl⟩⟩
    · by_cases hb : id = b
      · subst hb
        have hnone : d.qps.flushesOf id = [] := by
          rw [QueuePairs.flushesOf_of_found hq, QueuePair.flushes, (hp _ _ hq).recvs hstate]
          rfl
        rw [if_pos rfl, own_cons_of_mem (by exact hmine.mpr rfl), own_nil]
        refine ⟨?_, fun report hreport => ?_⟩
        · simp [hnone]
        · rw [List.mem_singleton.mp hreport]
          exact Or.inl rfl
      · rw [if_neg hb, own_cons_of_notMem (by exact fun h => hb (hmine.mp h))]
        exact .of_append rfl fun _ => status_of_mem_flushesOf
    · exact recv_land_told hall hp hsides hq hreports hcan halive hinbox hland hmine
    · by_cases hb : id = b
      · subst hb
        rw [if_pos rfl, QueuePairs.flushesOf_of_found hq,
          QueuePairs.flushesOf_of_found (Table.get?_set_self _ _ _)]
        exact ⟨by simp [QueuePair.flushes, receive], fun _ h => by cases h⟩
      · rw [if_neg hb]
        refine .of_append ?_ fun _ => status_of_mem_flushesOf
        exact QueuePairs.flushesOf_set_of_ne _ _ (Ne.symm hb)

lemma Effect.told {d' : Device} (h : Effect d op d' out []) (hn : NamedBefore d.nextId d.qps)
    (hall : d.qps.Every (QueuePair.Apart numbers b)) :
    own numbers out ++ d'.qps.flushesOf b = d.qps.flushesOf b := by
  cases h with
  | quiet qps =>
    rw [qps]
    rfl
  | create q new qps =>
    rw [qps, own_nil, List.nil_append]
    by_cases hb : b = d.nextId
    · rw [hb, QueuePairs.flushesOf_of_found (Table.get?_set_self _ _ _)]
      simp [QueuePairs.flushesOf, hn.get?_eq_none, QueuePair.flushes, new.recvs]
    · exact QueuePairs.flushesOf_set_of_ne _ _ hb
  | @connect id peer q found state =>
    rw [own_nil, List.nil_append]
    by_cases hb : b = id
    · subst hb
      rw [QueuePairs.flushesOf_of_found found,
        QueuePairs.flushesOf_of_found (Table.get?_set_self _ _ _)]
      rfl
    · exact QueuePairs.flushesOf_set_of_ne _ _ hb
  | @drop id q found => exact QueuePairs.drop_own hall id

lemma perform_told (op : Operation) (hall : d.qps.Every (QueuePair.Apart numbers b))
    (hn : NamedBefore d.nextId d.qps) (hp : d.qps.Every fun _ q => q.Proper)
    (hsides : ∀ q, d.qps.get? b = some q → q.recvs = [] ∨ q.inbox = [])
    (hnew : d.nextPosting ∈ numbers ↔ d.nextPosting ∈ newReceives b d op) :
    Told (d.qps.flushesOf b) ((d.perform op).qps.flushesOf b) (own numbers (d.pushes op))
      (newReceives b d op) ((d.landings b op).map (·.2.posting)) := by
  have heffect := perform_effect d op
  cases op with
  | postSend id w =>
    rw [newReceives_postSend] at hnew ⊢
    exact postSend_told hall fun h => by cases hnew.mp h
  | postRecv id w => exact postRecv_told hall hp hsides hnew
  | addFabric | openNic | skipLids | createCq | poll | register | deregister | fill | createQp
  | connect | dropQp => exact .of_append (heffect.told hn hall) fun _ => status_of_mem_flushesOf

/-! ### Runs -/

def receivesOf (b : QpId) (ops : List Operation) : List Posting :=
  (accepted ops).filter (·.isReceiveOf b)

/-- The completions that were pushed for the receives of a queue pair, in order. -/
def completionsOf (b : QpId) (ops : List Operation) : List Report :=
  own ((receivesOf b ops).map (·.number)) (pushed ops)

lemma Told.trans {x y z own own' : List Report} {new new' met met' : List Nat}
    (h : Told x y own new met) (h' : Told y z own' new' met') :
    Told x z (own ++ own') (new ++ new') (met ++ met') where
  order := by rw [List.map_append, List.append_assoc, h'.order, ← List.append_assoc, h.order,
    List.append_assoc]
  outcome report hreport := by
    rcases List.mem_append.mp hreport with hreport | hreport
    · exact (h.outcome report hreport).imp_right (List.mem_append_left _)
    · exact (h'.outcome report hreport).imp_right (List.mem_append_right _)

variable {ops : List Operation}

lemma receivesOf_snoc (b : QpId) (ops : List Operation) (op : Operation) :
    (receivesOf b (ops ++ [op])).map (·.number) =
      (receivesOf b ops).map (·.number) ++ newReceives b (run ops) op := by
  rw [receivesOf, accepted_snoc, List.filter_append, List.map_append]
  rfl

lemma apart (b : QpId) (ops : List Operation) (op : Operation) :
    (run ops).qps.Every (QueuePair.Apart ((receivesOf b (ops ++ [op])).map (·.number)) b) := by
  have hbalanced := balanced (ops ++ [op])
  have hsub : accepted ops ⊆ accepted (ops ++ [op]) := by
    rw [accepted_snoc]
    exact List.subset_append_left _ _
  intro id q hq
  have hbacked := ((balanced ops).backed id q hq).mono hsub
  refine ⟨fun r hr => ⟨fun hmem => ?_, ?_⟩, fun m hm hmem => ?_⟩
  · obtain ⟨p, hp, hnumber⟩ := List.mem_map.mp hmem
    obtain ⟨hp, hreceive⟩ := List.mem_filter.mp hp
    have hsame := hbalanced.eq_of_number hp (hbacked.recvs r hr) hnumber
    simp only [Posting.isReceiveOf, Bool.and_eq_true, decide_eq_true_eq] at hreceive
    rw [← hreceive.1, hsame]
  · rintro rfl
    exact List.mem_map.mpr ⟨_, List.mem_filter.mpr ⟨hbacked.recvs r hr, by
      simp [Posting.isReceiveOf]⟩, rfl⟩
  · obtain ⟨p, hp, hnumber⟩ := List.mem_map.mp hmem
    obtain ⟨hp, hreceive⟩ := List.mem_filter.mp hp
    obtain ⟨sgl, sendOp, -, -, hpost⟩ := hbacked.inbox m hm
    have hsame := hbalanced.eq_of_number hp hpost hnumber
    rw [hsame] at hreceive
    simp [Posting.isReceiveOf] at hreceive

lemma sides (b : QpId) (ops : List Operation) (q : QueuePair) (hq : (run ops).qps.get? b = some q) :
    q.recvs = [] ∨ q.inbox = [] := by
  by_cases hstate : q.state = .error
  · exact Or.inl ((proper ops b q hq).recvs hstate)
  · have horder := inOrder b ops
    have hlive := live_of_found hq hstate
    rcases le_total (received b ops).length (handed b ops).length with h | h
    · exact Or.inl ((horder.recvs _ _ hlive).trans (List.drop_eq_nil_of_le h))
    · exact Or.inr ((horder.inbox _ _ hlive).trans (List.drop_eq_nil_of_le h))

lemma number_lt {p : Posting} (hp : p ∈ accepted ops) : p.number < (run ops).nextPosting := by
  have hmem : p.number ∈ (accepted ops).map (·.number) := List.mem_map.mpr ⟨p, hp, rfl⟩
  rw [(balanced ops).numbers] at hmem
  exact List.mem_range.mp hmem

lemma told (b : QpId) (ops : List Operation) :
    Told [] ((run ops).qps.flushesOf b) (completionsOf b ops)
      ((receivesOf b ops).map (·.number)) ((landed b ops).map (·.2.posting)) := by
  induction ops using List.reverseRecOn with
  | nil => exact ⟨rfl, fun _ h => by cases h⟩
  | append_singleton ops op ih =>
    have hbalanced := balanced ops
    have hnew : ∀ n ∈ newReceives b (run ops) op, (run ops).nextPosting ≤ n := by
      intro n hn
      obtain ⟨p, hp, rfl⟩ := List.mem_map.mp hn
      have hmem : p.number ∈ ((run ops).accepts op).map (·.number) :=
        List.mem_map.mpr ⟨p, List.mem_of_mem_filter hp, rfl⟩
      rw [((perform_effect (run ops) op).numbers).2] at hmem
      exact (List.mem_range'_1.mp hmem).1
    have hold : ∀ n ∈ (receivesOf b ops).map (·.number), n < (run ops).nextPosting := by
      intro n hn
      obtain ⟨p, hp, rfl⟩ := List.mem_map.mp hn
      exact number_lt (List.mem_of_mem_filter hp)
    -- no completion was pushed under a number that is given out only now
    have hcompletions : completionsOf b (ops ++ [op]) = completionsOf b ops ++
        own ((receivesOf b (ops ++ [op])).map (·.number)) ((run ops).pushes op) := by
      rw [completionsOf, pushed_snoc, own_append]
      refine congrArg (· ++ _) (List.filter_congr fun report hreport => ?_)
      obtain ⟨p, hp, hcompleted⟩ := hbalanced.completedBy hreport
      have hlt := number_lt hp
      rw [receivesOf_snoc, decide_eq_decide, List.mem_append, hcompleted.1]
      exact or_iff_left fun h => absurd (hnew _ h) (by omega)
    have hstep := perform_told op (apart b ops op) hbalanced.named (proper ops)
      (sides b ops) (by
        rw [receivesOf_snoc, List.mem_append]
        exact or_iff_right fun h => lt_irrefl _ (hold _ h))
    have htold := ih.trans hstep
    rw [← hcompletions, ← receivesOf_snoc, ← List.map_append] at htold
    rwa [run_snoc, landed, along_snoc]

end Device

end Verbs
