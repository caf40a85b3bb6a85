import Mathlib.Tactic
import Verbs.Proofs.Device.Verdicts

/-!
The life of a queue pair. It is made in the reset state, it is connected once or not at all, it may
fail, and from a failure there is no way back. What waits at it goes with its state: receives wait
at a connected queue pair only, messages and receives never at the same time, and nothing at one
that has failed.
-/

namespace Verbs

inductive QpState.Moves : QpState → QpState → Prop where
  | stay (s : QpState) : Moves s s
  | connect : Moves .reset .rts
  | fail : Moves .rts .error
  | failEarly : Moves .reset .error

/-- What is true of every queue pair, whatever was done with it. -/
structure QueuePair.Orderly (q : QueuePair) : Prop where
  state : q.state = .reset ∨ q.state = .rts ∨ q.state = .error
  /-- There is no peer before a connection, -/
  unbound : q.state = .reset → q.remote = none
  /-- and a queue pair that is ready has one. -/
  bound : q.state = .rts → q.remote.isSome
  sides : q.recvs = [] ∨ q.inbox = []
  ready : q.recvs ≠ [] → q.state = .rts
  room : q.recvs.length ≤ q.caps.maxRecvWr.toNat
  failed : q.state = .error → q.recvs = [] ∧ q.inbox = []

/-- A queue pair that is ready has a peer, and no more receives than it was made for; receives
cannot be posted before. -/
structure QueuePair.Fit (q : QueuePair) : Prop where
  bound : q.state = .rts → q.remote.isSome
  early : q.state = .reset → q.recvs = []
  room : q.recvs.length ≤ q.caps.maxRecvWr.toNat

lemma QueuePair.fit_failed (q : QueuePair) : q.failed.Fit :=
  ⟨(nomatch ·), (nomatch ·), Nat.zero_le _⟩

lemma QueuePair.Proper.moves_error {q : QueuePair} (h : q.Proper) : q.state.Moves .error := by
  rcases h.state with hstate | hstate | hstate <;> rw [hstate]
  · exact .failEarly
  · exact .fail
  · exact .stay _

namespace Device

variable {d d' : Device} {id : QpId} {q q' : QueuePair} {op : Operation} {ops : List Operation}
  {out : List Report} {ps : List Posting} {e : Endpoint}

/-! ### States -/

lemma Effect.fit (h : Effect d op d' out ps) (hall : d.qps.Every fun _ q => q.Fit) :
    d'.qps.Every fun _ q => q.Fit := by
  refine h.every_of hall (fun _ q _ => q.fit_failed) ?_ ?_ ?_ ?_ ?_ ?_
  · intro _ q r rest hq hrecvs
    refine ⟨hq.bound, fun hstate => ?_, ?_⟩
    · rw [hq.early hstate] at hrecvs
      cases hrecvs
    · have hroom := hq.room
      rw [hrecvs, List.length_cons] at hroom
      exact (Nat.le_succ _).trans hroom
  · exact fun _ _ _ _ hq _ => ⟨hq.bound, hq.early, hq.room⟩
  · intro plan q _ hnew _
    refine ⟨fun hstate => ?_, fun _ => hnew.recvs, by simp [hnew.recvs]⟩
    cases hnew.state.symm.trans hstate
  · exact fun _ _ _ _ _ _ hq => ⟨fun _ => rfl, (nomatch ·), hq.room⟩
  · exact fun _ _ _ _ _ _ _ _ hq _ _ => ⟨hq.bound, hq.early, hq.room⟩
  · intro _ _ q _ _ hq hcan _ _ hroom
    refine ⟨hq.bound, fun hstate => ?_, by simpa using hroom⟩
    rw [hstate] at hcan
    cases hcan

lemma fit (ops : List Operation) : (run ops).qps.Every fun _ q => q.Fit := by
  induction ops using List.reverseRecOn with
  | nil => exact fun _ _ h => nomatch h
  | append_singleton ops op ih =>
    rw [run_snoc]
    exact (perform_effect (run ops) op).fit ih

lemma orderly (hq : (run ops).qps.get? id = some q) : q.Orderly := by
  have hproper := proper ops id q hq
  have hfit := fit ops id q hq
  refine ⟨hproper.state, remote_of_reset ops id q hq, hfit.bound, sides id ops q hq,
    fun hrecvs => ?_, hfit.room, fun hstate => ⟨hproper.recvs hstate, hproper.inbox hstate⟩⟩
  rcases hproper.state with hstate | hstate | hstate
  · exact absurd (hfit.early hstate) hrecvs
  · exact hstate
  · exact absurd (hproper.recvs hstate) hrecvs

lemma Effect.moves (h : Effect d op d' out ps) (hn : NamedBefore d.nextId d.qps)
    (hp : d.qps.Every fun _ q => q.Proper) (hq : d.qps.get? id = some q)
    (hq' : d'.qps.get? id = some q') : q.state.Moves q'.state := by
  have hmoves : d'.qps.Every fun id q' => ∀ q, d.qps.get? id = some q → q.state.Moves q'.state := by
    refine h.every_of ?_ ?_ ?_ ?_ ?_ ?_ ?_ ?_
    · intro id q' hq' q hq
      cases hq'.symm.trans hq
      exact .stay _
    · exact fun id q' _ q hq => (hp id q hq).moves_error
    · exact fun _ _ _ _ hmoves _ => hmoves
    · exact fun _ _ _ _ hmoves _ => hmoves
    · intro plan q' _ _ _ q hq
      cases hn.get?_eq_none.symm.trans hq
    · intro id p peer _ hfound hstate _ q hq
      cases hfound.symm.trans hq
      rw [hstate]
      exact .connect
    · exact fun _ _ _ _ _ _ _ _ hmoves _ _ => hmoves
    · exact fun _ _ _ _ _ hmoves _ _ _ _ => hmoves
  exact hmoves id q' hq' q hq

/-- A queue pair that was not there before an operation was made by it. It has a new name, is in the
reset state and has no peer. -/
lemma Effect.born (h : Effect d op d' out ps) (hq : d.qps.get? id = none)
    (hq' : d'.qps.get? id = some q') :
    id = d.nextId ∧ q'.state = .reset ∧ q'.remote = none := by
  have hborn : d'.qps.Every fun id _ => (d.qps.get? id).isSome ∨
      (id = d.nextId ∧ ∃ plan, op = .createQp plan) := by
    refine h.every_of ?_ ?_ ?_ ?_ ?_ ?_ ?_ ?_
    · exact fun id q hq => Or.inl (by simp [hq])
    · exact fun _ _ hborn => hborn
    · exact fun _ _ _ _ hborn _ => hborn
    · exact fun _ _ _ _ hborn _ => hborn
    · exact fun plan _ hop _ _ => Or.inr ⟨rfl, plan, hop⟩
    · exact fun _ _ _ _ _ _ hborn => hborn
    · exact fun _ _ _ _ _ _ _ _ hborn _ _ => hborn
    · exact fun _ _ _ _ _ hborn _ _ _ _ => hborn
  rcases hborn id q' hq' with hsome | ⟨rfl, plan, rfl⟩
  · simp [hq] at hsome
  · cases h with
    | quiet qps =>
      rw [qps, hq] at hq'
      cases hq'
    | create q new qps =>
      rw [qps, Table.get?_set_self] at hq'
      cases hq'
      exact ⟨rfl, new.state, new.remote⟩

/-! ### Refusals -/

lemma postSend_error_iff {w : SendRequest} (hq : d.qps.get? id = some q) (hproper : q.Proper)
    (hfit : q.Fit) : (∃ error, d.postSend id w = .error error) ↔
      q.caps.maxSendSge.toNat < w.sgl.length ∨ q.state = .reset := by
  simp only [postSend, sendReports, hq]
  by_cases hlong : q.caps.maxSendSge.toNat < w.sgl.length
  · simp [hlong, Except.map]
  · rcases hproper.state with hstate | hstate | hstate
    · simp [hlong, hstate, Except.map]
    · obtain ⟨remote, hremote⟩ := Option.isSome_iff_exists.mp (hfit.bound hstate)
      simp [hlong, hstate, hremote, Except.map]
    · simp [hlong, hstate, Except.map]

lemma postRecv_error_iff {w : RecvRequest} (hq : d.qps.get? id = some q) (hproper : q.Proper)
    (hfit : q.Fit) : (∃ error, d.postRecv id w = .error error) ↔
      q.caps.maxRecvSge.toNat < w.sgl.length ∨ q.state = .reset ∨
        q.state = .rts ∧ q.inbox = [] ∧ q.recvs.length = q.caps.maxRecvWr.toNat := by
  simp only [postRecv, recvReports, hq]
  by_cases hlong : q.caps.maxRecvSge.toNat < w.sgl.length
  · simp [hlong, Except.map]
  · rcases hproper.state with hstate | hstate | hstate
    · simp [hlong, hstate, Except.map]
    · rcases hinbox : q.inbox with - | ⟨m, rest⟩
      · have hfull : q.caps.maxRecvWr.toNat ≤ q.recvs.length ↔
            q.recvs.length = q.caps.maxRecvWr.toNat :=
          ⟨fun hle => hfit.room.antisymm hle, fun heq => heq.ge⟩
        by_cases hroom : q.caps.maxRecvWr.toNat ≤ q.recvs.length <;>
          simp [hlong, hstate, ← hfull, hroom, Except.map]
      · simp [hlong, hstate, Except.map]
    · simp [hlong, hstate, Except.map]

/-! ### Peers -/

def connects (id : QpId) (d : Device) : Operation → List Endpoint
  | .connect id' peer =>
    match d.connect id' peer with
    | .ok _ => if id' = id then [peer] else []
    | .error _ => []
  | _ => []

/-- The peers that a queue pair was connected to in a run. -/
def connected (id : QpId) (ops : List Operation) : List Endpoint := along (connects id) ops

lemma connect_isOk_iff :
    (d.connect id e).isOk = true ↔ ∃ q, d.qps.get? id = some q ∧ q.state = .reset := by
  unfold connect
  split
  · rename_i h
    simp [Except.isOk, Except.toBool, h]
  · rename_i q h
    split
    · rename_i hstate
      simp [Except.isOk, Except.toBool, h, hstate]
    · rename_i hstate
      simp [Except.isOk, Except.toBool, h, hstate]

lemma connects_of_mem (h : e ∈ connects id d op) :
    connects id d op = [e] ∧ ∃ q, d.qps.get? id = some q ∧ q.state = .reset ∧
      (d.perform op).qps.get? id = some { q with remote := some e, state := .rts } := by
  unfold connects at h ⊢
  split at h
  · rename_i id' peer
    split at h
    · rename_i d' hconnect
      split at h
      · rename_i hid
        subst hid
        obtain rfl := List.mem_singleton.mp h
        obtain ⟨q, hq, hstate, rfl⟩ := connect_spec hconnect
        refine ⟨by simp, q, hq, hstate, ?_⟩
        simp only [perform, hconnect]
        exact Table.get?_set_self _ _ _
      · cases h
    · cases h
  · cases h

lemma connects_of_reset (hq : d.qps.get? id = some q) (hstate : q.state = .reset) (e : Endpoint) :
    connects id d (.connect id e) = [e] := by
  simp [connects, connect, hq, hstate]

/-- Each queue pair of a run has the one peer that it was connected to, and none before. -/
structure Bonds (ops : List Operation) : Prop where
  peer : ∀ id q, (run ops).qps.get? id = some q → connected id ops = q.remote.toList
  unmade : ∀ id, (run ops).nextId ≤ id → connected id ops = []
  once : ∀ id, (connected id ops).length ≤ 1

lemma connected_snoc (id : QpId) (ops : List Operation) (op : Operation) :
    connected id (ops ++ [op]) = connected id ops ++ connects id (run ops) op := along_snoc _ ops op

lemma Bonds.connected_eq_nil (h : Bonds ops) (he : e ∈ connects id (run ops) op) :
    connected id ops = [] := by
  obtain ⟨-, q, hq, hstate, -⟩ := connects_of_mem he
  rw [h.peer id q hq, remote_of_reset ops id q hq hstate]
  rfl

lemma Bonds.peer_of_nil (h : Bonds ops) (hnone : connects id (run ops) op = [])
    (hq : ((run ops).perform op).qps.get? id = some q) : connected id ops = q.remote.toList := by
  have hpeer : ((run ops).perform op).qps.Every fun id q =>
      connects id (run ops) op = [] → connected id ops = q.remote.toList := by
    refine (perform_effect (run ops) op).every_of ?_ ?_ ?_ ?_ ?_ ?_ ?_ ?_
    · exact fun id q hq _ => h.peer id q hq
    · exact fun _ _ hpeer => hpeer
    · exact fun _ _ _ _ hpeer _ => hpeer
    · exact fun _ _ _ _ hpeer _ => hpeer
    · intro plan q _ hnew _ _
      rw [h.unmade _ le_rfl, hnew.remote]
      rfl
    · intro id q peer hop hq hstate _ hnone
      rw [hop, connects_of_reset hq hstate] at hnone
      cases hnone
    · exact fun _ _ _ _ _ _ _ _ hpeer _ _ => hpeer
    · exact fun _ _ _ _ _ hpeer _ _ _ _ => hpeer
  exact hpeer id q hq hnone

lemma Bonds.snoc (h : Bonds ops) (op : Operation) : Bonds (ops ++ [op]) := by
  have heffect := perform_effect (run ops) op
  refine ⟨fun id q hq => ?_, fun id hid => ?_, fun id => ?_⟩ <;> rw [connected_snoc]
  · rw [run_snoc] at hq
    rcases hconnects : connects id (run ops) op with - | ⟨e, es⟩
    · rw [List.append_nil, h.peer_of_nil hconnects hq]
    · have he : e ∈ connects id (run ops) op := by rw [hconnects]; exact List.mem_cons_self
      obtain ⟨hone, p, -, -, hq'⟩ := connects_of_mem he
      cases hq.symm.trans hq'
      rw [h.connected_eq_nil he, ← hconnects, hone]
      rfl
  · rw [run_snoc] at hid
    have hlt := heffect.nextId_le.trans hid
    rw [h.unmade id hlt, List.nil_append]
    refine List.eq_nil_iff_forall_not_mem.mpr fun e he => ?_
    obtain ⟨-, q, hq, -⟩ := connects_of_mem he
    exact absurd ((balanced ops).named id q hq) (not_lt.mpr hlt)
  · rcases hconnects : connects id (run ops) op with - | ⟨e, es⟩
    · rw [List.append_nil]
      exact h.once id
    · have he : e ∈ connects id (run ops) op := by rw [hconnects]; exact List.mem_cons_self
      rw [h.connected_eq_nil he, ← hconnects, (connects_of_mem he).1]
      exact le_rfl

lemma bonds (ops : List Operation) : Bonds ops := by
  induction ops using List.reverseRecOn with
  | nil => exact ⟨fun _ _ h => (nomatch h), fun _ _ => rfl, fun _ => Nat.zero_le 1⟩
  | append_singleton ops op ih => exact ih.snoc op

/-- What an operation does to the queue pair under one name, if anything. -/
inductive Evolves (d d' : Device) (id : QpId) : Prop where
  | absent (before : d.qps.get? id = none) (after : d'.qps.get? id = none)
  | made (q : QueuePair) (fresh : id = d.nextId) (before : d.qps.get? id = none)
      (after : d'.qps.get? id = some q) (state : q.state = .reset) (remote : q.remote = none)
  | dropped (q : QueuePair) (before : d.qps.get? id = some q) (after : d'.qps.get? id = none)
  | moved (q q' : QueuePair) (before : d.qps.get? id = some q) (after : d'.qps.get? id = some q')
      (state : q.state.Moves q'.state)
      (remote : q'.remote = q.remote ∨ (q.remote = none ∧ q.state = .reset ∧ q'.state = .rts))

lemma evolves (ops : List Operation) (op : Operation) (id : QpId) :
    Evolves (run ops) ((run ops).perform op) id := by
  have heffect := perform_effect (run ops) op
  rcases hq : (run ops).qps.get? id with - | q <;>
    rcases hq' : ((run ops).perform op).qps.get? id with - | q'
  · exact .absent hq hq'
  · obtain ⟨hfresh, hstate, hremote⟩ := heffect.born hq hq'
    exact .made q' hfresh hq hq' hstate hremote
  · exact .dropped q hq hq'
  · refine .moved q q' hq hq' (heffect.moves (balanced ops).named (proper ops) hq hq') ?_
    rcases hconnects : connects id (run ops) op with - | ⟨e, es⟩
    · have hsame := (bonds ops).peer_of_nil hconnects hq'
      rw [(bonds ops).peer id q hq] at hsame
      refine Or.inl (Option.ext fun e => ?_)
      rw [← Option.mem_toList, ← Option.mem_toList, hsame]
    · have he : e ∈ connects id (run ops) op := by rw [hconnects]; exact List.mem_cons_self
      obtain ⟨-, p, hp, hstate, hp'⟩ := connects_of_mem he
      cases hq.symm.trans hp
      cases hq'.symm.trans hp'
      exact Or.inr ⟨remote_of_reset ops id q hq hstate, hstate, rfl⟩

/-! ### Failures -/

/-- A completion without success in a run: its queue pair has failed by the end of the operation
that pushes it, and stays so. -/
lemma failed_of_pushes {s : Device × Operation} (hs : s ∈ steps {} ops) {report : Report}
    (hreport : report ∈ s.1.pushes s.2) (hstatus : report.completion.status.isSuccess = false) :
    ∃ p ∈ accepted ops, p.CompletedBy report ∧ (s.1.perform s.2).qps.Down p.qp ∧
      (run ops).qps.Down p.qp := by
  obtain ⟨before, after, hops, hbefore⟩ := split_of_mem_steps hs
  have hops' : ops = before ++ [s.2] ++ after := by
    rw [hops, List.append_assoc, List.singleton_append]
  rw [hbefore] at hreport
  cases verdict before s.2 report hreport with
  | condemned h =>
    obtain ⟨id, ⟨p, hp, hnumber, rfl⟩, hdown⟩ := h.poster
    have hpushed : report ∈ pushed ops := (mem_along _).mpr ⟨s, hs, hbefore ▸ hreport⟩
    have haccepted : p ∈ accepted ops := by
      rw [hops']
      exact (along_extends accepts (before ++ [s.2]) after).subset hp
    obtain ⟨p', hp', hcompleted⟩ := (balanced ops).completedBy hpushed
    obtain rfl := (balanced ops).eq_of_number haccepted hp' (hnumber.trans hcompleted.1)
    refine ⟨p, haccepted, hcompleted, hbefore ▸ hdown, ?_⟩
    rw [hops', run_append, run_snoc]
    refine down_foldl ?_ hdown after
    rw [← run_snoc]
    exact qp_lt hp
  | done _ _ _ _ _ hok | met _ _ _ _ hok =>
    rw [hstatus] at hok
    cases hok

end Device

end Verbs
