import Mathlib.Tactic
import Verbs.Proofs.Device.Landing

/-!
What waits at a queue pair, one operation at a time. Messages and receives come in, they meet, or
everything goes because the queue pair has failed or was taken away.
-/

namespace Verbs

/-- What is true of the queue pairs that there are: they are new, connected or failed, and nothing
waits at one that has failed. -/
structure QueuePair.Proper (q : QueuePair) : Prop where
  state : q.state = .reset ∨ q.state = .rts ∨ q.state = .error
  recvs : q.state = .error → q.recvs = []
  inbox : q.state = .error → q.inbox = []

lemma QueuePair.Proper.rts {q : QueuePair} (h : q.Proper) (hcan : q.state.canPostRecv)
    (halive : q.state ≠ .error) : q.state = .rts := by
  rcases h.state with hstate | hstate | hstate
  · rw [hstate] at hcan
    cases hcan
  · exact hstate
  · exact absurd hstate halive

namespace Device

variable {d d' : Device} {b id : QpId} {q : QueuePair} {m : Message} {r : Receive} {op : Operation}

/-- What waits at a queue pair, unless it has failed or was taken away. Nothing waits at one that is
still to be made. -/
def live (d : Device) (b : QpId) : Option (List Receive × List Message) :=
  match d.qps.get? b with
  | some q => if q.state = .error then none else some (q.recvs, q.inbox)
  | none => if d.nextId ≤ b then some ([], []) else none

/-- What an operation can do with what waits at a queue pair. -/
inductive Turn : Option (List Receive × List Message) → Option (List Receive × List Message) →
    List Message → List Receive → List (Message × Receive) → Prop where
  | idle {x y} (left : y = x ∨ y = none) : Turn x y [] [] []
  | queue (ms : List Message) (m : Message) : Turn (some ([], ms)) (some ([], ms ++ [m])) [m] [] []
  | land (rs : List Receive) (r : Receive) (ms : List Message) (m : Message) {y}
      (left : y = some (rs, ms) ∨ y = none) : Turn (some (r :: rs, ms)) y [m] [] [(m, r)]
  | wait (rs : List Receive) (r : Receive) : Turn (some (rs, [])) (some (rs ++ [r], [])) [] [r] []
  | meet (rs : List Receive) (r : Receive) (ms : List Message) (m : Message) {y}
      (left : y = some (rs, ms) ∨ y = none) : Turn (some (rs, m :: ms)) y [] [r] [(m, r)]

/-! ### What waits -/

lemma live_of_found (h : d.qps.get? b = some q) (hstate : q.state ≠ .error) :
    d.live b = some (q.recvs, q.inbox) := by
  simp only [live, h, if_neg hstate]

lemma live_set (d : Device) (b : QpId) (q : QueuePair) (hstate : q.state ≠ .error) :
    { d with qps := d.qps.set b q }.live b = some (q.recvs, q.inbox) :=
  live_of_found (Table.get?_set_self _ _ _) hstate

@[simp] lemma live_record (d : Device) (out : List Report) (b : QpId) :
    (d.record out).live b = d.live b := rfl

lemma live_of_failed (hf : QueuePairs.Failed d.qps d'.qps) (hn : d.nextId ≤ d'.nextId) (b : QpId) :
    d'.live b = d.live b ∨ d'.live b = none := by
  rcases hq : d.qps.get? b with - | q
  · have hq' : d'.qps.get? b = none := hf.get?_eq_none.mpr hq
    simp only [live, hq, hq']
    by_cases hb : d'.nextId ≤ b
    · exact Or.inl (by rw [if_pos hb, if_pos (hn.trans hb)])
    · exact Or.inr (if_neg hb)
  · rcases hf.get? hq with hq' | hq'
    · exact Or.inl (by simp only [live, hq, hq'])
    · exact Or.inr (by simp [live, hq', QueuePair.failed])

lemma live_set_of_ne {qps : QueuePairs} (hqps : d'.qps = qps.set id q)
    (hq : qps.get? b = d.qps.get? b) (hn : d'.nextId = d.nextId) (hb : b ≠ id) :
    d'.live b = d.live b := by
  simp only [live, hqps, Table.get?_set_of_ne _ _ hb, hq, hn]

/-- An operation that accepts no request adds nothing to what waits. -/
lemma Effect.live {out : List Report} (h : Effect d op d' out []) (hn : NamedBefore d.nextId d.qps)
    (b : QpId) : d'.live b = d.live b ∨ d'.live b = none := by
  cases h with
  | quiet qps nextPosting nextId =>
    exact live_of_failed (by rw [qps]; exact .refl _) nextId b
  | create q new qps nextPosting nextId =>
    by_cases hb : b = d.nextId
    · have hnone : d.qps.get? b = none := by
        rcases h : d.qps.get? b with - | q
        · rfl
        · have hlt : b < d.nextId := hn _ _ h
          exact absurd hb hlt.ne
      refine Or.inl ?_
      subst hb
      simp [Device.live, qps, hnone, new.state, new.recvs, new.inbox]
    · simp only [Device.live, qps, Table.get?_set_of_ne _ _ hb, nextId]
      rcases d.qps.get? b with - | q
      · by_cases hlt : d.nextId + 1 ≤ b
        · exact Or.inl (by simp only [if_pos hlt, if_pos ((Nat.le_succ _).trans hlt)])
        · exact Or.inr (if_neg hlt)
      · exact Or.inl rfl
  | @connect id peer q found state =>
    refine Or.inl ?_
    by_cases hb : b = id
    · subst hb
      simp [Device.live, found, state]
    · exact live_set_of_ne rfl rfl rfl hb
  | @drop id q found =>
    by_cases hb : b = id
    · have hnone : (d.qps.drop id).1.get? b = none :=
        (QueuePairs.drop_failed d.qps id).get?_eq_none.mpr (by rw [hb, Table.get?_erase_self])
      have hlt : id < d.nextId := hn _ _ found
      refine Or.inr ?_
      simp only [Device.live, record_qps, record_nextId, hnone]
      exact if_neg (not_le.mpr (hb ▸ hlt))
    · have herase : d.live b = { d with qps := d.qps.erase id }.live b := by
        simp only [Device.live, Table.get?_erase, if_neg hb]
      rw [herase]
      exact live_of_failed (by exact QueuePairs.drop_failed d.qps id) (by exact le_rfl) b

lemma Effect.proper {out : List Report} {ps : List Posting} (h : Effect d op d' out ps)
    (hp : d.qps.Every fun _ q => q.Proper) : d'.qps.Every fun _ q => q.Proper := by
  refine h.every hp ⟨?_, ?_, ?_, ?_⟩ ?_ ?_ ?_
  · exact fun _ q _ => ⟨Or.inr (Or.inr rfl), fun _ => rfl, fun _ => rfl⟩
  · exact fun _ q peer _ _ => ⟨Or.inr (Or.inl rfl), (nomatch ·), (nomatch ·)⟩
  · intro _ q r rest hq hrecvs
    refine ⟨hq.state, fun hstate => ?_, hq.inbox⟩
    rw [hq.recvs hstate] at hrecvs
    cases hrecvs
  · intro _ q m rest hq hinbox
    refine ⟨hq.state, hq.recvs, fun hstate => ?_⟩
    rw [hq.inbox hstate] at hinbox
    cases hinbox
  · intro plan q _ hnew _
    exact ⟨Or.inl hnew.state, fun _ => hnew.recvs, fun _ => hnew.inbox⟩
  · intro _ _ q _ peer m _ _ hpeer haccepts _
    have halive := (alive_of_acceptsFrom haccepts).1
    exact ⟨hpeer.state, fun h => absurd h halive, fun h => absurd h halive⟩
  · intro _ _ q _ _ hq _ halive _
    exact ⟨hq.state, fun h => absurd h halive, fun h => absurd h halive⟩

lemma proper (ops : List Operation) : (run ops).qps.Every fun _ q => q.Proper := by
  induction ops using List.reverseRecOn with
  | nil => exact fun _ _ h => nomatch h
  | append_singleton ops op ih =>
    rw [run_snoc]
    exact (perform_effect (run ops) op).proper ih

/-! ### Turns -/

lemma landings_of_nil (hhands : d.hands b op = []) (htakes : d.takes b op = []) :
    d.landings b op = [] := by
  unfold landings
  split <;> simp [hhands, htakes]

lemma land_live (d : Device) (id : QpId) (q : QueuePair) (m : Message) (r : Receive) (b : QpId) :
    (d.land id q m r).1.live b = d.live b ∨ (d.land id q m r).1.live b = none := by
  refine live_of_failed (land_failed d id q m r) ?_ b
  obtain ⟨memory, qps, hframe⟩ := land_frame d id q m r
  rw [hframe]

lemma deliver_live {peer : QueuePair} (d : Device) (b : QpId)
    (halive : peer.state ≠ .error ∧ peer.state ≠ .unknown) (m : Message) :
    (peer.recvs = [] ∧
        (d.deliver b peer m).1.live b = some (peer.recvs, peer.inbox ++ [m])) ∨
      ∃ r rest, peer.recvs = r :: rest ∧
        ((d.deliver b peer m).1.live b = some (rest, peer.inbox) ∨
          (d.deliver b peer m).1.live b = none) := by
  rcases deliver_cases d b halive m with ⟨hrecvs, hdeliver⟩ | ⟨r, rest, hrecvs, hdeliver⟩
  · refine Or.inl ⟨hrecvs, ?_⟩
    rw [hdeliver]
    exact live_set d b { peer with inbox := peer.inbox ++ [m] } halive.1
  · refine Or.inr ⟨r, rest, hrecvs, ?_⟩
    have hbefore : { d with qps := d.qps.set b { peer with recvs := rest } }.live b =
        some (rest, peer.inbox) := live_set d b { peer with recvs := rest } halive.1
    rw [hdeliver, ← hbefore]
    exact land_live _ b { peer with recvs := rest } m r b

lemma deliver_live_of_ne {peerId : QpId} {peer : QueuePair} (hb : b ≠ peerId) (m : Message) :
    (d.deliver peerId peer m).1.live b = d.live b ∨
      (d.deliver peerId peer m).1.live b = none := by
  have hset : ∀ q : QueuePair, { d with qps := d.qps.set peerId q }.live b = d.live b :=
    fun q => live_set_of_ne rfl rfl rfl hb
  unfold deliver
  split
  · exact live_of_failed (by exact QueuePairs.finish_failed d.qps m .retryExcErr)
      (by exact le_rfl) b
  · split
    · rename_i r rest _
      rw [← hset { peer with recvs := rest }]
      exact land_live _ peerId { peer with recvs := rest } m r b
    · exact Or.inl (hset _)

lemma postSend_turn (d : Device) (b id : QpId) (w : SendRequest) :
    Turn (d.live b) ((d.perform (.postSend id w)).live b) (d.hands b (.postSend id w))
      (d.takes b (.postSend id w)) (d.landings b (.postSend id w)) := by
  rcases hsends : d.sends (.postSend id w) with - | ⟨peerId, peer, m⟩
  · have hhands : d.hands b (.postSend id w) = [] := by simp only [hands, hsends]
    rw [hhands, landings_of_nil hhands rfl]
    refine .idle ?_
    have hid := (perform_effect d (.postSend id w)).nextId_le
    rcases perform_of_sends_none hsends with ⟨hqps, -⟩ | ⟨report, -, hqps, -⟩
    · exact live_of_failed (by rw [hqps]; exact .refl _) hid b
    · exact live_of_failed (by rw [hqps]; exact QueuePairs.complete_failed d.qps id report) hid b
  · obtain ⟨_, _, q, remote, memory, hop, hq, hstate, hdispatch, haccepts, hperform, hpushes⟩ :=
      sends_spec hsends
    cases hop
    obtain ⟨hroute, hreaches, -⟩ := dispatch_message hdispatch
    have hpeer := (get?_of_route hroute).2
    rw [hperform]
    by_cases hb : b = peerId
    · subst hb
      have halive := alive_of_acceptsFrom hreaches
      have herror : peer.state ≠ .error := halive.1
      have hhands : d.hands b (.postSend id w) = [m] := by
        simp [hands, hsends, herror]
      have hlandings := landings_of_sends hsends hpeer herror
      have hlive : d.live b = some (peer.recvs, peer.inbox) := live_of_found hpeer herror
      rw [hlandings, hhands, hlive]
      rcases deliver_live (d.posted memory) b halive m with
        ⟨hrecvs, hleft⟩ | ⟨r, rest, hrecvs, hleft⟩
      · rw [hrecvs] at hleft ⊢
        rw [live_record, hleft]
        exact .queue peer.inbox m
      · rw [hrecvs]
        exact .land rest r peer.inbox m hleft
    · have hhands : d.hands b (.postSend id w) = [] := by
        simp only [hands, hsends, if_neg fun h : peerId = b ∧ _ => hb h.1.symm]
      rw [hhands, landings_of_nil hhands rfl]
      exact .idle (deliver_live_of_ne (d := d.posted memory) hb m)

lemma postRecv_turn (hp : d.qps.Every fun _ q => q.Proper) (b id : QpId) (w : RecvRequest) :
    Turn (d.live b) ((d.perform (.postRecv id w)).live b) (d.hands b (.postRecv id w))
      (d.takes b (.postRecv id w)) (d.landings b (.postRecv id w)) := by
  have hhands : d.hands b (.postRecv id w) = [] := rfl
  have hidle : d.takes b (.postRecv id w) = [] →
      ((d.perform (.postRecv id w)).live b = d.live b ∨
        (d.perform (.postRecv id w)).live b = none) →
      Turn (d.live b) ((d.perform (.postRecv id w)).live b) (d.hands b (.postRecv id w))
        (d.takes b (.postRecv id w)) (d.landings b (.postRecv id w)) := by
    intro htakes hleft
    rw [landings_of_nil hhands htakes, htakes, hhands]
    exact .idle hleft
  rcases hreports : d.recvReports id w with e | ⟨d', out⟩
  · refine hidle (by simp only [takes, hreports]) (Or.inl ?_)
    simp only [perform, postRecv, hreports, Except.map]
  · have hperform := (postRecv_of_ok hreports).1
    obtain ⟨q, hq, ⟨hstate, rfl, -⟩ | ⟨hcan, halive, hcases⟩⟩ := recvReports_cases hreports
    · refine hidle (by simp [takes, hreports, hq, hstate]) (Or.inl ?_)
      rw [hperform]
      rfl
    · have hrts := (hp _ _ hq).rts hcan halive
      by_cases hb : b = id
      · subst hb
        have htakes : d.takes b (.postRecv b w) = [d.receive w] := by
          simp [takes, hreports, hq, hrts]
        have hlive : d.live b = some (q.recvs, q.inbox) := live_of_found hq halive
        have hlandings := landings_of_recvReports hreports hq hrts
        rw [hlandings, htakes, hhands, hlive, hperform, live_record]
        rcases hcases with ⟨m, rest, hinbox, hland⟩ | ⟨hinbox, -, -, rfl⟩
        · have hunboxed : (d.unboxed b q rest).live b = some (q.recvs, rest) :=
            live_set _ b { q with inbox := rest } halive
          have hleft := land_live (d.unboxed b q rest) b { q with inbox := rest } m (d.receive w) b
          rw [hland, hunboxed] at hleft
          rw [hinbox, List.zip_cons_cons, List.zip_nil_right]
          exact .meet q.recvs (d.receive w) rest m hleft
        · have hwaits := live_set { d with nextPosting := d.nextPosting + 1 } b
            { q with recvs := q.recvs ++ [d.receive w] } halive
          rw [hwaits, hinbox]
          exact .wait q.recvs (d.receive w)
      · refine hidle (by simp [takes, hreports, hq, Ne.symm hb]) ?_
        rw [hperform, live_record]
        rcases hcases with ⟨m, rest, hinbox, hland⟩ | ⟨-, -, -, rfl⟩
        · have hunboxed : (d.unboxed id q rest).live b = d.live b := live_set_of_ne rfl rfl rfl hb
          have hleft :=
            land_live (d.unboxed id q rest) id { q with inbox := rest } m (d.receive w) b
          rw [hland, hunboxed] at hleft
          exact hleft
        · exact Or.inl (live_set_of_ne rfl rfl rfl hb)

lemma perform_turn (hn : NamedBefore d.nextId d.qps) (hp : d.qps.Every fun _ q => q.Proper)
    (b : QpId) (op : Operation) :
    Turn (d.live b) ((d.perform op).live b) (d.hands b op) (d.takes b op) (d.landings b op) := by
  have heffect := perform_effect d op
  cases op with
  | postSend id w => exact postSend_turn d b id w
  | postRecv id w => exact postRecv_turn hp b id w
  | addFabric | openNic | skipLids | createCq | poll | register | deregister | fill | createQp
  | connect | dropQp =>
    rw [landings_of_nil rfl rfl]
    exact .idle (heffect.live hn b)

end Device

end Verbs
