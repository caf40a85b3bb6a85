import Mathlib.Tactic
import Verbs.Proofs.Device.Identity
import Verbs.Proofs.Device.TwoSided

/-!
Who gets through to a queue pair. Once it is connected, it admits messages of its peer and nobody
else's. Before that it admits everybody's, and those that wait when it is connected stay.
-/

namespace Verbs.Device

variable {d : Device} {b id : QpId} {q peer : QueuePair} {m : Message} {op : Operation}
  {ops : List Operation} {e : Endpoint} {w : SendRequest}

def handsEarly (b : QpId) (d : Device) (op : Operation) : List Message :=
  match (d.qps.get? b).bind (·.remote) with
  | some _ => []
  | none => d.hands b op

/-- The messages that were handed to a queue pair in a run before it had a peer. -/
def early (b : QpId) (ops : List Operation) : List Message := along (handsEarly b) ops

def SentFrom (ops : List Operation) (m : Message) (e : Endpoint) : Prop :=
  ∃ s ∈ steps {} ops, ∃ w q, s.2 = .postSend m.sender w ∧ s.1.nextPosting = m.posting ∧
    s.1.qps.get? m.sender = some q ∧ q.endpoint = e

/-! ### One operation -/

lemma sender_of_mem_hands (h : m ∈ d.hands b op) :
    ∃ w q peer, op = .postSend m.sender w ∧ d.nextPosting = m.posting ∧
      d.qps.get? m.sender = some q ∧ d.qps.get? b = some peer ∧ peer.acceptsFrom q.endpoint := by
  obtain ⟨peer, hsends, -⟩ := sends_of_mem_hands h
  obtain ⟨id, w, q, remote, memory, rfl, hq, -, hdispatch, -⟩ := sends_spec hsends
  obtain ⟨hroute, haccepts, hcarries⟩ := dispatch_message hdispatch
  cases hcarries.sender
  exact ⟨w, q, peer, rfl, hcarries.posting.symm, hq, (get?_of_route hroute).2, haccepts⟩

lemma remote_of_reset (ops : List Operation) :
    (run ops).qps.Every fun _ q => q.state = .reset → q.remote = none := by
  induction ops using List.reverseRecOn with
  | nil => exact fun _ _ h => nomatch h
  | append_singleton ops op ih =>
    rw [run_snoc]
    refine (perform_effect (run ops) op).every ih ⟨?_, ?_, ?_, ?_⟩ ?_ ?_ ?_
    · exact fun _ _ _ h => nomatch h
    · exact fun _ _ _ _ _ h => nomatch h
    · exact fun _ _ _ _ h _ => h
    · exact fun _ _ _ _ h _ => h
    · exact fun _ _ _ hnew _ _ => hnew.remote
    · exact fun _ _ _ _ _ _ _ _ h _ _ => h
    · exact fun _ _ _ _ _ h _ _ _ => h

/-- Whom a queue pair in a run accepts requests from: everybody before it has a peer, and then its
peer at most. -/
lemma accepts_of_run (hq : (run ops).qps.get? b = some q) (h : q.acceptsFrom e) :
    q.remote = none ∨ q.remote = some e := by
  unfold QueuePair.acceptsFrom at h
  rcases (proper ops b q hq).state with hstate | hstate | hstate <;> rw [hstate] at h
  · exact Or.inl (remote_of_reset ops b q hq hstate)
  · exact Or.inr (of_decide_eq_true h)
  · cases h

lemma postSend_refused {remote : Endpoint} {peerId : QpId} (hq : d.qps.get? id = some q)
    (hstate : q.state = .rts) (hremote : q.remote = some remote)
    (hsge : w.sgl.length ≤ q.caps.maxSendSge.toNat)
    (hroute : d.route ⟨q.fabric, remote.lid, remote.qpn⟩ = some (peerId, peer))
    (hrefused : ¬ peer.acceptsFrom q.endpoint) :
    (∃ rest, d.pushes (.postSend id w) = d.sendReport q w .retryExcErr 0 :: rest) ∧
      ∀ c, d.hands c (.postSend id w) = [] := by
  have hdispatch : d.dispatch id q w remote = (d.memory, .outcome .retryExcErr 0) := by
    simp [dispatch, hroute, hrefused]
  have hreports : d.sendReports id w = .ok (d.execute id q w remote) := by
    simp [sendReports, hq, hstate, hremote, Nat.not_lt.mpr hsge]
  refine ⟨⟨(d.qps.fail id).2, ?_⟩, fun c => ?_⟩
  · simp [pushes, hreports, execute, hdispatch, QueuePairs.complete, sendReport, Status.isSuccess]
  · simp [hands, sends, hreports, hq, hstate, hremote, hdispatch]

/-! ### Runs -/

lemma mem_handed_of_mem_inbox (hq : (run ops).qps.get? b = some q) (hm : m ∈ q.inbox) :
    m ∈ handed b ops := by
  have hstate : q.state ≠ .error := fun hstate => by
    rw [(proper ops b q hq).inbox hstate] at hm
    cases hm
  rw [(inOrder b ops).inbox _ _ (live_of_found hq hstate)] at hm
  exact List.mem_of_mem_drop hm

lemma remote_stays {s : Device × Operation} (hs : s ∈ steps {} ops)
    (hpeer : s.1.qps.get? b = some peer) (he : peer.remote = some e)
    (hq : (run ops).qps.get? b = some q) : q.remote = some e := by
  have hreset : peer.state ≠ .reset := fun hstate => by
    obtain ⟨before, -, -, hbefore⟩ := split_of_mem_steps hs
    rw [hbefore] at hpeer
    rw [remote_of_reset before b peer hpeer hstate] at he
    cases he
  refine (kept_run (P := fun q => q.remote = some e ∧ q.state ≠ .reset) ⟨?_, ?_, ?_, ?_⟩ ?_ ?_ hs
    hpeer ⟨he, hreset⟩ hq).1
  · exact fun _ _ h => ⟨h.1, (nomatch ·)⟩
  · exact fun _ _ _ h hstate => absurd hstate h.2
  · exact fun _ _ _ _ h _ => h
  · exact fun _ _ _ _ h _ => h
  · exact fun _ _ h => h
  · exact fun _ _ h => h

lemma early_subset_handed (b : QpId) (ops : List Operation) : early b ops ⊆ handed b ops := by
  intro m hm
  obtain ⟨s, hs, hm⟩ := (mem_along _).mp hm
  refine (mem_along _).mpr ⟨s, hs, ?_⟩
  unfold handsEarly at hm
  split at hm
  · cases hm
  · exact hm

lemma early_or_sentFrom (hq : (run ops).qps.get? b = some q) (he : q.remote = some e)
    (hm : m ∈ handed b ops) : m ∈ early b ops ∨ SentFrom ops m e := by
  obtain ⟨s, hs, hm⟩ := (mem_along _).mp hm
  obtain ⟨w, p, peer, hop, hposting, hp, hpeer, haccepts⟩ := sender_of_mem_hands hm
  obtain ⟨before, -, -, hbefore⟩ := split_of_mem_steps hs
  rcases accepts_of_run (hbefore ▸ hpeer) haccepts with hremote | hremote
  · exact Or.inl ((mem_along _).mpr ⟨s, hs, by simpa [handsEarly, hpeer, hremote] using hm⟩)
  · cases he.symm.trans (remote_stays hs hpeer hremote hq)
    exact Or.inr ⟨s, hs, w, p, hop, hposting, hp, rfl⟩

/-- **A connected queue pair admits its peer's messages only.** All that waits at it, and all that
its receives met, came from the endpoint that it is connected to, or came before it was connected;
so if it got nothing early but from that endpoint, it got nothing but from there, and only then. A
request from any other endpoint fails from then on, and is handed to nobody. -/
theorem admitted_from_peer (ops : List Operation) (b : QpId) (q : QueuePair) (e : Endpoint)
    (hq : (run ops).qps.get? b = some q) (he : q.remote = some e) :
    (∀ m ∈ q.inbox, m ∈ handed b ops) ∧
    (∀ m r, (m, r) ∈ landed b ops → m ∈ handed b ops) ∧
    (∀ m ∈ handed b ops, m ∈ early b ops ∨ SentFrom ops m e) ∧
    ((∀ m ∈ handed b ops, SentFrom ops m e) ↔ ∀ m ∈ early b ops, SentFrom ops m e) ∧
    ∀ id p w remote, (run ops).qps.get? id = some p → p.state = .rts →
      p.remote = some remote → w.sgl.length ≤ p.caps.maxSendSge.toNat →
      (run ops).route ⟨p.fabric, remote.lid, remote.qpn⟩ = some (b, q) → p.endpoint ≠ e →
      (∃ rest, (run ops).pushes (.postSend id w) =
        (run ops).sendReport p w .retryExcErr 0 :: rest) ∧
      ∀ c, (run ops).hands c (.postSend id w) = [] := by
  refine ⟨fun m hm => mem_handed_of_mem_inbox hq hm, fun m r hmr => ?_,
    fun m hm => early_or_sentFrom hq he hm, ⟨fun h m hm => h m (early_subset_handed b ops hm),
      fun h m hm => ?_⟩, ?_⟩
  · rw [(inOrder b ops).landed] at hmr
    exact (List.of_mem_zip hmr).1
  · exact (early_or_sentFrom hq he hm).elim (h m) id
  · intro id p w remote hp hstate hremote hsge hroute hother
    refine postSend_refused hp hstate hremote hsge hroute fun haccepts => ?_
    rcases accepts_of_run hq haccepts with h | h
    · cases he.symm.trans h
    · cases he.symm.trans h
      exact hother rfl

/-- A third queue pair sends two messages to one that is not connected yet, which is then connected
to another peer and posts a receive. -/
def strangers : List Operation :=
  [.addFabric, .openNic 0 {}, .createCq {} 8, .createQp ⟨1, some 2, some 2, {}, 0⟩,
    .createQp ⟨1, some 2, some 2, {}, 0⟩, .createQp ⟨1, some 2, some 2, {}, 0⟩,
    .connect 5 ⟨1, 2, 0⟩, .postSend 5 ⟨10, [], .send none⟩, .postSend 5 ⟨11, [], .send none⟩,
    .connect 4 ⟨1, 1, 0⟩, .connect 3 ⟨1, 2, 0⟩, .postRecv 4 ⟨12, []⟩]

lemma not_sentFrom_strangers {m : Message} (hm : m.sender = 5) :
    ¬ SentFrom strangers m ⟨1, 1, 0⟩ := by
  rintro ⟨s, hs, w, q, -, -, hq, he⟩
  rw [hm] at hq
  have hsame := same_run hs hq rfl
  rw [← hsame.endpoint] at he
  exact absurd he (by decide)

theorem admitted_from_peer_strangers :
    ∃ q m, (run strangers).qps.get? 4 = some q ∧ q.remote = some ⟨1, 1, 0⟩ ∧ q.inbox = [m] ∧
      (m ∈ early 4 strangers ∨ SentFrom strangers m ⟨1, 1, 0⟩) := by
  obtain ⟨q, m, hq, he, hinbox⟩ : ∃ q m, (run strangers).qps.get? 4 = some q ∧
      q.remote = some ⟨1, 1, 0⟩ ∧ q.inbox = [m] := ⟨_, _, rfl, rfl, rfl⟩
  obtain ⟨hwaits, -, hhanded, -⟩ := admitted_from_peer strangers 4 q _ hq he
  exact ⟨q, m, hq, he, hinbox, hhanded m (hwaits m (by rw [hinbox]; exact List.mem_singleton_self _))⟩

/-- What waits when a queue pair is connected is not looked at again. Here a message that is not
the peer's waits at a connected queue pair, and another one completes its receive. -/
theorem strangers_admitted :
    ∃ q m, (run strangers).qps.get? 4 = some q ∧ q.remote = some ⟨1, 1, 0⟩ ∧
      m ∈ q.inbox ∧ ¬ SentFrom strangers m ⟨1, 1, 0⟩ ∧
      ∃ m' r, (m', r) ∈ landed 4 strangers ∧ ¬ SentFrom strangers m' ⟨1, 1, 0⟩ ∧
        r.report q.recvCq m' .success ∈ pushed strangers := by
  refine ⟨_, _, rfl, rfl, List.mem_cons_self, not_sentFrom_strangers rfl, _, _,
    List.mem_cons_self, not_sentFrom_strangers rfl, ?_⟩
  decide

end Verbs.Device
