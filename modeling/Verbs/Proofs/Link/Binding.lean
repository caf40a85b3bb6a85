import Mathlib.Tactic
import Verbs.Proofs.Device.Run

/-!
Binding two links to each other. Each of them is bound to the endpoint of the other, the first
before the second, and each bind may fail for reasons of its own: the link has a peer, or its queue
pair has left the reset state, because it was connected by other means or has failed. There is no
way back to the reset state. So a failure of the first bind leaves everything as it was, but where
only the second fails the first stays bound to a queue pair that knows nothing of it.
-/

namespace Verbs

namespace Link

/-- A link that can be bound: it has no peer, and its queue pair is in the reset state. -/
structure Fresh (l : Link) (q : QueuePair) : Prop where
  unbound : l.peer = none
  reset : q.state = .reset

variable {l first second : Link} {d : Device} {a b : QpId} {p q : QueuePair}

lemma bind_of_fresh (hl : l.source = .device a) (hq : d.qps.get? a = some q) (h : l.Fresh q)
    (peer : Handshake) :
    l.bind d peer = .ok ({ l with peer := some peer },
      { d with qps := d.qps.set a (q.connected peer.endpoint) }) := by
  simp only [bind, h.unbound, hl, QpSource.connect, Device.connect, hq, h.reset, if_true,
    QueuePair.connected]

lemma bind_of_not_fresh (hl : l.source = .device a) (hq : d.qps.get? a = some q)
    (h : ¬ l.Fresh q) (peer : Handshake) :
    ∃ e, l.bind d peer = .error e ∧ (e = .fault .alreadyBound ↔ l.peer ≠ none) := by
  rcases hpeer : l.peer with - | other
  · have hstate : q.state ≠ .reset := fun hstate => h ⟨hpeer, hstate⟩
    refine ⟨.io (.ofText .invalidInput s!"cannot connect QP in state {q.state.name}"), ?_, ?_⟩
    · simp only [bind, hpeer, hl, QpSource.connect, Device.connect, hq, if_neg hstate]
    · simp
  · exact ⟨.fault .alreadyBound, by simp only [bind, hpeer], by simp⟩

structure Bound (first second : Link) (d : Device) (a b : QpId) (p q : QueuePair)
    (first' second' : Link) (d' : Device) : Prop where
  first : first' = { first with peer := some ⟨q.endpoint, []⟩ }
  second : second' = { second with peer := some ⟨p.endpoint, []⟩ }
  queuePair : d'.qps.get? a = some (p.connected q.endpoint)
  peer : d'.qps.get? b = some (q.connected p.endpoint)
  others : ∀ id, id ≠ a → id ≠ b → d'.qps.get? id = d.qps.get? id

/-- **Two links are bound to each other, or the second stays as it was.** They are bound just if
both are fresh and stand for two queue pairs; then both queue pairs are ready and each is connected
to the other. Where they are not, and the first link is not fresh, everything is as it was. Where
the first is fresh it stays bound to the endpoint of the second all the same. -/
theorem bound_or_half_bound (hfirst : first.source = .device a)
    (hsecond : second.source = .device b) (hp : d.qps.get? a = some p)
    (hq : d.qps.get? b = some q) (result : Except CallError Unit) (first' second' : Link)
    (d' : Device) (h : first.bindBoth second d = (result, first', second', d')) :
    (result = .ok () ↔ first.Fresh p ∧ second.Fresh q ∧ a ≠ b) ∧
    (result = .error (.fault .alreadyBound) ↔
      first.peer ≠ none ∨ first.Fresh p ∧ second.peer ≠ none) ∧
    (result = .ok () → Bound first second d a b p q first' second' d') ∧
    (result ≠ .ok () → second' = second ∧
      (¬ first.Fresh p → first' = first ∧ d' = d) ∧
      (first.Fresh p → first' = { first with peer := some ⟨q.endpoint, []⟩ } ∧
        d' = { d with qps := d.qps.set a (p.connected q.endpoint) })) := by
  have hendpoint : first.source.endpoint d = p.endpoint := by
    simp only [hfirst, QpSource.endpoint, hp]
  have hendpoint' : second.source.endpoint d = q.endpoint := by
    simp only [hsecond, QpSource.endpoint, hq]
  by_cases hfresh : first.Fresh p
  · have hbind := bind_of_fresh hfirst hp hfresh ⟨q.endpoint, []⟩
    -- the queue pair that the second link meets: it is another one if the two share theirs
    obtain ⟨q', hq', hsame⟩ : ∃ q', (d.qps.set a (p.connected q.endpoint)).get? b = some q' ∧
        (second.Fresh q' ↔ second.Fresh q ∧ a ≠ b) := by
      by_cases hab : a = b
      · subst hab
        have hready : ¬ second.Fresh (p.connected q.endpoint) := fun h => by cases h.reset
        exact ⟨_, Table.get?_set_self _ _ _, iff_of_false hready fun h => h.2 rfl⟩
      · exact ⟨q, (Table.get?_set_of_ne _ _ (Ne.symm hab)).trans hq, (and_iff_left hab).symm⟩
    by_cases hfresh' : second.Fresh q'
    · obtain ⟨hfreshq, hab⟩ := hsame.mp hfresh'
      have hqq : q' = q :=
        Option.some.inj (hq'.symm.trans ((Table.get?_set_of_ne _ _ (Ne.symm hab)).trans hq))
      subst hqq
      have hbind' := bind_of_fresh (d := { d with qps := d.qps.set a (p.connected q'.endpoint) })
        hsecond hq' hfresh' ⟨p.endpoint, []⟩
      simp only [bindBoth, hendpoint, hendpoint', hbind, hbind'] at h
      cases h
      refine ⟨by simp [hfresh, hfreshq, hab], by simp [hfresh.unbound, hfreshq.unbound],
        fun _ => ⟨rfl, rfl, ?_, Table.get?_set_self _ _ _, fun id ha hb => ?_⟩,
        fun hnot => absurd rfl hnot⟩
      · exact (Table.get?_set_of_ne _ _ hab).trans (Table.get?_set_self _ _ _)
      · exact (Table.get?_set_of_ne _ _ hb).trans (Table.get?_set_of_ne _ _ ha)
    · obtain ⟨e, hbind', hfault⟩ :=
        bind_of_not_fresh (d := { d with qps := d.qps.set a (p.connected q.endpoint) })
          hsecond hq' hfresh' ⟨p.endpoint, []⟩
      simp only [bindBoth, hendpoint, hendpoint', hbind, hbind'] at h
      cases h
      have hrefused : ¬ (first.Fresh p ∧ second.Fresh q ∧ a ≠ b) :=
        fun hall => hfresh' (hsame.mpr hall.2)
      refine ⟨by simpa using hrefused, ?_, fun hok => (by cases hok), fun _ =>
        ⟨rfl, fun hnot => absurd hfresh hnot, fun _ => ⟨rfl, rfl⟩⟩⟩
      simpa [hfresh, hfresh.unbound] using hfault
  · obtain ⟨e, hbind, hfault⟩ := bind_of_not_fresh hfirst hp hfresh ⟨q.endpoint, []⟩
    simp only [bindBoth, hendpoint', hbind] at h
    cases h
    refine ⟨by simp [hfresh], ?_, fun hok => (by cases hok), fun _ =>
      ⟨rfl, fun _ => ⟨rfl, rfl⟩, fun hyes => absurd hyes hfresh⟩⟩
    simpa [hfresh] using hfault

def takenUp : Device :=
  Device.run [.addFabric, .openNic 0 {}, .createCq {} 8, .createQp ⟨1, some 2, some 2, {}, 0⟩,
    .createQp ⟨1, some 2, some 2, {}, 7⟩, .connect 4 ⟨9, 9, 9⟩]

theorem bound_or_half_bound_takenUp :
    ((bindBoth ⟨.device 4, none⟩ ⟨.device 3, none⟩ takenUp).2.2.2 = takenUp) ∧
      (bindBoth ⟨.device 3, none⟩ ⟨.device 4, none⟩ takenUp).2.1.peer =
        some ⟨⟨1, 2, 7⟩, []⟩ := by
  obtain ⟨p, hp, hstate⟩ := Option.map_eq_some_iff.mp
    (show (takenUp.qps.get? 3).map (·.state) = some .reset by cbv)
  obtain ⟨q, hq, hfacts⟩ := Option.map_eq_some_iff.mp
    (show (takenUp.qps.get? 4).map (fun q => (q.state, q.endpoint)) = some (.rts, ⟨1, 2, 7⟩) by cbv)
  have hrts : q.state = .rts := congrArg Prod.fst hfacts
  have hendpoint : q.endpoint = ⟨1, 2, 7⟩ := congrArg Prod.snd hfacts
  have htaken : ∀ l : Link, ¬ l.Fresh q := fun l h => by
    cases hrts.symm.trans h.reset
  constructor
  · rcases h : bindBoth ⟨.device 4, none⟩ ⟨.device 3, none⟩ takenUp with
      ⟨result, first', second', d'⟩
    obtain ⟨hok, -, -, hnot⟩ := bound_or_half_bound rfl rfl hq hp result first' second' d' h
    have hfailed := mt hok.mp fun hall => htaken _ hall.1
    exact ((hnot hfailed).2.1 (htaken _)).2
  · rcases h : bindBoth ⟨.device 3, none⟩ ⟨.device 4, none⟩ takenUp with
      ⟨result, first', second', d'⟩
    obtain ⟨hok, -, -, hnot⟩ := bound_or_half_bound rfl rfl hp hq result first' second' d' h
    have hfailed := mt hok.mp fun hall => htaken _ hall.2.1
    rw [((hnot hfailed).2.2 ⟨rfl, hstate⟩).1, hendpoint]

/-- The bind of the second link is refused, and the first is ready and bound to it. -/
theorem first_stays_bound :
    let (result, first', second', d') := bindBoth ⟨.device 3, none⟩ ⟨.device 4, none⟩ takenUp
    result = .error (.io (.ofText .invalidInput "cannot connect QP in state Rts")) ∧
      second'.peer = none ∧ first'.peer = some ⟨⟨1, 2, 7⟩, []⟩ ∧
      (takenUp.qps.get? 3).map (·.state) = some .reset ∧
      (d'.qps.get? 3).map (fun q => (q.state, q.remote)) = some (.rts, some ⟨1, 2, 7⟩) := by
  cbv
  simp

end Link

end Verbs
