import Mathlib.Tactic
import Verbs.Proofs.Device.Lifecycle
import Verbs.Setup.Scripted

/-!
The queue pairs of two attempts on one device. A factory that can make a queue pair can still do so
after the other one has, and what one attempt makes and connects leaves the other's as it was.
-/

namespace Verbs

variable {d d' : Device} {e peer : Endpoint} {source other : QpSource} {factory : Factory}

/-- A factory makes a queue pair, and one that can be connected and is ready then. -/
def Factory.Succeeds (d : Device) : Factory → Prop
  | .device plan => (d.createQp plan).isOk = true
  | .scripted (.ok s) => s.connectError = none ∧ s.state = .rts
  | .scripted (.error _) => False

namespace QpSource

/-- A queue pair is there, can be reached and is yet to be connected. -/
def Unbound (d : Device) (e : Endpoint) : QpSource → Prop
  | .device id => id < d.nextId ∧ ∃ q, d.qps.get? id = some q ∧ q.endpoint = e ∧ q.state = .reset
  | .scripted s => s.endpoint = e ∧ s.connectError = none ∧ s.state = .rts

/-- A queue pair is there, can be reached and is connected to a peer. -/
def BoundTo (d : Device) (e peer : Endpoint) : QpSource → Prop
  | .device id =>
    ∃ q, d.qps.get? id = some q ∧ q.endpoint = e ∧ q.state = .rts ∧ q.remote = some peer
  | .scripted s => s.endpoint = e ∧ s.state = .rts

/-- Two sources do not stand for the same queue pair of the device. -/
def Apart (source other : QpSource) : Prop := ∀ id, source = .device id → other ≠ .device id

namespace BoundTo

lemma endpoint (h : source.BoundTo d e peer) : source.endpoint d = e := by
  cases source with
  | device id =>
    obtain ⟨q, hq, rfl, -⟩ := h
    simp only [QpSource.endpoint, hq]
  | scripted s => exact h.1

lemma state (h : source.BoundTo d e peer) : source.state d = .rts := by
  cases source with
  | device id =>
    obtain ⟨q, hq, -, hstate, -⟩ := h
    simp only [QpSource.state, hq, hstate]
  | scripted s => exact h.2

lemma remote (h : source.BoundTo d e peer) {id : QpId} {q : QueuePair}
    (hid : source = .device id) (hq : d.qps.get? id = some q) : q.remote = some peer := by
  subst hid
  obtain ⟨q', hq', -, -, hremote⟩ := h
  cases hq.symm.trans hq'
  exact hremote

end BoundTo

lemma connect_unbound (h : source.Unbound d e) (peer : Endpoint) :
    ∃ d', source.connect d peer = .ok d' ∧ source.BoundTo d' e peer ∧
      ∀ (other : QpSource) (e' : Endpoint), other.Apart source →
        (other.Unbound d e' → other.Unbound d' e') ∧
        ∀ peer', other.BoundTo d e' peer' → other.BoundTo d' e' peer' := by
  cases source with
  | device id =>
    obtain ⟨-, q, hq, rfl, hstate⟩ := h
    refine ⟨{ d with qps := d.qps.set id { q with remote := some peer, state := .rts } }, ?_,
      ⟨_, Table.get?_set_self _ _ _, rfl, rfl, rfl⟩, fun other e' hapart => ?_⟩
    · simp only [QpSource.connect, Device.connect, hq, hstate, if_true]
    · cases other with
      | device id' =>
        have hne : id' ≠ id := fun heq => hapart id' rfl (heq ▸ rfl)
        have hget := Table.get?_set_of_ne d.qps { q with remote := some peer, state := .rts } hne
        refine ⟨?_, ?_⟩
        · rintro ⟨hlt, q', hq', hrest⟩
          exact ⟨hlt, q', hget.trans hq', hrest⟩
        · rintro peer' ⟨q', hq', hrest⟩
          exact ⟨q', hget.trans hq', hrest⟩
      | scripted s => exact ⟨fun h => h, fun _ h => h⟩
  | scripted s =>
    obtain ⟨he, herror, hstate⟩ := h
    exact ⟨d, by simp only [QpSource.connect, herror], ⟨he, hstate⟩,
      fun other e' _ => ⟨fun h => h, fun _ h => h⟩⟩

end QpSource

lemma Device.createQp_isOk_iff {plan : QpPlan} : (d.createQp plan).isOk = true ↔
    ∃ n, d.nics.get? plan.nic = some n ∧ plan.caps.firstExcess n.attr = none ∧
      plan.sendCq.isSome = true ∧ plan.recvCq.isSome = true := by
  rcases hn : d.nics.get? plan.nic with - | n
  · simp [Device.createQp, hn, Except.isOk, Except.toBool]
  · rcases hcaps : plan.caps.firstExcess n.attr with - | excess <;>
      rcases hsend : plan.sendCq with - | cq <;> rcases hrecv : plan.recvCq with - | cq' <;>
      simp [Device.createQp, hn, hcaps, hsend, hrecv, Except.isOk, Except.toBool]

lemma Device.createQp_ok {plan : QpPlan} (h : (d.createQp plan).isOk = true) :
    ∃ q d', d.createQp plan = .ok (d', d.nextId) ∧ q.state = .reset ∧
      d'.qps = d.qps.set d.nextId q ∧ d'.nextId = d.nextId + 1 ∧
      ∀ nic, (d'.nics.get? nic).map (·.attr) = (d.nics.get? nic).map (·.attr) := by
  obtain ⟨n, hn, hcaps, hsend, hrecv⟩ := Device.createQp_isOk_iff.mp h
  obtain ⟨sendCq, hsend⟩ := Option.isSome_iff_exists.mp hsend
  obtain ⟨recvCq, hrecv⟩ := Option.isSome_iff_exists.mp hrecv
  simp only [Device.createQp, hn, hcaps, hsend, hrecv]
  refine ⟨_, _, rfl, rfl, rfl, rfl, fun nic => ?_⟩
  rw [Table.get?_modify]
  split
  · rename_i heq
    rw [heq, Option.map_map]
    rfl
  · rfl

namespace Factory

lemma create_succeeds (h : factory.Succeeds d) : ∃ source d',
    factory.host.create d = .ok (source, d') ∧ source.Unbound d' (source.endpoint d') ∧
      (∀ f : Factory, f.Succeeds d → f.Succeeds d') ∧
      ∀ (other : QpSource) (e : Endpoint), other.Unbound d e →
        other.Unbound d' e ∧ other.Apart source := by
  cases factory with
  | device plan =>
    obtain ⟨q, d', hcreate, hstate, hqps, hnext, hnics⟩ := Device.createQp_ok h
    have hnew : d'.qps.get? d.nextId = some q := by rw [hqps, Table.get?_set_self]
    refine ⟨.device d.nextId, d', ?_, ?_, fun f hf => ?_, fun other e hother => ?_⟩
    · simp only [Factory.host, hcreate]
      rfl
    · refine ⟨hnext ▸ Nat.lt_succ_self _, q, hnew, ?_, hstate⟩
      simp only [QpSource.endpoint, hnew]
    · cases f with
      | device plan' =>
        obtain ⟨n, hn, hcaps, hrings⟩ := Device.createQp_isOk_iff.mp hf
        have hattr := hnics plan'.nic
        rw [hn, Option.map_some] at hattr
        obtain ⟨n', hn', hsame⟩ := Option.map_eq_some_iff.mp hattr
        exact Device.createQp_isOk_iff.mpr ⟨n', hn', hsame ▸ hcaps, hrings⟩
      | scripted outcome => cases outcome <;> exact hf
    · cases other with
      | device id =>
        obtain ⟨hlt, q', hq', hrest⟩ := hother
        have hne : id ≠ d.nextId := Nat.ne_of_lt hlt
        refine ⟨⟨hnext ▸ Nat.lt_succ_of_lt hlt, q', ?_, hrest⟩, ?_⟩
        · rw [hqps, Table.get?_set_of_ne _ _ hne, hq']
        · rintro id' hid heq
          exact hne ((QpSource.device.inj hid).trans (QpSource.device.inj heq).symm)
      | scripted s => exact ⟨hother, fun _ heq => by cases heq⟩
  | scripted outcome =>
    cases outcome with
    | error error => exact h.elim
    | ok s =>
      exact ⟨.scripted s, d, rfl, ⟨rfl, h⟩, fun _ hf => hf,
        fun other e hother => ⟨hother, fun _ _ heq => by cases heq⟩⟩

end Factory

end Verbs
