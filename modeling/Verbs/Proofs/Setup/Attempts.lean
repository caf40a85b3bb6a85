import Mathlib.Tactic
import Verbs.Proofs.Device.Lifecycle
import Verbs.Proofs.Device.Reach
import Verbs.Proofs.Device.Routing
import Verbs.Proofs.Setup.Scripts
import Verbs.Session.Connecting

/-!
Attempts on a device. An attempt that succeeds has added one connected queue pair; one that fails
has added nothing, whatever it had made and connected before, save that a number for a queue pair is
used up. The queue pair that it takes away again has the address that it was given to itself as long
as the counters last, so nobody else's route goes with it.
-/

namespace Verbs

/-! ### A queue pair more -/

namespace Device

variable {d d' : Device} {id : QpId} {q : QueuePair} {plan : QpPlan} {nic : NicId}
  {ops : List Operation}

def spent (d : Device) (nic : NicId) : Device :=
  { d with
    nics := d.nics.modify nic fun n => { n with nextQpn := n.nextQpn + 1 }
    nextId := d.nextId + 1 }

/-- The device with a new queue pair, and a route to it. -/
def added (d : Device) (nic : NicId) (q : QueuePair) : Device :=
  { d.spent nic with
    qps := d.qps.set d.nextId q
    routes := d.routes.set q.route d.nextId }

lemma get?_added (d : Device) (nic : NicId) (q : QueuePair) :
    (d.added nic q).qps.get? d.nextId = some q := Table.get?_set_self d.qps d.nextId q

lemma route_added (d : Device) (nic : NicId) (q : QueuePair) :
    (d.added nic q).route q.route = some (d.nextId, q) :=
  route_eq_some_iff.mpr ⟨Table.get?_set_self d.routes q.route d.nextId, d.get?_added nic q⟩

lemma createQp_added (h : d.createQp plan = .ok (d', id)) :
    ∃ q : QueuePair, q.New plan ∧ id = d.nextId ∧ d' = d.added plan.nic q := by
  obtain ⟨rfl, n, q, -, hnew, -, -, -, rfl⟩ := createQp_spec h
  exact ⟨q, hnew, rfl, rfl⟩

lemma connect_added {peer : Endpoint} (h : (d.added nic q).connect d.nextId peer = .ok d') :
    d' = d.added nic (q.connected peer) := by
  obtain ⟨q', hq', -, rfl⟩ := connect_spec h
  cases (d.get?_added nic q).symm.trans hq'
  simp only [added, Table.set_set]
  rfl

lemma dropQp_added (hqp : d.qps.get? d.nextId = none) (hroute : d.routes.get? q.route = none)
    (hrecvs : q.recvs = []) (hinbox : q.inbox = []) :
    (d.added nic q).dropQp d.nextId = d.spent nic := by
  have hdrop : (d.added nic q).qps.drop d.nextId = (d.qps, []) := by
    have herase : Table.erase (d.added nic q).qps d.nextId = d.qps := Table.erase_set hqp q
    rw [QueuePairs.drop, d.get?_added nic q]
    simp only [herase, hinbox, QueuePairs.refuse_nil, QueuePair.flushes, hrecvs, List.map_nil,
      List.nil_append]
  simp only [dropQp, dropQpReports, d.get?_added nic q, hdrop]
  exact congrArg (fun routes => { d.spent nic with routes }) (Table.erase_set hroute d.nextId)

lemma route_free (hattached : Attached ops) (hlids : ∀ fabric, drawn ops fabric ≤ 2 ^ 16)
    (hqpns : ∀ nic, made ops nic < 2 ^ 32)
    (h : (run ops).createQp plan = .ok ((run ops).added plan.nic q, (run ops).nextId)) :
    (run ops).routes.get? q.route = none := by
  have hattached' : Attached (ops ++ [.createQp plan]) := attached_snoc.mpr ⟨hattached, rfl⟩
  have hfits : Fits (ops ++ [.createQp plan]) q.fabric := by
    refine ⟨?_, fun nic => ?_⟩
    · rw [drawn_snoc]
      exact hlids q.fabric
    · have hone : ((run ops).makes (.createQp plan)).countP (·.1 = nic) ≤ 1 :=
        List.countP_le_length.trans (length_makes_le (run ops) (.createQp plan))
      rw [made_snoc]
      exact (Nat.add_le_add_left hone _).trans (hqpns nic)
  have hrun : run (ops ++ [.createQp plan]) = (run ops).added plan.nic q := by
    rw [run_snoc, perform, h]
  rcases hroute : (run ops).routes.get? q.route with - | j
  · rfl
  · have hsound := (addressed_of_attached hattached).sound
    obtain ⟨nic, hhome⟩ := hsound.leads q.route j hroute
    have hlt : j < (run ops).nextId := hsound.qpNamed j _ hhome
    have hj : ((run ops).added plan.nic q).net.homes j = some (nic, q.route) := by
      have hother := Table.get?_set_of_ne (run ops).qps q hlt.ne
      exact (congrArg (Option.map QueuePair.home) hother).trans hhome
    have hapart := (addressed_of_attached hattached').apart hfits
    rw [hrun] at hapart
    exact absurd (hapart j (run ops).nextId nic q.nic q.route hj
      (homes_of_found (get?_added _ _ _)) rfl) hlt.ne

end Device

/-! ### Factories -/

namespace Factory

variable {f : Factory} {d d' d'' : Device} {source : QpSource} {peer : Endpoint}

/-- The device with what an attempt delivers: a new queue pair in readiness, connected to the peer
and led to from an address that was nobody's, and nothing else; or a scripted one. -/
inductive Delivers (d : Device) (peer : Endpoint) : Factory → QpSource → Device → Prop where
  | device {plan : QpPlan} {q : QueuePair} (state : q.state = .rts) (remote : q.remote = some peer)
      (new : d.qps.get? d.nextId = none) (free : d.routes.get? q.route = none)
      (routed : (d.added plan.nic q).route q.route = some (d.nextId, q)) :
      Delivers d peer (.device plan) (.device d.nextId) (d.added plan.nic q)
  | scripted {s : ScriptedQp} (connects : s.connectError = none) :
      Delivers d peer (.scripted (.ok s)) (.scripted s) d

/-- The device after an attempt that delivered nothing: as it was, save for a number used up. -/
inductive Restores (d : Device) : Factory → Device → Prop where
  | untouched {f : Factory} : Restores d f d
  | spent {plan : QpPlan} : Restores d (.device plan) (d.spent plan.nic)

lemma steady (f : Factory) : f.host.Steady := by
  intro d d' source peer h
  cases source with
  | device id =>
    obtain ⟨q, hq, -, rfl⟩ := Device.connect_spec h
    simp only [Factory.host, QpSource.endpoint, Table.get?_set_self, hq]
  | scripted s => rfl

inductive Makes (d : Device) : Factory → QpSource → Device → Prop where
  | device {plan : QpPlan} {q : QueuePair} (new : q.New plan)
      (made : d.createQp plan = .ok (d.added plan.nic q, d.nextId)) :
      Makes d (.device plan) (.device d.nextId) (d.added plan.nic q)
  | scripted {s : ScriptedQp} : Makes d (.scripted (.ok s)) (.scripted s) d

lemma makes (h : f.host.create d = .ok (source, d')) : Makes d f source d' := by
  rcases f with plan | (e | s)
  · rcases hcreate : d.createQp plan with e | ⟨made, id⟩
    · simp only [Factory.host, hcreate] at h
      cases h
    · simp only [Factory.host, hcreate] at h
      cases h
      obtain ⟨q, hnew, rfl, rfl⟩ := Device.createQp_added hcreate
      exact .device hnew hcreate
  · cases h
  · cases h
    exact .scripted

lemma discard_added {plan : QpPlan} {q : QueuePair} (hqp : d.qps.get? d.nextId = none)
    (hroute : d.routes.get? q.route = none) (hrecvs : q.recvs = []) (hinbox : q.inbox = []) :
    (device plan).host.discard (d.added plan.nic q) (.device d.nextId) = d.spent plan.nic :=
  Device.dropQp_added hqp hroute hrecvs hinbox

section Reachable

variable {ops : List Operation} (hattached : Device.Attached ops)
  (hlids : ∀ fabric, Device.drawn ops fabric ≤ 2 ^ 16)
  (hqpns : ∀ nic, Device.made ops nic < 2 ^ 32)

include hattached hlids hqpns

lemma delivers (made : f.host.create (Device.run ops) = .ok (source, d'))
    (bound : f.host.connect d' source peer = .ok d'') :
    f.Delivers (Device.run ops) peer source d'' := by
  cases makes made with
  | device new hmade =>
    have hroute := Device.route_free hattached hlids hqpns hmade
    cases Device.connect_added bound
    exact .device rfl rfl (Device.balanced ops).named.get?_eq_none hroute
      (Device.route_added _ _ _)
  | @scripted s =>
    rcases herror : s.connectError with - | e
    · simp only [Factory.host, QpSource.connect, herror] at bound
      cases bound
      exact .scripted herror
    · simp only [Factory.host, QpSource.connect, herror] at bound
      cases bound

lemma restores (h : f.host.Undone (Device.run ops) d') : f.Restores (Device.run ops) d' := by
  have hnone := (Device.balanced ops).named.get?_eq_none
  cases h with
  | unmade => exact .untouched
  | made made =>
    cases makes made with
    | device new hmade =>
      have hroute := Device.route_free hattached hlids hqpns hmade
      rw [discard_added hnone hroute new.recvs new.inbox]
      exact .spent
    | scripted => exact .untouched
  | @bound _ _ _ peer made bound =>
    cases makes made with
    | @device plan q new hmade =>
      have hroute := Device.route_free hattached hlids hqpns hmade
      cases Device.connect_added bound
      -- The queue pair is connected by now, and still nothing waits at it.
      rw [discard_added (q := q.connected peer) hnone hroute new.recvs new.inbox]
      exact .spent
    | scripted =>
      cases delivers hattached hlids hqpns made bound
      exact .untouched

end Reachable

end Factory

/-! ### Attempts in a session -/

namespace Session

variable {part : Part} {side : Side} {a : Attempt} {x x' : Session} {s s' : Script} {d' : Device}

def Part.start : Part → Setup.Phase QpSource
  | .acceptor => .acceptor
  | .connector => .connector

lemma run_bind {α β : Type} {m : Act α} {f : α → Act β} {r : α}
    (h : m.run.run x = (.ok r, x')) : (m >>= f).run.run x = (f r).run.run x' := by
  simp only [ExceptT.run_bind, StateT.run_bind, h]
  rfl

lemma nameQp_run (id : String) (h : QpHandle) (x : Session) :
    (nameQp id h).run.run x = (.ok (), { x with
      qps := x.qps.set id h
      device := (x.qps.get? id).elim x.device fun old => old.link.source.discard x.device }) := by
  refine (run_bind (r := x) rfl).trans ((run_bind (r := ()) rfl).trans ?_)
  cases x.qps.get? id <;> rfl

/-- An attempt in a session is the attempt over its script; the session takes the device, and the
queue pair if there is one. -/
lemma attempt_run {result : Except HandshakeError (QpSource × Handshake)}
    (hresolve : side.resolve.run.run x = (.ok a, x))
    (hrun : Setup.runScript a.factory a.party part.start x.device s = (.done result, d', s')) :
    (attempt part side s).run.run x =
      (do return .attempt (← conclude side a (.done result)) s' : Act Answer).run.run
        { x with device := d' } := by
  cases part <;>
  · rw [Part.start] at hrun
    refine (run_bind hresolve).trans ((run_bind (r := x) rfl).trans ?_)
    simp only [hrun]
    exact run_bind (r := ()) rfl

lemma attempt_error {e : HandshakeError} (hresolve : side.resolve.run.run x = (.ok a, x))
    (hrun : Setup.runScript a.factory a.party part.start x.device s =
      (.done (.error e), d', s')) :
    (attempt part side s).run.run x =
      (.ok (.attempt (.error (.handshake e)) s'), { x with device := d' }) :=
  (attempt_run hresolve hrun).trans rfl

lemma attempt_ok {source : QpSource} {peer : Handshake}
    (hresolve : side.resolve.run.run x = (.ok a, x))
    (hrun : Setup.runScript a.factory a.party part.start x.device s =
      (.done (.ok (source, peer)), d', s')) :
    ∃ view x', (attempt part side s).run.run x = (.ok (.attempt (.ok view) s'), x') ∧
      x'.device = (x.qps.get? side.id).elim d' (fun old => old.link.source.discard d') ∧
      x'.executors = x.executors ∧
      x'.qps.get? side.id = some { link := ⟨source, some peer⟩, executor := some a.executor } := by
  let h : QpHandle := { link := ⟨source, some peer⟩, executor := some a.executor }
  let after : Session := { x with device := d' }
  have hconclude : (conclude side a (.done (.ok (source, peer)))).run.run after = _ :=
    (run_bind (r := after) rfl).trans (run_bind (nameQp_run side.id h after))
  exact ⟨_, _, (attempt_run hresolve hrun).trans (run_bind hconclude), rfl, rfl,
    Table.get?_set_self x.qps side.id h⟩

end Session

namespace Device

/-- **An attempt is all or nothing.** In every state of a device whose counters have not started
over, and whatever the script does, an attempt comes to its end. Either it has delivered a new queue
pair in readiness, led to from its address and connected to the endpoint of the handshake that the
script spells, after its own handshake was written in full and the own half ended; or it failed, and
then the device is as it was, save for a number used up. An acceptor makes and writes nothing unless
the script spells a handshake. In a session the executors with their callbacks stay either way. -/
theorem attempt_all_or_nothing (ops : List Operation) (hattached : Attached ops)
    (hlids : ∀ fabric, drawn ops fabric ≤ 2 ^ 16) (hqpns : ∀ nic, made ops nic < 2 ^ 32)
    (f : Factory) (p : Setup.Party) (part : Session.Part) (s : Script) :
    ∃ result d' s', Setup.runScript f p part.start (run ops) s = (.done result, d', s') ∧
      (match result with
        | .ok (source, peer) =>
          f.Delivers (run ops) peer.endpoint source d' ∧ s.Spells p.maxUserData peer ∧
          s'.written = s.written ++ (Handshake.mk (source.endpoint d') p.userData).encode ∧
          s'.isShutdown = true
        | .error _ => f.Restores (run ops) d') ∧
      (part = .acceptor → (∀ peer, ¬ s.Spells p.maxUserData peer) →
        d' = run ops ∧ s'.written = s.written ∧ s'.isShutdown = s.isShutdown) ∧
      ∀ (x : Session) (side : Session.Side) (a : Session.Attempt), x.device = run ops →
        side.resolve.run.run x = (.ok a, x) → a.factory = f → a.party = p →
        match result with
        | .ok (source, peer) =>
          ∃ view x', (Session.attempt part side s).run.run x = (.ok (.attempt (.ok view) s'), x') ∧
            x'.device = (x.qps.get? side.id).elim d' (fun old => old.link.source.discard d') ∧
            x'.executors = x.executors ∧
            x'.qps.get? side.id =
              some { link := ⟨source, some peer⟩, executor := some a.executor }
        | .error e =>
          (Session.attempt part side s).run.run x =
            (.ok (.attempt (.error (.handshake e)) s'), { x with device := d' }) := by
  have hstart : part.start = .acceptor ∨ part.start = .connector := by
    cases part
    · exact Or.inl rfl
    · exact Or.inr rfl
  obtain ⟨result, d', s', hrun, hprogress⟩ := Setup.run_script f.steady hstart p (run ops) s
  refine ⟨result, d', s', hrun, ?_, ?_, ?_⟩
  · cases hprogress with
    | ready made bound heard written isShutdown =>
      exact ⟨f.delivers hattached hlids hqpns made bound, Setup.heard_ok_iff.mp heard, written,
        isShutdown⟩
    | failed undone => exact f.restores hattached hlids hqpns undone
  · rintro rfl hnone
    have hsilent : ∀ peer, Setup.heard p.maxUserData s ≠ .ok peer :=
      fun peer hheard => hnone peer (Setup.heard_ok_iff.mp hheard)
    cases hprogress with
    | ready _ _ heard => exact absurd heard (hsilent _)
    | failed _ silent => exact silent rfl hsilent
  · rintro x side a hdevice hresolve rfl rfl
    rw [← hdevice] at hrun
    rcases result with e | ⟨source, peer⟩
    · exact Session.attempt_error hresolve hrun
    · exact Session.attempt_ok hresolve hrun

def furnished : List Operation := [.addFabric, .openNic 0 {}, .createCq {} 8]

def recipe : QpPlan := ⟨1, some 2, some 2, {}, 0⟩

/-- A stream from which a handshake is read in two parts, and which takes three bytes at a time. -/
def greeting : Script :=
  { chunks := [[0, 1, 0, 0], [0, 5, 0, 0, 0, 0, 9]], writeMax := some 3 }

/-- A session in which the ring, an executor and the recipe have names. -/
def parlour : Session where
  device := run furnished
  cqs := ⟨[(0, { source := .ring 2 })]⟩
  builders := ⟨[("recipe", ⟨1, some 0, some 0, {}, 0⟩)]⟩
  executorNames := ⟨[("executor", 1)]⟩

def host : Session.Side where
  id := "qp"
  factory := .builder "recipe"
  executor := "executor"
  userData := .bytes [7]

theorem attempt_all_or_nothing_greeted :
    ∃ source peer d' s', Setup.runScript (.device recipe) ⟨[7], 65536⟩ .acceptor (run furnished)
        greeting = (.done (.ok (source, peer)), d', s') ∧
      Factory.Delivers (run furnished) peer.endpoint (.device recipe) source d' ∧
      greeting.Spells 65536 peer ∧
      ∃ view x', (Session.attempt .acceptor host greeting).run.run parlour =
        (.ok (.attempt (.ok view) s'), x') := by
  have hdrawn : ∀ fabric, drawn furnished fabric ≤ 2 ^ 16 := by
    intro fabric
    simp only [drawn, furnished, List.map_cons, List.map_nil, Operation.draws, List.sum_cons,
      List.sum_nil]
    split <;> omega
  obtain ⟨result, d', s', hrun, hout, -, hsession⟩ :=
    attempt_all_or_nothing furnished (by decide) hdrawn
      (fun nic => (made_le furnished nic).trans_lt (by decide)) (.device recipe) ⟨[7], 65536⟩
      .acceptor greeting
  have hok : ((Setup.runScript (.device recipe) ⟨[7], 65536⟩ Session.Part.acceptor.start
      (run furnished) greeting).1.result?).map (·.isOk) = some true := by rfl
  have hattempt := hsession parlour host ⟨.device recipe, 1, ⟨[7], 65536⟩⟩ rfl rfl rfl rfl
  rcases result with e | ⟨source, peer⟩
  · rw [hrun] at hok
    cases hok
  · obtain ⟨view, x', hview, -⟩ := hattempt
    exact ⟨source, peer, d', s', hrun, hout.1, hout.2.1, view, x', hview⟩

end Device

end Verbs
