import Mathlib.Tactic
import Verbs.Proofs.Device.Landing
import Verbs.Proofs.Device.Reach
import Verbs.Proofs.Device.Rings

/-!
Receives that are posted early or late. A receive that is there when a message comes takes it at
once, and one that comes later finds it in the inbox; a receive that is there when its queue pair
fails is flushed with the others, and one that comes later is flushed when it is posted. So it does
not matter which of a message and a receive is posted first, save for the order in which completions
are pushed.
-/

namespace Verbs

/-- What a list of reports says to which ring, in no particular order. -/
def tidings (out : List Report) : Multiset (CqId × Completion) :=
  (out.map fun r => (r.cq, r.completion) : List (CqId × Completion))

@[simp] lemma tidings_nil : tidings [] = 0 := rfl

@[simp] lemma tidings_cons (r : Report) (out : List Report) :
    tidings (r :: out) = {(r.cq, r.completion)} + tidings out := by
  rw [Multiset.singleton_add]
  rfl

@[simp] lemma tidings_append (out out' : List Report) :
    tidings (out ++ out') = tidings out + tidings out' := by
  simp [tidings]

def Receive.flush (r : Receive) (cq : CqId) : Report := ⟨r.posting, cq, .flushed r.wrId .recv⟩

namespace QueuePair

/-- The queue pair with one more receive, behind the others. -/
def expecting (q : QueuePair) (r : Receive) : QueuePair := { q with recvs := q.recvs ++ [r] }

@[simp] lemma flushes_expecting (q : QueuePair) (r : Receive) :
    (q.expecting r).flushes = q.flushes ++ [r.flush q.recvCq] := by
  simp [flushes, expecting, Receive.flush]

/-- A queue pair that is ready, with no message waiting for a receive, and with room for one more
of them. -/
structure Admits (q : QueuePair) (v : RecvRequest) : Prop where
  ready : q.state = .rts
  inbox : q.inbox = []
  room : q.recvs.length < q.caps.maxRecvWr.toNat
  fits : v.sgl.length ≤ q.caps.maxRecvSge.toNat

lemma Admits.alive {q : QueuePair} {v : RecvRequest} (h : q.Admits v) :
    q.state ≠ .error ∧ q.state ≠ .unknown := by
  rw [h.ready]
  decide

lemma Admits.taken {q : QueuePair} {v : RecvRequest} {r : Receive} {rest : List Receive}
    (h : q.Admits v) (hrecvs : q.recvs = r :: rest) : { q with recvs := rest }.Admits v := by
  refine ⟨h.ready, h.inbox, ?_, h.fits⟩
  have hroom := h.room
  rw [hrecvs, List.length_cons] at hroom
  exact Nat.lt_of_succ_lt hroom

/-- The queue pair without the numbers under which its receives and messages were posted. -/
def anonymous (q : QueuePair) : QueuePair :=
  { q with
    recvs := q.recvs.map ({ · with posting := 0 })
    inbox := q.inbox.map ({ · with posting := 0 }) }

end QueuePair

namespace QueuePairs

variable {qps qps' : QueuePairs} {b id : QpId} {q : QueuePair} {r : Receive}
  {out out' : List Report}

/-! ### A receive more among queue pairs that fail -/

/-- What queue pairs come to, with their reports, if there is one more receive at `b` than
otherwise. Either `b` stays as it is and the receive goes on waiting, or `b` fails and the receive
is flushed. -/
inductive OneMore (b : QpId) (q : QueuePair) (r : Receive) :
    QueuePairs × List Report → QueuePairs × List Report → Prop where
  | waits {qps : QueuePairs} {out out' : List Report} (found : qps.get? b = some q)
      (told : tidings out' = tidings out) :
      OneMore b q r (qps.modify b fun _ => q.expecting r, out') (qps, out)
  | flushed {qps : QueuePairs} {out out' : List Report} (found : qps.get? b = some q.failed)
      (told : tidings out' = tidings out + tidings [r.flush q.recvCq]) :
      OneMore b q r (qps, out') (qps, out)

lemma OneMore.behind (h : OneMore b q r (qps', out') (qps, out)) (first first' : List Report)
    (hfirst : tidings first' = tidings first) :
    OneMore b q r (qps', first' ++ out') (qps, first ++ out) := by
  cases h with
  | waits found told => exact .waits found (by rw [tidings_append, tidings_append, hfirst, told])
  | flushed found told =>
    exact .flushed found (by rw [tidings_append, tidings_append, hfirst, told, add_assoc])

lemma get?_modify_of_ne {j : QpId} (h : j ≠ b) (f : QueuePair → QueuePair) :
    (Table.modify qps b f).get? j = qps.get? j := by
  rw [Table.get?_modify, if_neg h]

lemma get?_modify_expecting (h : qps.get? b = some q) (r : Receive) :
    (Table.modify qps b fun _ => q.expecting r).get? b = some (q.expecting r) := by
  rw [Table.get?_modify, if_pos rfl, h]
  rfl

lemma modify_expecting_failed (r : Receive) :
    ((qps.modify b fun _ => q.expecting r).modify b fun _ => (q.expecting r).failed) =
      qps.modify b fun _ => q.failed :=
  Table.modify_modify_self qps b _ _

lemma found_failed (h : qps.get? b = some q) (ms : List Message) :
    (refuse (qps.modify b fun _ => q.failed) ms).1.get? b = some q.failed := by
  have hfailed : (Table.modify qps b fun _ => q.failed).get? b = some q.failed := by
    rw [Table.get?_modify, if_pos rfl, h]
    rfl
  rcases (refuse_failed _ ms).get? hfailed with h | h <;> exact h

lemma refuse_oneMore (h : qps.get? b = some q) (r : Receive) (ms : List Message) :
    OneMore b q r (refuse (qps.modify b fun _ => q.expecting r) ms) (refuse qps ms) := by
  fun_induction refuse qps ms with
  | case1 qps =>
    rw [refuse_nil]
    exact .waits h rfl
  | case2 qps m rest hgone qps' out heq ih =>
    have ih := ih h
    have hne : m.sender ≠ b := by
      rintro hb
      cases (hb ▸ hgone).symm.trans h
    rw [heq] at ih
    rw [refuse_of_gone ((get?_modify_of_ne hne _).trans hgone)]
    exact ih.behind [_] [_] rfl
  | case3 qps m rest s hs qps' out heq ih =>
    by_cases hb : m.sender = b
    · -- `b` fails here, and the receive with it
      subst hb
      cases hs.symm.trans h
      have hfound := found_failed h (q.inbox ++ rest)
      rw [heq] at hfound
      rw [refuse_of_found (get?_modify_expecting h r), modify_expecting_failed,
        QueuePair.flushes_expecting]
      show OneMore _ q r ((refuse _ (q.inbox ++ rest)).1, _ :: (_ ++
        (refuse _ (q.inbox ++ rest)).2)) _
      rw [heq]
      refine .flushed hfound ?_
      simp only [tidings_cons, tidings_append]
      abel
    · have hfound : (Table.modify qps m.sender fun _ => s.failed).get? b = some q :=
        (get?_modify_of_ne (Ne.symm hb) _).trans h
      have ih := ih hfound
      rw [heq, Table.modify_comm _ hb] at ih
      rw [refuse_of_found ((get?_modify_of_ne hb _).trans hs)]
      exact ih.behind (_ :: s.flushes) (_ :: s.flushes) rfl

lemma fail_expecting (h : qps.get? b = some q) (r : Receive) :
    (fail (qps.modify b fun _ => q.expecting r) b).1 = (fail qps b).1 ∧
      tidings (fail (qps.modify b fun _ => q.expecting r) b).2 =
        tidings (fail qps b).2 + tidings [r.flush q.recvCq] := by
  simp only [fail, h, get?_modify_expecting h r, modify_expecting_failed,
    QueuePair.flushes_expecting]
  refine ⟨rfl, ?_⟩
  show tidings (q.flushes ++ [r.flush q.recvCq] ++ (refuse _ q.inbox).2) = _
  simp only [tidings_append]
  abel

lemma fail_oneMore (h : qps.get? b = some q) (r : Receive) (id : QpId) :
    OneMore b q r (fail (qps.modify b fun _ => q.expecting r) id) (fail qps id) := by
  by_cases hid : id = b
  · subst hid
    obtain ⟨hqps, htold⟩ := fail_expecting h r
    have hfound : (fail qps id).1.get? id = some q.failed := by
      rw [get?_fail_self, h]
      rfl
    rw [show fail (qps.modify id fun _ => q.expecting r) id =
      ((fail qps id).1, (fail (qps.modify id fun _ => q.expecting r) id).2) from Prod.ext hqps rfl]
    exact .flushed hfound htold
  · rcases hs : qps.get? id with - | s
    · simp only [fail, hs, (get?_modify_of_ne hid _).trans hs]
      exact .waits h rfl
    · have hfound : (Table.modify qps id fun _ => s.failed).get? b = some q :=
        (get?_modify_of_ne (Ne.symm hid) _).trans h
      have hrefuse := refuse_oneMore hfound r s.inbox
      rw [Table.modify_comm _ hid] at hrefuse
      simp only [fail, hs, (get?_modify_of_ne hid _).trans hs]
      exact hrefuse.behind s.flushes s.flushes rfl

lemma complete_oneMore (h : qps.get? b = some q) (r : Receive) (id : QpId) (report report' : Report)
    (hcq : report'.cq = report.cq) (hcompletion : report'.completion = report.completion) :
    OneMore b q r (complete (qps.modify b fun _ => q.expecting r) id report')
      (complete qps id report) := by
  have htold : tidings [report'] = tidings [report] := by
    simp only [tidings_cons, hcq, hcompletion]
  simp only [complete, hcompletion]
  split
  · exact .waits h htold
  · exact (fail_oneMore h r id).behind [report] [report'] htold

lemma finish_renumbered (qps : QueuePairs) (m : Message) (k : Nat) (s : Status) :
    (finish qps { m with posting := k } s).1 = (finish qps m s).1 ∧
      tidings (finish qps { m with posting := k } s).2 = tidings (finish qps m s).2 := by
  unfold finish
  split
  · exact ⟨rfl, rfl⟩
  · exact ⟨rfl, rfl⟩

end QueuePairs

namespace Device

open QueuePairs (OneMore)

variable {d e x : Device} {a b : QpId} {q p : QueuePair} {m : Message} {r : Receive}
  {w : SendRequest} {v : RecvRequest} {out out' : List Report}

/-! ### Landing -/

lemma land_oneMore (hmemory : x.memory = e.memory) (hq : e.qps.get? b = some q)
    (hqps : x.qps = e.qps.modify b fun _ => q.expecting r) (m : Message) (k : Nat)
    (oldest : Receive) :
    (x.land b (q.expecting r) { m with posting := k } oldest).1.memory =
      (e.land b q m oldest).1.memory ∧
    OneMore b q r
      ((x.land b (q.expecting r) { m with posting := k } oldest).1.qps,
        (x.land b (q.expecting r) { m with posting := k } oldest).2)
      ((e.land b q m oldest).1.qps, (e.land b q m oldest).2) := by
  have hnic : (q.expecting r).nic = q.nic := rfl
  have hcq : (q.expecting r).recvCq = q.recvCq := rfl
  rcases hm : m.payload with bytes | len
  · rcases hs : e.memory.scatter q.nic oldest.sgl bytes with ⟨memory, status | ⟨⟩⟩
    · obtain ⟨hfail, htold⟩ := QueuePairs.fail_expecting hq r
      obtain ⟨hfinish, htold'⟩ := QueuePairs.finish_renumbered (e.qps.fail b).1 m k .remOpErr
      have hfound : ((e.qps.fail b).1.finish m .remOpErr).1.get? b = some q.failed := by
        have hself := QueuePairs.get?_fail_self e.qps b
        rw [hq] at hself
        rcases (QueuePairs.finish_failed (e.qps.fail b).1 m .remOpErr).get? hself with h | h <;>
          exact h
      simp only [land, hm, hnic, hcq, hmemory, hs, hqps, hfail]
      rw [hm] at hfinish htold'
      rw [hfinish]
      refine ⟨trivial, .flushed hfound ?_⟩
      simp only [tidings_cons, tidings_append, htold, htold']
      abel
    · simp only [land, hm, hnic, hcq, hmemory, hs, hqps]
      exact ⟨trivial, .waits hq (by simp [Message.report, hm])⟩
  · simp only [land, hm, hcq, hmemory, hqps]
    exact ⟨trivial, .waits hq (by simp [Message.report, hm])⟩

lemma land_renumbered (d : Device) (b : QpId) (q : QueuePair) (m : Message) (r : Receive)
    (j k : Nat) :
    (d.land b q { m with posting := j } { r with posting := k }).1 = (d.land b q m r).1 ∧
      tidings (d.land b q { m with posting := j } { r with posting := k }).2 =
        tidings (d.land b q m r).2 := by
  rcases hm : m.payload with bytes | len
  · rcases hs : d.memory.scatter q.nic r.sgl bytes with ⟨memory, status | ⟨⟩⟩
    · obtain ⟨hfinish, htold⟩ := QueuePairs.finish_renumbered (d.qps.fail b).1 m j .remOpErr
      rw [hm] at hfinish htold
      simp only [land, hm, hs, hfinish]
      exact ⟨trivial, by simp only [tidings_cons, tidings_append, htold]⟩
    · simp only [land, hm, hs]
      exact ⟨trivial, by simp [Message.report, hm]⟩
  · simp only [land, hm]
    exact ⟨trivial, by simp [Message.report, hm]⟩

/-! ### Sending -/

def awaiting (d : Device) (b : QpId) (peer : QueuePair) (v : RecvRequest) : Device :=
  { d with
    nextPosting := d.nextPosting + 1
    qps := d.qps.set b (peer.expecting (d.receive v)) }

def boxed (d : Device) (memory : Memory) (b : QpId) (peer : QueuePair) (m : Message) : Device :=
  { d.posted memory with qps := d.qps.set b { peer with inbox := [m] } }

/-- The device on which a message and a receive meet, whichever of them came first. -/
def joined (d : Device) (memory : Memory) (b : QpId) (peer : QueuePair) : Device :=
  { d with memory, nextPosting := d.nextPosting + 2, qps := d.qps.set b peer }

lemma dispatch_expecting {q q' peer : QueuePair} {target : Endpoint} (hmemory : x.memory = d.memory)
    (hsame : q.Same q') (hroute : d.route ⟨q.fabric, target.lid, target.qpn⟩ = some (b, peer))
    (hroute' : x.route ⟨q.fabric, target.lid, target.qpn⟩ = some (b, peer.expecting r)) (a : QpId)
    (w : SendRequest) :
    (∃ memory m, d.dispatch a q w target = (memory, .message b peer m) ∧
      x.dispatch a q' w target =
        (memory, .message b (peer.expecting r) { m with posting := x.nextPosting })) ∨
    ∃ memory status len, d.dispatch a q w target = (memory, .outcome status len) ∧
      x.dispatch a q' w target = (memory, .outcome status len) := by
  obtain ⟨hfabric, hnic, hendpoint, -, hsend, -⟩ := hsame
  have haccepts : (peer.expecting r).acceptsFrom q.endpoint = peer.acceptsFrom q.endpoint := rfl
  have hpeer : (peer.expecting r).nic = peer.nic := rfl
  simp only [dispatch, hfabric, hnic, hendpoint, hsend, hroute, hroute', hmemory, haccepts, hpeer]
  split
  · exact Or.inr ⟨_, _, _, rfl, rfl⟩
  · split
    · split
      · exact Or.inl ⟨_, _, rfl, rfl⟩
      · exact Or.inr ⟨_, _, _, rfl, rfl⟩
    · split
      · exact Or.inl ⟨_, _, rfl, rfl⟩
      · exact Or.inr ⟨_, _, _, rfl, rfl⟩
    all_goals
      split <;> exact Or.inr ⟨_, _, _, rfl, rfl⟩

/-- A queue pair with one more receive takes a message in the same way, unless there is no older
receive that the message could meet. -/
lemma deliver_expecting {peer : QueuePair} (hpeer : d.qps.get? b = some peer) (hv : peer.Admits v)
    (hmemory : x.memory = d.memory) (hqps : x.qps = d.qps.modify b fun _ => peer.expecting r)
    (m : Message) (k : Nat) :
    (∃ p, p.Admits v ∧
      (x.deliver b (peer.expecting r) { m with posting := k }).1.memory =
        (d.deliver b peer m).1.memory ∧
      OneMore b p r
        ((x.deliver b (peer.expecting r) { m with posting := k }).1.qps,
          (x.deliver b (peer.expecting r) { m with posting := k }).2)
        ((d.deliver b peer m).1.qps, (d.deliver b peer m).2)) ∨
    d.deliver b peer m = ({ d with qps := d.qps.set b { peer with inbox := [m] } }, []) ∧
      x.deliver b (peer.expecting r) { m with posting := k } =
        { x with qps := d.qps.set b peer }.land b peer { m with posting := k } r := by
  have hset : ∀ p : QueuePair, x.qps.set b p = d.qps.set b p := by
    intro p
    rw [hqps, ← Table.set_eq_modify hpeer]
    exact Table.set_set d.qps b _ p
  rcases deliver_cases d b hv.alive m with ⟨hnone, hdeliver⟩ | ⟨oldest, rest, hrecvs, hdeliver⟩
  · right
    refine ⟨by rw [hdeliver, hv.inbox]; rfl, ?_⟩
    have hself : { peer.expecting r with recvs := [] } = peer := by
      rw [QueuePair.expecting, ← hnone]
    have hdeliver' : x.deliver b (peer.expecting r) { m with posting := k } =
        { x with qps := x.qps.set b { peer.expecting r with recvs := [] } }.land b
          { peer.expecting r with recvs := [] } { m with posting := k } r := by
      simp [deliver, hv.alive, QueuePair.expecting, hnone]
    rw [hdeliver', hself, hset]
  · left
    have hdeliver' : x.deliver b (peer.expecting r) { m with posting := k } =
        { x with qps := x.qps.set b (QueuePair.expecting { peer with recvs := rest } r) }.land b
          (QueuePair.expecting { peer with recvs := rest } r) { m with posting := k } oldest := by
      simp [deliver, hv.alive, QueuePair.expecting, hrecvs]
    refine ⟨{ peer with recvs := rest }, hv.taken hrecvs, ?_⟩
    rw [hdeliver, hdeliver']
    refine land_oneMore (by exact hmemory) (by exact Table.get?_set_self _ _ _) ?_ m k oldest
    show x.qps.set b _ = (Table.set d.qps b _).modify b _
    rw [hset, ← Table.set_eq_modify (Table.get?_set_self d.qps b _)]
    exact (Table.set_set d.qps b _ _).symm

/-! ### A queue pair and its peer -/

/-- A connected queue pair and the one that its requests go to, which may be the same. -/
structure Facing (d : Device) (a : QpId) (q : QueuePair) (e : Endpoint) (b : QpId)
    (peer : QueuePair) : Prop where
  found : d.qps.get? a = some q
  ready : q.state = .rts
  bound : q.remote = some e
  route : d.route ⟨q.fabric, e.lid, e.qpn⟩ = some (b, peer)

lemma sendReports_ready {target : Endpoint} (hq : d.qps.get? a = some q) (hready : q.state = .rts)
    (hbound : q.remote = some target) (hsge : w.sgl.length ≤ q.caps.maxSendSge.toNat) :
    d.sendReports a w = .ok (d.execute a q w target) := by
  simp only [sendReports, hq, if_neg (Nat.not_lt.mpr hsge), hready, hbound]

lemma recvReports_waits (hq : d.qps.get? b = some q) (hv : q.Admits v) :
    d.recvReports b v = .ok (d.awaiting b q v, []) := by
  simp only [recvReports, hq, if_neg (Nat.not_lt.mpr hv.fits), hv.ready, hv.inbox,
    if_neg (Nat.not_le.mpr hv.room), awaiting, QueuePair.expecting, receive]

lemma recvReports_flushed (hq : d.qps.get? b = some q.failed) (hv : q.Admits v) :
    d.recvReports b v = .ok ({ d with nextPosting := d.nextPosting + 1 },
      [(d.receive v).flush q.recvCq]) := by
  have hfits : ¬ q.failed.caps.maxRecvSge.toNat < v.sgl.length := Nat.not_lt.mpr hv.fits
  simp only [recvReports, hq, if_neg hfits]
  rfl

/-- A receive that comes later waits behind the others where it would have gone on waiting, and is
flushed where it would have been flushed. -/
lemma recvReports_late {qps : QueuePairs} (hone : OneMore b p r (qps, out') (d.qps, out))
    (hv : p.Admits v) (hid : v.wrId = r.wrId) (hsgl : v.sgl = r.sgl) :
    ∃ late last,
      d.recvReports b v = .ok ({ d with nextPosting := d.nextPosting + 1, qps := late }, last) ∧
      (∀ id, (Table.get? qps id).map QueuePair.anonymous =
        (Table.get? late id).map QueuePair.anonymous) ∧
      tidings out' = tidings (out ++ last) := by
  cases hone with
  | waits found told =>
    refine ⟨_, _, recvReports_waits found hv, fun id => ?_, ?_⟩
    · rw [Table.get?_set, Table.get?_modify]
      split
      · rename_i hb
        subst hb
        rw [found]
        simp [QueuePair.anonymous, QueuePair.expecting, receive, hid, hsgl]
      · rfl
    · rw [told, List.append_nil]
  | flushed found told =>
    refine ⟨_, _, recvReports_flushed found hv, fun id => rfl, ?_⟩
    rw [told, tidings_append]
    simp [Receive.flush, receive, hid]

lemma recvReports_boxed {peer : QueuePair} (hv : peer.Admits v) (memory : Memory) (m : Message) :
    (d.boxed memory b peer m).recvReports b v = .ok ((d.joined memory b peer).land b peer m
      { d.receive v with posting := d.nextPosting + 1 }) := by
  have hfound : (d.boxed memory b peer m).qps.get? b = some { peer with inbox := [m] } :=
    Table.get?_set_self d.qps b _
  have hself : { peer with state := .rts, inbox := [] } = peer := by
    rw [← hv.ready, ← hv.inbox]
  have hunboxed : (d.boxed memory b peer m).qps.set b peer = d.qps.set b peer :=
    Table.set_set d.qps b _ peer
  simp only [recvReports, hfound, if_neg (Nat.not_lt.mpr hv.fits), hv.ready, hself, hunboxed]
  rfl

namespace Facing

variable {target : Endpoint} {peer : QueuePair}

lemma peerFound (h : d.Facing a q target b peer) : d.qps.get? b = some peer :=
  (get?_of_route h.route).2

lemma awaiting (h : d.Facing a q target b peer) (v : RecvRequest) :
    ∃ q', q.Same q' ∧
      (d.awaiting b peer v).Facing a q' target b (peer.expecting (d.receive v)) := by
  have hroute : ∀ q' : QueuePair, q'.fabric = q.fabric →
      (d.awaiting b peer v).route ⟨q'.fabric, target.lid, target.qpn⟩ =
        some (b, peer.expecting (d.receive v)) := by
    intro q' hfabric
    have hroute : (d.awaiting b peer v).routes.get? ⟨q.fabric, target.lid, target.qpn⟩ = some b :=
      (get?_of_route h.route).1
    have hpeer : (d.awaiting b peer v).qps.get? b = some (peer.expecting (d.receive v)) :=
      Table.get?_set_self _ _ _
    simp [Device.route, hfabric, hroute, hpeer]
  by_cases hab : a = b
  · subst hab
    cases h.found.symm.trans h.peerFound
    exact ⟨q.expecting (d.receive v), ⟨rfl, rfl, rfl, rfl, rfl, rfl⟩,
      Table.get?_set_self d.qps a _, h.ready, h.bound, hroute _ rfl⟩
  · exact ⟨q, .refl q, (Table.get?_set_of_ne _ _ hab).trans h.found, h.ready, h.bound,
      hroute q rfl⟩

/-- What a request comes to if a receive was posted before it, and if not. Either the request does
not meet that receive, which waits or is flushed; or there is no older one, so that the message
meets it, or goes into the inbox. -/
lemma execute (h : d.Facing a q target b peer) (hv : peer.Admits v) {q' : QueuePair}
    (hsame : q.Same q')
    (h' : (d.awaiting b peer v).Facing a q' target b (peer.expecting (d.receive v)))
    (w : SendRequest) :
    (∃ p, p.Admits v ∧
      ((d.awaiting b peer v).execute a q' w target).1.memory = (d.execute a q w target).1.memory ∧
      OneMore b p (d.receive v) (((d.awaiting b peer v).execute a q' w target).1.qps,
          ((d.awaiting b peer v).execute a q' w target).2)
        ((d.execute a q w target).1.qps, (d.execute a q w target).2)) ∨
    ∃ memory m, d.execute a q w target = (d.boxed memory b peer m, []) ∧
      (d.awaiting b peer v).execute a q' w target = (d.joined memory b peer).land b peer
        { m with posting := d.nextPosting + 1 } (d.receive v) := by
  have hpeer := h.peerFound
  have hqps : (d.awaiting b peer v).qps =
      d.qps.modify b fun _ => peer.expecting (d.receive v) := Table.set_eq_modify hpeer
  have hroute' := h'.route
  rw [hsame.fabric] at hroute'
  rcases dispatch_expecting (d := d) (x := d.awaiting b peer v) rfl hsame h.route hroute' a w with
    ⟨memory, m, hdispatch, hdispatch'⟩ | ⟨memory, status, len, hdispatch, hdispatch'⟩
  · have hexecute : d.execute a q w target = (d.posted memory).deliver b peer m := by
      simp only [Device.execute, hdispatch, posted]
    have hexecute' : (d.awaiting b peer v).execute a q' w target =
        ((d.awaiting b peer v).posted memory).deliver b (peer.expecting (d.receive v))
          { m with posting := d.nextPosting + 1 } := by
      simp only [Device.execute, hdispatch', posted]
      rfl
    rw [hexecute, hexecute']
    rcases deliver_expecting (d := d.posted memory) (x := (d.awaiting b peer v).posted memory)
        hpeer hv rfl hqps m (d.nextPosting + 1) with hone | ⟨hboxed, hland⟩
    · exact Or.inl hone
    · exact Or.inr ⟨memory, m, hboxed, hland⟩
  · have hcomplete := QueuePairs.complete_oneMore hpeer (d.receive v) a
      (d.sendReport q w status len) ((d.awaiting b peer v).sendReport q' w status len) hsame.sendCq
      rfl
    rw [← hqps] at hcomplete
    refine Or.inl ⟨peer, hv, ?_, ?_⟩
    · simp only [Device.execute, hdispatch, hdispatch']
    · simp only [Device.execute, hdispatch, hdispatch']
      exact hcomplete

lemma second_post (h : d.Facing a q target b peer) (hv : peer.Admits v)
    (hw : w.sgl.length ≤ q.caps.maxSendSge.toNat) {sent : Device}
    (hsent : d.execute a q w target = (sent, out)) :
    ∃ early out' late last, (d.awaiting b peer v).sendReports a w = .ok (early, out') ∧
      (sent.record out).recvReports b v = .ok (late, last) ∧
      (∀ id, (early.qps.get? id).map QueuePair.anonymous =
        (late.qps.get? id).map QueuePair.anonymous) ∧
      early = { late with qps := early.qps, rings := early.rings } ∧
      tidings out' = tidings (out ++ last) := by
  obtain ⟨q', hsame, h'⟩ := h.awaiting v
  have hsend := sendReports_ready (w := w) h'.found h'.ready h'.bound (by rw [hsame.caps]; exact hw)
  obtain ⟨memory', qps', hframe'⟩ := execute_frame (d.awaiting b peer v) a q' w target
  have hcases := h.execute hv hsame h' w
  rcases hearly : (d.awaiting b peer v).execute a q' w target with ⟨early, out'⟩
  rw [hsent, hearly] at hcases
  rw [hearly] at hframe' hsend
  rcases hcases with ⟨p, hp, hmemory, hone⟩ | ⟨memory, m, hboxed, hland⟩
  · obtain ⟨memory, qps, hframe⟩ := execute_frame d a q w target
    rw [hsent] at hframe
    obtain ⟨late, last, hreports, hqps, htold⟩ :=
      recvReports_late (d := sent.record out) hone hp rfl rfl
    refine ⟨_, _, _, _, hsend, hreports, hqps, ?_, htold⟩
    cases hframe
    cases hframe'
    cases hmemory
    rfl
  · cases hboxed
    obtain ⟨hdevice, htold⟩ := land_renumbered (d.joined memory b peer) b peer m
      { d.receive v with posting := d.nextPosting + 1 } (d.nextPosting + 1) d.nextPosting
    have hreports := recvReports_boxed (d := d) (b := b) hv memory m
    rcases hlate : (d.joined memory b peer).land b peer m
      { d.receive v with posting := d.nextPosting + 1 } with ⟨late, last⟩
    rw [hlate] at hreports hdevice htold
    obtain rfl : early = late := (congrArg Prod.fst hland).trans hdevice
    exact ⟨early, out', early, last, hsend, hreports, fun _ => rfl, rfl,
      (congrArg (fun result => tidings result.2) hland).trans htold⟩

end Facing

lemma pushAll_append (cq : CqId) (out out' : List Report) (ring : Ring) :
    pushAll cq (out ++ out') ring = pushAll cq out' (pushAll cq out ring) := by
  simp [pushAll]

lemma rings_of_posts {op op' : Operation} (cq : CqId)
    (hop : ∀ d : Device, (d.perform op).rings.get? cq =
      (d.rings.get? cq).map (pushAll cq (d.pushes op)))
    (hop' : ∀ d : Device, (d.perform op').rings.get? cq =
      (d.rings.get? cq).map (pushAll cq (d.pushes op'))) (d : Device) :
    ((d.perform op).perform op').rings.get? cq =
      (d.rings.get? cq).map (pushAll cq (d.pushes op ++ (d.perform op).pushes op')) := by
  rw [hop', hop, Option.map_map]
  exact congrArg (fun f => (d.rings.get? cq).map f) (funext fun ring => (pushAll_append ..).symm)

variable {target : Endpoint} {peer : QueuePair}

/-- **Early and late receives are equivalent.** Where the peer of a queue pair is ready and has room
for a receive, and no message waits there, it makes no difference whether a request is posted before
the receive or after it. Both posts succeed in both orders; the memory is the same afterwards, and
so are the queue pairs, save for the numbers of what waits there, and all else but the rings. These
get what the posts push, one after the other, and that is the same completions in some order,
whether the transfer works or fails and takes queue pairs along. -/
theorem receive_early_or_late (h : d.Facing a q target b peer) (hv : peer.Admits v)
    (hw : w.sgl.length ≤ q.caps.maxSendSge.toNat) :
    ∃ waiting early sent late,
      d.postRecv b v = .ok waiting ∧ waiting.postSend a w = .ok early ∧
      d.postSend a w = .ok sent ∧ sent.postRecv b v = .ok late ∧
      early.memory = late.memory ∧
      (∀ id, (early.qps.get? id).map QueuePair.anonymous =
        (late.qps.get? id).map QueuePair.anonymous) ∧
      early = { late with qps := early.qps, rings := early.rings } ∧
      tidings (d.pushes (.postRecv b v) ++ waiting.pushes (.postSend a w)) =
        tidings (d.pushes (.postSend a w) ++ sent.pushes (.postRecv b v)) ∧
      ∀ cq,
        early.rings.get? cq = (d.rings.get? cq).map
          (pushAll cq (d.pushes (.postRecv b v) ++ waiting.pushes (.postSend a w))) ∧
        late.rings.get? cq = (d.rings.get? cq).map
          (pushAll cq (d.pushes (.postSend a w) ++ sent.pushes (.postRecv b v))) := by
  have hfirst := recvReports_waits h.peerFound hv
  have hsend := sendReports_ready h.found h.ready h.bound hw
  rcases hexecute : d.execute a q w target with ⟨sent, out⟩
  rw [hexecute] at hsend
  obtain ⟨early, out', late, last, hearly, hlate, hqps, hrest, htold⟩ :=
    h.second_post hv hw hexecute
  have hmemory : early.memory = late.memory := (congrArg Device.memory hrest :)
  obtain ⟨hperform, hpushes⟩ := postRecv_of_ok hfirst
  obtain ⟨hperform', hpushes'⟩ := postSend_of_ok hsend
  obtain ⟨hearly', hpushed⟩ := postSend_of_ok hearly
  obtain ⟨hlate', hpushed'⟩ := postRecv_of_ok hlate
  refine ⟨d.awaiting b peer v, early.record out', sent.record out, late.record last,
    ?_, ?_, ?_, ?_, hmemory, hqps, ?_, ?_, fun cq => ⟨?_, ?_⟩⟩
  · rw [postRecv, hfirst]
    rfl
  · rw [postSend, hearly]
    rfl
  · rw [postSend, hsend]
    rfl
  · rw [postRecv, hlate]
    rfl
  · rw [hrest]
    rfl
  · rw [hpushes, hpushes', hpushed, hpushed']
    exact htold
  · have hrings := rings_of_posts cq (fun d => postRecv_rings b v) (fun d => postSend_rings a w) d
    rwa [hperform, show (d.awaiting b peer v).record [] = d.awaiting b peer v from rfl,
      hearly'] at hrings
  · have hrings := rings_of_posts cq (fun d => postSend_rings a w) (fun d => postRecv_rings b v) d
    rwa [hperform', hlate'] at hrings

def mismatched : List Operation :=
  [.addFabric, .openNic 0 {}, .createCq {} 8, .createQp ⟨1, some 2, some 2, {}, 0⟩,
    .createQp ⟨1, some 2, some 2, {}, 0⟩, .connect 3 ⟨1, 2, 0⟩, .connect 4 ⟨1, 1, 0⟩,
    .register 1 4096 4 .full, .postRecv 4 ⟨10, []⟩]

theorem receive_early_or_late_mismatched :
    ∃ q peer, (run mismatched).Facing 3 q ⟨1, 2, 0⟩ 4 peer ∧ peer.Admits ⟨12, []⟩ ∧
      ∃ waiting early sent late, (run mismatched).postRecv 4 ⟨12, []⟩ = .ok waiting ∧
        waiting.postSend 3 ⟨11, [⟨⟨4096, 4⟩, 1⟩], .send none⟩ = .ok early ∧
        (run mismatched).postSend 3 ⟨11, [⟨⟨4096, 4⟩, 1⟩], .send none⟩ = .ok sent ∧
        sent.postRecv 4 ⟨12, []⟩ = .ok late ∧ early.memory = late.memory := by
  let q : QueuePair :=
    { fabric := 0, nic := 1, endpoint := ⟨1, 1, 0⟩, caps := {}, sendCq := 2, recvCq := 2
      state := .rts, remote := some ⟨1, 2, 0⟩ }
  let peer : QueuePair :=
    { fabric := 0, nic := 1, endpoint := ⟨1, 2, 0⟩, caps := {}, sendCq := 2, recvCq := 2
      state := .rts, remote := some ⟨1, 1, 0⟩, recvs := [⟨0, 10, []⟩] }
  have hfacing : (run mismatched).Facing 3 q ⟨1, 2, 0⟩ 4 peer := ⟨by cbv, rfl, rfl, by cbv⟩
  have hadmits : peer.Admits ⟨12, []⟩ := ⟨rfl, rfl, by decide, by decide⟩
  obtain ⟨waiting, early, sent, late, hwaiting, hearly, hsent, hlate, hmemory, -⟩ :=
    receive_early_or_late (w := ⟨11, [⟨⟨4096, 4⟩, 1⟩], .send none⟩) hfacing hadmits (by decide)
  exact ⟨q, peer, hfacing, hadmits, waiting, early, sent, late, hwaiting, hearly, hsent, hlate,
    hmemory⟩

end Device

end Verbs
