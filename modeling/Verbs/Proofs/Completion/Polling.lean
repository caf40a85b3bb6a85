import Mathlib.Tactic
import Verbs.CompletionQueue
import Verbs.Proofs.Device.Rings

/-!
A completion ring under pushes and polls. Each form of polling has its own buffer, and all of them
come down to taking the oldest completions, so a ring is a queue of bounded length until a push
finds it full. From then on polls are refused and pushes are lost, and what is in the ring stays
there.
-/

namespace Verbs.CompletionQueue

/-! ### Polls -/

variable {q : CompletionQueue} {d : Device} {id : CqId} {r : Ring} {n : Nat}

lemma take_filled (cs buffer : List Completion) :
    (cs ++ buffer.drop cs.length).take cs.length = cs := by
  rw [List.take_append_of_le_length le_rfl, List.take_length]

lemma pollSome_eq (q : CompletionQueue) (d : Device) (n : UInt32) :
    q.pollSome d n = q.poll d n.toNat := by
  simp only [pollSome, pollInto, List.length_replicate]
  rcases q.poll d n.toNat with e | ⟨cs, q', d'⟩
  · rfl
  · exact congrArg (fun cs => Except.ok (cs, q', d')) (take_filled cs _)

lemma pollOne_eq (q : CompletionQueue) (d : Device) :
    (q.pollOne d).map (fun (c, q, d) => (c.toList, q, d)) = q.poll d 1 := by
  simp only [pollOne, pollInto, List.length_singleton]
  rcases h : q.poll d 1 with e | ⟨cs, q', d'⟩
  · rfl
  · have hone := (poll_ok h).1
    rcases cs with - | ⟨c, - | ⟨c', rest⟩⟩
    · rfl
    · rfl
    · simp at hone

lemma pollBy_eq (q : CompletionQueue) (d : Device) (mode : PollMode) :
    q.pollBy d mode = q.poll d (mode.limit (q.capacity d)) := by
  cases mode with
  | all => exact pollSome_eq q d _
  | one => exact pollOne_eq q d
  | upTo n => exact pollSome_eq q d n
  | into buffer =>
    simp only [pollBy, pollInto, PollMode.limit]
    rcases q.poll d buffer.length with e | ⟨cs, q', d'⟩
    · rfl
    · exact congrArg (fun cs => Except.ok (cs, q', d')) (take_filled cs buffer)

lemma capacity_ring (hq : q.source = .ring id) (hr : d.rings.get? id = some r) :
    q.capacity d = r.depth := by
  simp only [capacity, hq, hr]

lemma poll_of_overrun (hq : q.source = .ring id) (hr : d.rings.get? id = some r)
    (hover : r.overrun = true) (hn : n ≠ 0) : q.poll d n = .error (.io .queueOverrun) := by
  simp only [poll, if_neg hn, hq, hr, Ring.poll, if_pos hover]

lemma poll_of_sound (hq : q.source = .ring id) (hr : d.rings.get? id = some r)
    (hover : r.overrun = false) : ∃ d', q.poll d n = .ok (r.entries.take n, q, d') ∧
      d'.rings.get? id = some { r with entries := r.entries.drop n } := by
  by_cases hn : n = 0
  · exact ⟨d, by rw [hn]; rfl, by rw [hn]; exact hr⟩
  · refine ⟨{ d with rings := d.rings.set id { r with entries := r.entries.drop n } }, ?_,
      Table.get?_set_self _ _ _⟩
    simp only [poll, if_neg hn, hq, hr, Ring.poll, hover, Bool.false_eq_true, if_false]

/-! ### What happens to a ring -/

inductive Event where
  | push (c : Completion)
  | poll (mode : PollMode)

def Event.content (depth : UInt32) : Event → Completion ⊕ Nat
  | push c => .inl c
  | poll mode => .inr (mode.limit depth)

/-- What is pushed, oldest first. -/
def arrivals (events : List Event) : List Completion :=
  events.filterMap fun
    | .push c => some c
    | .poll _ => none

/-- The queue and the device, and what each poll has returned so far. -/
structure Course where
  queue : CompletionQueue
  device : Device
  answers : List (Except CallError (List Completion)) := []

namespace Course

def step (id : CqId) (s : Course) : Event → Course
  | .push c => { s with device := s.device.record [⟨0, id, c⟩] }
  | .poll mode =>
    match s.queue.pollBy s.device mode with
    | .ok (cs, queue, device) => ⟨queue, device, s.answers ++ [.ok cs]⟩
    | .error e => { s with answers := s.answers ++ [.error e] }

def run (id : CqId) (s : Course) (events : List Event) : Course := events.foldl (step id) s

lemma run_snoc (id : CqId) (s : Course) (events : List Event) (e : Event) :
    s.run id (events ++ [e]) = (s.run id events).step id e :=
  List.foldl_concat _ _ _ _

/-- The completions that polls have handed out, oldest first. -/
def handedOut (s : Course) : List Completion :=
  s.answers.flatMap fun
    | .ok cs => cs
    | .error _ => []

def Full (id : CqId) (s : Course) : Prop :=
  ∃ r, s.device.rings.get? id = some r ∧ r.depth.toNat ≤ r.entries.length

/-- A push among the events finds the ring full. -/
def Spills (id : CqId) (s : Course) (events : List Event) : Prop :=
  ∃ before c after, events = before ++ .push c :: after ∧ (s.run id before).Full id

variable {s : Course} {mode : PollMode} {c : Completion}

lemma rings_push (hr : s.device.rings.get? id = some r) :
    (s.step id (.push c)).device.rings.get? id = some (r.push c) := by
  simp [step, Device.record, Table.get?_modify, hr]

lemma step_poll_nothing (h : mode.limit (s.queue.capacity s.device) = 0) :
    s.step id (.poll mode) = { s with answers := s.answers ++ [.ok []] } := by
  simp only [step, pollBy_eq, h, poll, if_true]

lemma step_poll_of_overrun (hq : s.queue.source = .ring id)
    (hr : s.device.rings.get? id = some r) (hover : r.overrun = true)
    (hn : mode.limit r.depth ≠ 0) :
    s.step id (.poll mode) = { s with answers := s.answers ++ [.error (.io .queueOverrun)] } := by
  simp only [step, pollBy_eq, capacity_ring hq hr, poll_of_overrun hq hr hover hn]

lemma step_poll_of_sound (hq : s.queue.source = .ring id)
    (hr : s.device.rings.get? id = some r) (hover : r.overrun = false) (mode : PollMode) :
    ∃ d', s.step id (.poll mode) =
        ⟨s.queue, d', s.answers ++ [.ok (r.entries.take (mode.limit r.depth))]⟩ ∧
      d'.rings.get? id = some { r with entries := r.entries.drop (mode.limit r.depth) } := by
  obtain ⟨d', hpoll, hd'⟩ := poll_of_sound (n := mode.limit r.depth) hq hr hover
  exact ⟨d', by simp only [step, pollBy_eq, capacity_ring hq hr, hpoll], hd'⟩

/-! ### The ring in a run -/

/-- A ring of some depth after some events. An overrun ring is full, and it is overrun only if a
push has found it full. -/
structure Reached (start : Course) (id : CqId) (depth : UInt32) (events : List Event) (s : Course)
    (r : Ring) : Prop where
  queue : s.queue = start.queue
  ring : s.device.rings.get? id = some r
  sized : r.depth = depth
  bounded : r.entries.length ≤ depth.toNat
  full : r.overrun = true → depth.toNat ≤ r.entries.length
  flow : ¬ start.Spills id events →
    r.overrun = false ∧ s.handedOut ++ r.entries = arrivals events

variable {start : Course} {depth : UInt32} {events : List Event}

lemma Spills.snoc (h : start.Spills id events) (e : Event) : start.Spills id (events ++ [e]) := by
  obtain ⟨before, c, after, rfl, hfull⟩ := h
  exact ⟨before, c, after ++ [e], by simp, hfull⟩

lemma Reached.push (h : Reached start id depth events (start.run id events) r) (c : Completion) :
    Reached start id depth (events ++ [.push c]) (start.run id (events ++ [.push c]))
      (r.push c) := by
  rw [run_snoc]
  by_cases hfull : r.depth.toNat ≤ r.entries.length
  · have hpush : r.push c = { r with overrun := true } := if_pos hfull
    rw [hpush]
    refine ⟨h.queue, hpush ▸ rings_push h.ring, h.sized, h.bounded, fun _ => h.sized ▸ hfull, ?_⟩
    exact fun hnot => absurd ⟨events, c, [], rfl, r, h.ring, hfull⟩ hnot
  · have hpush : r.push c = { r with entries := r.entries ++ [c] } := if_neg hfull
    rw [hpush]
    refine ⟨h.queue, hpush ▸ rings_push h.ring, h.sized, ?_, fun hover => ?_, fun hnot => ?_⟩
    · rw [List.length_append, List.length_singleton, ← h.sized]
      exact Nat.lt_of_not_le hfull
    · exact absurd (h.sized ▸ h.full hover) hfull
    · obtain ⟨hover, hflow⟩ := h.flow fun hspills => hnot (hspills.snoc _)
      refine ⟨hover, ?_⟩
      have harrivals : arrivals (events ++ [.push c]) = arrivals events ++ [c] := by
        simp [arrivals]
      rw [harrivals, ← hflow, List.append_assoc]
      rfl

lemma Reached.poll (h : Reached start id depth events (start.run id events) r)
    (hq : start.queue.source = .ring id) (mode : PollMode) :
    ∃ r', Reached start id depth (events ++ [.poll mode])
      (start.run id (events ++ [.poll mode])) r' := by
  have hq' : (start.run id events).queue.source = .ring id := h.queue ▸ hq
  have harrivals : arrivals (events ++ [.poll mode]) = arrivals events := by simp [arrivals]
  rw [run_snoc]
  rcases hover : r.overrun with - | -
  · obtain ⟨d', hstep, hd'⟩ := step_poll_of_sound hq' h.ring hover mode
    rw [hstep]
    refine ⟨_, h.queue, hd', h.sized, ?_, fun hyes => ?_, fun hnot => ⟨hover, ?_⟩⟩
    · rw [List.length_drop]
      exact (Nat.sub_le _ _).trans h.bounded
    · exact nomatch hover.symm.trans hyes
    · rw [harrivals, ← (h.flow fun hspills => hnot (hspills.snoc _)).2]
      simp [handedOut]
  · -- a ring that is overrun has lost a push before
    have hspills : start.Spills id events := by
      by_contra hnot
      exact nomatch hover.symm.trans (h.flow hnot).1
    have hspills' := hspills.snoc (.poll mode)
    by_cases hn : mode.limit r.depth = 0
    · rw [step_poll_nothing (by rw [capacity_ring hq' h.ring]; exact hn)]
      exact ⟨r, h.queue, h.ring, h.sized, h.bounded, h.full, fun hnot => absurd hspills' hnot⟩
    · rw [step_poll_of_overrun hq' h.ring hover hn]
      exact ⟨r, h.queue, h.ring, h.sized, h.bounded, h.full, fun hnot => absurd hspills' hnot⟩

lemma reached (start : Course) (hq : start.queue.source = .ring id)
    (hr : start.device.rings.get? id = some { depth := depth }) (hstart : start.answers = [])
    (events : List Event) : ∃ r, Reached start id depth events (start.run id events) r := by
  induction events using List.reverseRecOn with
  | nil =>
    refine ⟨_, rfl, hr, rfl, Nat.zero_le _, (nomatch ·), fun _ => ⟨rfl, ?_⟩⟩
    simp [handedOut, arrivals, run, hstart]
  | append_singleton events e ih =>
    obtain ⟨r, h⟩ := ih
    cases e with
    | push c => exact ⟨_, h.push c⟩
    | poll mode => exact h.poll hq mode

lemma step_congr (hcap : s.queue.capacity s.device = depth) {e e' : Event}
    (h : e.content depth = e'.content depth) : s.step id e = s.step id e' := by
  cases e with
  | push c =>
    cases e' with
    | push c' => rw [Sum.inl.inj h]
    | poll mode' => cases h
  | poll mode =>
    cases e' with
    | push c' => cases h
    | poll mode' =>
      have hlimit : mode.limit depth = mode'.limit depth := Sum.inr.inj h
      simp only [step, pollBy_eq, hcap, hlimit]

lemma run_congr (hq : start.queue.source = .ring id)
    (hr : start.device.rings.get? id = some { depth := depth }) (hstart : start.answers = [])
    {others : List Event}
    (h : others.map (Event.content depth) = events.map (Event.content depth)) :
    start.run id others = start.run id events := by
  induction events using List.reverseRecOn generalizing others with
  | nil => rw [List.map_eq_nil_iff.mp h]
  | append_singleton events e ih =>
    rw [List.map_append] at h
    obtain ⟨others, last, rfl, hothers, hlast⟩ := List.map_eq_append_iff.mp h
    obtain ⟨e', rfl, he⟩ := List.map_eq_singleton_iff.mp hlast
    obtain ⟨r, hreached⟩ := reached start hq hr hstart events
    have hcap : (start.run id events).queue.capacity (start.run id events).device = depth := by
      rw [capacity_ring (hreached.queue ▸ hq) hreached.ring, hreached.sized]
    rw [run_snoc, run_snoc, ih hothers, step_congr hcap he]

/-! ### An overrun ring -/

lemma step_of_overrun (hq : s.queue.source = .ring id) (hr : s.device.rings.get? id = some r)
    (hover : r.overrun = true) (hfull : r.depth.toNat ≤ r.entries.length) (e : Event) :
    (s.step id e).queue = s.queue ∧ (s.step id e).device.rings.get? id = some r := by
  cases e with
  | push c =>
    have hpush : r.push c = r := by
      rw [Ring.push, if_pos hfull, ← hover]
    exact ⟨rfl, (rings_push hr).trans (congrArg some hpush)⟩
  | poll mode =>
    by_cases hn : mode.limit r.depth = 0
    · rw [step_poll_nothing (by rw [capacity_ring hq hr]; exact hn)]
      exact ⟨rfl, hr⟩
    · rw [step_poll_of_overrun hq hr hover hn]
      exact ⟨rfl, hr⟩

lemma run_of_overrun (hq : s.queue.source = .ring id) (hr : s.device.rings.get? id = some r)
    (hover : r.overrun = true) (hfull : r.depth.toNat ≤ r.entries.length) (events : List Event) :
    (s.run id events).queue = s.queue ∧ (s.run id events).device.rings.get? id = some r := by
  induction events using List.reverseRecOn with
  | nil => exact ⟨rfl, hr⟩
  | append_singleton events e ih =>
    rw [run_snoc]
    obtain ⟨hqueue, hring⟩ := step_of_overrun (ih.1 ▸ hq) ih.2 hover hfull e
    exact ⟨hqueue.trans ih.1, hring⟩

/-! ### The queue as a whole -/

/-- What was handed out and what still waits is what has arrived, in order, and every poll takes the
oldest of what waits. -/
structure Faithful (s : Course) (id : CqId) (depth : UInt32) (arrived : List Completion) :
    Prop where
  flow : s.handedOut ++ s.device.entries id = arrived
  taken (mode : PollMode) : (s.step id (.poll mode)).answers =
    s.answers ++ [.ok ((s.device.entries id).take (mode.limit depth))]
  kept (mode : PollMode) : (s.step id (.poll mode)).device.entries id =
    (s.device.entries id).drop (mode.limit depth)

/-- What waits stays: pushes are lost, and polls that ask for something are refused and change
nothing. -/
structure Broken (s : Course) (id : CqId) (depth : UInt32) (waiting : List Completion) : Prop where
  kept : s.device.entries id = waiting
  lost (c : Completion) : (s.step id (.push c)).device.entries id = waiting
  refused (mode : PollMode) (h : mode.limit depth ≠ 0) : s.step id (.poll mode) =
    { s with answers := s.answers ++ [.error (.io .queueOverrun)] }

lemma Reached.faithful (h : Reached start id depth events s r)
    (hq : start.queue.source = .ring id) (hnot : ¬ start.Spills id events) :
    s.Faithful id depth (arrivals events) := by
  obtain ⟨hover, hflow⟩ := h.flow hnot
  have hentries : s.device.entries id = r.entries := Device.entries_of_ring h.ring
  have hpoll := step_poll_of_sound (h.queue ▸ hq) h.ring hover
  simp only [h.sized] at hpoll
  refine ⟨by rw [hentries, hflow], fun mode => ?_, fun mode => ?_⟩
  · obtain ⟨d', hstep, -⟩ := hpoll mode
    rw [hstep, hentries]
  · obtain ⟨d', hstep, hd'⟩ := hpoll mode
    rw [hstep, hentries, Device.entries_of_ring hd']

lemma broken_of_full (hq : s.queue.source = .ring id) (hr : s.device.rings.get? id = some r)
    (hfull : r.depth.toNat ≤ r.entries.length) (c : Completion) (events : List Event) :
    (s.run id (.push c :: events)).Broken id r.depth (s.device.entries id) := by
  have hpush : (s.step id (.push c)).device.rings.get? id = some { r with overrun := true } :=
    (rings_push hr).trans (congrArg some (if_pos hfull))
  have hqueue : (s.step id (.push c)).queue = s.queue := rfl
  obtain ⟨hqueue', hring⟩ := run_of_overrun (hqueue ▸ hq) hpush rfl hfull events
  have hq' := hqueue'.trans hqueue ▸ hq
  refine ⟨?_, fun c' => ?_, fun mode hn => step_poll_of_overrun hq' hring rfl hn⟩
  · rw [Device.entries_of_ring hr]
    exact (Device.entries_of_ring hring :)
  · rw [Device.entries_of_ring hr]
    exact (Device.entries_of_ring (step_of_overrun hq' hring rfl hfull (.push c')).2 :)

end Course

open Course in
/-- **A ring is a bounded queue, however it is polled, until a push finds it full.** It never holds
more than its depth. Polls in another form that ask for as much give the same answers and leave the
same queue. A poll for nothing gets nothing and changes nothing. Until a push finds the ring full,
polls hand out what has arrived, in order; from that push on nothing reaches or leaves the ring, and
every poll for something is refused. -/
theorem bounded_queue_until_overrun {depth : UInt32} (hq : q.source = .ring id)
    (hr : d.rings.get? id = some { depth := depth }) (events : List Event) :
    let start : Course := { queue := q, device := d }
    let s := start.run id events
    (s.device.entries id).length ≤ depth.toNat ∧
    (∀ others : List Event, others.map (Event.content depth) = events.map (Event.content depth) →
      start.run id others = s) ∧
    (∀ mode : PollMode, mode.limit depth = 0 →
      s.step id (.poll mode) = { s with answers := s.answers ++ [.ok []] }) ∧
    (¬ start.Spills id events → s.Faithful id depth (arrivals events)) ∧
    (∀ before c after, events = before ++ .push c :: after → (start.run id before).Full id →
      s.Broken id depth ((start.run id before).device.entries id)) := by
  intro start s
  obtain ⟨r, h⟩ := reached start hq hr rfl events
  refine ⟨?_, fun others hsame => run_congr hq hr rfl hsame, fun mode hn => ?_, h.faithful hq, ?_⟩
  · rw [Device.entries_of_ring h.ring]
    exact h.bounded
  · exact step_poll_nothing (by rw [capacity_ring (h.queue ▸ hq) h.ring, h.sized]; exact hn)
  · rintro before c after hsplit ⟨r', hr', hfull⟩
    obtain ⟨r'', hbefore⟩ := reached start hq hr rfl before
    have hrun : s = (start.run id before).run id (.push c :: after) := by
      rw [show s = start.run id events from rfl, hsplit]
      exact List.foldl_append
    have hsame : r' = r'' := Option.some.inj (hr'.symm.trans hbefore.ring)
    rw [hrun, ← hbefore.sized, ← hsame]
    exact broken_of_full (hbefore.queue ▸ hq) hr' hfull c after

def pair : Course :=
  { queue := { source := .ring 0 }, device := { rings := Table.empty.set 0 { depth := 2 } } }

/-- Three completions come, of which one is polled; the fourth finds the ring full. -/
theorem bounded_queue_until_overrun_pair :
    (pair.run 0 [.push { wrId := 1 }, .push { wrId := 2 }, .poll .one, .push { wrId := 3 },
      .push { wrId := 4 }, .push { wrId := 5 }]).Broken 0 2 [{ wrId := 2 }, { wrId := 3 }] :=
  (bounded_queue_until_overrun rfl rfl _).2.2.2.2 [.push { wrId := 1 }, .push { wrId := 2 },
    .poll .one, .push { wrId := 3 }] { wrId := 4 } [.push { wrId := 5 }] rfl
    ⟨{ depth := 2, entries := [{ wrId := 2 }, { wrId := 3 }] }, by cbv, by decide⟩

end Verbs.CompletionQueue
