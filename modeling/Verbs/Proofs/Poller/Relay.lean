import Mathlib.Tactic
import Verbs.Poller
import Verbs.Proofs.Executor.Growth

/-!
The thread of a poller, step by step. It looks whether it is told to stop, polls into its buffer,
and hands over what it polled, one completion after another. Completions come to the ring and
threads of the executor go on between any two of its steps. The buffer is used again for every
batch, so behind a short batch there are slots that still hold older completions.
-/

namespace Verbs

variable {κ : Type}

namespace Relay

inductive Exit where
  /-- It was told to stop. -/
  | told
  | failed (error : IoError)
  /-- The executor took no more. -/
  | refused
  deriving DecidableEq

inductive Phase where
  /-- It looks whether it is told to stop. -/
  | checking
  | polling
  | forwarding
  | ended (exit : Exit)
  deriving DecidableEq

/-- A step of the poller's thread, or of something around it. -/
inductive Act (κ : Type) where
  | append (c : Completion)
  | crew (m : Move κ)
  | stop
  | check
  | poll
  | forward

end Relay

/-- A poller between its ring and the crew that it serves. -/
structure Relay (κ : Type) where
  ring : Ring
  crew : Crew κ
  buffer : List Completion
  /-- How many slots of the buffer the last batch filled. -/
  count : Nat := 0
  /-- The slot to hand over next. -/
  next : Nat := 0
  phase : Relay.Phase := .checking
  stopped : Bool := false
  /-- What the ring held at the start. -/
  found : List Completion
  appended : List Completion := []
  /-- What the executor accepted from this poller. -/
  handed : List Completion := []

namespace Relay

/-- A poller that has just been started; a batch of none counts as one. -/
def start (ring : Ring) (crew : Crew κ) (batch : Nat) : Relay κ where
  ring
  crew
  buffer := List.replicate (max 1 batch) default
  found := ring.entries

def perform (s : Relay κ) : Act κ → Relay κ
  | .append c =>
    { s with
      ring := s.ring.push c
      -- nothing, if the ring is full
      appended := s.appended ++ (s.ring.push c).entries.drop s.ring.entries.length }
  | .crew m => { s with crew := s.crew.perform m }
  | .stop => { s with stopped := true }
  | .check =>
    match s.phase with
    | .checking => { s with phase := if s.stopped then .ended .told else .polling }
    | _ => s
  | .poll =>
    match s.phase with
    | .polling =>
      match s.ring.poll s.buffer.length with
      | .error error => { s with phase := .ended (.failed error) }
      | .ok (cs, ring) =>
        { s with
          ring
          buffer := cs ++ s.buffer.drop cs.length
          count := cs.length
          next := 0
          phase := if cs.isEmpty then .checking else .forwarding }
    | _ => s
  | .forward =>
    match s.phase, s.buffer[s.next]? with
    | .forwarding, some c =>
      if (s.crew.executor.process? c).isSome then
        { s with
          crew := s.crew.perform (.process c)
          next := s.next + 1
          phase := if s.next + 1 = s.count then .checking else .forwarding
          handed := s.handed ++ [c] }
      else { s with phase := .ended .refused }
    | _, _ => s

def run (ring : Ring) (crew : Crew κ) (batch : Nat) (acts : List (Act κ)) : Relay κ :=
  acts.foldl perform (start ring crew batch)

lemma run_snoc (ring : Ring) (crew : Crew κ) (batch : Nat) (acts : List (Act κ)) (a : Act κ) :
    run ring crew batch (acts ++ [a]) = (run ring crew batch acts).perform a := by
  simp [run]

def stored (s : Relay κ) : List Completion := s.found ++ s.appended

/-- The rest of the batch: polled and not handed over. -/
def pending (s : Relay κ) : List Completion := (s.buffer.take s.count).drop s.next

variable {s s' : Relay κ}

/-! ### What a step can do -/

inductive Step (s : Relay κ) : Relay κ → Prop where
  | stay : Step s s
  | append (c : Completion) :
      Step s { s with
        ring.entries := s.ring.entries ++ [c]
        appended := s.appended ++ [c] }
  | overrun : Step s { s with ring.overrun := true }
  | crew (m : Move κ) : Step s { s with crew := s.crew.perform m }
  | stop : Step s { s with stopped := true }
  | told (checking : s.phase = .checking) (stopped : s.stopped = true) :
      Step s { s with phase := .ended .told }
  | go (checking : s.phase = .checking) : Step s { s with phase := .polling }
  | failed (polling : s.phase = .polling) (overrun : s.ring.overrun = true) :
      Step s { s with phase := .ended (.failed .queueOverrun) }
  | fetch (cs rest : List Completion) (polling : s.phase = .polling)
      (entries : s.ring.entries = cs ++ rest) (fits : cs.length ≤ s.buffer.length) :
      Step s { s with
        ring.entries := rest
        buffer := cs ++ s.buffer.drop cs.length
        count := cs.length
        next := 0
        phase := if cs.isEmpty then .checking else .forwarding }
  | refused (forwarding : s.phase = .forwarding)
      (closed : s.crew.executor.queue.closed = true) :
      Step s { s with phase := .ended .refused }
  | hand (c : Completion) (forwarding : s.phase = .forwarding)
      (slot : s.buffer[s.next]? = some c) (accepts : (s.crew.executor.process? c).isSome) :
      Step s { s with
        crew := s.crew.perform (.process c)
        next := s.next + 1
        phase := if s.next + 1 = s.count then .checking else .forwarding
        handed := s.handed ++ [c] }

lemma process?_isSome {e : Executor κ} {c : Completion} :
    (e.process? c).isSome = true ↔ e.queue.closed = false := by
  by_cases h : e.queue.closed = true <;> simp [Executor.process?, ClosableQueue.push?, h]

lemma perform_step (s : Relay κ) (a : Act κ) : Step s (s.perform a) := by
  cases a with
  | append c =>
    by_cases hfull : s.ring.depth.toNat ≤ s.ring.entries.length
    · simp only [perform, Ring.push, if_pos hfull, List.drop_length, List.append_nil]
      exact .overrun
    · simp only [perform, Ring.push, if_neg hfull, List.drop_left]
      exact .append c
  | crew m => exact .crew m
  | stop => exact .stop
  | check =>
    simp only [perform]
    split
    · rename_i hphase
      by_cases hstopped : s.stopped = true
      · rw [if_pos hstopped]
        exact .told hphase hstopped
      · rw [if_neg hstopped]
        exact .go hphase
    · exact .stay
  | poll =>
    simp only [perform]
    split
    · rename_i hphase
      by_cases hoverrun : s.ring.overrun = true
      · simp only [Ring.poll, if_pos hoverrun]
        exact .failed hphase hoverrun
      · simp only [Ring.poll, if_neg hoverrun]
        exact .fetch _ _ hphase (List.take_append_drop _ _).symm (List.length_take_le _ _)
    · exact .stay
  | forward =>
    simp only [perform]
    split
    · rename_i c hphase hslot
      by_cases haccepts : (s.crew.executor.process? c).isSome = true
      · rw [if_pos haccepts]
        exact .hand c hphase hslot haccepts
      · rw [if_neg haccepts]
        rw [process?_isSome, Bool.not_eq_false] at haccepts
        exact .refused hphase haccepts
    · exact .stay

lemma ended_perform {exit : Exit} (h : s.phase = .ended exit) (a : Act κ) :
    (s.perform a).phase = .ended exit ∧ (s.perform a).pending = s.pending ∧
      (s.perform a).handed = s.handed := by
  have hs := perform_step s a
  generalize s.perform a = s' at hs ⊢
  cases hs with
  | stay | append | overrun | crew | stop => exact ⟨h, rfl, rfl⟩
  | told checking | go checking => cases h.symm.trans checking
  | failed polling | fetch _ _ polling => cases h.symm.trans polling
  | refused forwarding | hand _ forwarding => cases h.symm.trans forwarding

/-! ### What every step keeps -/

lemma pending_of_slot {c : Completion} (unsent : s.next < s.count)
    (slot : s.buffer[s.next]? = some c) :
    s.pending = c :: (s.buffer.take s.count).drop (s.next + 1) := by
  have htake : (s.buffer.take s.count)[s.next]? = some c := by
    rw [List.getElem?_take_of_lt unsent, slot]
  obtain ⟨hlt, hget⟩ := List.getElem?_eq_some_iff.mp htake
  rw [pending, List.drop_eq_getElem_cons hlt, hget]

/-- No completion is lost, repeated or made up between the ring and the executor. While the thread
hands a batch over, and after it was refused, a rest of the batch is left, and otherwise nothing. -/
structure Sound (s : Relay κ) (batch : Nat) : Prop where
  slots : s.buffer.length = max 1 batch
  room : s.count ≤ s.buffer.length
  busy : s.phase = .forwarding ∨ s.phase = .ended .refused → s.next < s.count
  idle : s.phase ≠ .forwarding → s.phase ≠ .ended .refused → s.next = s.count
  told : s.phase = .ended .told → s.stopped = true
  failed : ∀ error, s.phase = .ended (.failed error) → s.ring.overrun = true
  refused : s.phase = .ended .refused → s.crew.executor.queue.closed = true
  balance : s.stored = s.handed ++ s.pending ++ s.ring.entries

namespace Sound

variable {batch : Nat}

lemma pending_eq_nil (h : s.Sound batch) (hforwarding : s.phase ≠ .forwarding)
    (hrefused : s.phase ≠ .ended .refused) : s.pending = [] := by
  rw [pending, h.idle hforwarding hrefused]
  exact List.drop_eq_nil_of_le (List.length_take_le _ _)

lemma pending_ne_nil (h : s.Sound batch) (unsent : s.next < s.count) : s.pending ≠ [] := by
  apply List.ne_nil_of_length_pos
  rw [pending, List.length_drop, List.length_take, Nat.min_eq_left h.room]
  omega

lemma pending_length_le (h : s.Sound batch) : s.pending.length ≤ max 1 batch := by
  rw [pending, List.length_drop, List.length_take, ← h.slots]
  omega

lemma idle_phase {phase : Phase} (h : s.Sound batch) (hforwarding : s.phase ≠ .forwarding)
    (hrefused : s.phase ≠ .ended .refused) (hphase : phase ≠ .forwarding)
    (hphase' : phase ≠ .ended .refused) (htold : phase = .ended .told → s.stopped = true)
    (hfailed : ∀ error, phase = .ended (.failed error) → s.ring.overrun = true) :
    Sound { s with phase } batch where
  slots := h.slots
  room := h.room
  busy hp := (hp.elim hphase hphase').elim
  idle _ _ := h.idle hforwarding hrefused
  told := htold
  failed := hfailed
  refused hp := absurd hp hphase'
  balance := h.balance

end Sound

lemma Step.sound {batch : Nat} (h : Step s s') (hs : s.Sound batch) : s'.Sound batch := by
  cases h with
  | stay => exact hs
  | append c =>
    refine ⟨hs.slots, hs.room, hs.busy, hs.idle, hs.told, hs.failed, hs.refused, ?_⟩
    calc s.found ++ (s.appended ++ [c]) = s.stored ++ [c] := (List.append_assoc _ _ _).symm
      _ = s.handed ++ s.pending ++ (s.ring.entries ++ [c]) := by
        rw [hs.balance, List.append_assoc]
  | overrun =>
    exact ⟨hs.slots, hs.room, hs.busy, hs.idle, hs.told, fun _ _ => rfl, hs.refused, hs.balance⟩
  | crew m =>
    exact ⟨hs.slots, hs.room, hs.busy, hs.idle, hs.told, hs.failed,
      fun hp => (Crew.perform_step _ m).queue_closed (hs.refused hp), hs.balance⟩
  | stop =>
    exact ⟨hs.slots, hs.room, hs.busy, hs.idle, fun _ => rfl, hs.failed, hs.refused, hs.balance⟩
  | told checking stopped =>
    exact hs.idle_phase (by simp [checking]) (by simp [checking]) (by simp) (by simp)
      (fun _ => stopped) (by simp)
  | go checking =>
    exact hs.idle_phase (by simp [checking]) (by simp [checking]) (by simp) (by simp) (by simp)
      (by simp)
  | failed polling overrun =>
    exact hs.idle_phase (by simp [polling]) (by simp [polling]) (by simp) (by simp) (by simp)
      (fun _ _ => overrun)
  | fetch cs rest polling entries fits =>
    have hnone : s.pending = [] := hs.pending_eq_nil (by simp [polling]) (by simp [polling])
    have hbatch : ((cs ++ s.buffer.drop cs.length).take cs.length).drop 0 = cs := by
      rw [List.take_left, List.drop_zero]
    have hbalance : s.stored = s.handed ++ cs ++ rest := by
      rw [hs.balance, hnone, entries, List.append_nil, List.append_assoc]
    have hslots : (cs ++ s.buffer.drop cs.length).length = s.buffer.length := by
      rw [List.length_append, List.length_drop]
      omega
    refine ⟨hslots.trans hs.slots, fits.trans_eq hslots.symm, ?_, ?_, ?_, ?_, ?_, ?_⟩
    · rcases cs with - | ⟨c, cs⟩ <;> simp
    · rcases cs with - | ⟨c, cs⟩ <;> simp
    · rcases cs with - | ⟨c, cs⟩ <;> simp
    · rcases cs with - | ⟨c, cs⟩ <;> simp
    · rcases cs with - | ⟨c, cs⟩ <;> simp
    · exact hbalance.trans (congrArg (s.handed ++ · ++ rest) hbatch.symm)
  | refused forwarding closed =>
    exact ⟨hs.slots, hs.room, fun _ => hs.busy (Or.inl forwarding), fun _ hp => absurd rfl hp,
      by simp, by simp, fun _ => closed, hs.balance⟩
  | hand c forwarding slot accepts =>
    -- after the last completion of its batch the thread polls again
    have hunsent := hs.busy (Or.inl forwarding)
    refine ⟨hs.slots, hs.room, ?_, ?_, ?_, ?_, ?_, ?_⟩
    · by_cases hlast : s.next + 1 = s.count
      · simp [hlast]
      · exact fun _ => lt_of_le_of_ne hunsent hlast
    · by_cases hlast : s.next + 1 = s.count
      · exact fun _ _ => hlast
      · simp [hlast]
    · split <;> simp
    · split <;> simp
    · split <;> simp
    · have hbalance := hs.balance
      rw [pending_of_slot hunsent slot] at hbalance
      exact hbalance.trans (by simp [pending])

lemma Sound.foldl {batch : Nat} (h : s.Sound batch) (acts : List (Act κ)) :
    (acts.foldl perform s).Sound batch := by
  induction acts generalizing s with
  | nil => exact h
  | cons a acts ih => exact ih ((perform_step s a).sound h)

lemma sound_start (ring : Ring) (crew : Crew κ) (batch : Nat) :
    (start ring crew batch).Sound batch := by
  refine ⟨List.length_replicate, Nat.zero_le _, ?_, fun _ _ => rfl, ?_, ?_, ?_, ?_⟩
  · rintro (h | h) <;> cases h
  · exact fun h => nomatch h
  · exact fun _ h => nomatch h
  · exact fun h => nomatch h
  · simp [start, stored, pending]

lemma sound (ring : Ring) (crew : Crew κ) (batch : Nat) (acts : List (Act κ)) :
    (run ring crew batch acts).Sound batch := (sound_start ring crew batch).foldl acts

lemma found_run (ring : Ring) (crew : Crew κ) (batch : Nat) (acts : List (Act κ)) :
    (run ring crew batch acts).found = ring.entries := by
  induction acts using List.reverseRecOn with
  | nil => rfl
  | append_singleton acts a ih =>
    rw [run_snoc]
    have hs := perform_step (run ring crew batch acts) a
    generalize (run ring crew batch acts).perform a = s' at hs ⊢
    cases hs <;> exact ih

/-! ### A round without interruption -/

def roundActs (batch : Nat) : List (Act κ) :=
  .check :: .poll :: List.replicate (max 1 batch) .forward

lemma forward_idle (h : s.phase ≠ .forwarding) (k : Nat) :
    (List.replicate k .forward).foldl perform s = s := by
  have hstep : s.perform .forward = s := by
    simp only [perform]
    split
    · rename_i hphase _
      exact absurd hphase h
    · rfl
  induction k with
  | zero => rfl
  | succ k ih => rw [List.replicate_succ, List.foldl_cons, hstep, ih]

lemma forward_alone {cs : List Completion} {k : Nat} (hk : cs.length ≤ k)
    (hphase : s.phase = if cs.isEmpty then .checking else .forwarding) (hpending : s.pending = cs)
    (room : s.count ≤ s.buffer.length) :
    let s' := (List.replicate k .forward).foldl perform s
    s'.ring = s.ring ∧ s'.stored = s.stored ∧
      s'.crew.executor = (s.crew.executor.processAll cs).2 ∧
      s'.phase = if (s.crew.executor.processAll cs).1 then .checking else .ended .refused := by
  induction cs generalizing s k with
  | nil =>
    rw [forward_idle (by simp [hphase])]
    exact ⟨rfl, rfl, rfl, hphase⟩
  | cons c cs ih =>
    obtain ⟨k, rfl⟩ : ∃ j, k = j + 1 := ⟨k - 1, by rw [List.length_cons] at hk; omega⟩
    have hlength : s.pending.length = s.count - s.next := by
      rw [pending, List.length_drop, List.length_take, Nat.min_eq_left room]
    rw [hpending, List.length_cons] at hlength
    have hunsent : s.next < s.count := by omega
    obtain ⟨x, slot⟩ : ∃ x, s.buffer[s.next]? = some x :=
      ⟨_, List.getElem?_eq_getElem (hunsent.trans_le room)⟩
    have hhead := pending_of_slot hunsent slot
    rw [hpending, List.cons.injEq] at hhead
    obtain ⟨rfl, hrest⟩ := hhead
    have forwarding : s.phase = .forwarding := by simpa using hphase
    rw [List.replicate_succ, List.foldl_cons]
    rcases hprocess : s.crew.executor.process? c with - | executor
    · have hstep : s.perform .forward = { s with phase := .ended .refused } := by
        simp [perform, forwarding, slot, hprocess]
      rw [hstep, forward_idle (by simp)]
      simp [Executor.processAll, hprocess, stored]
    · have hstep : s.perform .forward = { s with
          crew := s.crew.perform (.process c)
          next := s.next + 1
          phase := if s.next + 1 = s.count then .checking else .forwarding
          handed := s.handed ++ [c] } := by
        simp [perform, forwarding, slot, hprocess]
      have hexec : (s.crew.perform (.process c)).executor = executor := by
        simp [Crew.perform, hprocess]
      -- the batch ends with its last completion
      have hlast : s.next + 1 = s.count ↔ cs.isEmpty = true := by
        rw [List.isEmpty_iff_length_eq_zero]
        omega
      obtain ⟨hring, hstored, hcrew, hphase'⟩ := ih (s := s.perform .forward) (k := k)
        (by rw [List.length_cons] at hk; omega) (by rw [hstep]; simp only [hlast])
        (by rw [hstep]; exact hrest.symm) (by rw [hstep]; exact room)
      refine ⟨hring.trans (by rw [hstep]), hstored.trans (by rw [hstep]; rfl), hcrew.trans ?_,
        hphase'.trans ?_⟩ <;>
        simp [hstep, Executor.processAll, hprocess, hexec]

lemma fetch_alone {batch : Nat} (slots : s.buffer.length = max 1 batch)
    (checking : s.phase = .checking) (working : s.stopped = false)
    (usable : s.ring.overrun = false) :
    let cs := s.ring.entries.take (max 1 batch)
    let s' := (roundActs batch).foldl perform s
    s'.ring = { s.ring with entries := s.ring.entries.drop (max 1 batch) } ∧
      s'.stored = s.stored ∧ s'.crew.executor = (s.crew.executor.processAll cs).2 ∧
      s'.phase = if (s.crew.executor.processAll cs).1 then .checking else .ended .refused := by
  intro cs s'
  have hbegin : (s.perform .check).perform .poll = { s with
      ring := { s.ring with entries := s.ring.entries.drop (max 1 batch) }
      buffer := cs ++ s.buffer.drop cs.length
      count := cs.length
      next := 0
      phase := if cs.isEmpty then .checking else .forwarding } := by
    simp [perform, checking, working, Ring.poll, usable, slots, cs]
  have hlength : cs.length ≤ max 1 batch := List.length_take_le _ _
  obtain ⟨hring, hstored, hexec, hphase⟩ := forward_alone
    (s := (s.perform .check).perform .poll) hlength (by rw [hbegin]) (by simp [hbegin, pending])
    (by simp [hbegin])
  rw [hbegin] at hring hstored hexec hphase
  refine ⟨?_, ?_, ?_, ?_⟩ <;> simp only [s', roundActs, List.foldl_cons, hbegin]
  · exact hring
  · exact hstored
  · exact hexec
  · exact hphase

lemma processAll_of_open {e : Executor κ} (isOpen : e.queue.closed = false)
    (cs : List Completion) : (e.processAll cs).1 = true := by
  induction cs generalizing e with
  | nil => rfl
  | cons c cs ih =>
    obtain ⟨e', he'⟩ := Option.isSome_iff_exists.mp ((process?_isSome (c := c)).mpr isOpen)
    have hopen : e'.queue.closed = false := by
      simp only [Executor.process?, ClosableQueue.push?, isOpen, Bool.false_eq_true, if_false,
        Option.map_some, Option.some.injEq] at he'
      rw [← he']
    simp only [Executor.processAll, he']
    exact ih hopen

/-- A round hands over the oldest completions of the ring, a batch of them or all that there are,
unless the poller is told to stop, polling fails or the executor is closed. -/
lemma round_hands {batch : Nat} (h : s.Sound batch) (checking : s.phase = .checking)
    (working : s.stopped = false) (usable : s.ring.overrun = false)
    (isOpen : s.crew.executor.queue.closed = false) :
    let s' := (roundActs batch).foldl perform s
    s'.phase = .checking ∧ s'.handed = s.handed ++ s.ring.entries.take (max 1 batch) ∧
      s'.ring.entries = s.ring.entries.drop (max 1 batch) := by
  intro s'
  obtain ⟨hring, hstored, -, hphase⟩ := fetch_alone h.slots checking working usable
  rw [processAll_of_open isOpen, if_pos rfl] at hphase
  have hs' : s'.Sound batch := h.foldl (roundActs batch)
  have hidle : s'.phase = .checking := hphase
  have hentries : s'.ring.entries = s.ring.entries.drop (max 1 batch) := congrArg Ring.entries hring
  have hnone : s.pending = [] := h.pending_eq_nil (by simp [checking]) (by simp [checking])
  have hnone' : s'.pending = [] := hs'.pending_eq_nil (by simp [hidle]) (by simp [hidle])
  have hbalance : s'.handed ++ s.ring.entries.drop (max 1 batch) =
      s.handed ++ s.ring.entries.take (max 1 batch) ++ s.ring.entries.drop (max 1 batch) :=
    calc s'.handed ++ s.ring.entries.drop (max 1 batch) = s'.stored := by
          rw [hs'.balance, hnone', List.append_nil, hentries]
      _ = s.stored := hstored
      _ = s.handed ++ s.ring.entries := by rw [h.balance, hnone, List.append_nil]
      _ = _ := by rw [List.append_assoc, List.take_append_drop]
  exact ⟨hidle, List.append_cancel_right hbalance, hentries⟩

def Phase.status : Phase → PollerStatus
  | .ended (.failed error) => .ended (some error)
  | .ended .refused => .ended none
  | .ended .told => .stopped
  | .checking | .polling | .forwarding => .running

/-- **A round without interruption** is one round of a poller. -/
theorem round_alone {batch : Nat} {id : CqId} {d : Device} (slots : s.buffer.length = max 1 batch)
    (checking : s.phase = .checking) (working : s.stopped = false)
    (found : d.rings.get? id = some s.ring) :
    let s' := (roundActs batch).foldl perform s
    let done := Poller.round batch { source := .ring id } s.crew.executor d
    s'.phase.status = done.1 ∧ s'.crew.executor = done.2.2.1 ∧
      done.2.2.2.rings.get? id = some s'.ring := by
  intro s' done
  have hsome : max 1 batch ≠ 0 := by omega
  by_cases hoverrun : s.ring.overrun = true
  · have hbegin : (s.perform .check).perform .poll =
        { s with phase := .ended (.failed .queueOverrun) } := by
      simp [perform, checking, working, Ring.poll, hoverrun]
    have hs' : s' = { s with phase := .ended (.failed .queueOverrun) } := by
      simp only [s', roundActs, List.foldl_cons, hbegin]
      exact forward_idle (by simp) _
    have hdone : done = (.ended (some .queueOverrun), { source := .ring id },
        s.crew.executor, d) := by
      simp [done, Poller.round, CompletionQueue.poll, found, Ring.poll, hoverrun, hsome,
        CompletionQueue.release]
    rw [hs', hdone]
    exact ⟨rfl, rfl, found⟩
  · obtain ⟨hring, -, hexec, hphase⟩ :=
      fetch_alone slots checking working (by simpa using hoverrun)
    set cs := s.ring.entries.take (max 1 batch) with hcs
    set ring : Ring := { s.ring with entries := s.ring.entries.drop (max 1 batch) } with hring'
    have hround : done.1 = (if (s.crew.executor.processAll cs).1 then .running else .ended none) ∧
        done.2.2.1 = (s.crew.executor.processAll cs).2 ∧
        done.2.2.2 = { d with rings := d.rings.set id ring } := by
      simp only [done, Poller.round, CompletionQueue.poll, found, Ring.poll, if_neg hoverrun,
        if_neg hsome, ← hcs, ← hring']
      rcases s.crew.executor.processAll cs with ⟨- | -, executor⟩ <;> exact ⟨rfl, rfl, rfl⟩
    rw [hround.1, hround.2.1, hround.2.2]
    refine ⟨(congrArg Phase.status hphase).trans ?_, hexec, ?_⟩
    · rcases (s.crew.executor.processAll cs).1 with - | - <;> rfl
    · exact (Table.get?_set_self _ _ _).trans (congrArg some hring.symm)

end Relay

end Verbs
