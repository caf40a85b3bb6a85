import Mathlib.Tactic
import Verbs.Proofs.Device.Aftermath
import Verbs.Proofs.Device.Registrations
import Verbs.Proofs.Memory.Words

/-!
A word that peers run atomics on, from all sides and among everything else that goes on. Nothing is
kept about the word but its bytes, and whatever may write to the region may write to them; but if
only atomics do, and they put what they fetch elsewhere, the word is a register: each of them finds
what those before it have left.
-/

namespace Verbs.Device

open Memory (wordSpots)

variable {d : Device} {x y : Spot} {op : Operation} {v : UInt64} {before ops : List Operation}

/-- An atomic that runs on a word: the windows that get what the word was, and what it does. -/
structure Strike where
  nic : NicId
  sgl : List LocalSlice
  op : SendOp

/-- The atomic that runs on the word at a spot, if the operation is one: its queue pair is connected
to one that takes requests from it, and the peer's region allows it. -/
def strike? (d : Device) (x : Spot) : Operation → Option Strike
  | .postSend id w => do
    let q ← d.qps.get? id
    let (_, peer) ← d.peerOf q
    let remote ← w.op.remote?
    if q.state = .rts ∧ w.sgl.length ≤ q.caps.maxSendSge.toNat ∧ peer.acceptsFrom q.endpoint ∧
        w.op.isAtomic ∧ LocalSlice.totalLen w.sgl = 8 ∧
        d.memory.target peer.nic remote = some x then
      some ⟨q.nic, w.sgl, w.op⟩
    else none
  | _ => none

def updates (x : Spot) (d : Device) (ops : List Operation) : List SendOp :=
  (steps d ops).filterMap fun s => (s.1.strike? x s.2).map (·.op)

def Aims (d : Device) (y : Spot) : Operation → Prop
  | .fill region off data =>
    y.1 = region ∧ off.toNat ≤ y.2 ∧ y.2 < off.toNat + data.length
  | .postSend id w => ∃ v, d.Permitted (.postSend id w) y v
  | .postRecv id w => ∃ v, d.Permitted (.postRecv id w) y v
  | _ => False

/-- An operation leaves a word to its atomics: where it is one of them, its windows can take what
the word was, and where it is not, no byte of the word is written, also if it may be. -/
structure Spares (d : Device) (x : Spot) (op : Operation) : Prop where
  windows : ∀ s, d.strike? x op = some s → d.memory.Receptive s.nic s.sgl x
  unwritten : d.strike? x op = none → ∀ y ∈ wordSpots x, d.Aims y op →
    (d.perform op).memory.byte? y = d.memory.byte? y

/-! ### One atomic -/

lemma strike?_spec {s : Strike} (h : d.strike? x op = some s) :
    ∃ id w q e peerId peer remote, op = .postSend id w ∧ s = ⟨q.nic, w.sgl, w.op⟩ ∧
      d.qps.get? id = some q ∧ q.state = .rts ∧ w.sgl.length ≤ q.caps.maxSendSge.toNat ∧
      q.remote = some e ∧ d.route ⟨q.fabric, e.lid, e.qpn⟩ = some (peerId, peer) ∧
      peer.acceptsFrom q.endpoint ∧ w.op.isAtomic ∧ w.op.remote? = some remote ∧
      LocalSlice.totalLen w.sgl = 8 ∧ d.memory.target peer.nic remote = some x := by
  cases op with
  | postSend id w =>
    simp only [strike?, Option.bind_eq_bind, Option.bind_eq_some_iff] at h
    obtain ⟨q, hq, ⟨peerId, peer⟩, hpeer, remote, hremote, h⟩ := h
    split at h
    · rename_i hcond
      obtain ⟨hstate, hcaps, haccepts, hatomic, hlength, htarget⟩ := hcond
      obtain ⟨e, he, hroute⟩ := Option.bind_eq_some_iff.mp hpeer
      cases h
      exact ⟨id, w, q, e, peerId, peer, remote, rfl, rfl, hq, hstate, hcaps, he, hroute, haccepts,
        hatomic, hremote, hlength, htarget⟩
    · cases h
  | _ => cases h

lemma perform_strike {s : Strike} (h : d.strike? x op = some s)
    (hsgl : d.memory.Receptive s.nic s.sgl x) :
    ∃ old, d.memory.wordAt x = some old ∧
      (d.perform op).memory.wordAt x = some (s.op.newWord old) ∧
      (d.perform op).memory.gather s.nic s.sgl = .ok (Bytes.ofNatLE 8 old.toNat) := by
  obtain ⟨id, w, q, e, peerId, peer, remote, rfl, rfl, hq, hstate, hcaps, he, hroute, haccepts,
    hatomic, hremote, hlength, htarget⟩ := strike?_spec h
  obtain ⟨old, memory, hrun, hold, hnew, hgather⟩ :=
    Memory.atomic_target htarget hlength hsgl w.op.newWord
  have hdispatch : d.dispatch id q w e = (memory, .outcome .success 8) := by
    rw [dispatch_reached (SendOp.isSilentChange_of_isAtomic hatomic) hroute haccepts,
      Memory.oneSided_atomic hatomic hremote, hrun]
  have hmemory : (d.perform (.postSend id w)).memory = memory := by
    rcases hexecute : d.execute id q w e with ⟨d', out⟩
    have hreports : d.sendReports id w = .ok (d', out) := by
      simp only [sendReports, hq, if_neg (Nat.not_lt.mpr hcaps), hstate, he, hexecute]
    rw [(postSend_of_ok hreports).1, record_memory]
    rcases execute_cases d id q w e with ⟨_, _, _, _, hmessage, -⟩ | ⟨_, _, _, houtcome, hdone⟩
    · cases hdispatch.symm.trans hmessage
    · cases hdispatch.symm.trans houtcome
      cases hexecute.symm.trans hdone
      rfl
  rw [hmemory]
  exact ⟨old, hold, hnew, hgather⟩

lemma spares_of_strike {s : Strike} (h : d.strike? x op = some s)
    (hsgl : d.memory.Receptive s.nic s.sgl x) : d.Spares x op := by
  refine ⟨fun s' hs' => ?_, fun hnone => nomatch h.symm.trans hnone⟩
  cases h.symm.trans hs'
  exact hsgl

/-! ### What else goes on -/

lemma byte?_of_not_aims (hk : d.memory.Keyed) (hp : d.qps.Every fun _ q => q.Proper)
    (hnamed : y.1 < d.nextId) (hstays : op ≠ .deregister y.1) (h : ¬ d.Aims y op) :
    (d.perform op).memory.byte? y = d.memory.byte? y := by
  have hchange := perform_change d op
  generalize hd' : d.perform op = d' at hchange ⊢
  cases hchange with
  | refused | addFabric | openNic | skipLids | createCq | poll | overflow | createQp | connect |
    dropQp => rfl
  | register n there fits r own =>
    have hregions : (d.memory.insert d.nextId r).regions.get? y.1 = d.memory.regions.get? y.1 :=
      Table.get?_set_of_ne _ _ hnamed.ne
    simp only [Memory.byte?, hregions]
  | @deregister region =>
    have hne : y.1 ≠ region := fun heq => hstays (heq ▸ rfl)
    have hregions : (d.memory.remove region).regions.get? y.1 = d.memory.regions.get? y.1 := by
      unfold Memory.remove
      split
      · rfl
      · exact (Table.get?_erase _ _ _).trans (if_neg hne)
    simp only [deregister, Memory.byte?, hregions]
  | @fill region off data r r' found filled =>
    unfold Region.fill? at filled
    split at filled
    · rename_i hlen
      cases filled
      exact (congrFun (Memory.byte?_write found le_rfl hlen) y).trans
        ((Memory.poured_range' _ _ _ le_rfl _).trans (if_neg h))
    · cases filled
  | postSend =>
    rw [← hd']
    exact ((postSend_confined hk _ _).bytes y).resolve_right fun hv => h ⟨_, hv⟩
  | postRecv =>
    rw [← hd']
    exact ((postRecv_confined hk hp _ _).bytes y).resolve_right fun hv => h ⟨_, hv⟩

lemma gone_deregister (d : Device) (id : RegionId) :
    (d.perform (.deregister id)).memory.regions.get? id = none := by
  by_contra hthere
  obtain ⟨r, hr⟩ := Option.ne_none_iff_exists'.mp hthere
  exact (Memory.goesBy_remove.mp ⟨hr, rfl, Or.inl rfl⟩).1 rfl

lemma gone_perform {id : RegionId} (hk : d.memory.Keyed) (hp : d.qps.Every fun _ q => q.Proper)
    (hnamed : id < d.nextId) (hgone : d.memory.regions.get? id = none) (op : Operation) :
    (d.perform op).memory.regions.get? id = none := by
  by_contra hthere
  obtain ⟨r, hr⟩ := Option.ne_none_iff_exists'.mp hthere
  rcases perform_memory hk hp op with hsame | ⟨r', -, -, -, -, hmemory, -⟩ | ⟨j, hmemory⟩
  · obtain ⟨r₀, hr₀, -⟩ := hsame.get? hr
    cases hgone.symm.trans hr₀
  · rw [hmemory] at hr
    cases hgone.symm.trans ((Table.get?_set_of_ne _ _ hnamed.ne).symm.trans hr)
  · rw [hmemory] at hr
    cases hgone.symm.trans (Memory.goesBy_remove.mp ⟨hr, rfl, Or.inl rfl⟩).2.found

lemma word_perform (ops : List Operation) (hspares : (run ops).Spares x op)
    (hstays : op ≠ .deregister x.1) (hv : (run ops).memory.wordAt x = some v) :
    ((run ops).perform op).memory.wordAt x =
      some (SendOp.replay v (((run ops).strike? x op).map (·.op)).toList) := by
  have hk := (sound ops).keyed
  rcases hstrike : (run ops).strike? x op with - | s
  · have hnamed : x.1 < (run ops).nextId := by
      obtain ⟨r, hr⟩ := Memory.region_of_wordAt hv
      exact regionsNamed ops x.1 r hr
    -- bytes that the operation aims at are spared, and it cannot reach the others
    refine (Memory.wordAt_congr fun y hy => ?_).trans hv
    by_cases haims : (run ops).Aims y op
    · exact hspares.unwritten hstrike y hy haims
    · rw [← Memory.fst_of_mem_wordSpots hy] at hnamed hstays
      exact byte?_of_not_aims hk (proper ops) hnamed hstays haims
  · obtain ⟨old, hold, hnew, -⟩ := perform_strike hstrike (hspares.windows s hstrike)
    cases hv.symm.trans hold
    exact hnew

/-! ### The word in a run -/

lemma updates_snoc (x : Spot) (before ops : List Operation) (op : Operation) :
    updates x (run before) (ops ++ [op]) =
      updates x (run before) ops ++ (((run (before ++ ops)).strike? x op).map (·.op)).toList := by
  rw [updates, steps_append, List.filterMap_append, ← run_append]
  rcases h : (run (before ++ ops)).strike? x op <;> simp [updates, steps, h]

lemma word_run (hv : (run before).memory.wordAt x = some v)
    (h : ∀ s ∈ steps (run before) ops, s.1.Spares x s.2) :
    (run (before ++ ops)).memory.wordAt x =
        some (SendOp.replay v (updates x (run before) ops)) ∨
      .deregister x.1 ∈ ops ∧ (run (before ++ ops)).memory.regions.get? x.1 = none := by
  induction ops using List.reverseRecOn with
  | nil => exact Or.inl (by rw [List.append_nil]; exact hv)
  | append_singleton ops op ih =>
    rw [steps_append, ← run_append] at h
    have hspares := h (run (before ++ ops), op) (List.mem_append_right _ List.mem_cons_self)
    have hk := (sound (before ++ ops)).keyed
    rw [← List.append_assoc, run_snoc]
    rcases ih fun s hs => h s (List.mem_append_left _ hs) with hword | ⟨hmem, hgone⟩
    · by_cases hstays : op = .deregister x.1
      · subst hstays
        exact Or.inr ⟨by simp, gone_deregister _ _⟩
      · refine Or.inl ?_
        rw [word_perform _ hspares hstays hword, updates_snoc, SendOp.replay_append]
    · -- names are not used twice, so the region that is gone does not come back
      have hnamed : x.1 < (run (before ++ ops)).nextId := by
        obtain ⟨r, hr⟩ := Memory.region_of_wordAt hv
        rw [run_append]
        exact (regionsNamed before x.1 r hr).trans_le (nextId_le_foldl (run before) ops)
      exact Or.inr ⟨List.mem_append_left _ hmem,
        gone_perform hk (proper (before ++ ops)) hnamed hgone op⟩

/-- **Atomics find the word as those before them have left it.** If nothing else writes to a word,
and its atomics put what they fetch into windows that may be written to and keep off the word and
off each other, then each of them fetches what the word was and what those before it have made of
it, and leaves what it makes of that. So the word is the outcome of all of them, unless its region
is deregistered; if they all add to it, it is their sum with what it was, as far as 64 bits hold it.
-/
theorem word_is_register (before ops : List Operation) (x : Spot) (v : UInt64)
    (hword : (run before).memory.wordAt x = some v)
    (hspares : ∀ s ∈ steps (run before) ops, s.1.Spares x s.2) :
    (∀ earlier op later s, ops = earlier ++ op :: later →
      (run (before ++ earlier)).strike? x op = some s →
      let old := SendOp.replay v (updates x (run before) earlier)
      let after := run (before ++ earlier ++ [op])
      (run (before ++ earlier)).memory.wordAt x = some old ∧
        after.memory.gather s.nic s.sgl = .ok (Bytes.ofNatLE 8 old.toNat) ∧
        after.memory.wordAt x = some (s.op.newWord old)) ∧
    (.deregister x.1 ∉ ops → (run (before ++ ops)).memory.wordAt x =
      some (SendOp.replay v (updates x (run before) ops))) ∧
    ((∀ op ∈ updates x (run before) ops, op.opcode = .fetchAdd) →
      ∀ earlier later, ops = earlier ++ later →
        (SendOp.replay v (updates x (run before) earlier)).toNat =
          (v.toNat + ((updates x (run before) earlier).map (·.addend.toNat)).sum) % 2 ^ 64) := by
  refine ⟨?_, fun hstays => ?_, ?_⟩
  · rintro earlier op later s rfl hstrike old after
    rw [steps_append, ← run_append] at hspares
    have hsgl := (hspares (run (before ++ earlier), op)
      (List.mem_append_right _ List.mem_cons_self)).windows s hstrike
    obtain ⟨fetched, hfetched, hnew, hgather⟩ := perform_strike hstrike hsgl
    rcases word_run hword fun s hs => hspares s (List.mem_append_left _ hs) with hold | ⟨-, hgone⟩
    · cases hold.symm.trans hfetched
      have hafter : after = (run (before ++ earlier)).perform op := run_snoc _ _
      rw [hafter]
      exact ⟨hold, hgather, hnew⟩
    · -- no atomic runs on a word that is not there
      obtain ⟨r, hr⟩ := Memory.region_of_wordAt hfetched
      cases hgone.symm.trans hr
  · exact (word_run hword hspares).resolve_right fun hgone => hstays hgone.1
  · rintro hadds earlier later rfl
    refine SendOp.toNat_replay_of_fetchAdd v fun op hop => hadds op ?_
    rw [updates, steps_append, List.filterMap_append]
    exact List.mem_append_left _ hop

/-- Two connected queue pairs on two adapters. The first has a region to fetch into, the second one
with two words that its peer may run atomics on. -/
def counting : List Operation :=
  [.addFabric, .openNic 0 {}, .openNic 0 {}, .createCq {} 8, .createQp ⟨1, some 3, some 3, {}, 0⟩,
    .createQp ⟨2, some 3, some 3, {}, 0⟩, .connect 4 ⟨2, 1, 0⟩, .connect 5 ⟨1, 1, 0⟩,
    .register 1 4096 16 .localWrite, .register 2 8192 16 .remoteAtomic, .fill 7 8 [250]]

def pieces : List LocalSlice := [⟨⟨4096, 3⟩, 1⟩, ⟨⟨4106, 5⟩, 1⟩]

def secondWord : RemoteSlice := ⟨⟨8200, 8⟩, 2⟩

/-- The word is added to and then swapped, and in between the other word is written. -/
def counted : List Operation :=
  [.postSend 4 ⟨10, pieces, .fetchAdd secondWord 10⟩, .fill 7 0 [1, 2, 3],
    .postSend 4 ⟨11, pieces, .compareSwap secondWord 260 7⟩]

theorem word_is_register_counted :
    (run (counting ++ counted)).memory.wordAt (7, 8) = some 7 ∧
      (run (counting ++ counted)).memory.gather 1 pieces = .ok (Bytes.ofNatLE 8 260) := by
  have hspares : ∀ s ∈ steps (run counting) counted, s.1.Spares (7, 8) s.2 := by
    intro s hs
    simp only [counted, steps, List.mem_cons, List.not_mem_nil, or_false] at hs
    rcases hs with rfl | rfl | rfl
    · exact spares_of_strike (s := ⟨1, pieces, .fetchAdd secondWord 10⟩) (by cbv)
        (of_decide_eq_true (by cbv))
    · refine ⟨fun s hs => (by cases hs), fun _ y hy haims => ?_⟩
      obtain ⟨i, hi, rfl⟩ := List.mem_map.mp hy
      have hlower : 8 ≤ i := (List.mem_range'_1.mp hi).1
      have hupper : i < 3 := haims.2.2
      omega
    · exact spares_of_strike (s := ⟨1, pieces, .compareSwap secondWord 260 7⟩) (by cbv)
        (of_decide_eq_true (by cbv))
  obtain ⟨hstrikes, hlast, -⟩ := word_is_register counting counted (7, 8) 250 (by cbv) hspares
  constructor
  · exact (hlast (by decide)).trans (by cbv)
  · obtain ⟨-, hgather, -⟩ := hstrikes
      [.postSend 4 ⟨10, pieces, .fetchAdd secondWord 10⟩, .fill 7 0 [1, 2, 3]]
      (.postSend 4 ⟨11, pieces, .compareSwap secondWord 260 7⟩) []
      ⟨1, pieces, .compareSwap secondWord 260 7⟩ rfl (by cbv)
    exact hgather.trans (by cbv)

end Verbs.Device
