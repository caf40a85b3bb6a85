import Mathlib.Tactic
import Verbs.Proofs.Device.Addresses

/-!
Routing. Identifiers of adapters and numbers of queue pairs come from counters of a fixed width,
which start over when they are used up. As long as they are not, what they give out is never the
same twice, each queue pair has an address of its own, and the routes lead from these addresses to
the queue pairs and nowhere else. After that an adapter may get the identifier of another, and a
queue pair the address of another, whose route it takes over and in the end takes away.
-/

namespace Verbs

/-! ### Counters -/

section Counters

variable {κ ι β : Type} {of : Nat → β} {next : Option β} {number : κ → Option β}

/-- Each number in use is from one of `n` draws, two of them from different ones, and what is drawn
next is what comes after. -/
structure Drawn (of : Nat → β) (next : Option β) (number : κ → Option β) (n : Nat)
    (draw : κ → Nat) : Prop where
  ahead : ∀ x, next = some x → x = of (1 + n)
  behind : ∀ k x, number k = some x → draw k < n ∧ x = of (1 + draw k)
  apart : ∀ k l x y, number k = some x → number l = some y → draw k = draw l → k = l

/-- The numbers in use are from a counter that has given out no more than a bound. -/
def Numbered (of : Nat → β) (next : Option β) (number : κ → Option β) (bound : Nat) : Prop :=
  ∃ n ≤ bound, ∃ draw, Drawn of next number n draw

namespace Numbered

variable {bound : Nat} {x : β} {k l : κ}

lemma mono {bound' : Nat} (h : Numbered of next number bound) (hle : bound ≤ bound') :
    Numbered of next number bound' := by
  obtain ⟨n, hn, draw, hdrawn⟩ := h
  exact ⟨n, hn.trans hle, draw, hdrawn⟩

lemma start (hnext : ∀ x, next = some x → x = of 1) (hnumber : ∀ k, number k = none) :
    Numbered of next number bound := by
  refine ⟨0, Nat.zero_le _, fun _ => 0, hnext, fun k x hx => ?_, fun k l x y hx => ?_⟩ <;>
  · rw [hnumber k] at hx
    cases hx

variable [Add β]

lemma skip (hof : ∀ a b, of (a + b) = of a + of b) (h : Numbered of (some x) number bound)
    (count : Nat) : Numbered of (some (x + of count)) number (bound + count) := by
  obtain ⟨n, hn, draw, hdrawn⟩ := h
  refine ⟨n + count, by omega, draw, ?_, fun k y hy => ?_, hdrawn.apart⟩
  · rintro y ⟨⟩
    rw [hdrawn.ahead x rfl, ← hof, Nat.add_assoc]
  · obtain ⟨hlt, rfl⟩ := hdrawn.behind k y hy
    exact ⟨by omega, rfl⟩

variable [DecidableEq κ]

lemma draw (hof : ∀ a b, of (a + b) = of a + of b) (h : Numbered of (some x) number bound)
    (k : κ) :
    Numbered of (some (x + of 1)) (Function.update number k (some x)) (bound + 1) := by
  obtain ⟨n, hn, draw, hdrawn⟩ := h
  have hx := hdrawn.ahead x rfl
  have hother : ∀ l y, l ≠ k → Function.update number k (some x) l = some y →
      number l = some y ∧ Function.update draw k n l = draw l := by
    intro l y hl hy
    rw [Function.update_of_ne hl] at hy
    exact ⟨hy, Function.update_of_ne hl _ _⟩
  refine ⟨n + 1, by omega, Function.update draw k n, ?_, fun l y hy => ?_,
    fun l m y z hy hz heq => ?_⟩
  · rintro y ⟨⟩
    rw [hx, ← hof, Nat.add_assoc]
  · by_cases hl : l = k
    · subst hl
      rw [Function.update_self] at hy ⊢
      cases hy
      exact ⟨Nat.lt_succ_self n, hx⟩
    · obtain ⟨hy', hdraw⟩ := hother l y hl hy
      rw [hdraw]
      exact ⟨(hdrawn.behind l y hy').1.trans (Nat.lt_succ_self n), (hdrawn.behind l y hy').2⟩
  · by_cases hl : l = k <;> by_cases hm : m = k
    · rw [hl, hm]
    · obtain ⟨hz', hdraw⟩ := hother m z hm hz
      rw [hl, Function.update_self, hdraw] at heq
      exact absurd (hdrawn.behind m z hz').1 (by omega)
    · obtain ⟨hy', hdraw⟩ := hother l y hl hy
      rw [hm, Function.update_self, hdraw] at heq
      exact absurd (hdrawn.behind l y hy').1 (by omega)
    · obtain ⟨hy', hdraw⟩ := hother l y hl hy
      obtain ⟨hz', hdraw'⟩ := hother m z hm hz
      rw [hdraw, hdraw'] at heq
      exact hdrawn.apart l m y z hy' hz' heq

omit [Add β] in
lemma forget (h : Numbered of next number bound) (k : κ) :
    Numbered of next (Function.update number k none) bound := by
  obtain ⟨n, hn, draw, hdrawn⟩ := h
  have hthere : ∀ l y, Function.update number k none l = some y → number l = some y := by
    intro l y hy
    rw [Function.update_apply] at hy
    split at hy
    · cases hy
    · exact hy
  exact ⟨n, hn, draw, hdrawn.ahead, fun l y hy => hdrawn.behind l y (hthere l y hy),
    fun l m y z hy hz => hdrawn.apart l m y z (hthere l y hy) (hthere m z hz)⟩

omit [Add β] [DecidableEq κ] in
lemma eq_of_number {size : Nat}
    (hof : ∀ a b, a < size → b < size → of (1 + a) = of (1 + b) → a = b)
    (h : Numbered of next number bound) (hbound : bound ≤ size) (hk : number k = some x)
    (hl : number l = some x) : k = l := by
  obtain ⟨n, hn, draw, hdrawn⟩ := h
  obtain ⟨hk', hx⟩ := hdrawn.behind k x hk
  obtain ⟨hl', hx'⟩ := hdrawn.behind l x hl
  exact hdrawn.apart k l x x hk hl (hof _ _ (by omega) (by omega) (hx.symm.trans hx'))

end Numbered

lemma bind_update [DecidableEq κ] (g : κ → Option ι) (k : κ) (o : Option ι) (f : ι → Option β) :
    (fun j => (Function.update g k o j).bind f) =
      Function.update (fun j => (g j).bind f) k (o.bind f) := by
  funext j
  rw [Function.update_apply, Function.update_apply]
  split <;> rfl

end Counters

lemma UInt16.eq_of_ofNat_succ (a b : Nat) (ha : a < 2 ^ 16) (hb : b < 2 ^ 16)
    (h : UInt16.ofNat (1 + a) = UInt16.ofNat (1 + b)) : a = b := by
  have hnat := congrArg UInt16.toNat h
  simp only [UInt16.toNat_ofNat'] at hnat
  omega

lemma UInt32.eq_of_ofNat_succ (a b : Nat) (ha : a < 2 ^ 32) (hb : b < 2 ^ 32)
    (h : UInt32.ofNat (1 + a) = UInt32.ofNat (1 + b)) : a = b := by
  have hnat := congrArg UInt32.toNat h
  simp only [UInt32.toNat_ofNat'] at hnat
  omega

/-! ### Addresses -/

/-- The number of identifiers that an operation takes from a fabric. -/
def Operation.draws (fabric : FabricId) : Operation → Nat
  | .openNic f _ => if f = fabric then 1 else 0
  | .skipLids f count => if f = fabric then count else 0
  | _ => 0

namespace Net

variable {t u : Net} {op : Operation} {made : List (NicId × QpId)} {fabric : FabricId}

/-- What is true of the addresses however often the counters have started over: things are named by
numbers that have been used, the adapters are attached to fabrics, the queue pairs have the
identifiers of their adapters, and the routes lead to queue pairs with that very address. -/
structure Sound (t : Net) : Prop where
  fabricNamed : ∀ f, (t.lids f).isSome → f < t.nextId
  nicNamed : ∀ i p, t.ports i = some p → i < t.nextId
  qpNamed : ∀ id h, t.homes id = some h → id < t.nextId
  attached : ∀ i p, t.ports i = some p → (t.lids p.fabric).isSome
  housed : ∀ id nic r, t.homes id = some (nic, r) →
    ∃ p, t.ports nic = some p ∧ p.fabric = r.fabric ∧ p.lid = r.lid
  leads : ∀ r id, t.routes r = some id → ∃ nic, t.homes id = some (nic, r)

lemma sound_empty : (Device.net {}).Sound where
  fabricNamed _ h := nomatch h
  nicNamed _ _ h := nomatch h
  qpNamed _ _ h := nomatch h
  attached _ _ h := nomatch h
  housed _ _ _ h := nomatch h
  leads _ _ h := nomatch h

def lidOn (t : Net) (fabric : FabricId) (nic : NicId) : Option UInt16 :=
  (t.ports nic).bind fun p => if p.fabric = fabric then some p.lid else none

def qpnOn (t : Net) (nic : NicId) (id : QpId) : Option UInt32 :=
  (t.homes id).bind fun h => if h.1 = nic then some h.2.qpn else none

lemma Sound.lidOn_eq_none (h : t.Sound) (hf : t.lids fabric = none) (i : NicId) :
    t.lidOn fabric i = none := by
  refine Option.bind_eq_none_iff.mpr fun p hp => if_neg ?_
  rintro rfl
  simpa [hf] using h.attached i p hp

lemma Sound.qpnOn_eq_none (h : t.Sound) {nic : NicId} (hnic : t.ports nic = none) (id : QpId) :
    t.qpnOn nic id = none := by
  refine Option.bind_eq_none_iff.mpr fun home hhome => if_neg ?_
  rintro rfl
  obtain ⟨p, hp, -⟩ := h.housed id home.1 home.2 hhome
  cases hnic.symm.trans hp

lemma Sound.lids_nextId (h : t.Sound) : t.lids t.nextId = none := by
  by_contra hsome
  exact lt_irrefl _ (h.fabricNamed _ (Option.isSome_iff_ne_none.mpr hsome))

lemma Sound.ports_nextId (h : t.Sound) : t.ports t.nextId = none := by
  rcases hp : t.ports t.nextId with - | p
  · rfl
  · exact absurd (h.nicNamed _ p hp) (lt_irrefl _)

/-! #### What a step leaves and where things come from -/

lemma Step.nextId_le (h : t.Step op made u) : t.nextId ≤ u.nextId := by
  cases h with
  | same n later => exact later
  | addFabric | openNic | createQp => exact Nat.le_succ _
  | skipLids | dropQp => exact le_rfl

lemma Step.lids_stay (h : t.Step op made u) {f : FabricId} (hf : (t.lids f).isSome) :
    (u.lids f).isSome := by
  cases h with
  | same | createQp | dropQp => exact hf
  | addFabric | openNic | skipLids =>
    dsimp only
    rw [Function.update_apply]
    split
    · rfl
    · exact hf

lemma Step.fabric_from (h : t.Step op made u) {f : FabricId} (hf : (u.lids f).isSome) :
    (t.lids f).isSome ∨ (f = t.nextId ∧ t.nextId < u.nextId) := by
  cases h with
  | same | createQp | dropQp => exact Or.inl hf
  | addFabric =>
    dsimp only at hf ⊢
    rw [Function.update_apply] at hf
    split at hf
    · exact Or.inr ⟨‹_›, Nat.lt_succ_self _⟩
    · exact Or.inl hf
  | openNic lid there | skipLids lid there =>
    dsimp only at hf
    rw [Function.update_apply] at hf
    split at hf
    · rename_i hfabric
      rw [hfabric, there]
      exact Or.inl rfl
    · exact Or.inl hf

lemma Step.port_stays (h : t.Step op made u) (ht : t.Sound) {i : NicId} {p : Port}
    (hp : t.ports i = some p) :
    ∃ p', u.ports i = some p' ∧ p'.fabric = p.fabric ∧ p'.lid = p.lid := by
  cases h with
  | same | addFabric | skipLids | dropQp => exact ⟨p, hp, rfl, rfl⟩
  | openNic =>
    refine ⟨p, ?_, rfl, rfl⟩
    dsimp only
    rw [Function.update_of_ne (ht.nicNamed i p hp).ne, hp]
  | @createQp plan p₀ there =>
    dsimp only
    rw [Function.update_apply]
    split
    · rename_i hi
      cases (hi ▸ hp).symm.trans there
      exact ⟨_, rfl, rfl, rfl⟩
    · exact ⟨p, hp, rfl, rfl⟩

lemma Step.port_from (h : t.Step op made u) {i : NicId} {p : Port} (hp : u.ports i = some p) :
    (∃ p₀, t.ports i = some p₀ ∧ p.fabric = p₀.fabric) ∨
      (i = t.nextId ∧ t.nextId < u.nextId ∧ (t.lids p.fabric).isSome) := by
  cases h with
  | same | addFabric | skipLids | dropQp => exact Or.inl ⟨p, hp, rfl⟩
  | openNic lid there =>
    dsimp only at hp ⊢
    rw [Function.update_apply] at hp
    split at hp
    · cases hp
      exact Or.inr ⟨‹_›, Nat.lt_succ_self _, by rw [there]; rfl⟩
    · exact Or.inl ⟨p, hp, rfl⟩
  | @createQp plan p₀ there =>
    dsimp only at hp
    rw [Function.update_apply] at hp
    split at hp
    · rename_i hi
      cases hp
      exact Or.inl ⟨p₀, hi ▸ there, rfl⟩
    · exact Or.inl ⟨p, hp, rfl⟩

/-- A queue pair that is not new was at home where it is; a new one has the address that its adapter
gives it. -/
lemma Step.home_from (h : t.Step op made u) {id : QpId} {nic : NicId} {r : Route}
    (hid : u.homes id = some (nic, r)) :
    t.homes id = some (nic, r) ∨ (id = t.nextId ∧ t.nextId < u.nextId ∧
      ∃ p, t.ports nic = some p ∧ p.fabric = r.fabric ∧ p.lid = r.lid) := by
  cases h with
  | same | addFabric | openNic | skipLids => exact Or.inl hid
  | @createQp plan p there r' route =>
    dsimp only at hid ⊢
    rw [Function.update_apply] at hid
    split at hid
    · cases hid
      exact Or.inr ⟨‹_›, Nat.lt_succ_self _, p, there, by rw [route], by rw [route]⟩
    · exact Or.inl hid
  | dropQp =>
    dsimp only at hid
    rw [Function.update_apply] at hid
    split at hid
    · cases hid
    · exact Or.inl hid

lemma Step.leads (h : t.Step op made u) (ht : t.Sound) {r : Route} {id : QpId}
    (hr : u.routes r = some id) : ∃ nic, u.homes id = some (nic, r) := by
  cases h with
  | same | addFabric | openNic | skipLids => exact ht.leads r id hr
  | @createQp plan p there r' route =>
    dsimp only at hr ⊢
    rw [Function.update_apply] at hr
    split at hr
    · rename_i hroute
      cases hr
      exact ⟨plan.nic, by rw [Function.update_self, hroute]⟩
    · obtain ⟨nic, hnic⟩ := ht.leads r id hr
      exact ⟨nic, by rw [Function.update_of_ne (ht.qpNamed id _ hnic).ne, hnic]⟩
  | @dropQp id' nic' r' there =>
    dsimp only at hr ⊢
    rw [Function.update_apply] at hr
    split at hr
    · cases hr
    · rename_i hroute
      obtain ⟨nic, hnic⟩ := ht.leads r id hr
      refine ⟨nic, ?_⟩
      rw [Function.update_of_ne, hnic]
      -- The other routes do not lead to the queue pair that goes.
      rintro rfl
      cases hnic.symm.trans there
      exact hroute rfl

lemma Sound.step (h : t.Sound) (hstep : t.Step op made u) : u.Sound where
  fabricNamed f hf := by
    rcases hstep.fabric_from hf with hf | ⟨rfl, hlt⟩
    · exact (h.fabricNamed f hf).trans_le hstep.nextId_le
    · exact hlt
  nicNamed i p hp := by
    rcases hstep.port_from hp with ⟨p₀, hp₀, -⟩ | ⟨rfl, hlt, -⟩
    · exact (h.nicNamed i p₀ hp₀).trans_le hstep.nextId_le
    · exact hlt
  qpNamed id home hid := by
    rcases hstep.home_from hid with hid | ⟨rfl, hlt, -⟩
    · exact (h.qpNamed id home hid).trans_le hstep.nextId_le
    · exact hlt
  attached i p hp := by
    rcases hstep.port_from hp with ⟨p₀, hp₀, hfabric⟩ | ⟨-, -, hfabric⟩
    · rw [hfabric]
      exact hstep.lids_stay (h.attached i p₀ hp₀)
    · exact hstep.lids_stay hfabric
  housed id nic r hid := by
    obtain ⟨p, hp, hfabric, hlid⟩ :
        ∃ p, t.ports nic = some p ∧ p.fabric = r.fabric ∧ p.lid = r.lid := by
      rcases hstep.home_from hid with hid | ⟨-, -, hport⟩
      · exact h.housed id nic r hid
      · exact hport
    obtain ⟨p', hp', hfabric', hlid'⟩ := hstep.port_stays h hp
    exact ⟨p', hp', hfabric'.trans hfabric, hlid'.trans hlid⟩
  leads r id hr := hstep.leads h hr

/-! #### Counting -/

/-- The identifiers of a fabric and the numbers of an adapter come from its counter, which has given
out no more than the bounds say. -/
structure Counted (t : Net) (lids : FabricId → Nat) (qpns : NicId → Nat) : Prop where
  lids : ∀ fabric, Numbered UInt16.ofNat (t.lids fabric) (t.lidOn fabric) (lids fabric)
  qpns : ∀ nic, Numbered UInt32.ofNat ((t.ports nic).map (·.nextQpn)) (t.qpnOn nic) (qpns nic)

lemma counted_empty : (Device.net {}).Counted (fun _ => 0) fun _ => 0 where
  lids _ := .start (fun _ h => nomatch h) fun _ => rfl
  qpns _ := .start (fun _ h => nomatch h) fun _ => rfl

variable {lids : FabricId → Nat} {qpns : NicId → Nat}

lemma Step.lids_counted (hstep : t.Step op made u) (ht : t.Sound) (h : t.Counted lids qpns)
    (fabric : FabricId) :
    Numbered UInt16.ofNat (u.lids fabric) (u.lidOn fabric) (lids fabric + op.draws fabric) := by
  have hlids := h.lids fabric
  cases hstep with
  | same | dropQp => exact hlids.mono (Nat.le_add_right _ _)
  | addFabric =>
    show Numbered _ (Function.update t.lids t.nextId (some 1) fabric) (t.lidOn fabric) _
    by_cases hf : fabric = t.nextId
    · subst hf
      rw [Function.update_self]
      refine .start ?_ (ht.lidOn_eq_none ht.lids_nextId)
      rintro x ⟨⟩
      rfl
    · rw [Function.update_of_ne hf]
      exact hlids
  | @openNic f attr lid there =>
    have hon := bind_update t.ports t.nextId (some ⟨f, lid, 1⟩) fun p =>
      if p.fabric = fabric then some p.lid else none
    show Numbered _ (Function.update t.lids f (some (lid + 1)) fabric)
      (fun i => (Function.update t.ports t.nextId (some ⟨f, lid, 1⟩) i).bind _) _
    rw [hon, Option.bind_some]
    by_cases hf : f = fabric
    · subst hf
      rw [there] at hlids
      rw [Function.update_self, if_pos rfl, Operation.draws, if_pos rfl]
      exact hlids.draw UInt16.ofNat_add t.nextId
    · rw [Function.update_of_ne (Ne.symm hf), if_neg hf, Operation.draws, if_neg hf]
      exact hlids.forget t.nextId
  | @skipLids f count lid there =>
    show Numbered _ (Function.update t.lids f (some (lid + UInt16.ofNat count)) fabric)
      (t.lidOn fabric) _
    by_cases hf : f = fabric
    · subst hf
      rw [there] at hlids
      rw [Function.update_self, Operation.draws, if_pos rfl]
      exact hlids.skip UInt16.ofNat_add count
    · rw [Function.update_of_ne (Ne.symm hf)]
      exact hlids.mono (Nat.le_add_right _ _)
  | @createQp plan p there r route =>
    -- The adapter only has another number to give.
    have hon : (fun i => (Function.update t.ports plan.nic
        (some { p with nextQpn := p.nextQpn + 1 }) i).bind fun p =>
          if p.fabric = fabric then some p.lid else none) = t.lidOn fabric := by
      have hself : (some { p with nextQpn := p.nextQpn + 1 }).bind
          (fun p : Port => if p.fabric = fabric then some p.lid else none) =
          t.lidOn fabric plan.nic := by
        rw [lidOn, there]
        rfl
      rw [bind_update, hself]
      exact Function.update_eq_self _ _
    show Numbered _ (t.lids fabric) (fun i => (Function.update t.ports plan.nic _ i).bind _) _
    rw [hon]
    exact hlids

lemma Step.qpns_counted (hstep : t.Step op made u) (ht : t.Sound) (h : t.Counted lids qpns)
    (nic : NicId) :
    Numbered UInt32.ofNat ((u.ports nic).map (·.nextQpn)) (u.qpnOn nic)
      (qpns nic + made.countP (·.1 = nic)) := by
  have hqpns := h.qpns nic
  cases hstep with
  | same | addFabric | skipLids => exact hqpns
  | @openNic f attr lid there =>
    show Numbered _ ((Function.update t.ports t.nextId (some ⟨f, lid, 1⟩) nic).map _)
      (t.qpnOn nic) _
    by_cases hnic : nic = t.nextId
    · subst hnic
      rw [Function.update_self]
      refine .start ?_ (ht.qpnOn_eq_none ht.ports_nextId)
      rintro x ⟨⟩
      rfl
    · rw [Function.update_of_ne hnic]
      exact hqpns
  | @createQp plan p there r route =>
    have hon := bind_update t.homes t.nextId (some (plan.nic, r)) fun h =>
      if h.1 = nic then some h.2.qpn else none
    show Numbered _ ((Function.update t.ports plan.nic _ nic).map _)
      (fun i => (Function.update t.homes t.nextId (some (plan.nic, r)) i).bind _) _
    rw [hon, Option.bind_some]
    by_cases hnic : plan.nic = nic
    · subst hnic
      have hr : r.qpn = p.nextQpn := by rw [route]
      rw [there] at hqpns
      rw [Function.update_self, if_pos rfl, hr, List.countP_singleton, if_pos (by simp)]
      exact hqpns.draw UInt32.ofNat_add t.nextId
    · rw [Function.update_of_ne (Ne.symm hnic), if_neg hnic, List.countP_singleton,
        if_neg (by simpa using hnic)]
      exact hqpns.forget t.nextId
  | @dropQp id nic' r there =>
    have hon := bind_update t.homes id none fun h => if h.1 = nic then some h.2.qpn else none
    show Numbered _ _ (fun i => (Function.update t.homes id none i).bind _) _
    rw [hon, Option.bind_none]
    exact hqpns.forget id

lemma Counted.eq_of_lid (h : t.Counted lids qpns) (hlids : lids fabric ≤ 2 ^ 16) {i j : NicId}
    {p q : Port} (hp : t.ports i = some p) (hq : t.ports j = some q) (hpf : p.fabric = fabric)
    (hqf : q.fabric = fabric) (hlid : p.lid = q.lid) : i = j := by
  refine (h.lids fabric).eq_of_number (x := p.lid) UInt16.eq_of_ofNat_succ hlids ?_ ?_
  · rw [lidOn, hp, Option.bind_some, if_pos hpf]
  · rw [lidOn, hq, Option.bind_some, if_pos hqf, hlid]

/-- No two queue pairs have the same address on a fabric. -/
def Apart (t : Net) (fabric : FabricId) : Prop :=
  ∀ id id' nic nic' r, t.homes id = some (nic, r) → t.homes id' = some (nic', r) →
    r.fabric = fabric → id = id'

lemma Counted.apart (h : t.Counted lids qpns) (ht : t.Sound) (hlids : lids fabric ≤ 2 ^ 16)
    (hqpns : ∀ nic, qpns nic ≤ 2 ^ 32) : t.Apart fabric := by
  intro id id' nic nic' r hid hid' hr
  obtain ⟨p, hp, hpf, hplid⟩ := ht.housed id nic r hid
  obtain ⟨q, hq, hqf, hqlid⟩ := ht.housed id' nic' r hid'
  obtain rfl := h.eq_of_lid hlids hp hq (hpf.trans hr) (hqf.trans hr) (hplid.trans hqlid.symm)
  refine (h.qpns nic).eq_of_number (x := r.qpn) UInt32.eq_of_ofNat_succ (hqpns nic) ?_ ?_
  · rw [qpnOn, hid, Option.bind_some, if_pos rfl]
  · rw [qpnOn, hid', Option.bind_some, if_pos rfl]

/-! #### Routes -/

/-- Every queue pair of a fabric is led to from its address. -/
def Reached (t : Net) (fabric : FabricId) : Prop :=
  ∀ id nic r, t.homes id = some (nic, r) → r.fabric = fabric → t.routes r = some id

/-- As long as no two queue pairs have the same address, a step hides none and takes away no route
but that of the queue pair that goes. -/
lemma Step.reached (hstep : t.Step op made u) (h : t.Reached fabric) (ht : t.Apart fabric)
    (hu : u.Apart fabric) : u.Reached fabric := by
  intro id nic r hid hr
  cases hstep with
  | same | addFabric | openNic | skipLids => exact h id nic r hid hr
  | @createQp plan p there r' route =>
    dsimp only at hid ⊢
    by_cases hroute : r = r'
    · subst hroute
      have hnew : Function.update t.homes t.nextId (some (plan.nic, r)) t.nextId =
          some (plan.nic, r) := Function.update_self _ _ _
      rw [Function.update_self, hu id t.nextId nic plan.nic r hid hnew hr]
    · rw [Function.update_of_ne hroute]
      refine h id nic r ?_ hr
      rw [Function.update_apply] at hid
      split at hid
      · cases hid
        exact absurd rfl hroute
      · exact hid
  | @dropQp id' nic' r' there =>
    dsimp only at hid ⊢
    rw [Function.update_apply] at hid
    split at hid
    · cases hid
    · rename_i hne
      rw [Function.update_of_ne]
      · exact h id nic r hid hr
      · rintro rfl
        exact hne (ht id id' nic nic' r hid there hr)

end Net

/-! ### Runs -/

namespace Device

variable {ops : List Operation} {fabric : FabricId}

def Attached (ops : List Operation) : Prop := ∀ s ∈ steps {} ops, s.1.attaches s.2 = true

instance (ops : List Operation) : Decidable (Attached ops) :=
  inferInstanceAs (Decidable (∀ s ∈ steps {} ops, s.1.attaches s.2 = true))

def drawn (ops : List Operation) (fabric : FabricId) : Nat :=
  (ops.map (Operation.draws fabric)).sum

def made (ops : List Operation) (nic : NicId) : Nat := (along makes ops).countP (·.1 = nic)

lemma attached_snoc {op : Operation} :
    Attached (ops ++ [op]) ↔ Attached ops ∧ (run ops).attaches op = true := by
  simp only [Attached, steps_append, List.mem_append, or_imp, forall_and]
  exact and_congr_right fun _ => by simp [steps, run]

lemma drawn_snoc (ops : List Operation) (op : Operation) :
    drawn (ops ++ [op]) = fun fabric => drawn ops fabric + op.draws fabric := by
  funext fabric
  simp [drawn]

lemma made_snoc (ops : List Operation) (op : Operation) :
    made (ops ++ [op]) = fun nic => made ops nic + ((run ops).makes op).countP (·.1 = nic) := by
  funext nic
  rw [made, along_snoc, List.countP_append]
  rfl

lemma length_makes_le (d : Device) (op : Operation) : (d.makes op).length ≤ 1 := by
  cases op with
  | createQp plan =>
    simp only [makes]
    split
    · exact le_rfl
    · exact Nat.zero_le _
  | _ => exact Nat.zero_le _

lemma made_le (ops : List Operation) (nic : NicId) : made ops nic ≤ ops.length := by
  induction ops using List.reverseRecOn with
  | nil => exact le_rfl
  | append_singleton ops op ih =>
    rw [made_snoc, List.length_append]
    exact Nat.add_le_add ih (List.countP_le_length.trans (length_makes_le _ op))

structure Addressed (ops : List Operation) : Prop where
  sound : (run ops).net.Sound
  counted : (run ops).net.Counted (drawn ops) (made ops)

lemma addressed_of_attached (hattached : Attached ops) : Addressed ops := by
  induction ops using List.reverseRecOn with
  | nil => exact ⟨Net.sound_empty, Net.counted_empty⟩
  | append_singleton ops op ih =>
    obtain ⟨hbefore, hop⟩ := attached_snoc.mp hattached
    obtain ⟨hsound, hcounted⟩ := ih hbefore
    have hstep := perform_step (run ops) op hop
    refine ⟨?_, ?_⟩
    · rw [run_snoc]
      exact hsound.step hstep
    · rw [run_snoc, drawn_snoc, made_snoc]
      exact ⟨hstep.lids_counted hsound hcounted, hstep.qpns_counted hsound hcounted⟩

/-- The counters of a fabric and of the adapters have not started over. -/
structure Fits (ops : List Operation) (fabric : FabricId) : Prop where
  lids : drawn ops fabric ≤ 2 ^ 16
  qpns : ∀ nic, made ops nic ≤ 2 ^ 32

lemma Fits.of_snoc {op : Operation} (h : Fits (ops ++ [op]) fabric) : Fits ops fabric := by
  have hlids := h.lids
  have hqpns := h.qpns
  rw [drawn_snoc] at hlids
  rw [made_snoc] at hqpns
  exact ⟨(Nat.le_add_right _ _).trans hlids, fun nic => (Nat.le_add_right _ _).trans (hqpns nic)⟩

lemma Addressed.apart (h : Addressed ops) (hfits : Fits ops fabric) :
    (run ops).net.Apart fabric := h.counted.apart h.sound hfits.lids hfits.qpns

lemma reached (hattached : Attached ops) (hfits : Fits ops fabric) :
    (run ops).net.Reached fabric := by
  induction ops using List.reverseRecOn with
  | nil => exact fun _ _ _ h => nomatch h
  | append_singleton ops op ih =>
    obtain ⟨hbefore, hop⟩ := attached_snoc.mp hattached
    have hapart := (addressed_of_attached hattached).apart hfits
    rw [run_snoc] at hapart ⊢
    exact (perform_step (run ops) op hop).reached (ih hbefore hfits.of_snoc)
      ((addressed_of_attached hbefore).apart hfits.of_snoc) hapart

/-! ### Routing is exact -/

variable {d : Device} {r : Route} {id : QpId} {q : QueuePair}

lemma homes_of_found (h : d.qps.get? id = some q) : d.net.homes id = some (q.nic, q.route) :=
  congrArg (Option.map QueuePair.home) h

lemma ports_of_found {i : NicId} {n : Nic} (h : d.nics.get? i = some n) :
    d.net.ports i = some n.port :=
  congrArg (Option.map Nic.port) h

lemma route_eq_some_iff :
    d.route r = some (id, q) ↔ d.routes.get? r = some id ∧ d.qps.get? id = some q := by
  refine ⟨get?_of_route, fun ⟨hr, hq⟩ => ?_⟩
  rw [Device.route, hr, Option.bind_eq_bind, Option.bind_some, hq]
  rfl

lemma found_of_route (hattached : Attached ops) (h : (run ops).route r = some (id, q)) :
    (run ops).qps.get? id = some q ∧ q.route = r := by
  obtain ⟨hr, hq⟩ := route_eq_some_iff.mp h
  obtain ⟨nic, hhome⟩ := (addressed_of_attached hattached).sound.leads r id hr
  cases (homes_of_found hq).symm.trans hhome
  exact ⟨hq, rfl⟩

lemma route_iff (hattached : Attached ops) (hfits : Fits ops r.fabric) :
    (run ops).route r = some (id, q) ↔ (run ops).qps.get? id = some q ∧ q.route = r := by
  refine ⟨found_of_route hattached, ?_⟩
  rintro ⟨hq, rfl⟩
  exact route_eq_some_iff.mpr
    ⟨reached hattached hfits id q.nic q.route (homes_of_found hq) rfl, hq⟩

lemma createQp_found {plan : QpPlan} (hid : id < d.nextId) (hq : d.qps.get? id = some q) :
    (d.perform (.createQp plan)).qps.get? id = some q := by
  have h := perform_change d (.createQp plan)
  generalize d.perform (.createQp plan) = d' at h ⊢
  cases h with
  | refused => exact hq
  | createQp n there q' => exact (Table.get?_set_of_ne d.qps q' hid.ne).trans hq

lemma dropQp_found {j : QpId} (hne : j ≠ id) (hq : d.qps.get? j = some q) :
    ∃ q', (d.dropQp id).qps.get? j = some q' ∧ q.Same q' := by
  have herase : Table.get? (d.qps.erase id) j = some q := by
    rw [Table.get?_erase, if_neg hne, hq]
  have hqps : (d.dropQp id).qps = (d.qps.drop id).1 := by
    unfold dropQp dropQpReports
    split
    rename_i d' out h
    split at h
    · rename_i hnone
      cases h
      rw [record_qps, QueuePairs.drop, hnone]
    · cases h
      rfl
  rw [hqps]
  rcases (QueuePairs.drop_failed d.qps id).get? herase with h | h
  · exact ⟨q, h, .refl q⟩
  · exact ⟨q.failed, h, ⟨rfl, rfl, rfl, rfl, rfl, rfl⟩⟩

/-- **Routing is exact until a counter starts over.** In every run a route leads to a queue pair
with that very address. A fabric gives each adapter an identifier of its own as long as it has
given out no more than 16 bits can tell apart; if no adapter has made more queue pairs than 32 bits
can tell apart either, each queue pair has an address of its own, and the address leads to it.
Making a queue pair then takes no other out of reach, and taking one away leaves the others where
they are. -/
theorem routing_exact (ops : List Operation) (hattached : Attached ops) :
    (∀ r id q, (run ops).route r = some (id, q) → (run ops).qps.get? id = some q ∧ q.route = r) ∧
    ∀ fabric, drawn ops fabric ≤ 2 ^ 16 →
      (∀ i j n m, (run ops).nics.get? i = some n → (run ops).nics.get? j = some m →
        n.fabric = fabric → m.fabric = fabric → n.lid = m.lid → i = j) ∧
      ((∀ nic, made ops nic ≤ 2 ^ 32) →
        (∀ i j p q, (run ops).qps.get? i = some p → (run ops).qps.get? j = some q →
          p.fabric = fabric → q.fabric = fabric → p.endpoint.lid = q.endpoint.lid →
          p.endpoint.qpn = q.endpoint.qpn → i = j) ∧
        (∀ lid qpn id q, (run ops).route ⟨fabric, lid, qpn⟩ = some (id, q) ↔
          (run ops).qps.get? id = some q ∧ q.fabric = fabric ∧ q.endpoint.lid = lid ∧
            q.endpoint.qpn = qpn) ∧
        (∀ before plan, ops = before ++ [.createQp plan] → ∀ lid qpn id q,
          (run before).route ⟨fabric, lid, qpn⟩ = some (id, q) →
            (run ops).route ⟨fabric, lid, qpn⟩ = some (id, q)) ∧
        ∀ before gone, ops = before ++ [.dropQp gone] → ∀ lid qpn id q,
          (run before).route ⟨fabric, lid, qpn⟩ = some (id, q) → id ≠ gone →
            ∃ q', (run ops).route ⟨fabric, lid, qpn⟩ = some (id, q') ∧ q.Same q') := by
  refine ⟨fun r id q => found_of_route hattached, fun fabric hlids => ⟨?_, fun hqpns => ?_⟩⟩
  · intro i j n m hn hm hnf hmf hlid
    exact (addressed_of_attached hattached).counted.eq_of_lid hlids (ports_of_found hn)
      (ports_of_found hm) hnf hmf hlid
  have hfits : Fits ops fabric := ⟨hlids, hqpns⟩
  refine ⟨?_, ?_, ?_, ?_⟩
  · intro i j p q hp hq hpf hqf hlid hqpn
    have hroute : q.route = p.route := by
      rw [QueuePair.route, QueuePair.route, hpf, hqf, hlid, hqpn]
    have hhome := homes_of_found hq
    rw [hroute] at hhome
    exact (addressed_of_attached hattached).apart hfits i j p.nic q.nic p.route
      (homes_of_found hp) hhome hpf
  · intro lid qpn id q
    rw [route_iff hattached hfits, QueuePair.route, Route.mk.injEq]
  · rintro before plan rfl lid qpn id q hroute
    obtain ⟨hq, hr⟩ := found_of_route (attached_snoc.mp hattached).1 hroute
    refine (route_iff hattached hfits).mpr ⟨?_, hr⟩
    rw [run_snoc]
    exact createQp_found ((balanced before).named id q hq) hq
  · rintro before gone rfl lid qpn id q hroute hne
    obtain ⟨hq, hr⟩ := found_of_route (attached_snoc.mp hattached).1 hroute
    obtain ⟨q', hq', hsame⟩ := dropQp_found hne hq
    refine ⟨q', (route_iff hattached hfits).mpr ⟨?_, ?_⟩, hsame⟩
    · rw [run_snoc]
      exact hq'
    · rw [← hr, QueuePair.route, QueuePair.route, hsame.fabric, hsame.endpoint]

def neighbours : List Operation :=
  [.addFabric, .openNic 0 {}, .openNic 0 {}, .createQp ⟨1, some 9, some 9, {}, 0⟩,
    .createQp ⟨2, some 9, some 9, {}, 0⟩, .dropQp 3]

/-- The other one is still reached. -/
theorem routing_exact_neighbours :
    Attached neighbours ∧ drawn neighbours 0 = 2 ∧
      ((run neighbours).route ⟨0, 2, 1⟩).map (·.1) = some 4 := by
  have hattached : Attached neighbours := by decide
  refine ⟨hattached, by decide, ?_⟩
  obtain ⟨-, hexact⟩ := routing_exact neighbours hattached
  obtain ⟨-, hqpns⟩ := hexact 0 (by decide)
  obtain ⟨-, hroute, -⟩ := hqpns fun nic => (made_le neighbours nic).trans (by decide)
  have hhome : ((run neighbours).qps.get? 4).map QueuePair.route = some ⟨0, 2, 1⟩ := by cbv
  obtain ⟨q, hq, hr⟩ := Option.map_eq_some_iff.mp hhome
  rw [(hroute 2 1 4 q).mpr ⟨hq, Route.mk.inj hr⟩]
  rfl

/-! ### Starting over -/

/-- Adapters that are opened one after another use up what `skipLids` uses up at once. -/
lemma fabrics_of_opened (d : Device) (fabric : FabricId) (attr : DeviceAttr) (count : Nat) :
    ((List.replicate count (.openNic fabric attr)).foldl perform d).fabrics =
      (d.perform (.skipLids fabric count)).fabrics := by
  have hskip : ∀ (d : Device) (n : Nat), (d.perform (.skipLids fabric n)).fabrics =
      d.fabrics.modify fabric fun f => { f with nextLid := f.nextLid + UInt16.ofNat n } := by
    intro d n
    simp only [perform, skipLids]
    split <;> rfl
  induction count generalizing d with
  | zero =>
    rw [hskip]
    simp [Table.modify]
  | succ n ih =>
    have hnext : ∀ f : Fabric,
        f.nextLid + 1 + UInt16.ofNat n = f.nextLid + UInt16.ofNat (n + 1) := by
      intro f
      rw [Nat.add_comm, UInt16.ofNat_add, ← UInt16.add_assoc]
      rfl
    rw [List.replicate_succ, List.foldl_cons, ih, hskip, hskip]
    simp only [perform, openNic, Table.modify, List.map_map, Function.comp_def]
    refine congrArg Table.mk (List.map_congr_left fun e _ => ?_)
    split
    · rw [hnext]
    · rfl

/-- An adapter with a queue pair; all the other identifiers of the fabric are used up, and then
comes another adapter with a queue pair. -/
def crowded : List Operation :=
  [.addFabric, .openNic 0 {}, .createQp ⟨1, some 9, some 9, {}, 0⟩, .skipLids 0 65535,
    .openNic 0 {}, .createQp ⟨3, some 9, some 9, {}, 0⟩]

/-- The second adapter has the identifier of the first, its queue pair takes the other one out of
reach, and the route goes with it. -/
theorem crowded_misrouted :
    Attached crowded ∧
    ((run crowded).nics.get? 1).map Nic.lid = some 1 ∧
    ((run crowded).nics.get? 3).map Nic.lid = some 1 ∧
    ((run crowded).qps.get? 2).map QueuePair.route = some ⟨0, 1, 1⟩ ∧
    ((run crowded).qps.get? 4).map QueuePair.route = some ⟨0, 1, 1⟩ ∧
    ((run crowded).route ⟨0, 1, 1⟩).map (·.1) = some 4 ∧
    ((run (crowded ++ [.dropQp 4])).qps.get? 2).map QueuePair.route = some ⟨0, 1, 1⟩ ∧
    ((run (crowded ++ [.dropQp 4])).route ⟨0, 1, 1⟩).map (·.1) = none := by
  refine ⟨by decide, by decide, by decide, by decide, by decide, by decide, by cbv, by cbv⟩

end Device

end Verbs
