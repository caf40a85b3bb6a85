import Mathlib.Tactic
import Verbs.Proofs.Device.Lifecycle
import Verbs.Setup.Scripted

/-!
Links on a device. While a device is used in every other way, links are put around its queue pairs
and bound to peers, and connection attempts make queue pairs, connect them and hand them over as
links. All this comes down to operations of the device, and a link that has a peer stands for a
queue pair that is connected to it.
-/

namespace Verbs

/-- The queue pair of an attempt and its peer, once the two are connected. -/
def Setup.Phase.bound? {ρ : Type} : Phase ρ → Option (ρ × Handshake)
  | .sending qp (some peer) _ => some (qp, peer)
  | .done (.ok r) => some r
  | .opening | .sending _ none _ | .receiving _ _ | .done (.error _) => none

/-- A connection attempt that makes queue pairs on a device. -/
structure Attempt where
  factory : Factory
  party : Setup.Party
  phase : Setup.Phase QpSource

/-- A device, links around its queue pairs, and connection attempts. -/
structure Linkage where
  device : Device := {}
  links : List Link := []
  attempts : List Attempt := []

namespace Linkage

/-- What can be done. The streams of attempts are up to the other ends: a step of an attempt meets
any stream, in any state. -/
inductive Act (σ : Type) where
  | operate (op : Operation)
  | wrap (source : QpSource)
  | bind (i : Nat) (peer : Handshake)
  | bindBoth (i j : Nat)
  | post (i : Nat) (wrId : UInt64) (w : Work)
  | discard (i : Nat)
  | connect (factory : Factory) (party : Setup.Party)
  | accept (factory : Factory) (party : Setup.Party)
  | go (i : Nat) (st : Stream σ) (s : σ)

def outcome (phase : Setup.Phase QpSource) : List Link :=
  match phase with
  | .done (.ok (source, peer)) => [⟨source, some peer⟩]
  | .opening | .sending _ _ _ | .receiving _ _ | .done (.error _) => []

variable {σ : Type}

def step (x : Linkage) : Act σ → Linkage
  | .operate op => { x with device := x.device.perform op }
  | .wrap source => { x with links := x.links ++ [⟨source, none⟩] }
  | .bind i peer =>
    match x.links[i]? with
    | none => x
    | some l =>
      match l.bind x.device peer with
      | .error _ => x
      | .ok (l, device) => { x with device, links := x.links.set i l }
  | .bindBoth i j =>
    match x.links[i]?, x.links[j]? with
    | some first, some second =>
      if i = j then x
      else
        let (_, first, second, device) := first.bindBoth second x.device
        { x with device, links := (x.links.set i first).set j second }
    | _, _ => x
  | .post i wrId w =>
    match x.links[i]? with
    | none => x
    | some l =>
      match l.source.post x.device wrId w with
      | .error _ => x
      | .ok (source, device) => { x with device, links := x.links.set i { l with source } }
  | .discard i =>
    match x.links[i]? with
    | none => x
    | some l => { x with device := l.source.discard x.device, links := x.links.eraseIdx i }
  | .connect factory party =>
    { x with attempts := x.attempts ++ [⟨factory, party, .connector⟩] }
  | .accept factory party =>
    { x with attempts := x.attempts ++ [⟨factory, party, .acceptor⟩] }
  | .go i st s =>
    match x.attempts[i]? with
    | none => x
    | some a =>
      match Setup.step a.factory.host st a.party a.phase x.device s with
      | none => x
      | some (phase, device, _) =>
        { device
          links := x.links ++ outcome phase
          attempts := x.attempts.set i { a with phase } }

def run (acts : List (Act σ)) : Linkage := acts.foldl step {}

lemma run_snoc (acts : List (Act σ)) (a : Act σ) : run (acts ++ [a]) = (run acts).step a := by
  simp [run]

/-! ### Operations of the device -/

/-- Operations lead from one device to another. -/
def Leads (d d' : Device) : Prop := ∃ ops : List Operation, d' = ops.foldl Device.perform d

variable {d d' d'' : Device} {source source' : QpSource} {peer : Handshake} {e : Endpoint}

namespace Leads

lemma refl (d : Device) : Leads d d := ⟨[], rfl⟩

lemma perform (d : Device) (op : Operation) : Leads d (d.perform op) := ⟨[op], rfl⟩

lemma trans (h : Leads d d') (h' : Leads d' d'') : Leads d d'' := by
  obtain ⟨ops, rfl⟩ := h
  obtain ⟨ops', rfl⟩ := h'
  exact ⟨ops ++ ops', List.foldl_append.symm⟩

end Leads

lemma leads_connect (h : source.connect d e = .ok d') : Leads d d' := by
  cases source with
  | device id =>
    have hconnect : d.connect id e = .ok d' := h
    have hperform : d.perform (.connect id e) = d' := by simp only [Device.perform, hconnect]
    exact hperform ▸ .perform d _
  | scripted s =>
    simp only [QpSource.connect] at h
    split at h
    · cases h
    · cases h
      exact .refl d

lemma leads_discard (d : Device) (source : QpSource) : Leads d (source.discard d) := by
  cases source with
  | device id => exact .perform d (.dropQp id)
  | scripted s => exact .refl d

lemma leads_create {factory : Factory} (h : factory.host.create d = .ok (source, d')) :
    Leads d d' := by
  simp only [Factory.host] at h
  split at h
  · rename_i plan
    rcases hcreate : d.createQp plan with error | ⟨d₁, id⟩
    · rw [hcreate] at h
      cases h
    · rw [hcreate] at h
      cases h
      have hperform : d.perform (.createQp plan) = d₁ := by simp only [Device.perform, hcreate]
      exact ⟨[.createQp plan], hperform.symm⟩
  · cases h
    exact .refl d
  · cases h

lemma leads_post {wrId : UInt64} {w : Work} (h : source.post d wrId w = .ok (source', d')) :
    Leads d d' ∧ ∀ id, source' = .device id → source = .device id := by
  cases source with
  | device id =>
    cases w with
    | send sgl op =>
      rcases hpost : d.postSend id ⟨wrId, sgl, op⟩ with error | d₁
      · simp [QpSource.post, hpost, Except.map] at h
      · simp only [QpSource.post, hpost, Except.map, Except.ok.injEq, Prod.mk.injEq] at h
        obtain ⟨rfl, rfl⟩ := h
        have hperform : d.perform (.postSend id ⟨wrId, sgl, op⟩) = d₁ := by
          simp only [Device.perform, hpost]
        exact ⟨hperform ▸ .perform d _, fun _ h => h⟩
    | recv sgl =>
      rcases hpost : d.postRecv id ⟨wrId, sgl⟩ with error | d₁
      · simp [QpSource.post, hpost, Except.map] at h
      · simp only [QpSource.post, hpost, Except.map, Except.ok.injEq, Prod.mk.injEq] at h
        obtain ⟨rfl, rfl⟩ := h
        have hperform : d.perform (.postRecv id ⟨wrId, sgl⟩) = d₁ := by
          simp only [Device.perform, hpost]
        exact ⟨hperform ▸ .perform d _, fun _ h => h⟩
  | scripted s =>
    rcases hpost : s.post wrId w with error | s'
    · simp [QpSource.post, hpost, Except.map] at h
    · simp only [QpSource.post, hpost, Except.map, Except.ok.injEq, Prod.mk.injEq] at h
      obtain ⟨rfl, rfl⟩ := h
      exact ⟨.refl d, fun _ h => by cases h⟩

/-! ### Peers -/

/-- The queue pair behind a source is connected to a peer, as long as it is there. -/
def Tied (d : Device) (source : QpSource) (peer : Handshake) : Prop :=
  ∀ id, source = .device id → id < d.nextId ∧
    ∀ q, d.qps.get? id = some q → q.remote = some peer.endpoint ∧ q.state ≠ .reset

lemma Tied.leads (h : Tied d source peer) (hd : Leads d d') : Tied d' source peer := by
  obtain ⟨ops, rfl⟩ := hd
  intro id hsource
  obtain ⟨hid, hpeer⟩ := h id hsource
  refine ⟨hid.trans_le (Device.nextId_le_foldl d ops), ?_⟩
  refine Device.kept_foldl (P := fun q => q.remote = some peer.endpoint ∧ q.state ≠ .reset)
    ⟨?_, ?_, ?_, ?_⟩ ?_ ?_ hid hpeer ops
  · exact fun _ _ h => ⟨h.1, (nomatch ·)⟩
  · exact fun _ _ _ h hstate => absurd hstate h.2
  · exact fun _ _ _ _ h _ => h
  · exact fun _ _ _ _ h _ => h
  · exact fun _ _ h => h
  · exact fun _ _ h => h

/-- Operations lead to a device from one that holds nothing. -/
def Reachable (d : Device) : Prop := ∃ ops, d = Device.run ops

lemma Reachable.leads (h : Reachable d) (hd : Leads d d') : Reachable d' := by
  obtain ⟨ops, rfl⟩ := h
  obtain ⟨ops', rfl⟩ := hd
  exact ⟨ops ++ ops', (Device.run_append ops ops').symm⟩

lemma tied_of_connect (hd : Reachable d) (h : source.connect d peer.endpoint = .ok d') :
    Tied d' source peer := by
  rintro id rfl
  obtain ⟨ops, rfl⟩ := hd
  obtain ⟨q, hq, -, rfl⟩ := Device.connect_spec h
  refine ⟨(Device.balanced ops).named id q hq, fun q' hq' => ?_⟩
  cases (Table.get?_set_self _ _ _).symm.trans hq'
  exact ⟨rfl, (nomatch ·)⟩

lemma bind_spec {l l' : Link} (h : l.bind d peer = .ok (l', d')) :
    l' = { l with peer := some peer } ∧ l.source.connect d peer.endpoint = .ok d' := by
  unfold Link.bind at h
  split at h
  · cases h
  · split at h
    · cases h
    · rename_i hconnect
      cases h
      exact ⟨rfl, hconnect⟩

/-! ### Connection attempts -/

structure Went (d d' : Device) (phase phase' : Setup.Phase QpSource) : Prop where
  leads : Leads d d'
  bound : ∀ source peer, phase'.bound? = some (source, peer) →
    phase.bound? = some (source, peer) ∨ Tied d' source peer

lemma received_went (hd : Reachable d) (factory : Factory) (party : Setup.Party) (peer : Handshake)
    (qp : Option QpSource) (got : Bytes) :
    Went d (Setup.received factory.host party d peer qp).2 (.receiving qp got)
      (Setup.received factory.host party d peer qp).1 := by
  have hconnected : ∀ {d₁ d' : Device} {source : QpSource} {phase : Setup.Phase QpSource},
      Leads d d₁ → factory.host.connect d₁ source peer.endpoint = .ok d' →
      phase.bound? = some (source, peer) → Went d d' (.receiving qp got) phase := by
    intro d₁ d' source phase hlead hconnect hphase
    refine ⟨hlead.trans (leads_connect hconnect), fun source' peer' hbound => ?_⟩
    cases hphase.symm.trans hbound
    exact Or.inr (tied_of_connect (hd.leads hlead) hconnect)
  have hfailed : ∀ {d₁ : Device} {source : QpSource} {error : HandshakeError}, Leads d d₁ →
      Went d (factory.host.discard d₁ source) (.receiving qp got) (.done (.error error)) :=
    fun hlead => ⟨hlead.trans (leads_discard _ _), fun _ _ hbound => by cases hbound⟩
  cases qp with
  | some source =>
    simp only [Setup.received]
    split
    · rename_i d' hconnect
      exact hconnected (.refl d) hconnect rfl
    · exact hfailed (.refl d)
  | none =>
    simp only [Setup.received]
    split
    · exact ⟨.refl d, fun _ _ hbound => by cases hbound⟩
    · rename_i source d₁ hcreate
      split
      · rename_i d' hconnect
        exact hconnected (leads_create hcreate) hconnect rfl
      · exact hfailed (leads_create hcreate)

/-- A step of an attempt does to the device what operations do; where its queue pair has come to be
connected, it is connected to the peer of the attempt. -/
lemma step_went (hd : Reachable d) {factory : Factory} {st : Stream σ} {party : Setup.Party}
    {phase phase' : Setup.Phase QpSource} {s s' : σ}
    (h : Setup.step factory.host st party phase d s = some (phase', d', s')) :
    Went d d' phase phase' := by
  have hfailed : ∀ {source : QpSource} {error : HandshakeError},
      Went d (factory.host.discard d source) phase (.done (.error error)) :=
    ⟨leads_discard _ _, fun _ _ hbound => by cases hbound⟩
  cases phase with
  | opening =>
    simp only [Setup.step] at h
    split at h
    · cases h
      exact ⟨.refl d, fun _ _ hbound => by cases hbound⟩
    · rename_i source d₁ hcreate
      cases h
      exact ⟨leads_create hcreate, fun _ _ hbound => by cases hbound⟩
  | sending source peer rest =>
    simp only [Setup.step] at h
    split at h
    · cases h
    · cases h
      cases peer <;> exact ⟨.refl d, fun _ _ hbound => Or.inl hbound⟩
    · cases h
      exact hfailed
    · split at h
      · cases h
        exact ⟨.refl d, fun _ _ hbound => Or.inl hbound⟩
      · cases h
        exact ⟨.refl d, fun _ _ hbound => by cases hbound⟩
  | receiving qp got =>
    simp only [Setup.step] at h
    split at h
    · cases h
    · cases h
      exact ⟨.refl d, fun _ _ hbound => by cases hbound⟩
    · cases h
      cases qp with
      | some source => exact hfailed
      | none => exact ⟨.refl d, fun _ _ hbound => by cases hbound⟩
    · rename_i peer s₁ hreceive
      cases h
      exact received_went hd factory party peer qp got
  | done result => cases h

/-! ### Runs -/

/-- Links and attempts agree with the device on who is connected to whom. -/
structure Consistent (x : Linkage) : Prop where
  device : Reachable x.device
  links : ∀ l ∈ x.links, ∀ peer, l.peer = some peer → Tied x.device l.source peer
  attempts : ∀ a ∈ x.attempts, ∀ source peer, a.phase.bound? = some (source, peer) →
    Tied x.device source peer

/-- An act leads to another device, and what is new agrees with it. -/
structure Extends (x x' : Linkage) : Prop where
  leads : Leads x.device x'.device
  links : ∀ l ∈ x'.links, l ∈ x.links ∨
    ∀ peer, l.peer = some peer → Tied x'.device l.source peer
  attempts : ∀ a ∈ x'.attempts, a ∈ x.attempts ∨
    ∀ source peer, a.phase.bound? = some (source, peer) → Tied x'.device source peer

variable {x x' : Linkage}

lemma Extends.refl (x : Linkage) : x.Extends x :=
  ⟨.refl _, fun _ h => Or.inl h, fun _ h => Or.inl h⟩

lemma Consistent.extends (h : x.Consistent) (he : x.Extends x') : x'.Consistent where
  device := h.device.leads he.leads
  links l hl peer hpeer := by
    rcases he.links l hl with hold | hnew
    · exact (h.links l hold peer hpeer).leads he.leads
    · exact hnew peer hpeer
  attempts a ha source peer hbound := by
    rcases he.attempts a ha with hold | hnew
    · exact (h.attempts a hold source peer hbound).leads he.leads
    · exact hnew source peer hbound

lemma bind_extends (h : x.Consistent) (i : Nat) (peer : Handshake) :
    x.Extends (x.step (.bind i peer : Act σ)) := by
  simp only [step]
  split
  · exact .refl x
  · rename_i l hl
    split
    · exact .refl x
    · rename_i l' d hbind
      obtain ⟨rfl, hconnect⟩ := bind_spec hbind
      refine ⟨leads_connect hconnect, fun l' hl' => ?_, fun _ h => Or.inl h⟩
      rcases List.mem_or_eq_of_mem_set hl' with hold | rfl
      · exact Or.inl hold
      · refine Or.inr fun peer' hpeer => ?_
        cases hpeer
        exact tied_of_connect h.device hconnect

lemma bindBoth_spec (hd : Reachable d) (first second : Link) {first' second' : Link}
    {result : Except CallError Unit}
    (h : first.bindBoth second d = (result, first', second', d')) :
    Leads d d' ∧
      (first' = first ∨ ∀ peer, first'.peer = some peer → Tied d' first'.source peer) ∧
      (second' = second ∨ ∀ peer, second'.peer = some peer → Tied d' second'.source peer) := by
  unfold Link.bindBoth at h
  split at h
  · cases h
    exact ⟨.refl d, Or.inl rfl, Or.inl rfl⟩
  · rename_i l₁ d₁ hfirst
    obtain ⟨rfl, hconnect⟩ := bind_spec hfirst
    have hlead := leads_connect hconnect
    have htied := tied_of_connect hd hconnect
    split at h
    · cases h
      refine ⟨hlead, Or.inr fun peer hpeer => ?_, Or.inl rfl⟩
      cases hpeer
      exact htied
    · rename_i l₂ d₂ hsecond
      obtain ⟨rfl, hconnect'⟩ := bind_spec hsecond
      have hlead' := leads_connect hconnect'
      cases h
      refine ⟨hlead.trans hlead', Or.inr fun peer hpeer => ?_, Or.inr fun peer hpeer => ?_⟩
      · cases hpeer
        exact htied.leads hlead'
      · cases hpeer
        exact tied_of_connect (hd.leads hlead) hconnect'

lemma bindBoth_extends (h : x.Consistent) (i j : Nat) :
    x.Extends (x.step (.bindBoth i j : Act σ)) := by
  simp only [step]
  split
  · rename_i first second hfirst hsecond
    split
    · exact .refl x
    · rcases hboth : first.bindBoth second x.device with ⟨result, first', second', d⟩
      obtain ⟨hlead, htied, htied'⟩ := bindBoth_spec h.device first second hboth
      refine ⟨hlead, fun l hl => ?_, fun _ h => Or.inl h⟩
      rcases List.mem_or_eq_of_mem_set hl with hl | rfl
      · rcases List.mem_or_eq_of_mem_set hl with hold | rfl
        · exact Or.inl hold
        · rcases htied with rfl | htied
          · exact Or.inl (List.mem_of_getElem? hfirst)
          · exact Or.inr htied
      · rcases htied' with rfl | htied'
        · exact Or.inl (List.mem_of_getElem? hsecond)
        · exact Or.inr htied'
  · exact .refl x

lemma post_extends (h : x.Consistent) (i : Nat) (wrId : UInt64) (w : Work) :
    x.Extends (x.step (.post i wrId w : Act σ)) := by
  simp only [step]
  split
  · exact .refl x
  · rename_i l hl
    split
    · exact .refl x
    · rename_i source d hpost
      obtain ⟨hlead, hsource⟩ := leads_post hpost
      refine ⟨hlead, fun l' hl' => ?_, fun _ h => Or.inl h⟩
      rcases List.mem_or_eq_of_mem_set hl' with hold | rfl
      · exact Or.inl hold
      · refine Or.inr fun peer hpeer id hid => ?_
        exact (h.links l (List.mem_of_getElem? hl) peer hpeer).leads hlead id (hsource id hid)

lemma go_extends (h : x.Consistent) (i : Nat) (st : Stream σ) (s : σ) :
    x.Extends (x.step (.go i st s)) := by
  simp only [step]
  split
  · exact .refl x
  · rename_i a ha
    split
    · exact .refl x
    · rename_i phase d s' hstep
      have hwent := step_went h.device hstep
      have htied : ∀ source peer, phase.bound? = some (source, peer) → Tied d source peer := by
        intro source peer hbound
        rcases hwent.bound source peer hbound with hold | hnew
        · exact (h.attempts a (List.mem_of_getElem? ha) source peer hold).leads hwent.leads
        · exact hnew
      refine ⟨hwent.leads, fun l hl => ?_, fun a' ha' => ?_⟩
      · rcases List.mem_append.mp hl with hold | hl
        · exact Or.inl hold
        · refine Or.inr fun peer hpeer => ?_
          unfold outcome at hl
          split at hl
          · cases List.mem_singleton.mp hl
            cases hpeer
            exact htied _ _ rfl
          all_goals cases hl
      · rcases List.mem_or_eq_of_mem_set ha' with hold | rfl
        · exact Or.inl hold
        · exact Or.inr htied

lemma step_extends (h : x.Consistent) (a : Act σ) : x.Extends (x.step a) := by
  cases a with
  | operate op => exact ⟨.perform _ op, fun _ h => Or.inl h, fun _ h => Or.inl h⟩
  | wrap source =>
    refine ⟨.refl _, fun l hl => ?_, fun _ h => Or.inl h⟩
    rcases List.mem_append.mp hl with hold | hl
    · exact Or.inl hold
    · cases List.mem_singleton.mp hl
      exact Or.inr fun _ hpeer => by cases hpeer
  | bind i peer => exact bind_extends h i peer
  | bindBoth i j => exact bindBoth_extends h i j
  | post i wrId w => exact post_extends h i wrId w
  | discard i =>
    simp only [step]
    split
    · exact .refl x
    · exact ⟨leads_discard _ _, fun _ hl => Or.inl (List.mem_of_mem_eraseIdx hl),
        fun _ h => Or.inl h⟩
  | connect factory party | accept factory party =>
    refine ⟨.refl _, fun _ h => Or.inl h, fun a ha => ?_⟩
    rcases List.mem_append.mp ha with hold | ha
    · exact Or.inl hold
    · cases List.mem_singleton.mp ha
      exact Or.inr fun _ _ hbound => by cases hbound
  | go i st s => exact go_extends h i st s

lemma consistent (acts : List (Act σ)) : (run acts).Consistent := by
  induction acts using List.reverseRecOn with
  | nil => exact ⟨⟨[], rfl⟩, fun _ h => (nomatch h), fun _ h => (nomatch h)⟩
  | append_singleton acts a ih =>
    rw [run_snoc]
    exact ih.extends (step_extends ih a)

end Linkage

namespace Device

/-- **The life of a queue pair.** It is made in the reset state without a peer; from there an
operation takes it to readiness, by the one connection that succeeds, or to the error state, where
it stays. A connection succeeds in the reset state only, and one that fails changes nothing; the
peer is that of the connection that succeeded. What waits at a queue pair fits its state. A
completion without success finds the queue pair of its request in the error state, or gone, when the
operation that pushes it returns, and from then on. All that is done through links and connection
attempts comes down to operations, and a link that has a peer stands for a queue pair that is
connected to it. -/
theorem lifecycle (ops : List Operation) :
    (∀ id q, (run ops).qps.get? id = some q → q.Orderly ∧ connected id ops = q.remote.toList) ∧
    (∀ id, (connected id ops).length ≤ 1) ∧
    (∀ s ∈ steps {} ops, ∀ id, Evolves s.1 (s.1.perform s.2) id) ∧
    (∀ (d : Device) id e,
      ((d.connect id e).isOk = true ↔ ∃ q, d.qps.get? id = some q ∧ q.state = .reset) ∧
      ((d.connect id e).isOk = false → d.perform (.connect id e) = d)) ∧
    (∀ s ∈ steps {} ops, ∀ report ∈ s.1.pushes s.2,
      report.completion.status.isSuccess = false →
      ∃ p ∈ accepted ops, p.CompletedBy report ∧
        (∀ q, (s.1.perform s.2).qps.get? p.qp = some q → q.state = .error) ∧
        ∀ q, (run ops).qps.get? p.qp = some q → q.state = .error) ∧
    ∀ (σ : Type) (acts : List (Linkage.Act σ)) (a : Linkage.Act σ),
      Linkage.Leads (Linkage.run acts).device ((Linkage.run acts).step a).device ∧
      ∀ l ∈ (Linkage.run acts).links, ∀ peer, l.peer = some peer → ∀ id, l.source = .device id →
        ∀ q, (Linkage.run acts).device.qps.get? id = some q → q.remote = some peer.endpoint := by
  refine ⟨fun id q hq => ⟨orderly hq, (bonds ops).peer id q hq⟩, (bonds ops).once,
    fun s hs id => ?_, fun d id e => ⟨connect_isOk_iff, fun hfails => ?_⟩,
    fun s hs report hreport hstatus => failed_of_pushes hs hreport hstatus,
    fun σ acts a => ⟨(Linkage.step_extends (Linkage.consistent acts) a).leads,
      fun l hl peer hpeer id hsource q hq => ?_⟩⟩
  · obtain ⟨before, -, -, hbefore⟩ := split_of_mem_steps hs
    rw [hbefore]
    exact evolves before s.2 id
  · rcases hconnect : d.connect id e with error | d'
    · simp only [perform, hconnect]
    · rw [hconnect] at hfails
      cases hfails
  · exact (((Linkage.consistent acts).links l hl peer hpeer id hsource).2 q hq).1

/-- A link is put around a queue pair and bound to the queue pair itself, which fails with the first
request on the link. -/
def selfLink : List (Linkage.Act Unit) :=
  [.operate .addFabric, .operate (.openNic 0 {}), .operate (.createCq {} 8),
    .operate (.createQp ⟨1, some 2, some 2, {}, 0⟩), .wrap (.device 3),
    .bind 0 ⟨⟨1, 1, 0⟩, [7]⟩, .post 0 10 (.send [⟨⟨0, 0⟩, 9⟩] (.send none))]

theorem lifecycle_selfLink :
    ∃ q, (Linkage.run selfLink).device.qps.get? 3 = some q ∧ q.state = .error ∧
      q.remote = some ⟨1, 1, 0⟩ := by
  have hstate : ((Linkage.run selfLink).device.qps.get? 3).map (·.state) = some .error := by cbv
  obtain ⟨q, hq, hstate⟩ := Option.map_eq_some_iff.mp hstate
  have hlinks : (Linkage.run selfLink).links = [⟨.device 3, some ⟨⟨1, 1, 0⟩, [7]⟩⟩] := by cbv
  have hlink : ⟨.device 3, some ⟨⟨1, 1, 0⟩, [7]⟩⟩ ∈ (Linkage.run selfLink).links := by
    rw [hlinks]
    exact List.mem_singleton_self _
  have hlinked := ((lifecycle []).2.2.2.2.2 Unit selfLink (.wrap (.device 3))).2
  exact ⟨q, hq, hstate, hlinked _ hlink _ rfl 3 rfl q hq⟩

end Device

end Verbs
