import Mathlib.Tactic
import Verbs.Proofs.Setup.Exchange

/-!
Two attempts in turns. What a step of an attempt comes to; that no order of turns goes on for ever,
since every turn moves a byte or takes an attempt further; and that the attempts, when each moves as
many bytes as it can, take turns of this kind until neither can.
-/

namespace Verbs.Setup

variable {ω ρ : Type}

/-! ### Steps -/

inductive Goes (h : Host ω ρ) (p : Party) (w : ω) (e : PipeEnd) :
    Phase ρ → Phase ρ → ω → PipeEnd → Prop where
  | created (qp : ρ) (w' : ω) (create : h.create w = .ok (qp, w')) :
      Goes h p w e .opening (.sending qp none (announce h p w' qp)) w' e
  | uncreated (error : QpError) (create : h.create w = .error error) :
      Goes h p w e .opening (.done (.error (.create error))) w e
  | wrote (qp : ρ) (peer : Option Handshake) (rest left : Bytes) (e' : PipeEnd)
      (sent : Sent rest e (.on left) e') :
      Goes h p w e (.sending qp peer rest) (.sending qp peer left) w e'
  | unsent (qp : ρ) (peer : Option Handshake) (rest : Bytes) (error : HandshakeError)
      (e' : PipeEnd) (sent : Sent rest e (.result (.error error)) e') :
      Goes h p w e (.sending qp peer rest) (.done (.error error)) (h.discard w qp) e'
  | turned (qp : ρ) (rest : Bytes) (e' : PipeEnd) (sent : Sent rest e (.result (.ok ())) e') :
      Goes h p w e (.sending qp none rest) (.receiving (some qp) []) w e'
  | answered (qp : ρ) (peer : Handshake) (rest : Bytes) (e' : PipeEnd)
      (sent : Sent rest e (.result (.ok ())) e') :
      Goes h p w e (.sending qp (some peer) rest) (.done (.ok (qp, peer))) w e'
  | read (qp : Option ρ) (got got' : Bytes) (e' : PipeEnd)
      (read : Got p.maxUserData got e (.on got') e') :
      Goes h p w e (.receiving qp got) (.receiving qp got') w e'
  | refused (qp : Option ρ) (got : Bytes) (error : HandshakeError) (e' : PipeEnd)
      (read : Got p.maxUserData got e (.result (.error error)) e') :
      Goes h p w e (.receiving qp got) (.done (.error error)) (qp.elim w (h.discard w)) e'
  | understood (qp : Option ρ) (got : Bytes) (peer : Handshake) (e' : PipeEnd)
      (read : Got p.maxUserData got e (.result (.ok peer)) e') :
      Goes h p w e (.receiving qp got) (received h p w peer qp).1 (received h p w peer qp).2 e'

variable {h hc ha : Host ω ρ} {p pc pa : Party} {w w' : ω} {e e' : PipeEnd} {phase phase' : Phase ρ}
  {k : Nat}

lemma step_goes (hs : step h (PipeEnd.upTo k) p phase w e = some (phase', w', e')) :
    Goes h p w e phase phase' w' e' := by
  cases phase with
  | opening =>
    simp only [step] at hs
    split at hs
    · rename_i error hcreate
      cases hs
      exact .uncreated error hcreate
    · rename_i qp _ hcreate
      cases hs
      exact .created qp _ hcreate
  | sending qp peer rest =>
    simp only [step] at hs
    split at hs
    · cases hs
    · rename_i left e₁ hsend
      cases hs
      exact .wrote qp peer rest left _ (send_spec hsend)
    · rename_i error e₁ hsend
      cases hs
      exact .unsent qp peer rest error _ (send_spec hsend)
    · rename_i e₁ hsend
      cases peer with
      | none =>
        cases hs
        exact .turned qp rest _ (send_spec hsend)
      | some peer =>
        cases hs
        exact .answered qp peer rest _ (send_spec hsend)
  | receiving qp got =>
    simp only [step] at hs
    split at hs
    · cases hs
    · rename_i got' e₁ hreceive
      cases hs
      exact .read qp got got' _ (receive_spec hreceive)
    · rename_i error e₁ hreceive
      cases hs
      cases qp <;> exact .refused _ got error _ (receive_spec hreceive)
    · rename_i peer e₁ hreceive
      cases hs
      exact .understood qp got peer _ (receive_spec hreceive)
  | done result => cases hs

lemma Goes.capacity (hg : Goes h p w e phase phase' w' e') :
    e'.incoming.capacity = e.incoming.capacity ∧ e'.outgoing.capacity = e.outgoing.capacity := by
  cases hg with
  | created | uncreated => exact ⟨rfl, rfl⟩
  | wrote _ _ _ _ _ sent | unsent _ _ _ _ _ sent | turned _ _ _ sent | answered _ _ _ _ sent =>
    cases sent
    exact ⟨rfl, rfl⟩
  | read _ _ _ _ read =>
    cases read
    exact ⟨rfl, rfl⟩
  | refused _ _ _ _ read | understood _ _ _ _ read => cases read <;> exact ⟨rfl, rfl⟩

/-- Whether an attempt can go on: it need not wait for the other side. -/
def CanGo (p : Party) (e : PipeEnd) : Phase ρ → Prop
  | .opening => True
  | .sending _ _ rest => rest = [] ∨ e.outgoing.closed = true ∨
      e.outgoing.content.length < e.outgoing.capacity
  | .receiving _ got => readLimit p.maxUserData ≤ got.length ∨ e.incoming.content ≠ [] ∨
      e.incoming.closed = true
  | .done _ => False

lemma step_isSome_iff : (step h (PipeEnd.upTo k) p phase w e).isSome = true ↔ CanGo p e phase := by
  cases phase with
  | opening =>
    simp only [step, CanGo, iff_true]
    split <;> rfl
  | sending qp peer rest =>
    rw [CanGo, ← send_isSome_iff (k := k)]
    simp only [step]
    split
    · simp_all
    · simp_all
    · simp_all
    · split <;> simp_all
  | receiving qp got =>
    rw [CanGo, ← receive_isSome_iff (k := k)]
    simp only [step]
    split <;> simp_all
  | done result => simp [step, CanGo]

/-! ### The way to the end -/

/-- How far an attempt is from its end: two for every byte to be written, one for whatever else is
to be done. -/
def weight (p : Party) : Phase ρ → Nat
  | .opening | .receiving none _ => 2 * (Handshake.headerSize + p.userData.length) + 4
  | .sending _ _ rest => 2 * rest.length + 3
  | .receiving (some _) _ => 2
  | .done _ => 0

lemma length_announce (h : Host ω ρ) (p : Party) (w : ω) (qp : ρ) :
    (announce h p w qp).length = Handshake.headerSize + p.userData.length := by
  rw [announce, Handshake.length_encode]

lemma weight_received_lt (w : ω) (peer : Handshake) (qp : Option ρ) (got : Bytes) :
    weight p (received h p w peer qp).1 < weight p (.receiving qp got) := by
  cases qp with
  | some qp =>
    simp only [received]
    split <;> simp [weight]
  | none =>
    simp only [received]
    split
    · simp [weight]
    · split
      · simp only [weight, length_announce]
        omega
      · simp [weight]

def underway (e : PipeEnd) : Nat := e.incoming.content.length + e.outgoing.content.length

lemma Sent.underway_eq {rest : Bytes} {r : Except HandshakeError Unit}
    (hs : Sent rest e (.result r) e') : underway e' = underway e := by
  cases hs <;> rfl

lemma Got.underway_eq {maxUserData : UInt64} {got : Bytes} {r : Except HandshakeError Handshake}
    (hr : Got maxUserData got e (.result r) e') : underway e' = underway e := by
  cases hr <;> rfl

/-- A step takes an attempt further, or moves a byte. -/
lemma Goes.weight_lt (hg : Goes h p w e phase phase' w' e') :
    weight p phase' + underway e' < weight p phase + underway e := by
  cases hg with
  | created qp _ create =>
    simp only [weight, length_announce]
    omega
  | uncreated error create =>
    simp only [weight]
    omega
  | wrote qp peer rest left e' sent =>
    cases sent with
    | wrote sent _ split some isOpen room =>
      have hpos : 0 < sent.length := List.length_pos_iff.mpr some
      simp only [weight, underway, split, List.length_append]
      omega
  | unsent qp peer rest error e' sent =>
    rw [sent.underway_eq]
    simp only [weight]
    omega
  | turned qp rest e' sent =>
    rw [sent.underway_eq]
    simp only [weight]
    omega
  | answered qp peer rest e' sent =>
    rw [sent.underway_eq]
    simp only [weight]
    omega
  | read qp got got' e' read =>
    cases read with
    | read bs left split some =>
      have hpos : 0 < bs.length := List.length_pos_iff.mpr some
      have hsame : weight p (.receiving qp (got ++ bs)) = weight p (.receiving qp got) := by
        cases qp <;> rfl
      rw [hsame]
      simp only [underway, split, List.length_append]
      omega
  | refused qp got error e' read =>
    rw [read.underway_eq]
    cases qp <;> simp only [weight] <;> omega
  | understood qp got peer e' read =>
    rw [read.underway_eq]
    exact Nat.add_lt_add_right (weight_received_lt w peer qp got) _

/-! ### Moving as much as possible -/

lemma step_stream (h : Host ω ρ) (p : Party) (phase : Phase ρ) (w : ω) (e : PipeEnd) :
    ∃ k, step h PipeEnd.stream p phase w e = step h (PipeEnd.upTo k) p phase w e := by
  cases phase with
  | opening => exact ⟨0, rfl⟩
  | sending qp peer rest => exact ⟨rest.length, by simp only [step, send_stream]⟩
  | receiving qp got =>
    exact ⟨e.incoming.content.length, by simp only [step, receive_stream p.maxUserData got e]⟩
  | done result => exact ⟨0, rfl⟩

/-! ### Turns -/

/-- Who takes the next step, and how many bytes besides the first it may move. -/
inductive Turn where
  | connector (k : Nat)
  | acceptor (k : Nat)

namespace Pairing

/-- Two attempts that have not begun, over pipes of some capacities. -/
def between (capacity capacity' : Nat) (world : ω) : Pairing ω ρ :=
  { toAcceptor := { capacity }, toConnector := { capacity := capacity' }, world }

def withConnector (x : Pairing ω ρ) (phase : Phase ρ) (world : ω) (e : PipeEnd) : Pairing ω ρ :=
  { x with
    connector := phase
    world
    toConnector := (leave phase e).incoming
    toAcceptor := (leave phase e).outgoing }

def withAcceptor (x : Pairing ω ρ) (phase : Phase ρ) (world : ω) (e : PipeEnd) : Pairing ω ρ :=
  { x with
    acceptor := phase
    world
    toAcceptor := (leave phase e).incoming
    toConnector := (leave phase e).outgoing }

def turn (hc : Host ω ρ) (pc : Party) (ha : Host ω ρ) (pa : Party) (x : Pairing ω ρ) :
    Turn → Option (Pairing ω ρ)
  | .connector k =>
    (step hc (PipeEnd.upTo k) pc x.connector x.world ⟨x.toConnector, x.toAcceptor⟩).map
      fun (phase, world, e) => x.withConnector phase world e
  | .acceptor k =>
    (step ha (PipeEnd.upTo k) pa x.acceptor x.world ⟨x.toAcceptor, x.toConnector⟩).map
      fun (phase, world, e) => x.withAcceptor phase world e

def turns (hc : Host ω ρ) (pc : Party) (ha : Host ω ρ) (pa : Party) (x : Pairing ω ρ)
    (ts : List Turn) : Option (Pairing ω ρ) :=
  ts.foldlM (turn hc pc ha pa) x

variable {x x' : Pairing ω ρ} {t : Turn} {ts : List Turn}

lemma turn_connector (hx : x.turn hc pc ha pa (.connector k) = some x') : ∃ phase world e,
    Goes hc pc x.world ⟨x.toConnector, x.toAcceptor⟩ x.connector phase world e ∧
      x' = x.withConnector phase world e := by
  obtain ⟨⟨phase, world, e⟩, hstep, rfl⟩ := Option.map_eq_some_iff.mp hx
  exact ⟨phase, world, e, step_goes hstep, rfl⟩

lemma turn_acceptor (hx : x.turn hc pc ha pa (.acceptor k) = some x') : ∃ phase world e,
    Goes ha pa x.world ⟨x.toAcceptor, x.toConnector⟩ x.acceptor phase world e ∧
      x' = x.withAcceptor phase world e := by
  obtain ⟨⟨phase, world, e⟩, hstep, rfl⟩ := Option.map_eq_some_iff.mp hx
  exact ⟨phase, world, e, step_goes hstep, rfl⟩

lemma turn_connector_isSome_iff : (x.turn hc pc ha pa (.connector k)).isSome = true ↔
    CanGo pc ⟨x.toConnector, x.toAcceptor⟩ x.connector := by
  rw [← step_isSome_iff (h := hc) (w := x.world) (k := k), turn, Option.isSome_map]

lemma turn_acceptor_isSome_iff : (x.turn hc pc ha pa (.acceptor k)).isSome = true ↔
    CanGo pa ⟨x.toAcceptor, x.toConnector⟩ x.acceptor := by
  rw [← step_isSome_iff (h := ha) (w := x.world) (k := k), turn, Option.isSome_map]

lemma turns_snoc (ts : List Turn) (t : Turn) : x.turns hc pc ha pa (ts ++ [t]) =
    (x.turns hc pc ha pa ts).bind (·.turn hc pc ha pa t) := by
  simp [turns]

lemma turns_induction {P : Pairing ω ρ → Prop} (hx : x.turns hc pc ha pa ts = some x') (h₀ : P x)
    (hturn : ∀ y t y', P y → y.turn hc pc ha pa t = some y' → P y') : P x' := by
  induction ts using List.reverseRecOn generalizing x' with
  | nil =>
    cases hx
    exact h₀
  | append_singleton ts t ih =>
    rw [turns_snoc] at hx
    obtain ⟨y, hy, ht⟩ := Option.bind_eq_some_iff.mp hx
    exact hturn y t x' (ih hy) ht

lemma capacity_leave (phase : Phase ρ) (e : PipeEnd) :
    (leave phase e).incoming.capacity = e.incoming.capacity ∧
      (leave phase e).outgoing.capacity = e.outgoing.capacity := by
  cases phase <;> exact ⟨rfl, rfl⟩

lemma turn_capacity (hx : x.turn hc pc ha pa t = some x') :
    x'.toAcceptor.capacity = x.toAcceptor.capacity ∧
      x'.toConnector.capacity = x.toConnector.capacity := by
  cases t with
  | connector k =>
    obtain ⟨phase, world, e, hgoes, rfl⟩ := turn_connector hx
    obtain ⟨hin, hout⟩ := capacity_leave phase e
    exact ⟨hout.trans hgoes.capacity.2, hin.trans hgoes.capacity.1⟩
  | acceptor k =>
    obtain ⟨phase, world, e, hgoes, rfl⟩ := turn_acceptor hx
    obtain ⟨hin, hout⟩ := capacity_leave phase e
    exact ⟨hin.trans hgoes.capacity.1, hout.trans hgoes.capacity.2⟩

/-! ### Every order of turns ends -/

lemma underway_leave (phase : Phase ρ) (e : PipeEnd) :
    underway ⟨(leave phase e).incoming, (leave phase e).outgoing⟩ = underway e := by
  cases phase <;> rfl

/-- How far both attempts are from their end. -/
def total (pc pa : Party) (x : Pairing ω ρ) : Nat :=
  weight pc x.connector + weight pa x.acceptor + underway ⟨x.toConnector, x.toAcceptor⟩

lemma underway_swap (p q : Pipe) : underway ⟨p, q⟩ = underway ⟨q, p⟩ := Nat.add_comm _ _

lemma turn_total (hx : x.turn hc pc ha pa t = some x') : total pc pa x' < total pc pa x := by
  cases t with
  | connector k =>
    obtain ⟨connector, world, e, hgoes, rfl⟩ := turn_connector hx
    have hlt := hgoes.weight_lt
    simp only [total, withConnector, underway_leave]
    omega
  | acceptor k =>
    obtain ⟨acceptor, world, e, hgoes, rfl⟩ := turn_acceptor hx
    have hlt := hgoes.weight_lt
    simp only [total, withAcceptor]
    rw [underway_swap, underway_leave, underway_swap x.toConnector]
    omega

lemma turns_length (hx : x.turns hc pc ha pa ts = some x') :
    ts.length + total pc pa x' ≤ total pc pa x := by
  induction ts using List.reverseRecOn generalizing x' with
  | nil =>
    cases hx
    exact Nat.le_of_eq (Nat.zero_add _)
  | append_singleton ts t ih =>
    rw [turns_snoc] at hx
    obtain ⟨y, hy, ht⟩ := Option.bind_eq_some_iff.mp hx
    have hlt := turn_total ht
    have hle := ih hy
    rw [List.length_append, List.length_singleton]
    omega

lemma total_between (pc pa : Party) (capacity capacity' : Nat) (world : ω) :
    total pc pa (between capacity capacity' world : Pairing ω ρ) < bound pc pa := by
  simp only [total, between, weight, Phase.connector, Phase.acceptor, underway, bound,
    List.length_nil]
  omega

lemma turns_lt_bound {capacity capacity' : Nat} {world : ω}
    (hx : (between capacity capacity' world).turns hc pc ha pa ts = some x') :
    ts.length < bound pc pa := by
  have hlength := turns_length hx
  have htotal := total_between (ρ := ρ) pc pa capacity capacity' world
  omega

/-! ### Turns that move as much as they can -/

lemma stepConnector_turn (hc : Host ω ρ) (pc : Party) (ha : Host ω ρ) (pa : Party)
    (x : Pairing ω ρ) : ∃ k, x.stepConnector hc pc = x.turn hc pc ha pa (.connector k) := by
  obtain ⟨k, hk⟩ := step_stream hc pc x.connector x.world ⟨x.toConnector, x.toAcceptor⟩
  refine ⟨k, ?_⟩
  rw [stepConnector, hk, turn]
  rcases step hc _ pc x.connector x.world _ with - | ⟨phase, world, e⟩ <;> rfl

lemma stepAcceptor_turn (hc : Host ω ρ) (pc : Party) (ha : Host ω ρ) (pa : Party)
    (x : Pairing ω ρ) : ∃ k, x.stepAcceptor ha pa = x.turn hc pc ha pa (.acceptor k) := by
  obtain ⟨k, hk⟩ := step_stream ha pa x.acceptor x.world ⟨x.toAcceptor, x.toConnector⟩
  refine ⟨k, ?_⟩
  rw [stepAcceptor, hk, turn]
  rcases step ha _ pa x.acceptor x.world _ with - | ⟨phase, world, e⟩ <;> rfl

/-- Neither of the attempts can go on. -/
def Stuck (hc : Host ω ρ) (pc : Party) (ha : Host ω ρ) (pa : Party) (x : Pairing ω ρ) : Prop :=
  ∀ t, x.turn hc pc ha pa t = none

lemma run_turns (hc : Host ω ρ) (pc : Party) (ha : Host ω ρ) (pa : Party) (fuel : Nat)
    (x : Pairing ω ρ) : ∃ ts, x.turns hc pc ha pa ts = some (run hc pc ha pa fuel x) ∧
      (ts.length = fuel ∨ (run hc pc ha pa fuel x).Stuck hc pc ha pa) := by
  induction fuel generalizing x with
  | zero => exact ⟨[], rfl, Or.inl rfl⟩
  | succ fuel ih =>
    have hcons : ∀ {y : Pairing ω ρ} {t : Turn}, x.turn hc pc ha pa t = some y →
        run hc pc ha pa (fuel + 1) x = run hc pc ha pa fuel y →
        ∃ ts, x.turns hc pc ha pa ts = some (run hc pc ha pa (fuel + 1) x) ∧
          (ts.length = fuel + 1 ∨ (run hc pc ha pa (fuel + 1) x).Stuck hc pc ha pa) := by
      intro y t ht hrun
      obtain ⟨ts, hts, hend⟩ := ih y
      rw [hrun]
      refine ⟨t :: ts, ?_, hend.imp_left (congrArg (· + 1))⟩
      simpa [turns, ht] using hts
    obtain ⟨kc, hkc⟩ := stepConnector_turn hc pc ha pa x
    obtain ⟨ka, hka⟩ := stepAcceptor_turn hc pc ha pa x
    rcases hconnector : x.stepConnector hc pc with - | y
    · rcases hacceptor : x.stepAcceptor ha pa with - | y
      · refine ⟨[], by simp [turns, run, hconnector, hacceptor], Or.inr fun t => ?_⟩
        simp only [run, hconnector, hacceptor]
        rw [hkc, ← Option.not_isSome_iff_eq_none, turn_connector_isSome_iff] at hconnector
        rw [hka, ← Option.not_isSome_iff_eq_none, turn_acceptor_isSome_iff] at hacceptor
        cases t with
        | connector k => rwa [← Option.not_isSome_iff_eq_none, turn_connector_isSome_iff]
        | acceptor k => rwa [← Option.not_isSome_iff_eq_none, turn_acceptor_isSome_iff]
      · exact hcons (hka ▸ hacceptor) (by simp only [run, hconnector, hacceptor])
    · exact hcons (hkc ▸ hconnector) (by simp only [run, hconnector])

lemma run_stuck (hc : Host ω ρ) (pc : Party) (ha : Host ω ρ) (pa : Party)
    (capacity capacity' : Nat) (world : ω) :
    ∃ ts, (between capacity capacity' world).turns hc pc ha pa ts =
        some (run hc pc ha pa (bound pc pa) (between capacity capacity' world)) ∧
      (run hc pc ha pa (bound pc pa) (between capacity capacity' world)).Stuck hc pc ha pa := by
  obtain ⟨ts, hts, hend⟩ := run_turns hc pc ha pa (bound pc pa) (between capacity capacity' world)
  exact ⟨ts, hts, hend.resolve_left (turns_lt_bound hts).ne⟩

end Pairing

end Verbs.Setup
