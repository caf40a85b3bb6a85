import Mathlib.Tactic
import Verbs.Proofs.Setup.Sources
import Verbs.Proofs.Setup.Turns

/-!
A connector and an acceptor agree. However they take turns and however many bytes each turn moves,
what was read, what is on its way and what is yet to be written make up the message of a side; so
one of the two can always go on, and in the end both are connected to each other, or neither side
that failed took the other for its peer.
-/

namespace Verbs

def Pipe.Fresh (p : Pipe) : Prop := p.content = [] ∧ p.closed = false

namespace Setup

open Pairing

variable {fc fa : Factory} {pc pa : Party} {x x' : Pairing Device QpSource} {k : Nat}

/-- Both attempts have ended in a queue pair that is ready, connected to the queue pair of the other
side, and accompanied by the other side's endpoint and user data. -/
structure Paired (pc pa : Party) (x : Pairing Device QpSource) (qc qa : QpSource) : Prop where
  connector : x.connector = .done (.ok (qc, ⟨qa.endpoint x.world, pa.userData⟩))
  acceptor : x.acceptor = .done (.ok (qa, ⟨qc.endpoint x.world, pc.userData⟩))
  ready : qc.state x.world = .rts
  ready' : qa.state x.world = .rts
  remote : ∀ id q, qc = .device id → x.world.qps.get? id = some q →
    q.remote = some (qa.endpoint x.world)
  remote' : ∀ id q, qa = .device id → x.world.qps.get? id = some q →
    q.remote = some (qc.endpoint x.world)

/-- A side that finds the other one gone: it cannot write any more, or reads nothing. -/
def Abandoned (error : HandshakeError) : Prop :=
  error = .io (.kind .brokenPipe none) ∨ ∃ t, error = .decode t

/-- How far the two attempts have come together. -/
inductive Stage (fc fa : Factory) (pc pa : Party) (x : Pairing Device QpSource) : Prop where
  | begun (connector : x.connector = .opening) (acceptor : x.acceptor = .receiving none [])
      (toAcceptor : x.toAcceptor.Fresh) (toConnector : x.toConnector.Fresh)
      (makes : fc.Succeeds x.world) (makes' : fa.Succeeds x.world)
  /-- The connector writes while the acceptor reads. -/
  | offering (qc : QpSource) (e : Endpoint) (got rest : Bytes)
      (connector : x.connector = .sending qc none rest)
      (acceptor : x.acceptor = .receiving none got)
      (isOpen : x.toAcceptor.closed = false) (toConnector : x.toConnector.Fresh)
      (message : got ++ x.toAcceptor.content ++ rest = (Handshake.mk e pc.userData).encode)
      (unbound : qc.Unbound x.world e) (makes' : fa.Succeeds x.world)
  /-- The connector has written everything. -/
  | offered (qc : QpSource) (e : Endpoint) (got : Bytes)
      (connector : x.connector = .receiving (some qc) [])
      (acceptor : x.acceptor = .receiving none got)
      (closed : x.toAcceptor.closed = true) (toConnector : x.toConnector.Fresh)
      (message : got ++ x.toAcceptor.content = (Handshake.mk e pc.userData).encode)
      (unbound : qc.Unbound x.world e) (makes' : fa.Succeeds x.world)
  /-- The acceptor has understood the message, and writes while the connector reads. -/
  | answering (fits : pc.userData.length ≤ pa.maxUserData.toNat) (qc qa : QpSource)
      (e e' : Endpoint) (got rest : Bytes) (connector : x.connector = .receiving (some qc) got)
      (acceptor : x.acceptor = .sending qa (some ⟨e, pc.userData⟩) rest)
      (isOpen : x.toConnector.closed = false)
      (message : got ++ x.toConnector.content ++ rest = (Handshake.mk e' pa.userData).encode)
      (unbound : qc.Unbound x.world e) (bound : qa.BoundTo x.world e' e) (apart : qa.Apart qc)
  /-- The acceptor has come to its end. -/
  | answered (fits : pc.userData.length ≤ pa.maxUserData.toNat) (qc qa : QpSource)
      (e e' : Endpoint) (got : Bytes) (connector : x.connector = .receiving (some qc) got)
      (acceptor : x.acceptor = .done (.ok (qa, ⟨e, pc.userData⟩)))
      (closed : x.toConnector.closed = true)
      (message : got ++ x.toConnector.content = (Handshake.mk e' pa.userData).encode)
      (unbound : qc.Unbound x.world e) (bound : qa.BoundTo x.world e' e) (apart : qa.Apart qc)
  | paired (fits : pc.userData.length ≤ pa.maxUserData.toNat)
      (fits' : pa.userData.length ≤ pc.maxUserData.toNat) (qc qa : QpSource)
      (pair : Paired pc pa x qc qa)
  /-- The acceptor has given up on a message that is too long, and the connector still writes. -/
  | refused (exceeds : pa.maxUserData.toNat < pc.userData.length) (qc : QpSource) (rest : Bytes)
      (connector : x.connector = .sending qc none rest)
      (acceptor : x.acceptor = .done (.error (.userDataTooLarge pa.maxUserData)))
      (closed : x.toAcceptor.closed = true) (closed' : x.toConnector.closed = true)
      (empty : x.toConnector.content = [])
  /-- The acceptor has given up, and the connector waits for its answer. -/
  | unanswered (exceeds : pa.maxUserData.toNat < pc.userData.length) (qc : QpSource)
      (connector : x.connector = .receiving (some qc) [])
      (acceptor : x.acceptor = .done (.error (.userDataTooLarge pa.maxUserData)))
      (closed' : x.toConnector.closed = true) (empty : x.toConnector.content = [])
  | failed (exceeds : pa.maxUserData.toNat < pc.userData.length) (error : HandshakeError)
      (connector : x.connector = .done (.error error)) (abandoned : Abandoned error)
      (acceptor : x.acceptor = .done (.error (.userDataTooLarge pa.maxUserData)))
  /-- The connector has given up on an answer that is too long, and the acceptor still writes. -/
  | declined (fits : pc.userData.length ≤ pa.maxUserData.toNat)
      (exceeds' : pc.maxUserData.toNat < pa.userData.length) (qa : QpSource) (peer : Handshake)
      (rest : Bytes) (connector : x.connector = .done (.error (.userDataTooLarge pc.maxUserData)))
      (acceptor : x.acceptor = .sending qa (some peer) rest) (closed : x.toConnector.closed = true)
  | settled (fits : pc.userData.length ≤ pa.maxUserData.toNat)
      (exceeds' : pc.maxUserData.toNat < pa.userData.length)
      (result : Except HandshakeError (QpSource × Handshake))
      (connector : x.connector = .done (.error (.userDataTooLarge pc.maxUserData)))
      (acceptor : x.acceptor = .done result)

namespace Stage

/-! ### Turns of the connector -/

lemma begun_connector {phase : Phase QpSource} {world : Device} {e : PipeEnd}
    (acceptor : x.acceptor = .receiving none []) (toAcceptor : x.toAcceptor.Fresh)
    (toConnector : x.toConnector.Fresh) (makes : fc.Succeeds x.world)
    (makes' : fa.Succeeds x.world)
    (hgoes : Goes fc.host pc x.world ⟨x.toConnector, x.toAcceptor⟩ .opening phase world e) :
    Stage fc fa pc pa (x.withConnector phase world e) := by
  obtain ⟨qc, d, hcreate, hunbound, hkeeps, -⟩ := Factory.create_succeeds makes
  cases hgoes with
  | created qp w' create =>
    cases create.symm.trans hcreate
    exact .offering qc _ [] _ rfl acceptor toAcceptor.2 toConnector
      (by rw [List.nil_append]; exact congrArg (· ++ _) toAcceptor.1) hunbound (hkeeps fa makes')
  | uncreated error create => cases create.symm.trans hcreate

lemma paired_of_received {e : PipeEnd} {qc qa : QpSource} {ec ea : Endpoint}
    (fits : pc.userData.length ≤ pa.maxUserData.toNat)
    (fits' : pa.userData.length ≤ pc.maxUserData.toNat)
    (acceptor : x.acceptor = .done (.ok (qa, ⟨ec, pc.userData⟩)))
    (unbound : qc.Unbound x.world ec) (bound : qa.BoundTo x.world ea ec) (apart : qa.Apart qc) :
    let r := received fc.host pc x.world ⟨ea, pa.userData⟩ (some qc)
    Stage fc fa pc pa (x.withConnector r.1 r.2 e) := by
  intro r
  obtain ⟨d, hconnect, hbound, hothers⟩ := QpSource.connect_unbound unbound ea
  have hbound' := (hothers qa ea apart).2 ec bound
  have hr : r = (.done (.ok (qc, ⟨ea, pa.userData⟩)), d) := by
    have hhost : fc.host.connect x.world qc ea = .ok d := hconnect
    simp only [r, received, hhost]
  rw [hr]
  refine .paired fits fits' qc qa ⟨?_, ?_, hbound.state, hbound'.state, ?_, ?_⟩
  · exact congrArg (fun e => Phase.done (.ok (qc, ⟨e, pa.userData⟩))) hbound'.endpoint.symm
  · exact acceptor.trans
      (congrArg (fun e => Phase.done (.ok (qa, ⟨e, pc.userData⟩))) hbound.endpoint.symm)
  · exact fun id q hid hq => (hbound.remote hid hq).trans (congrArg some hbound'.endpoint.symm)
  · exact fun id q hid hq => (hbound'.remote hid hq).trans (congrArg some hbound.endpoint.symm)

lemma connector (hs : Stage fc fa pc pa x) (small : pa.userData.length < 2 ^ 63)
    (hx : x.turn fc.host pc fa.host pa (.connector k) = some x') : Stage fc fa pc pa x' := by
  obtain ⟨phase, world, e, hgoes, rfl⟩ := turn_connector hx
  cases hs with
  | begun connector acceptor toAcceptor toConnector makes makes' =>
    rw [connector] at hgoes
    exact begun_connector acceptor toAcceptor toConnector makes makes' hgoes
  | offering qc ec got rest connector acceptor isOpen toConnector message unbound makes' =>
    rw [connector] at hgoes
    cases hgoes with
    | wrote _ _ _ left _ sent =>
      obtain ⟨hmoved, -, isOpen', hincoming⟩ := sent.moved got
      exact .offering qc ec got left rfl acceptor isOpen'
        ((congrArg Pipe.Fresh hincoming).mpr toConnector) (hmoved.trans message) unbound makes'
    | unsent _ _ _ error _ sent =>
      cases sent with
      | broken closed => cases closed.symm.trans isOpen
    | turned _ _ _ sent =>
      cases sent with
      | ended whole =>
        rw [whole, List.append_nil] at message
        exact .offered qc ec got rfl acceptor rfl toConnector message unbound makes'
  | offered qc ec got connector acceptor closed toConnector message unbound makes' =>
    rw [connector] at hgoes
    cases hgoes with
    | read _ _ _ _ read | refused _ _ _ _ read | understood _ _ _ _ read =>
      exact absurd read (Got.not_of_fresh toConnector.1 toConnector.2)
  | answering fits qc qa ec ea got rest connector acceptor isOpen message unbound bound apart =>
    rw [connector] at hgoes
    -- the acceptor has bytes to write, so its half cannot have ended
    have hopen : x.toConnector.closed = true → rest = [] := fun closed => by
      cases closed.symm.trans isOpen
    cases hgoes with
    | read _ _ got' _ read =>
      obtain ⟨hmoved, hclosed, -⟩ := read.moved
      exact .answering fits qc qa ec ea got' rest rfl acceptor (hclosed.trans isOpen)
        ((congrArg (· ++ rest) hmoved).trans message) unbound bound apart
    | refused _ _ error _ read =>
      obtain ⟨-, ⟨-, -, hr⟩ | ⟨hlt, hr⟩⟩ := read.meaning small message hopen
      · cases hr
      · cases hr
        exact .declined fits hlt qa _ rest rfl acceptor rfl
    | understood _ _ peer _ read =>
      obtain ⟨-, ⟨closed, -, -⟩ | ⟨-, hr⟩⟩ := read.meaning small message hopen
      · cases closed.symm.trans isOpen
      · cases hr
  | answered fits qc qa ec ea got connector acceptor closed message unbound bound apart =>
    rw [connector] at hgoes
    have hwhole := (List.append_nil _).trans message
    cases hgoes with
    | read _ _ got' _ read =>
      obtain ⟨hmoved, hclosed, -⟩ := read.moved
      exact .answered fits qc qa ec ea got' rfl acceptor (hclosed.trans closed)
        (hmoved.trans message) unbound bound apart
    | refused _ _ error _ read =>
      obtain ⟨-, ⟨-, -, hr⟩ | ⟨hlt, hr⟩⟩ := read.meaning small hwhole fun _ => rfl
      · cases hr
      · cases hr
        exact .settled fits hlt _ rfl acceptor
    | understood _ _ peer _ read =>
      obtain ⟨-, ⟨-, fits', hr⟩ | ⟨-, hr⟩⟩ := read.meaning small hwhole fun _ => rfl
      · cases hr
        exact paired_of_received fits fits' acceptor unbound bound apart
      · cases hr
  | refused exceeds qc rest connector acceptor closed closed' empty =>
    rw [connector] at hgoes
    cases hgoes with
    | wrote _ _ _ left _ sent => cases (sent.moved []).2.1.symm.trans closed
    | unsent _ _ _ error _ sent =>
      cases sent with
      | broken => exact .failed exceeds _ rfl (Or.inl rfl) acceptor
    | turned _ _ _ sent =>
      cases sent with
      | ended => exact .unanswered exceeds qc rfl acceptor closed' empty
  | unanswered exceeds qc connector acceptor closed' empty =>
    rw [connector] at hgoes
    cases hgoes with
    | read _ _ _ _ read => exact absurd read (Got.not_on_of_empty empty)
    | refused _ _ error _ read =>
      cases read.nothing
      exact .failed exceeds _ rfl (Or.inr ⟨_, rfl⟩) acceptor
    | understood _ _ peer _ read => cases read.nothing
  | paired fits fits' qc qa pair =>
    rw [pair.connector] at hgoes
    cases hgoes
  | failed _ _ connector | declined _ _ _ _ _ connector | settled _ _ _ connector =>
    rw [connector] at hgoes
    cases hgoes

/-! ### Turns of the acceptor -/

lemma answering_of_received {e : PipeEnd} {qc : QpSource} {ec : Endpoint}
    (fits : pc.userData.length ≤ pa.maxUserData.toNat)
    (connector : x.connector = .receiving (some qc) []) (toConnector : e.outgoing.Fresh)
    (unbound : qc.Unbound x.world ec) (makes' : fa.Succeeds x.world) :
    let r := received fa.host pa x.world ⟨ec, pc.userData⟩ none
    Stage fc fa pc pa (x.withAcceptor r.1 r.2 e) := by
  intro r
  obtain ⟨qa, d₁, hcreate, hunbound, -, hothers⟩ := Factory.create_succeeds makes'
  obtain ⟨hkept, hapart⟩ := hothers qc ec unbound
  obtain ⟨d₂, hconnect, hbound, hothers'⟩ := QpSource.connect_unbound hunbound ec
  have hr : r = (.sending qa (some ⟨ec, pc.userData⟩) (announce fa.host pa d₂ qa), d₂) := by
    have hhost : fa.host.connect d₁ qa ec = .ok d₂ := hconnect
    simp only [r, received, hcreate, hhost]
  rw [hr]
  refine .answering fits qc qa ec (qa.endpoint d₂) [] _ connector rfl toConnector.2 ?_
    ((hothers' qc ec hapart).1 hkept) ?_ fun id hid heq => hapart id heq hid
  · rw [List.nil_append]
    exact congrArg (· ++ _) toConnector.1
  · rwa [hbound.endpoint]

lemma acceptor (hs : Stage fc fa pc pa x) (small : pc.userData.length < 2 ^ 63)
    (hx : x.turn fc.host pc fa.host pa (.acceptor k) = some x') : Stage fc fa pc pa x' := by
  obtain ⟨phase, world, e, hgoes, rfl⟩ := turn_acceptor hx
  cases hs with
  | begun connector acceptor toAcceptor toConnector makes makes' =>
    rw [acceptor] at hgoes
    cases hgoes with
    | read _ _ _ _ read | refused _ _ _ _ read | understood _ _ _ _ read =>
      exact absurd read (Got.not_of_fresh toAcceptor.1 toAcceptor.2)
  | offering qc ec got rest connector acceptor isOpen toConnector message unbound makes' =>
    rw [acceptor] at hgoes
    have hopen : x.toAcceptor.closed = true → rest = [] := fun closed => by
      cases closed.symm.trans isOpen
    cases hgoes with
    | read _ _ got' _ read =>
      obtain ⟨hmoved, hclosed, houtgoing⟩ := read.moved
      exact .offering qc ec got' rest connector rfl (hclosed.trans isOpen)
        ((congrArg Pipe.Fresh houtgoing).mpr toConnector)
        ((congrArg (· ++ rest) hmoved).trans message) unbound makes'
    | refused _ _ error _ read =>
      obtain ⟨rfl, ⟨-, -, hr⟩ | ⟨hlt, hr⟩⟩ := read.meaning small message hopen
      · cases hr
      · cases hr
        exact .refused hlt qc rest connector rfl rfl rfl toConnector.1
    | understood _ _ peer _ read =>
      obtain ⟨-, ⟨closed, -, -⟩ | ⟨-, hr⟩⟩ := read.meaning small message hopen
      · cases closed.symm.trans isOpen
      · cases hr
  | offered qc ec got connector acceptor closed toConnector message unbound makes' =>
    rw [acceptor] at hgoes
    have hwhole := (List.append_nil _).trans message
    cases hgoes with
    | read _ _ got' _ read =>
      obtain ⟨hmoved, hclosed, houtgoing⟩ := read.moved
      exact .offered qc ec got' connector rfl (hclosed.trans closed)
        ((congrArg Pipe.Fresh houtgoing).mpr toConnector) (hmoved.trans message) unbound makes'
    | refused _ _ error _ read =>
      obtain ⟨rfl, ⟨-, -, hr⟩ | ⟨hlt, hr⟩⟩ := read.meaning small hwhole fun _ => rfl
      · cases hr
      · cases hr
        exact .unanswered hlt qc connector rfl rfl toConnector.1
    | understood _ _ peer _ read =>
      obtain ⟨rfl, ⟨-, fits, hr⟩ | ⟨-, hr⟩⟩ := read.meaning small hwhole fun _ => rfl
      · cases hr
        exact answering_of_received fits connector toConnector unbound makes'
      · cases hr
  | answering fits qc qa ec ea got rest connector acceptor isOpen message unbound bound apart =>
    rw [acceptor] at hgoes
    cases hgoes with
    | wrote _ _ _ left _ sent =>
      obtain ⟨hmoved, -, isOpen', -⟩ := sent.moved got
      exact .answering fits qc qa ec ea got left connector rfl isOpen' (hmoved.trans message)
        unbound bound apart
    | unsent _ _ _ error _ sent =>
      cases sent with
      | broken closed => cases closed.symm.trans isOpen
    | answered _ _ _ _ sent =>
      cases sent with
      | ended whole =>
        rw [whole, List.append_nil] at message
        exact .answered fits qc qa ec ea got connector rfl rfl message unbound bound apart
  | declined fits exceeds' qa peer rest connector acceptor closed =>
    rw [acceptor] at hgoes
    cases hgoes with
    | wrote _ _ _ left _ sent => cases (sent.moved []).2.1.symm.trans closed
    | unsent | answered => exact .settled fits exceeds' _ connector rfl
  | paired fits fits' qc qa pair =>
    rw [pair.acceptor] at hgoes
    cases hgoes
  | answered _ _ _ _ _ _ _ acceptor | refused _ _ _ _ acceptor | unanswered _ _ _ acceptor
    | failed _ _ _ _ acceptor | settled _ _ _ _ acceptor =>
    rw [acceptor] at hgoes
    cases hgoes

lemma turn {t : Turn} (hs : Stage fc fa pc pa x) (small : pc.userData.length < 2 ^ 63)
    (small' : pa.userData.length < 2 ^ 63)
    (hx : x.turn fc.host pc fa.host pa t = some x') : Stage fc fa pc pa x' := by
  cases t with
  | connector k => exact hs.connector small' hx
  | acceptor k => exact hs.acceptor small hx

/-! ### Nobody waits for ever -/

/-- As long as one of the two is not over, one of them need not wait. -/
lemma canGo (hs : Stage fc fa pc pa x) (room : 0 < x.toAcceptor.capacity)
    (room' : 0 < x.toConnector.capacity)
    (hon : x.connector.result? = none ∨ x.acceptor.result? = none) :
    CanGo pc ⟨x.toConnector, x.toAcceptor⟩ x.connector ∨
      CanGo pa ⟨x.toAcceptor, x.toConnector⟩ x.acceptor := by
  -- a pipe is full only if there is something to read
  have hfull : ∀ {p : Pipe}, 0 < p.capacity → ¬ p.content.length < p.capacity →
      p.content ≠ [] := by
    rintro p hpos hnot hnil
    rw [hnil] at hnot
    exact hnot hpos
  cases hs with
  | begun connector => exact Or.inl (by rw [connector]; trivial)
  | offering qc ec got rest connector acceptor =>
    rw [connector, acceptor]
    by_cases hroom : x.toAcceptor.content.length < x.toAcceptor.capacity
    · exact Or.inl (Or.inr (Or.inr hroom))
    · exact Or.inr (Or.inr (Or.inl (hfull room hroom)))
  | offered qc ec got connector acceptor closed =>
    rw [acceptor]
    exact Or.inr (Or.inr (Or.inr closed))
  | answering fits qc qa ec ea got rest connector acceptor =>
    rw [connector, acceptor]
    by_cases hroom : x.toConnector.content.length < x.toConnector.capacity
    · exact Or.inr (Or.inr (Or.inr hroom))
    · exact Or.inl (Or.inr (Or.inl (hfull room' hroom)))
  | answered fits qc qa ec ea got connector acceptor closed =>
    rw [connector]
    exact Or.inl (Or.inr (Or.inr closed))
  | refused exceeds qc rest connector acceptor closed =>
    rw [connector]
    exact Or.inl (Or.inr (Or.inl closed))
  | unanswered exceeds qc connector acceptor closed' =>
    rw [connector]
    exact Or.inl (Or.inr (Or.inr closed'))
  | declined fits exceeds' qa peer rest connector acceptor closed =>
    rw [acceptor]
    exact Or.inr (Or.inr (Or.inl closed))
  | paired fits fits' qc qa pair =>
    rw [pair.connector, pair.acceptor] at hon
    simp [Phase.result?] at hon
  | failed _ _ connector _ acceptor | settled _ _ _ connector acceptor =>
    rw [connector, acceptor] at hon
    simp [Phase.result?] at hon

lemma exists_turn (hs : Stage fc fa pc pa x) (room : 0 < x.toAcceptor.capacity)
    (room' : 0 < x.toConnector.capacity)
    (hon : x.connector.result? = none ∨ x.acceptor.result? = none) :
    ∃ t, (x.turn fc.host pc fa.host pa t).isSome = true := by
  rcases hs.canGo room room' hon with hgo | hgo
  · exact ⟨.connector 0, turn_connector_isSome_iff.mpr hgo⟩
  · exact ⟨.acceptor 0, turn_acceptor_isSome_iff.mpr hgo⟩

end Stage

/-! ### The result -/

inductive Ending (pc pa : Party) (x : Pairing Device QpSource) : Prop where
  | paired (fits : pc.userData.length ≤ pa.maxUserData.toNat)
      (fits' : pa.userData.length ≤ pc.maxUserData.toNat) (qc qa : QpSource)
      (pair : Paired pc pa x qc qa)
  | failed (exceeds : pa.maxUserData.toNat < pc.userData.length) (error : HandshakeError)
      (connector : x.connector = .done (.error error)) (abandoned : Abandoned error)
      (acceptor : x.acceptor = .done (.error (.userDataTooLarge pa.maxUserData)))
  | settled (fits : pc.userData.length ≤ pa.maxUserData.toNat)
      (exceeds' : pc.maxUserData.toNat < pa.userData.length)
      (result : Except HandshakeError (QpSource × Handshake))
      (connector : x.connector = .done (.error (.userDataTooLarge pc.maxUserData)))
      (acceptor : x.acceptor = .done result)

lemma Stage.ending (hs : Stage fc fa pc pa x) (hc : x.connector.result? ≠ none)
    (ha : x.acceptor.result? ≠ none) : Ending pc pa x := by
  cases hs with
  | paired fits fits' qc qa pair => exact .paired fits fits' qc qa pair
  | failed exceeds error connector abandoned acceptor =>
    exact .failed exceeds error connector abandoned acceptor
  | settled fits exceeds' result connector acceptor =>
    exact .settled fits exceeds' result connector acceptor
  | begun connector | offering _ _ _ _ connector | offered _ _ _ connector
    | answering _ _ _ _ _ _ _ connector | answered _ _ _ _ _ _ connector
    | refused _ _ _ connector | unanswered _ _ connector =>
    exact absurd (by rw [connector]; rfl) hc
  | declined _ _ _ _ _ _ acceptor => exact absurd (by rw [acceptor]; rfl) ha

/-- **Agreement.** A connector and an acceptor take turns over two pipes, in any order and with any
number of bytes in each turn. There are only so many turns, and until both are over one of them can
take the next. When neither can, both are connected to each other if the user data of each fits the
limit of the other, and whenever the connector has succeeded; if the connector's user data does not
fit, the acceptor refuses it and the connector fails as well; if only the acceptor's does not fit,
the connector refuses it. User data are shorter than half of what 64 bits address, as is whatever is
held in memory. -/
theorem attempts_agree (fc fa : Factory) (pc pa : Party) (d : Device) (capacity capacity' : Nat)
    (room : 0 < capacity) (room' : 0 < capacity') (makes : fc.Succeeds d) (makes' : fa.Succeeds d)
    (small : pc.userData.length < 2 ^ 63) (small' : pa.userData.length < 2 ^ 63) (ts : List Turn)
    (x : Pairing Device QpSource)
    (hx : (between capacity capacity' d).turns fc.host pc fa.host pa ts = some x) :
    ts.length < bound pc pa ∧
    (x.connector.result? = none ∨ x.acceptor.result? = none →
      ∃ t, (x.turn fc.host pc fa.host pa t).isSome = true) ∧
    (x.Stuck fc.host pc fa.host pa →
      (pc.userData.length ≤ pa.maxUserData.toNat → pa.userData.length ≤ pc.maxUserData.toNat →
        ∃ qc qa, Paired pc pa x qc qa) ∧
      (∀ qc peer, x.connector = .done (.ok (qc, peer)) → ∃ qa, Paired pc pa x qc qa) ∧
      (pa.maxUserData.toNat < pc.userData.length →
        x.acceptor = .done (.error (.userDataTooLarge pa.maxUserData)) ∧
        ∃ error, x.connector = .done (.error error) ∧ Abandoned error) ∧
      (pc.userData.length ≤ pa.maxUserData.toNat → pc.maxUserData.toNat < pa.userData.length →
        x.connector = .done (.error (.userDataTooLarge pc.maxUserData)) ∧
        x.acceptor.result? ≠ none)) := by
  have hstage : Stage fc fa pc pa x := by
    refine turns_induction hx ?_ fun y t y' hy ht => hy.turn small small' ht
    exact .begun rfl rfl ⟨rfl, rfl⟩ ⟨rfl, rfl⟩ makes makes'
  have hroom : 0 < x.toAcceptor.capacity ∧ 0 < x.toConnector.capacity := by
    refine turns_induction (P := fun y => 0 < y.toAcceptor.capacity ∧ 0 < y.toConnector.capacity)
      hx ⟨room, room'⟩ fun y t y' hy ht => ?_
    obtain ⟨hto, hfrom⟩ := turn_capacity ht
    rwa [hto, hfrom]
  have hgoes := hstage.exists_turn hroom.1 hroom.2
  refine ⟨turns_lt_bound hx, hgoes, fun hstuck => ?_⟩
  have hover : ¬ (x.connector.result? = none ∨ x.acceptor.result? = none) := fun hon => by
    obtain ⟨t, ht⟩ := hgoes hon
    rw [hstuck t] at ht
    cases ht
  obtain ⟨hc, ha⟩ := not_or.mp hover
  cases hstage.ending hc ha with
  | paired fits fits' qc qa pair =>
    refine ⟨fun _ _ => ⟨qc, qa, pair⟩, fun qc' peer hok => ?_,
      fun hlt => absurd fits (Nat.not_le.mpr hlt), fun _ hlt => absurd fits' (Nat.not_le.mpr hlt)⟩
    cases pair.connector.symm.trans hok
    exact ⟨qa, pair⟩
  | failed exceeds error connector abandoned acceptor =>
    exact ⟨fun fits => absurd fits (Nat.not_le.mpr exceeds),
      fun _ _ hok => (by cases connector.symm.trans hok),
      fun _ => ⟨acceptor, error, connector, abandoned⟩,
      fun fits => absurd fits (Nat.not_le.mpr exceeds)⟩
  | settled fits exceeds' result connector acceptor =>
    exact ⟨fun _ fits' => absurd fits' (Nat.not_le.mpr exceeds'),
      fun _ _ hok => (by cases connector.symm.trans hok),
      fun hlt => absurd fits (Nat.not_le.mpr hlt), fun _ _ => ⟨connector, ha⟩⟩

def adapter : Device := Device.run [.addFabric, .openNic 0 {}, .createCq {} 8]

def ready : Factory := .device ⟨1, some 2, some 2, {}, 0⟩

theorem attempts_agree_narrow :
    ready.Succeeds adapter ∧
    ∃ ts x, (start 1 adapter).turns ready.host ⟨[1, 2, 3], 1⟩ ready.host ⟨[4], 3⟩ ts = some x ∧
      x.Stuck ready.host ⟨[1, 2, 3], 1⟩ ready.host ⟨[4], 3⟩ ∧
      ∃ qc qa, Paired ⟨[1, 2, 3], 1⟩ ⟨[4], 3⟩ x qc qa := by
  have hready : ready.Succeeds adapter := by
    show (adapter.createQp ⟨1, some 2, some 2, {}, 0⟩).isOk = true
    rfl
  -- each side moves as much as it can until neither can go on
  obtain ⟨ts, hts, hstuck⟩ :=
    run_stuck ready.host ⟨[1, 2, 3], 1⟩ ready.host ⟨[4], 3⟩ 1 1 adapter
  have h := attempts_agree ready ready ⟨[1, 2, 3], 1⟩ ⟨[4], 3⟩ adapter 1 1 Nat.one_pos Nat.one_pos
    hready hready (by decide) (by decide) ts _ hts
  exact ⟨hready, ts, _, hts, hstuck, (h.2.2 hstuck).1 (by decide) (by decide)⟩

end Setup

end Verbs
