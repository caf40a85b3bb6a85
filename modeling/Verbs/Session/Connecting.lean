import Verbs.Session.Requests
import Verbs.Setup.Pairing

/-!
Steps that bind queue pairs to peers: directly, or by a connection attempt over a script or
between two sides in memory.
-/

namespace Verbs.Session

def setLink (name : String) (link : Link) : Act Unit :=
  modify fun s => { s with qps := s.qps.modify name ({ · with link }) }

def link (name : String) : Act Link := do
  let h ← qpHandle name
  if h.executor.isSome then return h.link else throw (.unknown name)

def bind (qp : String) (peer : PeerRef) (userData : Bytes) : Act Answer := do
  let l ← link qp
  let (l, device) ← orRefuse .ofCall (l.bind (← get).device ⟨← endpoint peer, userData⟩)
  setDevice device
  setLink qp l
  return .done

def bindBoth (first second : String) : Act Answer := do
  let (result, a, b, device) := (← link first).bindBoth (← link second) (← get).device
  setDevice device
  setLink first a
  setLink second b
  orRefuse .ofCall result
  return .done

/-- One side of an attempt with its references resolved. -/
structure Attempt where
  factory : Factory
  executor : ExecutorId
  party : Setup.Party

def Side.resolve (side : Side) : Act Attempt := do
  let factory ← match side.factory with
    | .builder name => pure (.device (← plan name))
    | .scripted outcome => pure (.scripted outcome)
  let executor ← executorId side.executor
  let userData ← match side.userData with
    | .bytes data => pure data
    | .descriptor region => pure (← regionHandle region).toRemote.encode
  return ⟨factory, executor, ⟨userData, side.maxUserData⟩⟩

/-- Keep the outcome of an attempt; where there is a queue pair, it gets its name. -/
def conclude (side : Side) (a : Attempt) (phase : Setup.Phase QpSource) :
    Act (Except Error QpView) := do
  match phase.result? with
  | none => throw (.unknown side.id)
  | some (.error e) => return .error (.handshake e)
  | some (.ok (source, peer)) =>
    let h : QpHandle := { link := ⟨source, some peer⟩, executor := some a.executor }
    let view := QpView.of (← get).device side.hides h
    nameQp side.id h
    return .ok view

def attempt (part : Part) (side : Side) (script : Script) : Act Answer := do
  let a ← side.resolve
  let start := match part with
    | .acceptor => .acceptor
    | .connector => .connector
  let (phase, device, script) :=
    Setup.runScript a.factory a.party start (← get).device script
  setDevice device
  return .attempt (← conclude side a phase) script

/-- Run both sides over a connection in memory, by default one that holds all they send. -/
def pair (acceptor connector : Side) (capacity : Option Nat) : Act Answer := do
  let a ← acceptor.resolve
  let c ← connector.resolve
  let bound := Setup.Pairing.bound c.party a.party
  let x := (Setup.Pairing.start (capacity.getD bound) (← get).device).run
    c.factory.host c.party a.factory.host a.party bound
  setDevice x.world
  let accepted ← conclude acceptor a x.acceptor
  let connected ← conclude connector c x.connector
  return .pair accepted connected

/-- Ask an acceptor that does not listen for its address and for a connection. -/
def acceptDetached (side : Side) : Act Answer := do
  let _ ← side.resolve
  return .detached Setup.noListener (.handshake (.io Setup.noListener))

end Verbs.Session
