import Verbs.Setup
import Verbs.Stream.Pipe

/-!
A connector and an acceptor at the two ends of a connection in memory. Each goes on by steps of its
own; when one is over, its end of the connection is gone.
-/

namespace Verbs.Setup

/-- Two attempts and the pipes between them. -/
structure Pairing (ω ρ : Type) where
  connector : Phase ρ := .connector
  acceptor : Phase ρ := .acceptor
  toAcceptor : Pipe
  toConnector : Pipe
  world : ω

namespace Pairing

variable {ω ρ : Type}

def start (capacity : Nat) (world : ω) : Pairing ω ρ :=
  { toAcceptor := { capacity }, toConnector := { capacity }, world }

/-- An end as its owner leaves it: gone, if the owner's attempt is over. -/
def leave (phase : Phase ρ) (e : PipeEnd) : PipeEnd :=
  match phase with
  | .done _ => e.abandon
  | .opening | .sending _ _ _ | .receiving _ _ => e

def stepConnector (h : Host ω ρ) (p : Party) (x : Pairing ω ρ) : Option (Pairing ω ρ) :=
  match step h PipeEnd.stream p x.connector x.world ⟨x.toConnector, x.toAcceptor⟩ with
  | none => none
  | some (connector, world, e) =>
    let e := leave connector e
    some { x with connector, world, toConnector := e.incoming, toAcceptor := e.outgoing }

def stepAcceptor (h : Host ω ρ) (p : Party) (x : Pairing ω ρ) : Option (Pairing ω ρ) :=
  match step h PipeEnd.stream p x.acceptor x.world ⟨x.toAcceptor, x.toConnector⟩ with
  | none => none
  | some (acceptor, world, e) =>
    let e := leave acceptor e
    some { x with acceptor, world, toAcceptor := e.incoming, toConnector := e.outgoing }

/-- Steps of both, the connector's first, until neither can go on, `fuel` at most. -/
def run (hc : Host ω ρ) (pc : Party) (ha : Host ω ρ) (pa : Party) :
    (fuel : Nat) → Pairing ω ρ → Pairing ω ρ
  | 0, x => x
  | fuel + 1, x =>
    match x.stepConnector hc pc with
    | some x => run hc pc ha pa fuel x
    | none =>
      match x.stepAcceptor ha pa with
      | some x => run hc pc ha pa fuel x
      | none => x

/-- A bound on the steps of both: every read and write moves a byte. -/
def bound (pc pa : Party) : Nat :=
  2 * (pc.userData.length + pa.userData.length + 2 * Handshake.headerSize) + 16

end Pairing

end Verbs.Setup
