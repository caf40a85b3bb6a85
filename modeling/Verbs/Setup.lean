import Verbs.Error
import Verbs.Handshake
import Verbs.Stream

/-!
Setting up a connection over a byte stream. The connector makes its queue pair, sends its
handshake and then reads the peer's; the acceptor reads first, then makes its queue pair, connects
it and answers. An attempt goes on in steps of one read or write each, so that the two sides of a
connection can take turns; a step that would have to wait is not taken. An attempt that fails
takes its queue pair away again.
-/

namespace Verbs

/-- Queue pairs of type `ρ` in a world of type `ω`: how they are made, named, connected and taken
away. -/
structure Host (ω ρ : Type) where
  create : ω → Except QpError (ρ × ω)
  endpoint : ω → ρ → Endpoint
  connect : ω → ρ → Endpoint → Except IoError ω
  discard : ω → ρ → ω

namespace Setup

/-- The user data a side accepts at most, unless told otherwise. -/
def defaultMaxUserData : UInt64 := 65536

/-- The length of the longest message that is accepted. -/
def messageLimit (maxUserData : UInt64) : Nat :=
  min (Handshake.headerSize + maxUserData.toNat) (UInt64.size - 1)

/-- The number of bytes that are read at most: one more than accepted. -/
def readLimit (maxUserData : UInt64) : Nat := min (messageLimit maxUserData + 1) (UInt64.size - 1)

/-- What a received message means. -/
def conclude (maxUserData : UInt64) (got : Bytes) : Except HandshakeError Handshake :=
  if messageLimit maxUserData < got.length then .error (.userDataTooLarge maxUserData)
  else
    match Handshake.decode got with
    | .ok h => .ok h
    | .error t => .error (.decode t)

variable {ω ρ σ α : Type}

/-- Something that goes on, or has come to its result. -/
inductive Going (α β : Type) where
  | on (a : α)
  | result (b : β)
  deriving Repr

def receive (st : Stream σ) (maxUserData : UInt64) (got : Bytes) (s : σ) :
    Option (Going Bytes (Except HandshakeError Handshake) × σ) :=
  if readLimit maxUserData ≤ got.length then some (.result (conclude maxUserData got), s)
  else
    match st.read s (readLimit maxUserData - got.length) with
    | none => none
    | some (.error e, s) => some (.result (.error (.io e)), s)
    | some (.ok [], s) => some (.result (conclude maxUserData got), s)
    | some (.ok bs, s) => some (.on (got ++ bs), s)

def send (st : Stream σ) (rest : Bytes) (s : σ) :
    Option (Going Bytes (Except HandshakeError Unit) × σ) :=
  match rest with
  | [] =>
    match st.shutdown s with
    | (.ok (), s) => some (.result (.ok ()), s)
    | (.error e, s) => some (.result (.error (.io e)), s)
  | b :: bs =>
    match st.write s (b :: bs) with
    | none => none
    | some (.error e, s) => some (.result (.error (.io e)), s)
    | some (.ok 0, s) => some (.result (.error (.io (.kind .writeZero none))), s)
    | some (.ok n, s) => some (.on ((b :: bs).drop n), s)

/-- Read a whole message, in `fuel` reads at most. -/
def receiveAll (st : Stream σ) (maxUserData : UInt64) :
    (fuel : Nat) → Bytes → σ → Except HandshakeError Handshake × σ
  | 0, got, s => (conclude maxUserData got, s)
  | fuel + 1, got, s =>
    match receive st maxUserData got s with
    | none => (conclude maxUserData got, s)
    | some (.on got, s) => receiveAll st maxUserData fuel got s
    | some (.result r, s) => (r, s)

/-- Write a whole message, in `fuel` writes at most. -/
def sendAll (st : Stream σ) : (fuel : Nat) → Bytes → σ → Except HandshakeError Unit × σ
  | 0, _, s => (.ok (), s)
  | fuel + 1, rest, s =>
    match send st rest s with
    | none => (.ok (), s)
    | some (.on rest, s) => sendAll st fuel rest s
    | some (.result r, s) => (r, s)

/-- What one side brings along: the user data it sends and how much it accepts. -/
structure Party where
  userData : Bytes := []
  maxUserData : UInt64 := defaultMaxUserData
  deriving DecidableEq, Repr

/-- How far an attempt is. A queue pair is there once it is made, the peer's handshake once it is
read. -/
inductive Phase (ρ : Type) where
  | opening
  | sending (qp : ρ) (peer : Option Handshake) (rest : Bytes)
  | receiving (qp : Option ρ) (got : Bytes)
  | done (result : Except HandshakeError (ρ × Handshake))
  deriving Repr

namespace Phase

def connector : Phase ρ := .opening

def acceptor : Phase ρ := .receiving none []

def result? : Phase ρ → Option (Except HandshakeError (ρ × Handshake))
  | done r => some r
  | opening | sending _ _ _ | receiving _ _ => none

end Phase

def announce (h : Host ω ρ) (p : Party) (w : ω) (qp : ρ) : Bytes :=
  (Handshake.mk (h.endpoint w qp) p.userData).encode

/-- Go on once the peer's handshake is read. -/
def received (h : Host ω ρ) (p : Party) (w : ω) (peer : Handshake) : Option ρ → Phase ρ × ω
  | some qp =>
    match h.connect w qp peer.endpoint with
    | .ok w => (.done (.ok (qp, peer)), w)
    | .error e => (.done (.error (.connect e)), h.discard w qp)
  | none =>
    match h.create w with
    | .error e => (.done (.error (.create e)), w)
    | .ok (qp, w) =>
      match h.connect w qp peer.endpoint with
      | .ok w => (.sending qp (some peer) (announce h p w qp), w)
      | .error e => (.done (.error (.connect e)), h.discard w qp)

/-- One step of an attempt; `none` where it is over or has to wait. -/
def step (h : Host ω ρ) (st : Stream σ) (p : Party) : Phase ρ → ω → σ → Option (Phase ρ × ω × σ)
  | .opening, w, s =>
    match h.create w with
    | .error e => some (.done (.error (.create e)), w, s)
    | .ok (qp, w) => some (.sending qp none (announce h p w qp), w, s)
  | .sending qp peer rest, w, s =>
    match send st rest s with
    | none => none
    | some (.on rest, s) => some (.sending qp peer rest, w, s)
    | some (.result (.error e), s) => some (.done (.error e), h.discard w qp, s)
    | some (.result (.ok ()), s) =>
      match peer with
      | some peer => some (.done (.ok (qp, peer)), w, s)
      | none => some (.receiving (some qp) [], w, s)
  | .receiving qp got, w, s =>
    match receive st p.maxUserData got s with
    | none => none
    | some (.on got, s) => some (.receiving qp got, w, s)
    | some (.result (.error e), s) =>
      let w := match qp with
        | some qp => h.discard w qp
        | none => w
      some (.done (.error e), w, s)
    | some (.result (.ok peer), s) =>
      let (phase, w) := received h p w peer qp
      some (phase, w, s)
  | .done _, _, _ => none

/-- Steps of an attempt until it is over or has to wait, `fuel` at most. -/
def run (h : Host ω ρ) (st : Stream σ) (p : Party) :
    (fuel : Nat) → Phase ρ → ω → σ → Phase ρ × ω × σ
  | 0, phase, w, s => (phase, w, s)
  | fuel + 1, phase, w, s =>
    match step h st p phase w s with
    | none => (phase, w, s)
    | some (phase, w, s) => run h st p fuel phase w s

end Setup

end Verbs
