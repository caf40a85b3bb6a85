import Verbs.Link
import Verbs.Setup
import Verbs.Stream.Script

/-!
Handshakes and connection attempts over scripted streams, which never wait, and the factories that
attempts take their queue pairs from.
-/

namespace Verbs

namespace Script

/-- Read a handshake; the bytes of the script bound the number of reads. -/
def readHandshake (maxUserData : UInt64) (s : Script) : Except HandshakeError Handshake × Script :=
  Setup.receiveAll stream maxUserData s.length [] s

/-- Write a handshake and end the own half; every write but the last takes a byte. -/
def writeHandshake (h : Handshake) (s : Script) : Except HandshakeError Unit × Script :=
  Setup.sendAll stream (h.encode.length + 1) h.encode s

end Script

/-- Where an attempt takes its queue pair from: the device, or a script. -/
inductive Factory where
  | device (plan : QpPlan)
  | scripted (outcome : Except IoError ScriptedQp)

/-- A factory's queue pairs, made and driven on a device. -/
def Factory.host (f : Factory) : Host Device QpSource where
  create d :=
    match f with
    | .device plan => (d.createQp plan).map fun (d, id) => (.device id, d)
    | .scripted (.ok s) => .ok (.scripted s, d)
    | .scripted (.error e) => .error (.io e)
  endpoint d q := q.endpoint d
  connect d q peer := q.connect d peer
  discard d q := q.discard d

namespace Setup

def noListener : IoError := .ofText .notConnected "acceptor has no listener"

/-- A bound on the steps of an attempt over a script: each moves a byte, or begins, ends or turns
the attempt around. -/
def scriptBound (p : Party) (s : Script) : Nat :=
  s.length + p.userData.length + Handshake.headerSize + 4

def runScript (f : Factory) (p : Party) (start : Phase QpSource) (d : Device) (s : Script) :
    Phase QpSource × Device × Script :=
  run f.host Script.stream p (scriptBound p s) start d s

end Setup

end Verbs
