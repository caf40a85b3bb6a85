import Verbs.Text

/-!
Endpoints: where a queue pair is reached, and the packet number it starts with.
-/

namespace Verbs

/-- The routable parameters of one end of a connection. -/
structure Endpoint where
  lid : UInt16 := 0
  qpn : UInt32 := 0
  psn : UInt32 := 0
  deriving DecidableEq, Repr

namespace Endpoint

instance : Inhabited Endpoint := ⟨{}⟩

def firstPsn : UInt32 := 0

def text (e : Endpoint) : String := s!"lid {e.lid} qpn {e.qpn} psn {e.psn}"

def record (e : Endpoint) : String :=
  Text.record "QpEndpoint"
    [("lid", toString e.lid), ("qpn", toString e.qpn), ("psn", toString e.psn)]

end Endpoint

end Verbs
