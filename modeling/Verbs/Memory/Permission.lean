import Verbs.Text

/-!
Access permissions of memory regions, as sets of flags in one word.
-/

namespace Verbs

/-- A set of access flags. -/
structure Permission where
  bits : UInt32
  deriving DecidableEq, Repr

namespace Permission

/-- No access beyond local reading. -/
def none : Permission := ⟨0⟩
def localWrite : Permission := ⟨1⟩
def remoteWrite : Permission := ⟨2⟩
def remoteRead : Permission := ⟨4⟩
def remoteAtomic : Permission := ⟨8⟩

def union (p q : Permission) : Permission := ⟨p.bits ||| q.bits⟩
def inter (p q : Permission) : Permission := ⟨p.bits &&& q.bits⟩
def diff (p q : Permission) : Permission := ⟨p.bits &&& ~~~q.bits⟩

def contains (p q : Permission) : Bool := p.bits &&& q.bits == q.bits

def full : Permission := localWrite.union (remoteRead.union (remoteWrite.union remoteAtomic))

instance : Inhabited Permission := ⟨full⟩

def record (p : Permission) : String := Text.wrapped "Permission" (toString p.bits)

end Permission

end Verbs
