/-!
Queue pair states and what may be posted in each.
-/

namespace Verbs

inductive QpState where
  | reset | init | rtr | rts | sqd | sqe | error | unknown
  deriving DecidableEq, Repr

namespace QpState

def code : QpState → Nat
  | reset => 0
  | init => 1
  | rtr => 2
  | rts => 3
  | sqd => 4
  | sqe => 5
  | error => 6
  | unknown => 7

/-- The state with a given number; numbers of no state mean `unknown`. -/
def ofCode : Nat → QpState
  | 0 => reset
  | 1 => init
  | 2 => rtr
  | 3 => rts
  | 4 => sqd
  | 5 => sqe
  | 6 => error
  | _ => unknown

def name : QpState → String
  | reset => "Reset"
  | init => "Init"
  | rtr => "Rtr"
  | rts => "Rts"
  | sqd => "Sqd"
  | sqe => "Sqe"
  | error => "Error"
  | unknown => "Unknown"

def canPostRecv : QpState → Bool
  | reset | unknown => false
  | init | rtr | rts | sqd | sqe | error => true

def canPostSend (s : QpState) : Bool := s = rts

theorem ofCode_code (s : QpState) : ofCode s.code = s := by cases s <;> rfl

end QpState

end Verbs
