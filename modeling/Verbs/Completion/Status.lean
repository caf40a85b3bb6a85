/-!
Completion statuses: their numbers, names and wordings.
-/

namespace Verbs

/-- How a work request ended. -/
inductive Status where
  | success | locLenErr | locQpOpErr | locEecOpErr | locProtErr | wrFlushErr | mwBindErr
  | badRespErr | locAccessErr | remInvReqErr | remAccessErr | remOpErr | retryExcErr
  | rnrRetryExcErr | locRddViolErr | remInvRdReqErr | remAbortErr | invEecnErr | invEecStateErr
  | fatalErr | respTimeoutErr | generalErr
  deriving DecidableEq, Repr

namespace Status

def all : List Status :=
  [success, locLenErr, locQpOpErr, locEecOpErr, locProtErr, wrFlushErr, mwBindErr, badRespErr,
    locAccessErr, remInvReqErr, remAccessErr, remOpErr, retryExcErr, rnrRetryExcErr, locRddViolErr,
    remInvRdReqErr, remAbortErr, invEecnErr, invEecStateErr, fatalErr, respTimeoutErr, generalErr]

def code : Status → Nat
  | success => 0
  | locLenErr => 1
  | locQpOpErr => 2
  | locEecOpErr => 3
  | locProtErr => 4
  | wrFlushErr => 5
  | mwBindErr => 6
  | badRespErr => 7
  | locAccessErr => 8
  | remInvReqErr => 9
  | remAccessErr => 10
  | remOpErr => 11
  | retryExcErr => 12
  | rnrRetryExcErr => 13
  | locRddViolErr => 14
  | remInvRdReqErr => 15
  | remAbortErr => 16
  | invEecnErr => 17
  | invEecStateErr => 18
  | fatalErr => 19
  | respTimeoutErr => 20
  | generalErr => 21

def ofCode? (n : Nat) : Option Status := all[n]?

/-- Whether the request did what it was meant to. -/
def isSuccess (s : Status) : Bool := s = success

def name : Status → String
  | success => "Success"
  | locLenErr => "LocLenErr"
  | locQpOpErr => "LocQpOpErr"
  | locEecOpErr => "LocEecOpErr"
  | locProtErr => "LocProtErr"
  | wrFlushErr => "WrFlushErr"
  | mwBindErr => "MwBindErr"
  | badRespErr => "BadRespErr"
  | locAccessErr => "LocAccessErr"
  | remInvReqErr => "RemInvReqErr"
  | remAccessErr => "RemAccessErr"
  | remOpErr => "RemOpErr"
  | retryExcErr => "RetryExcErr"
  | rnrRetryExcErr => "RnrRetryExcErr"
  | locRddViolErr => "LocRddViolErr"
  | remInvRdReqErr => "RemInvRdReqErr"
  | remAbortErr => "RemAbortErr"
  | invEecnErr => "InvEecnErr"
  | invEecStateErr => "InvEecStateErr"
  | fatalErr => "FatalErr"
  | respTimeoutErr => "RespTimeoutErr"
  | generalErr => "GeneralErr"

def message : Status → String
  | success => "success"
  | locLenErr => "local length error"
  | locQpOpErr => "local QP operation error"
  | locEecOpErr => "local EE context operation error"
  | locProtErr => "local protection error"
  | wrFlushErr => "WR flush error"
  | mwBindErr => "memory window bind error"
  | badRespErr => "bad response error"
  | locAccessErr => "local access error"
  | remInvReqErr => "remote invalid request error"
  | remAccessErr => "remote access error"
  | remOpErr => "remote operation error"
  | retryExcErr => "transport retry counter exceeded"
  | rnrRetryExcErr => "RNR retry counter exceeded"
  | locRddViolErr => "local RDD violation error"
  | remInvRdReqErr => "remote invalid RD request"
  | remAbortErr => "remote aborted error"
  | invEecnErr => "invalid EE context number"
  | invEecStateErr => "invalid EE context state error"
  | fatalErr => "fatal error"
  | respTimeoutErr => "response timeout error"
  | generalErr => "general error"

theorem ofCode?_code (s : Status) : ofCode? s.code = some s := by cases s <;> rfl

@[simp] theorem isSuccess_iff {s : Status} : s.isSuccess = true ↔ s = success := by
  simp [isSuccess]

end Status

end Verbs
