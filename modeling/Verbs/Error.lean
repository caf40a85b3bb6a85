import Verbs.Completion.Status
import Verbs.IoError
import Verbs.Wire

/-!
What can go wrong above the device, as causes. Each error has its own words and the chain of words
of the errors it wraps, outermost first.
-/

namespace Verbs

inductive CqError where
  | io (cause : IoError)
  /-- More entries than the device can hold. -/
  | tooManyEntries (max : UInt32)
  deriving DecidableEq, Repr

inductive QpError where
  | io (cause : IoError)
  /-- A capability beyond the device's limit. -/
  | capability (name : String) (max required : UInt32)
  deriving DecidableEq, Repr

/-- Why a connection could not be set up. -/
inductive HandshakeError where
  | io (cause : IoError)
  | decode (cause : Truncated)
  /-- The peer sent more user data than is accepted. -/
  | userDataTooLarge (limit : UInt64)
  | create (cause : QpError)
  | connect (cause : IoError)
  deriving DecidableEq, Repr

inductive ConfigError where
  | io (cause : IoError)
  /-- The text is not a configuration. -/
  | malformed
  /-- A value is out of its range. -/
  | invalid (key why : String)
  deriving DecidableEq, Repr

inductive PollerError where
  | alreadyPolled
  | spawn (cause : IoError)
  deriving DecidableEq, Repr

/-- Every error of an operation above the device. -/
inductive Error where
  /-- A request completed without success. -/
  | completion (wrId : UInt64) (status : Status)
  | poll (cause : IoError)
  | queueClosed
  | handshake (cause : HandshakeError)
  | cqCreation (cause : CqError)
  | qpCreation (cause : QpError)
  | post (cause : IoError)
  /-- The executor was torn down first. -/
  | cancelled
  | config (cause : ConfigError)
  | poller (cause : PollerError)
  deriving DecidableEq, Repr

def queueClosedMessage : String := "queue closed"

namespace CqError

def message : CqError → String
  | io _ => "I/O error from device"
  | tooManyEntries max => s!"CQ capacity too large (maximum: {max})"

def causes : CqError → List String
  | io e => [e.message]
  | tooManyEntries _ => []

end CqError

namespace QpError

def message : QpError → String
  | io _ => "I/O error from device"
  | capability name max required =>
    s!"capability not enough: {name} supports up to {max}, {required} required"

def causes : QpError → List String
  | io e => [e.message]
  | capability _ _ _ => []

end QpError

namespace HandshakeError

def message : HandshakeError → String
  | io _ => "handshake I/O error"
  | decode _ => "malformed handshake"
  | userDataTooLarge limit => s!"peer user data exceeds {limit} bytes"
  | create _ => "cannot create local queue pair"
  | connect _ => "cannot connect queue pair to peer"

def causes : HandshakeError → List String
  | io e | connect e => [e.message]
  | decode t => [t.message]
  | userDataTooLarge _ => []
  | create e => e.message :: e.causes

end HandshakeError

namespace ConfigError

def message : ConfigError → String
  | io _ => "cannot read configuration file"
  | malformed => "malformed configuration"
  | invalid key why => s!"invalid value for `{key}`: {why}"

def causes : ConfigError → List String
  | io e => [e.message]
  | malformed | invalid _ _ => []

end ConfigError

namespace PollerError

def message : PollerError → String
  | alreadyPolled => "completion queue is already polled by another poller"
  | spawn _ => "cannot spawn poller thread"

def causes : PollerError → List String
  | alreadyPolled => []
  | spawn e => [e.message]

end PollerError

namespace Error

def message : Error → String
  | completion wrId status => s!"work request {wrId} failed: {status.message}"
  | poll _ => "failed to poll completion queue"
  | queueClosed => queueClosedMessage
  | handshake _ => "handshake failed"
  | cqCreation _ => "failed to create completion queue"
  | qpCreation _ => "failed to create queue pair"
  | post _ => "failed to post work request"
  | cancelled => "operation cancelled by executor teardown"
  | config _ => "invalid configuration"
  | poller _ => "completion poller error"

def causes : Error → List String
  | completion _ _ | queueClosed | cancelled => []
  | poll e | post e => [e.message]
  | handshake e => e.message :: e.causes
  | cqCreation e => e.message :: e.causes
  | qpCreation e => e.message :: e.causes
  | config e => e.message :: e.causes
  | poller e => e.message :: e.causes

/-- The status of a request that completed without success. -/
def status? : Error → Option Status
  | completion _ status => some status
  | poll _ | queueClosed | handshake _ | cqCreation _ | qpCreation _ | post _ | cancelled
  | config _ | poller _ => none

end Error

end Verbs
