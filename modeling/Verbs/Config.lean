import Verbs.CompletionQueue
import Verbs.Error
import Verbs.Executor
import Verbs.Poller
import Verbs.Setup
import Verbs.Toml.Document

/-!
Configurations: what can be set, the text form, and which values are refused. Every value has a
default; a section is a table of named fields, or a list of its fields in order.
-/

namespace Verbs

structure Config where
  workers : UInt64 := .ofNat Executor.defaultWorkers
  batchSize : UInt64 := .ofNat Poller.defaultBatch
  idleSpinUs : UInt64 := 50
  depth : UInt32 := CompletionQueue.defaultDepth
  maxUserData : UInt64 := Setup.defaultMaxUserData
  deriving DecidableEq, Repr

namespace Config

instance : Inhabited Config := ⟨{}⟩

/-- The time a poller spins on an empty queue, in whole seconds and nanoseconds. -/
def idleSpin (c : Config) : Nat × Nat :=
  (c.idleSpinUs.toNat / 1000000, c.idleSpinUs.toNat % 1000000 * 1000)

/-- Refuse settings that nothing can run with. -/
def validate (c : Config) : Except ConfigError Unit :=
  if c.workers = 0 then .error (.invalid "executor.workers" "at least one worker is required")
  else if c.batchSize = 0 then .error (.invalid "poller.batch_size" "must be positive")
  else if c.depth = 0 then .error (.invalid "cq.depth" "must be positive")
  else .ok ()

abbrev FieldReader := Toml.Node → Config → Option Config

/-- Read fields by name; a name that is not a field is an error. -/
def readNamed (fields : List (String × FieldReader)) : Toml.Entries → Config → Option Config
  | [], c => some c
  | (key, v) :: rest, c => do
    let read ← fields.lookup key
    readNamed fields rest (← read v c)

/-- Read fields by position; missing ones keep their values and further ones are not looked at. -/
def readPositional : List (String × FieldReader) → List Toml.Node → Config → Option Config
  | (_, read) :: fields, v :: vs, c => do readPositional fields vs (← read v c)
  | _, _, c => some c

def readSection (fields : List (String × FieldReader)) : FieldReader
  | .table _ es, c | .inline _ es, c => readNamed fields es c
  | .array vs, c => readPositional fields vs c
  | .tables elements, c => readPositional fields (elements.map (.table .defined)) c
  | _, _ => none

def readNumber (bound : Nat) (set : Config → Nat → Config) : FieldReader
  | .integer n, c => if 0 ≤ n ∧ n.toNat < bound then some (set c n.toNat) else none
  | _, _ => none

def sections : List (String × FieldReader) :=
  [("executor", readSection
      [("workers", readNumber UInt64.size fun c n => { c with workers := UInt64.ofNat n })]),
    ("poller", readSection
      [("batch_size", readNumber UInt64.size fun c n => { c with batchSize := UInt64.ofNat n }),
        ("idle_spin_us", readNumber UInt64.size fun c n => { c with idleSpinUs := UInt64.ofNat n })]),
    ("cq", readSection
      [("depth", readNumber UInt32.size fun c n => { c with depth := UInt32.ofNat n })]),
    ("handshake", readSection
      [("max_user_data", readNumber UInt64.size fun c n => { c with maxUserData := UInt64.ofNat n })])]

/-- The key that holds the settings in a document; other keys are not looked at. -/
def rootKey : String := "cordma"

def ofEntries? (es : Toml.Entries) : Option Config :=
  match es.get? rootKey with
  | none => some {}
  | some v => readSection sections v {}

def ofText (text : String) : Except ConfigError Config :=
  match (Toml.parse? text).bind ofEntries? with
  | none => .error .malformed
  | some c => c.validate.map fun _ => c

/-- What is found where a file is looked for. -/
inductive File where
  | missing
  | directory
  | present (content : Bytes)
  deriving DecidableEq, Repr

def load : File → Except ConfigError Config
  | .missing => .error (.io (.os 2))
  | .directory => .error (.io (.os 21))
  | .present content =>
    match String.fromUTF8? ⟨content.toArray⟩ with
    | none => .error (.io (.kind .invalidData none))
    | some text => ofText text

end Config

end Verbs
