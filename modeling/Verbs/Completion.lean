import Verbs.Completion.Opcode
import Verbs.Completion.Status
import Verbs.Text

/-!
Completions: the record a device writes for every finished work request, carrying the request's
own number.
-/

namespace Verbs

structure Completion where
  wrId : UInt64 := 0
  status : Status := .success
  opcode : Opcode := .send
  byteLen : UInt32 := 0
  imm : Option UInt32 := none
  deriving DecidableEq, Repr

namespace Completion

instance : Inhabited Completion := ⟨{}⟩

/-- The number of bytes moved, or the status of a request that failed. -/
def result (c : Completion) : Except Status Nat :=
  if c.status.isSuccess then .ok c.byteLen.toNat else .error c.status

/-- The completion of a request that was given up when its queue pair failed. -/
def flushed (wrId : UInt64) (opcode : Opcode) : Completion :=
  { wrId, status := .wrFlushErr, opcode }

def record (c : Completion) : String :=
  Text.record "Wc"
    [("wr_id", toString c.wrId), ("status", c.status.name), ("opcode", c.opcode.name),
      ("byte_len", toString c.byteLen), ("imm", Text.optional (c.imm.map toString))]

end Completion

end Verbs
