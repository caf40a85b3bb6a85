/-!
Completion opcodes: which kind of request a completion belongs to. Receives are numbered from 128.
-/

namespace Verbs

/-- The kind of a completed request. -/
inductive Opcode where
  | send | rdmaWrite | rdmaRead | compSwap | fetchAdd | bindMw | recv | recvRdmaImm
  deriving DecidableEq, Repr

namespace Opcode

def all : List Opcode :=
  [send, rdmaWrite, rdmaRead, compSwap, fetchAdd, bindMw, recv, recvRdmaImm]

def code : Opcode → Nat
  | send => 0
  | rdmaWrite => 1
  | rdmaRead => 2
  | compSwap => 3
  | fetchAdd => 4
  | bindMw => 5
  | recv => 128
  | recvRdmaImm => 129

def ofCode? (n : Nat) : Option Opcode := all.find? (·.code == n)

def name : Opcode → String
  | send => "Send"
  | rdmaWrite => "RdmaWrite"
  | rdmaRead => "RdmaRead"
  | compSwap => "CompSwap"
  | fetchAdd => "FetchAdd"
  | bindMw => "BindMw"
  | recv => "Recv"
  | recvRdmaImm => "RecvRdmaImm"

theorem ofCode?_code (o : Opcode) : ofCode? o.code = some o := by cases o <;> rfl

end Opcode

end Verbs
