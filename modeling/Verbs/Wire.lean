import Verbs.Bytes
import Verbs.Memory.Window

/-!
Fixed-width fields in network byte order. Fields follow one another without any length mark, and
readers take them from a cursor. A reader of several fields takes them one after another, so what it
has taken by the time it fails is gone; this is why it asks for the room of all its fields before it
takes the first.
-/

namespace Verbs

structure Truncated where
  need : Nat
  left : Nat
  deriving DecidableEq, Repr

def Truncated.message (t : Truncated) : String :=
  s!"truncated input: need {t.need} bytes, {t.left} remaining"

namespace Wire

/-- A way to take a value from a cursor, given as the bytes that are left. -/
abbrev Reader := ExceptT Truncated (StateM Bytes)

namespace Reader

/-- The result of a reader, and the bytes that it leaves. -/
def read {α : Type} (r : Reader α) (input : Bytes) : Except Truncated α × Bytes :=
  r.run.run input

/-- Check that `need` bytes are left. -/
def ensure (need : Nat) : Reader Unit := do
  let left := (← get).length
  if left < need then throw ⟨need, left⟩

def bytes (n : Nat) : Reader Bytes := modifyGet fun input => (input.take n, input.drop n)

def number (width : Nat) : Reader Nat := do
  ensure width
  return Bytes.toNatBE (← bytes width)

def u16 : Reader UInt16 := return UInt16.ofNat (← number 2)

def u32 : Reader UInt32 := return UInt32.ofNat (← number 4)

def u64 : Reader UInt64 := return UInt64.ofNat (← number 8)

end Reader

end Wire

namespace RemoteSlice

def wireSize : Nat := 16

def encode (s : RemoteSlice) : Bytes :=
  Bytes.ofNatBE 8 s.addr.toNat ++ Bytes.ofNatBE 4 s.len.toNat ++ Bytes.ofNatBE 4 s.rkey.toNat

def reader : Wire.Reader RemoteSlice := do
  .ensure wireSize
  let addr ← .u64
  let len ← .u32
  let rkey ← .u32
  return ⟨⟨addr, len⟩, rkey⟩

def decode (input : Bytes) : Except Truncated RemoteSlice := (reader.read input).1

end RemoteSlice

end Verbs
