import Verbs.Stream

/-!
Scripted streams: what can be read is given in chunks, and reading and writing fail where the script
says so. A script records what was read and written.
-/

namespace Verbs

structure Script where
  chunks : List Bytes := []
  readError : Option IoError := none
  writeMax : Option Nat := none
  writeLimit : Option Nat := none
  writeError : Option IoError := none
  shutdownError : Option IoError := none
  consumed : Nat := 0
  written : Bytes := []
  isShutdown : Bool := false
  deriving DecidableEq, Repr

namespace Script

/-- Read from the first chunks that hold anything. -/
def readChunks : List Bytes → Nat → Bytes × List Bytes
  | [], _ => ([], [])
  | [] :: rest, n => readChunks rest n
  | (b :: bs) :: rest, n => ((b :: bs).take n, (b :: bs).drop n :: rest)

/-- Read up to `n` bytes of one chunk; after the last chunk comes the error, or the end. -/
def read (s : Script) (n : Nat) : Except IoError Bytes × Script :=
  match readChunks s.chunks n with
  | ([], chunks) =>
    match s.readError with
    | some e => (.error e, { s with chunks })
    | none => (.ok [], { s with chunks })
  | (bs, chunks) => (.ok bs, { s with chunks, consumed := s.consumed + bs.length })

/-- The number of bytes that a write of `n` bytes takes. -/
def room (s : Script) (n : Nat) : Nat :=
  let n := match s.writeMax with
    | some m => min n m
    | none => n
  match s.writeLimit with
  | some l => min n (l - s.written.length)
  | none => n

/-- Write some of the bytes; where none can be taken the write fails, or takes none. -/
def write (s : Script) (data : Bytes) : Except IoError Nat × Script :=
  match s.room data.length, s.writeError with
  | 0, some e => (.error e, s)
  | n, _ => (.ok n, { s with written := s.written ++ data.take n })

def shutdown (s : Script) : Except IoError Unit × Script :=
  match s.shutdownError with
  | some e => (.error e, s)
  | none => (.ok (), { s with isShutdown := true })

/-- Scripts as streams; no operation waits. -/
def stream : Stream Script where
  read s n := some (s.read n)
  write s data := some (s.write data)
  shutdown s := s.shutdown

/-- A bound on the number of reads and writes that a script can go through. -/
def length (s : Script) : Nat := s.chunks.length + (s.chunks.map (·.length)).foldr (· + ·) 0 + 1

end Script

end Verbs
