import Verbs.Bytes
import Verbs.IoError

/-!
Byte streams as a connection attempt sees them: reading yields some bytes or the end, writing takes
some bytes, and either may have to wait.
-/

namespace Verbs

/-- The operations on streams in a state of type `σ`. An operation that would have to wait yields
`none`. -/
structure Stream (σ : Type) where
  /-- Read at least one byte and at most as many as asked for; no bytes mean the end. -/
  read : σ → Nat → Option (Except IoError Bytes × σ)
  /-- Write some of the bytes; the result is how many. -/
  write : σ → Bytes → Option (Except IoError Nat × σ)
  /-- End the own half of the stream. -/
  shutdown : σ → Except IoError Unit × σ

end Verbs
