import Verbs.Bytes
import Verbs.Fault
import Verbs.Memory.Permission
import Verbs.Memory.Window
import Verbs.Names

/-!
Registered memory regions: a buffer at a fixed address, with a local and a remote key.
-/

namespace Verbs

/-- A registered buffer. -/
structure Region where
  nic : NicId
  base : UInt64
  bytes : Bytes
  lkey : UInt32
  rkey : UInt32
  perm : Permission
  deriving DecidableEq, Repr

namespace Region

def window (r : Region) : Window := ⟨r.base, UInt32.ofNat r.bytes.length⟩

/-- A descriptor of the whole region for a peer. -/
def toRemote (r : Region) : RemoteSlice := ⟨r.window, r.rkey⟩

/-- Where the `len` bytes at an address begin in this region, if they lie in it. -/
def offsetOf (r : Region) (addr : UInt64) (len : Nat) : Option Nat :=
  if r.base ≤ addr ∧ addr.toNat - r.base.toNat + len ≤ r.bytes.length then
    some (addr.toNat - r.base.toNat)
  else none

def read (r : Region) (off len : Nat) : Bytes := r.bytes.window off len

/-- The region with `data` at an offset. -/
def write (r : Region) (off : Nat) (data : Bytes) : Region :=
  { r with bytes := r.bytes.overwrite off data }

def word (r : Region) (off : Nat) : UInt64 := UInt64.ofNat (r.read off 8).toNatLE

def setWord (r : Region) (off : Nat) (v : UInt64) : Region := r.write off (Bytes.ofNatLE 8 v.toNat)

/-- The word that an application reads at an offset. -/
def word? (r : Region) (off : UInt64) : Except Fault UInt64 :=
  if off.toNat + 8 ≤ r.bytes.length then .ok (r.word off.toNat) else .error .outOfRange

/-- The region after an application wrote `data` at an offset. -/
def fill? (r : Region) (off : UInt64) (data : Bytes) : Except Fault Region :=
  if off.toNat + data.length ≤ r.bytes.length then .ok (r.write off.toNat data)
  else .error .outOfRange

end Region

end Verbs
