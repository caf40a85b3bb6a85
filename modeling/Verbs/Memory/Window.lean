import Verbs.Fault
import Verbs.Text

/-!
Windows of memory: an address and a length, and the key that gives access. Slicing a window never
touches memory; it narrows address and length and keeps the key.
-/

namespace Verbs

structure Window where
  addr : UInt64
  len : UInt32
  deriving DecidableEq, Repr

/-- One end of a range of indices. -/
inductive RangeEnd where
  | included (index : UInt64)
  | excluded (index : UInt64)
  | unbounded
  deriving DecidableEq, Repr

/-- The next index, where there is one. -/
def nextIndex (i : UInt64) : Except Fault UInt64 :=
  if i.toNat + 1 < UInt64.size then .ok (i + 1) else .error .overflow

namespace RangeEnd

def start : RangeEnd → Except Fault UInt64
  | included i => .ok i
  | excluded i => nextIndex i
  | unbounded => .ok 0

/-- The index just past a range that ends here, in a sequence of `upper` items. -/
def stop (upper : UInt64) : RangeEnd → Except Fault UInt64
  | included i => nextIndex i
  | excluded i => .ok i
  | unbounded => .ok upper

end RangeEnd

namespace Window

def size (w : Window) : UInt64 := w.len.toUInt64

/-- The address `off` bytes further on. -/
def at? (w : Window) (off : UInt64) : Except Fault UInt64 :=
  if w.addr.toNat + off.toNat < UInt64.size then .ok (w.addr + off) else .error .overflow

/-- The window of `len` bytes at `off`, unchecked against this window; the length keeps its lowest
32 bits. -/
def narrow (w : Window) (off len : UInt64) : Except Fault Window :=
  (w.at? off).map fun addr => ⟨addr, len.toUInt32⟩

def whole (w : Window) : Except Fault Window := w.narrow 0 w.size

/-- The window of `len` bytes at `off`, where it lies in this one. -/
def slice (w : Window) (off len : UInt64) : Except Fault (Option Window) :=
  if off ≤ w.size ∧ len ≤ w.size - off then (w.narrow off len).map some else .ok none

/-- The window of a range of indices, where it lies in this one. -/
def range (w : Window) (first last : RangeEnd) : Except Fault (Option Window) := do
  let s ← first.start
  let e ← last.stop w.size
  if e < s then .ok none else w.slice s (e - s)

end Window

/-- One step of narrowing a window. -/
inductive Narrowing where
  | slice (off len : UInt64)
  | range (first last : RangeEnd)
  | whole
  | unchecked (off len : UInt64)
  deriving DecidableEq, Repr

/-- The window after one step of narrowing; `none` where the step leaves the window. -/
def Window.apply (w : Window) : Narrowing → Except Fault (Option Window)
  | .slice off len => w.slice off len
  | .range first last => w.range first last
  | .whole => w.whole.map some
  | .unchecked off len => (w.narrow off len).map some

/-- A window of the poster's own memory: one entry of a scatter/gather list. -/
structure LocalSlice extends Window where
  lkey : UInt32
  deriving DecidableEq, Repr

/-- A window of a peer's memory. -/
structure RemoteSlice extends Window where
  rkey : UInt32
  deriving DecidableEq, Repr

namespace LocalSlice

/-- The slice after one step of narrowing; the key stays. -/
def apply (s : LocalSlice) (n : Narrowing) : Except Fault (Option LocalSlice) :=
  (s.toWindow.apply n).map (·.map (⟨·, s.lkey⟩))

def totalLen (sgl : List LocalSlice) : Nat := (sgl.map (·.len.toNat)).foldr (· + ·) 0

def record (s : LocalSlice) : String :=
  Text.record "MrSlice"
    [("addr", toString s.addr), ("len", toString s.len), ("lkey", toString s.lkey)]

end LocalSlice

namespace RemoteSlice

instance : Inhabited RemoteSlice := ⟨⟨⟨0, 0⟩, 0⟩⟩

/-- The slice after one step of narrowing; the key stays. -/
def apply (s : RemoteSlice) (n : Narrowing) : Except Fault (Option RemoteSlice) :=
  (s.toWindow.apply n).map (·.map (⟨·, s.rkey⟩))

def record (s : RemoteSlice) : String :=
  Text.record "MrRemote"
    [("addr", toString s.addr), ("len", toString s.len), ("rkey", toString s.rkey)]

end RemoteSlice

end Verbs
