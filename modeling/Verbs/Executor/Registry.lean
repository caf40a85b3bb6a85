import Verbs.Table

/-!
The registry of outstanding callbacks. Each callback is stored under a token that no other callback
gets, and leaves the registry once: it is taken by its token, or released when the registry closes.
Registering with a closed registry stores the callback and releases it again.
-/

namespace Verbs

/-- Outstanding callbacks by token. -/
structure Registry (κ : Type) where
  next : UInt64 := 1
  callbacks : Table UInt64 κ := {}
  closed : Bool := false
  deriving Repr

namespace Registry

variable {κ : Type}

instance : Inhabited (Registry κ) := ⟨{}⟩

def size (r : Registry κ) : Nat := r.callbacks.size

def draw (r : Registry κ) : UInt64 × Registry κ := (r.next, { r with next := r.next + 1 })

def put (r : Registry κ) (token : UInt64) (cb : κ) : Registry κ :=
  { r with callbacks := r.callbacks.set token cb }

/-- Draw a token and store a callback under it. -/
def store (r : Registry κ) (cb : κ) : UInt64 × Registry κ :=
  let (token, r) := r.draw
  (token, r.put token cb)

def take (r : Registry κ) (token : UInt64) : Option κ × Registry κ :=
  match r.callbacks.get? token with
  | none => (none, r)
  | some cb => (some cb, { r with callbacks := r.callbacks.erase token })

/-- Register a callback. The result is its token, and the callback itself where the registry is
closed and releases it at once. -/
def insert (r : Registry κ) (cb : κ) : UInt64 × Option κ × Registry κ :=
  let (token, r) := r.store cb
  if r.closed then
    let (released, r) := r.take token
    (token, released, r)
  else (token, none, r)

def takeAll (r : Registry κ) : List UInt64 → List κ × Registry κ
  | [] => ([], r)
  | t :: ts =>
    match r.take t with
    | (none, r) => r.takeAll ts
    | (some cb, r) =>
      let (cbs, r) := r.takeAll ts
      (cb :: cbs, r)

def shut (r : Registry κ) : Registry κ := { r with closed := true }

/-- Close the registry and release every outstanding callback. -/
def close (r : Registry κ) : List κ × Registry κ := r.shut.takeAll r.callbacks.keys

end Registry

end Verbs
