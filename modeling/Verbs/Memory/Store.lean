import Verbs.Completion.Status
import Verbs.Memory.Region
import Verbs.Table

/-!
The registered memory of all network adapters. A key is valid on the adapter it was issued on;
a local window is found by its local key, a peer's window by its remote key, and both must lie
within the region. `gather` and `scatter` move data out of and into lists of local windows, the
other operations act on one window of a peer.
-/

namespace Verbs

/-- All registered memory: the regions, and which region each key of each adapter names. -/
structure Memory where
  regions : Table RegionId Region := {}
  keys : Table (NicId × UInt32) RegionId := {}
  deriving Repr

namespace Memory

instance : Inhabited Memory := ⟨{}⟩

def insert (m : Memory) (id : RegionId) (r : Region) : Memory where
  regions := m.regions.set id r
  keys := (m.keys.set (r.nic, r.lkey) id).set (r.nic, r.rkey) id

/-- Deregister a region: its keys name nothing any more. -/
def remove (m : Memory) (id : RegionId) : Memory :=
  match m.regions.get? id with
  | none => m
  | some r =>
    { regions := m.regions.erase id
      keys := (m.keys.erase (r.nic, r.lkey)).erase (r.nic, r.rkey) }

def lookup (m : Memory) (nic : NicId) (key : UInt32) : Option (RegionId × Region) := do
  let id ← m.keys.get? (nic, key)
  let r ← m.regions.get? id
  return (id, r)

/-- The region and offset of a local window. -/
def resolveLocal (m : Memory) (nic : NicId) (s : LocalSlice) :
    Except Status (RegionId × Region × Nat) :=
  match m.lookup nic s.lkey with
  | none => .error .locProtErr
  | some (id, r) =>
    if r.lkey = s.lkey then
      match r.offsetOf s.addr s.len.toNat with
      | none => .error .locProtErr
      | some off => .ok (id, r, off)
    else .error .locProtErr

/-- The region and offset of the first `len` bytes of a peer's window, on which `perm` must be
allowed. -/
def resolveRemote (m : Memory) (nic : NicId) (s : RemoteSlice) (len : Nat) (perm : Permission) :
    Except Status (RegionId × Region × Nat) :=
  if s.len.toNat < len then .error .remAccessErr
  else
    match m.lookup nic s.rkey with
    | none => .error .remAccessErr
    | some (id, r) =>
      if r.rkey = s.rkey ∧ r.perm.contains perm then
        match r.offsetOf s.addr len with
        | none => .error .remAccessErr
        | some off => .ok (id, r, off)
      else .error .remAccessErr

/-- The content of a list of local windows, one after another. -/
def gather (m : Memory) (nic : NicId) : List LocalSlice → Except Status Bytes
  | [] => .ok []
  | s :: rest => do
    let (_, r, off) ← m.resolveLocal nic s
    let data ← m.gather nic rest
    return r.read off s.len.toNat ++ data

/-- Write `data` into local windows one after another until it is used up. What was written before
an invalid window stays. -/
def fill (m : Memory) (nic : NicId) : List LocalSlice → Bytes → Memory × Except Status Unit
  | [], _ => (m, .ok ())
  | _ :: _, [] => (m, .ok ())
  | s :: rest, data@(_ :: _) =>
    match m.resolveLocal nic s with
    | .error e => (m, .error e)
    | .ok (id, r, off) =>
      if r.perm.contains .localWrite then
        let n := min s.len.toNat data.length
        let m' := { m with regions := m.regions.set id (r.write off (data.take n)) }
        m'.fill nic rest (data.drop n)
      else (m, .error .locProtErr)

/-- Write `data` into a list of local windows, which must hold it. -/
def scatter (m : Memory) (nic : NicId) (sgl : List LocalSlice) (data : Bytes) :
    Memory × Except Status Unit :=
  if LocalSlice.totalLen sgl < data.length then (m, .error .locLenErr) else m.fill nic sgl data

def writeRemote (m : Memory) (nic : NicId) (s : RemoteSlice) (data : Bytes) :
    Except Status Memory := do
  let (id, r, off) ← m.resolveRemote nic s data.length .remoteWrite
  return { m with regions := m.regions.set id (r.write off data) }

def readRemote (m : Memory) (nic : NicId) (s : RemoteSlice) (len : Nat) : Except Status Bytes := do
  let (_, r, off) ← m.resolveRemote nic s len .remoteRead
  return r.read off len

/-- Replace the word at the start of a peer's window by `f` of it, and return the word it was. The
word must be aligned within its region. -/
def updateRemote (m : Memory) (nic : NicId) (s : RemoteSlice) (f : UInt64 → UInt64) :
    Except Status (UInt64 × Memory) := do
  let (id, r, off) ← m.resolveRemote nic s 8 .remoteAtomic
  if off % 8 ≠ 0 then
    .error .remInvReqErr
  else
    let old := r.word off
    return (old, { m with regions := m.regions.set id (r.setWord off (f old)) })

end Memory

end Verbs
