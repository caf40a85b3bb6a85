import Verbs.Session.State

/-!
Steps on registered memory, and the windows that references to it stand for. Regions are laid out
one behind the other with a gap between them; an empty region lies at address 1.
-/

namespace Verbs.Session

/-- The gap between regions, and the unit in which they are laid out. -/
def pageSize : Nat := 4096

def addRegion (id nicName : String) (len : UInt64) (perm : Permission) : Act Answer := do
  let n ← nicId nicName
  let s ← get
  let base := if len = 0 then 1 else UInt64.ofNat s.nextBase
  let (device, result) := s.device.register n base len perm
  setDevice device
  let region ← orRefuse .ofCall result
  let r ← find (·.device.memory.regions) region id
  let old := s.regions.get? id
  modify fun s =>
    { s with
      nextBase := s.nextBase + (len.toNat / pageSize + 2) * pageSize
      regions := s.regions.set id { region, window := r.window, lkey := r.lkey, rkey := r.rkey }
      device := match old with
        | some h => s.device.deregister h.region
        | none => s.device }
  return .region r.window.len r.lkey r.rkey perm

/-- The region behind a handle, unless it was dropped. -/
def registered (name : String) : Act (RegionId × Region) := do
  let h ← regionHandle name
  let r ← find (·.device.memory.regions) h.region name
  return (h.region, r)

def fill (name : String) (off : UInt64) (data : Bytes) : Act Answer := do
  let (id, r) ← registered name
  let r ← orRefuse .fault (r.fill? off data)
  modify fun s =>
    { s with
      device.memory.regions := s.device.memory.regions.set id r }
  return .done

def dump (name : String) : Act Answer := do
  let (_, r) ← registered name
  return .bytes r.bytes

def word (name : String) (off : UInt64) : Act Answer := do
  let (_, r) ← registered name
  let v ← orRefuse .fault (r.word? off)
  return .number v.toNat

def narrow (name : String) (n : Narrowing) : Act Answer := do
  let h ← regionHandle name
  let s ← orRefuse .fault (LocalSlice.apply ⟨h.window, h.lkey⟩ n)
  return .slice (s.map fun s => (s.addr - h.window.addr, s.len, s.lkey))

def RegionHandle.toRemote (h : RegionHandle) : RemoteSlice := ⟨h.window, h.rkey⟩

def descriptor (name : String) : Act Answer := do
  let h ← regionHandle name
  let r := h.toRemote
  return .descriptor (r.addr - h.window.addr) r.len r.rkey

/-- Deregister a region; its name goes on to stand for where it was. -/
def dropRegion (name : String) : Act Answer := do
  let h ← regionHandle name
  if h.live then
    modify fun s =>
      { s with
        device := s.device.deregister h.region
        regions := s.regions.set name { h with live := false } }
    return .done
  else throw (.unknown name)

/-- The key that a reference names, for a region at hand. -/
def keyOf (h : RegionHandle) : KeyRef → Act UInt32
  | .given key => return key
  | .localOf none => return h.lkey
  | .remoteOf none => return h.rkey
  | .localOf (some name) => return (← regionHandle name).lkey
  | .remoteOf (some name) => return (← regionHandle name).rkey

/-- The window of a stretch; the address wraps around. -/
def Stretch.window (s : Stretch) (h : RegionHandle) : Window :=
  ⟨h.window.addr + UInt64.ofInt s.off, s.len.getD h.window.len⟩

def localSlice : LocalRef → Act LocalSlice
  | .absolute s => return s
  | .within s => do
    let h ← regionHandle s.region
    return ⟨s.window h, ← keyOf h (s.key.getD (.localOf none))⟩

def remoteSlice : RemoteRef → Act RemoteSlice
  | .absolute s => return s
  | .within s => do
    let h ← regionHandle s.region
    return ⟨s.window h, ← keyOf h (s.key.getD (.remoteOf none))⟩
  | .ofPeer qp off len => do
    match (← qpHandle qp).link.peer with
    | none => throw (.unknown qp)
    | some peer =>
      match RemoteSlice.decode peer.userData with
      | .error _ => throw (.unknown qp)
      | .ok r =>
        match ← orRefuse .fault (r.apply (.slice off (len.getD (r.size - off)))) with
        | none => throw (.unknown qp)
        | some part => return part

def sendOp : OpRef → Act SendOp
  | .send imm => return .send imm
  | .write r imm => return .write (← remoteSlice r) imm
  | .read r => return .read (← remoteSlice r)
  | .compareSwap r compare swap => return .compareSwap (← remoteSlice r) compare swap
  | .fetchAdd r add => return .fetchAdd (← remoteSlice r) add

def work : WorkRef → Act Work
  | .send sgl op => return .send (← sgl.mapM localSlice) (← sendOp op)
  | .recv sgl => return .recv (← sgl.mapM localSlice)

end Verbs.Session
