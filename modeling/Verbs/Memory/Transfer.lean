import Verbs.Memory.Store

/-!
Moving data from windows to windows without writing it out. Where the windows of each list lie in
one region, stretches of one buffer are copied to stretches of another.
-/

namespace Verbs

def Bytes.ofBuffer (buffer : ByteArray) : Bytes := buffer.data.toList

/-- A stretch of a buffer. -/
structure Span where
  off : Nat
  len : Nat
  deriving DecidableEq, Repr

namespace Span

/-- Copy stretches of `src` into the `room` bytes of `dst` that start at `off`, one after another.
The stretches that are left over come with the result. -/
def pourInto (src : ByteArray) : ByteArray → Nat → Nat → List Span → ByteArray × List Span
  | dst, _, _, [] => (dst, [])
  | dst, off, room, s :: rest =>
    if s.len ≤ room then
      pourInto src (src.copySlice s.off dst off s.len) (off + s.len) (room - s.len) rest
    else (src.copySlice s.off dst off room, ⟨s.off + room, s.len - room⟩ :: rest)

/-- Copy stretches of `src` into stretches of `dst`, both one after another. -/
def pour (src : ByteArray) : ByteArray → List Span → List Span → ByteArray
  | dst, [], _ => dst
  | dst, t :: targets, sources =>
    let (dst, sources) := pourInto src dst t.off t.len sources
    pour src dst targets sources

end Span

namespace Memory

/-- The stretches of a region of `size` bytes that local windows are. There are none where one of
the windows is not valid or lies in another region. -/
def spans (m : Memory) (nic : NicId) (id : RegionId) (size : Nat) :
    List LocalSlice → Option (List Span)
  | [] => some []
  | s :: sgl =>
    match m.lookup nic s.lkey with
    | none => none
    | some (id', r) =>
      let off := s.addr.toNat - r.base.toNat
      if id' = id ∧ r.lkey = s.lkey ∧ r.base ≤ s.addr ∧ off + s.len.toNat ≤ size then
        (m.spans nic id size sgl).map (⟨off, s.len.toNat⟩ :: ·)
      else none

/-- Move the content of some local windows into others, where each list lies in one region and the
second holds what the first does; the result counts the bytes. -/
def transfer (m : Memory) (nic : NicId) (sgl : List LocalSlice) (peerNic : NicId)
    (targets : List LocalSlice) : Option (Memory × Nat) := do
  let (srcId, src) ← m.lookup nic (← sgl.head?).lkey
  let (dstId, dst) ← m.lookup peerNic (← targets.head?).lkey
  let source := src.bytes.toByteArray
  let buffer := dst.bytes.toByteArray
  let sources ← m.spans nic srcId source.size sgl
  let stretches ← m.spans peerNic dstId buffer.size targets
  let len := LocalSlice.totalLen sgl
  if dst.perm.contains .localWrite ∧ 0 < len ∧ len ≤ LocalSlice.totalLen targets then
    let bytes := Bytes.ofBuffer (Span.pour source buffer stretches sources)
    return ({ m with regions := m.regions.set dstId { dst with bytes } }, len)
  else none

end Memory

end Verbs
