import Mathlib.Tactic
import Verbs.Memory.Transfer
import Verbs.Proofs.Memory.Access
import Verbs.Proofs.Table

/-!
Moving data from windows to windows comes to gathering and scattering. Where the windows of a list
lie in one region, what they hold is the content of stretches of its bytes, and filling them writes
into stretches of its bytes. So the copies from buffer to buffer are to be compared with what
happens to lists of bytes.
-/

namespace Verbs

namespace Bytes

variable {bs a b : Bytes} {off : Nat}

@[simp] lemma overwrite_nil (bs : Bytes) (off : Nat) : bs.overwrite off [] = bs := by
  simp [overwrite]

lemma overwrite_overwrite (b : Bytes) (h : off + a.length ≤ bs.length) :
    (bs.overwrite off a).overwrite (off + a.length) b = bs.overwrite off (a ++ b) := by
  have hhead : (bs.take off ++ a).length = off + a.length := by
    rw [List.length_append, List.length_take]
    omega
  unfold overwrite
  rw [← hhead, List.take_left, List.drop_append, List.drop_of_length_le (by omega), hhead,
    List.drop_drop, List.length_append]
  have hrest : off + a.length + (off + a.length + b.length - (off + a.length)) =
      off + (a.length + b.length) := by omega
  rw [List.nil_append, hrest, ← List.append_assoc (bs.take off) a b]

@[simp] lemma length_ofBuffer (buffer : ByteArray) : (ofBuffer buffer).length = buffer.size := rfl

@[simp] lemma ofBuffer_toByteArray (bs : Bytes) : ofBuffer bs.toByteArray = bs := by
  simp [ofBuffer]

end Bytes

namespace Span

variable {src dst : ByteArray} {off len room : Nat} {sources targets : List Span}

def content (bs : Bytes) (spans : List Span) : Bytes := spans.flatMap fun s => bs.window s.off s.len

def fill (bs : Bytes) : List Span → Bytes → Bytes
  | [], _ => bs
  | s :: spans, data => fill (bs.overwrite s.off (data.take s.len)) spans (data.drop s.len)

def Within (size : Nat) (spans : List Span) : Prop := ∀ s ∈ spans, s.off + s.len ≤ size

lemma length_window {bs : Bytes} (h : off + len ≤ bs.length) :
    (bs.window off len).length = len := by
  rw [Bytes.window, List.length_take, List.length_drop]
  omega

@[simp] lemma fill_nil (bs : Bytes) (spans : List Span) : fill bs spans [] = bs := by
  induction spans generalizing bs with
  | nil => rfl
  | cons s spans ih => simp [fill, ih]

lemma ofBuffer_copySlice {so : Nat} (dst : ByteArray) (off : Nat) (hsrc : so + len ≤ src.size) :
    Bytes.ofBuffer (src.copySlice so dst off len) =
      (Bytes.ofBuffer dst).overwrite off ((Bytes.ofBuffer src).window so len) := by
  have hwindow : ((Bytes.ofBuffer src).window so len).length = len := length_window hsrc
  have hmin : min len (src.data.size - so) = len := by
    rw [ByteArray.size_data]
    omega
  have htail : dst.data.toList.extract (off + len) dst.data.size =
      dst.data.toList.drop (off + len) := by
    rw [List.extract_eq_take_drop, ← Array.length_toList, ← List.length_drop, List.take_length]
  rw [Bytes.overwrite, hwindow]
  simp only [Bytes.ofBuffer, Bytes.window, ByteArray.copySlice, hmin, Array.toList_append,
    Array.toList_extract, htail, List.extract_eq_take_drop, Nat.sub_zero, List.drop_zero,
    Nat.add_sub_cancel_left]

lemma size_copySlice {so : Nat} (hsrc : so + len ≤ src.size) (hdst : off + len ≤ dst.size) :
    (src.copySlice so dst off len).size = dst.size := by
  have hwindow : ((Bytes.ofBuffer src).window so len).length = len := length_window hsrc
  have hlength := congrArg List.length (ofBuffer_copySlice dst off hsrc)
  rw [Bytes.length_overwrite (by rw [hwindow]; simpa using hdst)] at hlength
  simpa using hlength

/-- What copying stretches into one stretch has done: it has written what fits of them, and has
left the rest. -/
structure Poured (src dst : ByteArray) (off room : Nat) (sources : List Span)
    (result : ByteArray × List Span) : Prop where
  bytes : Bytes.ofBuffer result.1 = (Bytes.ofBuffer dst).overwrite off
    ((content (Bytes.ofBuffer src) sources).take room)
  left : content (Bytes.ofBuffer src) result.2 = (content (Bytes.ofBuffer src) sources).drop room
  within : Within src.size result.2
  size : result.1.size = dst.size

lemma pourInto_poured (hsources : Within src.size sources) (hdst : off + room ≤ dst.size) :
    Poured src dst off room sources (pourInto src dst off room sources) := by
  induction sources generalizing dst off room with
  | nil => exact ⟨by simp [pourInto, content], by simp [pourInto, content], nofun, rfl⟩
  | cons s rest ih =>
    have hs : s.off + s.len ≤ src.size := hsources s List.mem_cons_self
    have hrest : Within src.size rest := fun t ht => hsources t (List.mem_cons_of_mem s ht)
    have hlength : ((Bytes.ofBuffer src).window s.off s.len).length = s.len := length_window hs
    have hcons : content (Bytes.ofBuffer src) (s :: rest) =
        (Bytes.ofBuffer src).window s.off s.len ++ content (Bytes.ofBuffer src) rest := rfl
    rw [pourInto]
    by_cases hfits : s.len ≤ room
    · rw [if_pos hfits]
      have hsize : (src.copySlice s.off dst off s.len).size = dst.size :=
        size_copySlice hs (by omega)
      have h := @ih (src.copySlice s.off dst off s.len) (off + s.len) (room - s.len) hrest
        (by omega)
      refine ⟨?_, ?_, h.within, h.size.trans hsize⟩
      · have hroom : off + ((Bytes.ofBuffer src).window s.off s.len).length ≤
            (Bytes.ofBuffer dst).length := by
          rw [hlength, Bytes.length_ofBuffer]
          omega
        have hstep := Bytes.overwrite_overwrite
          ((content (Bytes.ofBuffer src) rest).take (room - s.len)) hroom
        rw [hlength] at hstep
        rw [h.bytes, ofBuffer_copySlice _ _ hs, hstep, hcons, List.take_append, hlength,
          List.take_of_length_le (hlength.trans_le hfits)]
      · rw [h.left, hcons, List.drop_append, hlength,
          List.drop_of_length_le (hlength.trans_le hfits), List.nil_append]
    · rw [if_neg hfits]
      have hnone : room - s.len = 0 := by omega
      have hsplit : s.off + room + (s.len - room) ≤ src.size := by omega
      refine ⟨?_, ?_, ?_, size_copySlice (by omega) hdst⟩
      · rw [ofBuffer_copySlice _ _ (by omega), hcons, List.take_append, hlength, hnone,
          List.take_zero, List.append_nil, Bytes.window, Bytes.window, List.take_take,
          min_eq_left (by omega)]
      · have hwindow : (Bytes.ofBuffer src).window (s.off + room) (s.len - room) =
            ((Bytes.ofBuffer src).window s.off s.len).drop room := by
          rw [Bytes.window, Bytes.window, List.drop_take, List.drop_drop]
        rw [hcons, List.drop_append, hlength, hnone, List.drop_zero, ← hwindow]
        rfl
      · intro t ht
        rcases List.mem_cons.mp ht with rfl | ht
        · exact hsplit
        · exact hrest t ht

lemma ofBuffer_pour (hsources : Within src.size sources) (htargets : Within dst.size targets) :
    Bytes.ofBuffer (pour src dst targets sources) =
      fill (Bytes.ofBuffer dst) targets (content (Bytes.ofBuffer src) sources) := by
  induction targets generalizing dst sources with
  | nil => rfl
  | cons t targets ih =>
    have h := pourInto_poured hsources (htargets t List.mem_cons_self)
    have hrest := ih h.within fun t' ht' => h.size ▸ htargets t' (List.mem_cons_of_mem t ht')
    rw [pour, fill, ← h.bytes, ← h.left]
    exact hrest

end Span

namespace Memory

variable {m : Memory} {nic peerNic : NicId} {id : RegionId} {r : Region} {s : LocalSlice}
  {sgl targets : List LocalSlice} {spans : List Span} {bytes data : Bytes} {key : UInt32}

def withBytes (m : Memory) (id : RegionId) (r : Region) (bytes : Bytes) : Memory :=
  { m with regions := m.regions.set id { r with bytes } }

lemma lookup_withBytes (h : m.lookup nic key = some (id, r)) (bytes : Bytes) :
    (m.withBytes id r bytes).lookup nic key = some (id, { r with bytes }) := by
  simp only [lookup, Option.bind_eq_bind, Option.bind_eq_some_iff, Option.pure_def,
    Option.some.injEq, Prod.mk.injEq] at h
  obtain ⟨_, hkey, _, -, rfl, -⟩ := h
  simp [lookup, withBytes, hkey]

lemma resolveLocal_of_lookup (hlookup : m.lookup nic s.lkey = some (id, r)) (hkey : r.lkey = s.lkey)
    (hbase : r.base ≤ s.addr)
    (hlen : s.addr.toNat - r.base.toNat + s.len.toNat ≤ r.bytes.length) :
    m.resolveLocal nic s = .ok (id, r, s.addr.toNat - r.base.toNat) := by
  simp [resolveLocal, hlookup, hkey, Region.offsetOf, hbase, hlen]

lemma spans_cons (hr : m.regions.get? id = some r)
    (h : m.spans nic id r.bytes.length (s :: sgl) = some spans) :
    ∃ off rest, m.spans nic id r.bytes.length sgl = some rest ∧
      spans = ⟨off, s.len.toNat⟩ :: rest ∧ off + s.len.toNat ≤ r.bytes.length ∧
      m.resolveLocal nic s = .ok (id, r, off) ∧
      ∀ bytes : Bytes, bytes.length = r.bytes.length →
        (m.withBytes id r bytes).resolveLocal nic s = .ok (id, { r with bytes }, off) := by
  rw [Memory.spans] at h
  split at h
  · cases h
  · rename_i id' r' hlookup
    dsimp only at h
    split at h
    · rename_i hin
      obtain ⟨rfl, hkey, hbase, hlen⟩ := hin
      obtain rfl : r' = r := Option.some.inj ((regions_of_lookup hlookup).symm.trans hr)
      obtain ⟨rest, hrest, rfl⟩ := Option.map_eq_some_iff.mp h
      refine ⟨_, rest, hrest, rfl, hlen, resolveLocal_of_lookup hlookup hkey hbase hlen, ?_⟩
      intro bytes hbytes
      exact resolveLocal_of_lookup (lookup_withBytes hlookup bytes) hkey hbase
        (hlen.trans_eq hbytes.symm)
    · cases h

lemma spans_replicate {size : Nat} (hlookup : m.lookup nic s.lkey = some (id, r))
    (hkey : r.lkey = s.lkey) (hbase : r.base ≤ s.addr)
    (hlen : s.addr.toNat - r.base.toNat + s.len.toNat ≤ size) (k : Nat) :
    m.spans nic id size (List.replicate k s) =
      some (List.replicate k ⟨s.addr.toNat - r.base.toNat, s.len.toNat⟩) := by
  induction k with
  | zero => rfl
  | succ k ih => simp [List.replicate_succ, Memory.spans, hlookup, hkey, hbase, hlen, ih]

lemma spans_within (hr : m.regions.get? id = some r)
    (h : m.spans nic id r.bytes.length sgl = some spans) : Span.Within r.bytes.length spans := by
  induction sgl generalizing spans with
  | nil =>
    cases h
    exact nofun
  | cons s sgl ih =>
    obtain ⟨off, rest, hrest, rfl, hlen, -⟩ := spans_cons hr h
    intro t ht
    rcases List.mem_cons.mp ht with rfl | ht
    · exact hlen
    · exact ih hrest t ht

lemma gather_of_spans (hr : m.regions.get? id = some r)
    (h : m.spans nic id r.bytes.length sgl = some spans) :
    m.gather nic sgl = .ok (Span.content r.bytes spans) := by
  induction sgl generalizing spans with
  | nil =>
    cases h
    rfl
  | cons s sgl ih =>
    obtain ⟨off, rest, hrest, rfl, -, hs, -⟩ := spans_cons hr h
    simp only [gather, hs, ih hrest, bind, Except.bind, pure, Except.pure]
    rfl

lemma fill_cons {off : Nat} (hs : m.resolveLocal nic s = .ok (id, r, off))
    (hperm : r.perm.contains .localWrite) (hdata : data ≠ []) :
    m.fill nic (s :: sgl) data =
      (m.withBytes id r (r.bytes.overwrite off (data.take s.len.toNat))).fill nic sgl
        (data.drop s.len.toNat) := by
  obtain ⟨b, data, rfl⟩ := List.exists_cons_of_ne_nil hdata
  rw [fill, hs]
  dsimp only
  rw [if_pos hperm, ← List.take_eq_take_min, ← List.drop_eq_drop_min]
  rfl

lemma fill_withBytes (hr : m.regions.get? id = some r) (hperm : r.perm.contains .localWrite)
    (h : m.spans nic id r.bytes.length sgl = some spans) (hbytes : bytes.length = r.bytes.length) :
    (m.withBytes id r bytes).fill nic sgl data =
      (m.withBytes id r (Span.fill bytes spans data), .ok ()) := by
  induction sgl generalizing spans bytes data with
  | nil =>
    cases h
    rfl
  | cons s sgl ih =>
    rcases eq_or_ne data [] with rfl | hdata
    · rw [Span.fill_nil, fill]
    · obtain ⟨off, rest, hrest, rfl, hlen, -, hs⟩ := spans_cons hr h
      have hchunk : off + (data.take s.len.toNat).length ≤ bytes.length := by
        rw [List.length_take]
        omega
      have htwice : ∀ bytes', (m.withBytes id r bytes).withBytes id { r with bytes } bytes' =
          m.withBytes id r bytes' := fun bytes' => by
        simp only [withBytes, Table.set_set]
      rw [fill_cons (hs bytes hbytes) hperm hdata, htwice,
        ih hrest ((Bytes.length_overwrite hchunk).trans hbytes)]
      rfl

lemma fill_of_spans (hr : m.regions.get? id = some r) (hperm : r.perm.contains .localWrite)
    (h : m.spans nic id r.bytes.length sgl = some spans) (hsgl : sgl ≠ []) (hdata : data ≠ []) :
    m.fill nic sgl data = (m.withBytes id r (Span.fill r.bytes spans data), .ok ()) := by
  obtain ⟨s, sgl, rfl⟩ := List.exists_cons_of_ne_nil hsgl
  obtain ⟨off, rest, hrest, rfl, hlen, hs, -⟩ := spans_cons hr h
  have hchunk : off + (data.take s.len.toNat).length ≤ r.bytes.length := by
    rw [List.length_take]
    omega
  rw [fill_cons hs hperm hdata, fill_withBytes hr hperm hrest (Bytes.length_overwrite hchunk)]
  rfl

lemma scatter_of_spans (hr : m.regions.get? id = some r) (hperm : r.perm.contains .localWrite)
    (h : m.spans nic id r.bytes.length sgl = some spans)
    (hroom : data.length ≤ LocalSlice.totalLen sgl) :
    ∃ m', m.scatter nic sgl data = (m', .ok ()) := by
  rw [scatter, if_neg (Nat.not_lt.mpr hroom)]
  rcases eq_or_ne sgl [] with rfl | hsgl
  · exact ⟨m, rfl⟩
  · rcases eq_or_ne data [] with rfl | hdata
    · obtain ⟨s, sgl, rfl⟩ := List.exists_cons_of_ne_nil hsgl
      exact ⟨m, rfl⟩
    · exact ⟨_, fill_of_spans hr hperm h hsgl hdata⟩

/-- Moving data from windows to windows comes to gathering it from the ones and scattering it into
the others. -/
theorem transfer_eq_some {m' : Memory} {len : Nat}
    (h : m.transfer nic sgl peerNic targets = some (m', len)) :
    ∃ data, m.gather nic sgl = .ok data ∧ data.length = len ∧
      m.scatter peerNic targets data = (m', .ok ()) := by
  simp only [transfer, Option.bind_eq_bind, Option.bind_eq_some_iff] at h
  obtain ⟨s, hs, ⟨srcId, src⟩, hsrc, t, ht, ⟨dstId, dst⟩, hdst, sources, hsources, stretches,
    hstretches, h⟩ := h
  rw [List.size_toByteArray] at hsources hstretches
  split at h
  · rename_i hfits
    obtain ⟨hperm, hlen, hroom⟩ := hfits
    cases h
    have hgather := gather_of_spans (regions_of_lookup hsrc) hsources
    have hlength := length_of_gather hgather
    have hdata : Span.content src.bytes sources ≠ [] := List.ne_nil_of_length_pos (by omega)
    have htargets : targets ≠ [] := fun h => by simp [h] at ht
    refine ⟨_, hgather, hlength, ?_⟩
    rw [scatter, if_neg (by omega),
      fill_of_spans (regions_of_lookup hdst) hperm hstretches htargets hdata]
    have hfrom : Span.Within src.bytes.toByteArray.size sources := by
      rw [List.size_toByteArray]
      exact spans_within (regions_of_lookup hsrc) hsources
    have hto : Span.Within dst.bytes.toByteArray.size stretches := by
      rw [List.size_toByteArray]
      exact spans_within (regions_of_lookup hdst) hstretches
    have hpour := Span.ofBuffer_pour hfrom hto
    rw [hpour, Bytes.ofBuffer_toByteArray, Bytes.ofBuffer_toByteArray]
    rfl
  · cases h

end Memory

end Verbs
