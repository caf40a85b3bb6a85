import Mathlib.Tactic
import Verbs.Proofs.Memory.Scattering

/-!
Words of memory, as atomics see them. An atomic puts another word in the place of the one that it
finds, and then what it has found into local windows. These may be several and may lie anywhere: the
word is the new one afterwards if they keep off it, and the old one can be read back from them if
they keep off each other.
-/

namespace Verbs

namespace SendOp

def newWord : SendOp → UInt64 → UInt64
  | compareSwap _ compare swap, v => if v = compare then swap else v
  | fetchAdd _ add, v => v + add
  | send _, v | write _ _, v | read _, v => v

def addend : SendOp → UInt64
  | fetchAdd _ add => add
  | send _ | write _ _ | read _ | compareSwap _ _ _ => 0

/-- A word after some operations have run on it, one after another. -/
def replay (v : UInt64) (ops : List SendOp) : UInt64 := ops.foldl (fun v op => op.newWord v) v

lemma replay_append (v : UInt64) (ops later : List SendOp) :
    replay v (ops ++ later) = replay (replay v ops) later :=
  List.foldl_append

lemma toNat_replay_of_fetchAdd (v : UInt64) {ops : List SendOp}
    (h : ∀ op ∈ ops, op.opcode = .fetchAdd) :
    (replay v ops).toNat = (v.toNat + (ops.map (·.addend.toNat)).sum) % 2 ^ 64 := by
  induction ops using List.reverseRecOn with
  | nil => exact (Nat.mod_eq_of_lt v.toNat_lt).symm
  | append_singleton ops op ih =>
    have hops := ih fun op hop => h op (List.mem_append_left _ hop)
    have hop := h op (List.mem_append_right _ List.mem_cons_self)
    cases op with
    | fetchAdd remote add =>
      have hnew : (newWord (.fetchAdd remote add) (replay v ops)).toNat =
          ((replay v ops).toNat + add.toNat) % 2 ^ 64 := UInt64.toNat_add _ _
      rw [replay_append, replay, List.foldl_cons, List.foldl_nil, hnew, hops, Nat.mod_add_mod,
        List.map_append, List.sum_append, Nat.add_assoc]
      rfl
    | send | write | read | compareSwap => cases hop

end SendOp

lemma Bytes.toNatLE_ofNatLE (w n : Nat) : toNatLE (ofNatLE w n) = n % 256 ^ w := by
  induction w generalizing n with
  | zero => rw [Nat.pow_zero, Nat.mod_one]; rfl
  | succ w ih =>
    have hlow : (UInt8.ofNat n).toNat = n % 256 := UInt8.toNat_ofNat'
    rw [ofNatLE, toNatLE, ih, hlow, Nat.pow_succ', Nat.mod_mul]

lemma Bytes.ofNat_toNatLE_ofNatLE (v : UInt64) :
    UInt64.ofNat (toNatLE (ofNatLE 8 v.toNat)) = v := by
  have hlt : v.toNat < 256 ^ 8 := v.toNat_lt
  rw [toNatLE_ofNatLE, Nat.mod_eq_of_lt hlt, UInt64.ofNat_toNat]

namespace Memory

variable {m m' : Memory} {nic peerNic : NicId} {s : LocalSlice} {sgl : List LocalSlice}
  {remote : RemoteSlice} {data : Bytes} {id : RegionId} {r : Region} {off : Nat} {x : Spot}
  {v : UInt64} {op : SendOp}

def wordSpots (x : Spot) : List Spot := (List.range' x.2 8).map fun i => (x.1, i)

def wordAt (m : Memory) (x : Spot) : Option UInt64 :=
  match m.regions.get? x.1 with
  | some r => if x.2 + 8 ≤ r.bytes.length then some (r.word x.2) else none
  | none => none

/-- The word that an atomic on a window of a peer runs on, if the peer's region allows it there. -/
def target (m : Memory) (peerNic : NicId) (remote : RemoteSlice) : Option Spot :=
  match m.resolveRemote peerNic remote 8 .remoteAtomic with
  | .ok (id, _, off) => if off % 8 = 0 then some (id, off) else none
  | .error _ => none

/-- Windows that can take what a word was: they may be written to, and keep off each other and off
the word. -/
structure Receptive (m : Memory) (nic : NicId) (sgl : List LocalSlice) (x : Spot) : Prop where
  writable : ∀ s ∈ sgl, m.Writable nic s
  disjoint : sgl.Pairwise fun s t => ∀ y ∈ m.windowSpots nic s, y ∉ m.windowSpots nic t
  apart : ∀ y ∈ wordSpots x, some y ∉ m.spots nic sgl

instance (m : Memory) (nic : NicId) (sgl : List LocalSlice) (x : Spot) :
    Decidable (m.Receptive nic sgl x) :=
  decidable_of_iff ((∀ s ∈ sgl, m.Writable nic s) ∧
      (sgl.Pairwise fun s t => ∀ y ∈ m.windowSpots nic s, y ∉ m.windowSpots nic t) ∧
      ∀ y ∈ wordSpots x, some y ∉ m.spots nic sgl)
    ⟨fun h => ⟨h.1, h.2.1, h.2.2⟩, fun h => ⟨h.writable, h.disjoint, h.apart⟩⟩

/-! ### Words and bytes -/

lemma fst_of_mem_wordSpots {y : Spot} (h : y ∈ wordSpots x) : y.1 = x.1 := by
  obtain ⟨i, -, rfl⟩ := List.mem_map.mp h
  rfl

lemma region_of_wordAt (h : m.wordAt x = some v) : ∃ r, m.regions.get? x.1 = some r := by
  unfold wordAt at h
  split at h
  · rename_i r hr
    exact ⟨r, hr⟩
  · cases h

lemma wordAt_of_region (hr : m.regions.get? x.1 = some r) (hlen : x.2 + 8 ≤ r.bytes.length) :
    m.wordAt x = some (r.word x.2) := by
  simp only [wordAt, hr, if_pos hlen]

/-- A word is what its bytes spell. -/
lemma wordAt_eq_some_iff :
    m.wordAt x = some v ↔ (wordSpots x).map m.byte? = (Bytes.ofNatLE 8 v.toNat).map some := by
  have hspots : (wordSpots x).map m.byte? =
      (List.range' x.2 8).map fun i => m.byte? (x.1, i) := List.map_map
  rw [hspots]
  constructor
  · intro h
    unfold wordAt at h
    split at h
    · rename_i r hr
      split at h
      · rename_i hlen
        cases h
        rw [map_byte?_range' hr hlen, Region.ofNatLE_word hlen]
      · cases h
    · cases h
  · intro h
    -- the last byte is there, so the region is, and it is long enough
    have hlast : ∃ b, m.byte? (x.1, x.2 + 7) = some b := by
      have hmem : m.byte? (x.1, x.2 + 7) ∈ (List.range' x.2 8).map fun i => m.byte? (x.1, i) :=
        List.mem_map.mpr ⟨x.2 + 7, by simp [List.mem_range'_1], rfl⟩
      rw [h] at hmem
      obtain ⟨b, -, hb⟩ := List.mem_map.mp hmem
      exact ⟨b, hb.symm⟩
    obtain ⟨b, hb⟩ := hlast
    obtain ⟨r, hr, hbyte⟩ := Option.bind_eq_some_iff.mp hb
    have hlen : x.2 + 8 ≤ r.bytes.length := (List.getElem?_eq_some_iff.mp hbyte).1
    rw [map_byte?_range' hr hlen] at h
    have hread : r.read x.2 8 = Bytes.ofNatLE 8 v.toNat :=
      List.map_injective_iff.mpr (Option.some_injective _) h
    rw [wordAt_of_region (x := x) hr hlen, Region.word, hread, Bytes.ofNat_toNatLE_ofNatLE]

lemma wordAt_congr (h : ∀ y ∈ wordSpots x, m'.byte? y = m.byte? y) : m'.wordAt x = m.wordAt x := by
  have hbytes : (wordSpots x).map m'.byte? = (wordSpots x).map m.byte? := List.map_congr_left h
  refine Option.ext fun v => ?_
  rw [wordAt_eq_some_iff, wordAt_eq_some_iff, hbytes]

/-! ### Windows for a word -/

/-- What is scattered into windows that keep off each other can be read back from them, and the word
that they keep off is as it was. -/
lemma scatter_receptive (h : m.Receptive nic sgl x) (data : Bytes)
    (hdata : data.length = LocalSlice.totalLen sgl) :
    ∃ m', m.scatter nic sgl data = (m', .ok ()) ∧ m'.gather nic sgl = .ok data ∧
      m'.wordAt x = m.wordAt x := by
  have hsgl : m.Separate nic sgl := ⟨h.writable, h.disjoint⟩
  obtain ⟨m', hscatter, hfilled, hsame⟩ := scatter_separate hsgl hdata.le
  refine ⟨m', hscatter, hfilled.gather_full hsame hsgl hdata, wordAt_congr fun y hy => ?_⟩
  exact hfilled.byte?_of_notMem fun hmem => h.apart y hy (List.mem_of_mem_take hmem)

/-! ### Atomics -/

lemma target_eq_some (h : m.target peerNic remote = some x) :
    ∃ r, m.resolveRemote peerNic remote 8 .remoteAtomic = .ok (x.1, r, x.2) ∧ x.2 % 8 = 0 := by
  unfold target at h
  split at h
  · rename_i id r off hresolve
    split at h
    · rename_i haligned
      cases h
      exact ⟨r, hresolve, haligned⟩
    · cases h
  · cases h

lemma updateRemote_target (h : m.target peerNic remote = some x) (f : UInt64 → UInt64) :
    ∃ old m', m.updateRemote peerNic remote f = .ok (old, m') ∧ m.wordAt x = some old ∧
      m'.wordAt x = some (f old) ∧ SameRegions m m' := by
  obtain ⟨r, hresolve, haligned⟩ := target_eq_some h
  obtain ⟨-, hlookup, -, -, hoff⟩ := resolveRemote_eq_ok hresolve
  have hr := regions_of_lookup hlookup
  have hlen := (offsetOf_eq_some hoff).2.2
  have hwrite : x.2 + (Bytes.ofNatLE 8 (f (r.word x.2)).toNat).length ≤ r.bytes.length := by
    rw [Bytes.length_ofNatLE]
    exact hlen
  refine ⟨r.word x.2, _, ?_, wordAt_of_region hr hlen, ?_, (write_confined hr hwrite).same⟩
  · simp only [updateRemote, hresolve, bind, Except.bind, haligned, ne_eq, not_true_eq_false,
      if_false, pure, Except.pure, Region.setWord]
  · rw [wordAt_eq_some_iff, byte?_write hr le_rfl hwrite]
    refine List.ext_getElem? fun i => ?_
    rcases lt_or_ge i 8 with hi | hi
    · have hspot : (wordSpots x)[i]? = some (x.1, x.2 + i) := by
        simp [wordSpots, List.getElem?_range' hi]
      rw [List.getElem?_map, hspot, Option.map_some, poured_range' _ _ _ le_rfl]
      simp [hi]
    · simp [wordSpots, hi]

lemma atomic_target (h : m.target peerNic remote = some x)
    (hlength : LocalSlice.totalLen sgl = 8) (hsgl : m.Receptive nic sgl x) (f : UInt64 → UInt64) :
    ∃ old m', m.atomic nic peerNic sgl remote f = (m', .ok 8) ∧ m.wordAt x = some old ∧
      m'.wordAt x = some (f old) ∧ m'.gather nic sgl = .ok (Bytes.ofNatLE 8 old.toNat) := by
  obtain ⟨old, m₁, hupdate, hold, hnew, hsame⟩ := updateRemote_target h f
  have hwindows : ∀ s ∈ sgl, m₁.windowSpots nic s = m.windowSpots nic s := by
    intro s hs
    obtain ⟨id, r, off, hresolve, -⟩ := hsgl.writable s hs
    obtain ⟨r', hresolve', -⟩ := hsame.resolveLocal hresolve
    rw [windowSpots_ok hresolve, windowSpots_ok hresolve']
  have hspots : m₁.spots nic sgl = m.spots nic sgl := List.flatMap_congr hwindows
  have hsgl₁ : m₁.Receptive nic sgl x := by
    refine ⟨fun s hs => hsame.writable (hsgl.writable s hs), ?_,
      fun y hy => hspots ▸ hsgl.apart y hy⟩
    refine hsgl.disjoint.imp_of_mem fun hs ht hdisjoint => ?_
    rwa [hwindows _ hs, hwindows _ ht]
  obtain ⟨m', hscatter, hgather, hword⟩ := scatter_receptive hsgl₁
    (Bytes.ofNatLE 8 old.toNat) (by rw [Bytes.length_ofNatLE, hlength])
  refine ⟨old, m', ?_, hold, hword.trans hnew, hgather⟩
  simp only [atomic, hlength, ne_eq, not_true_eq_false, if_false, hupdate, hscatter, Except.map]

lemma oneSided_atomic (hatomic : op.isAtomic) (hremote : op.remote? = some remote) :
    m.oneSided nic peerNic sgl op = m.atomic nic peerNic sgl remote op.newWord := by
  cases op with
  | compareSwap remote' compare swap =>
    cases hremote
    rfl
  | fetchAdd remote' add =>
    cases hremote
    rfl
  | send | write | read => cases hatomic

end Memory

end Verbs
