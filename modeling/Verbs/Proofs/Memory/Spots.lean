import Mathlib.Tactic
import Verbs.Memory.Store

/-!
Memory byte by byte. A list of local windows names bytes, entry after entry; gathering reads them in
this order, and scattering puts bytes into them in this order.
-/

namespace Verbs

abbrev Spot := RegionId × Nat

namespace Memory

def byte? (m : Memory) (x : Spot) : Option UInt8 :=
  (m.regions.get? x.1).bind fun r => r.bytes[x.2]?

/-- The bytes that a window names; there are none where it is not valid. -/
def windowSpots (m : Memory) (nic : NicId) (s : LocalSlice) : List (Option Spot) :=
  match m.resolveLocal nic s with
  | .ok (id, _, off) => (List.range' off s.len.toNat).map fun i => some (id, i)
  | .error _ => List.replicate s.len.toNat none

/-- The bytes that a list of windows names, entry after entry. -/
def spots (m : Memory) (nic : NicId) (sgl : List LocalSlice) : List (Option Spot) :=
  sgl.flatMap (m.windowSpots nic)

def contents (m : Memory) (nic : NicId) (sgl : List LocalSlice) : List (Option UInt8) :=
  (m.spots nic sgl).map fun x => x.bind m.byte?

/-- What is where after `data` was put into some spots, one byte after another. -/
def poured (content : Spot → Option UInt8) : List (Option Spot) → Bytes → Spot → Option UInt8
  | some x :: xs, b :: bs => poured (Function.update content x (some b)) xs bs
  | _, _ => content

variable {m m' : Memory} {nic : NicId} {s : LocalSlice} {sgl : List LocalSlice} {data : Bytes}
  {id : RegionId} {r : Region} {off : Nat}

/-! ### Windows -/

lemma regions_of_lookup {key : UInt32} (h : m.lookup nic key = some (id, r)) :
    m.regions.get? id = some r := by
  simp only [lookup, Option.bind_eq_bind, Option.bind_eq_some_iff, Option.pure_def,
    Option.some.injEq, Prod.mk.injEq] at h
  obtain ⟨_, -, _, hr, rfl, rfl⟩ := h
  exact hr

lemma offsetOf_eq_some {addr : UInt64} {len : Nat} (h : r.offsetOf addr len = some off) :
    r.base.toNat ≤ addr.toNat ∧ off = addr.toNat - r.base.toNat ∧ off + len ≤ r.bytes.length := by
  unfold Region.offsetOf at h
  split at h
  · rename_i hin
    cases h
    exact ⟨UInt64.le_iff_toNat_le.mp hin.1, rfl, hin.2⟩
  · cases h

lemma resolveLocal_eq_ok (h : m.resolveLocal nic s = .ok (id, r, off)) :
    m.lookup nic s.lkey = some (id, r) ∧ r.lkey = s.lkey ∧
      r.offsetOf s.addr s.len.toNat = some off := by
  unfold resolveLocal at h
  split at h
  · cases h
  · rename_i hlookup
    split at h
    · rename_i hkey
      split at h
      · cases h
      · rename_i hoff
        cases h
        exact ⟨hlookup, hkey, hoff⟩
    · cases h

lemma resolveLocal_ok (h : m.resolveLocal nic s = .ok (id, r, off)) :
    m.regions.get? id = some r ∧ off + s.len.toNat ≤ r.bytes.length := by
  obtain ⟨hlookup, -, hoff⟩ := resolveLocal_eq_ok h
  exact ⟨regions_of_lookup hlookup, (offsetOf_eq_some hoff).2.2⟩

lemma resolveLocal_error {e : Status} (h : m.resolveLocal nic s = .error e) : e = .locProtErr := by
  unfold resolveLocal at h
  split at h
  · cases h
    rfl
  · split at h
    · split at h <;> cases h
      rfl
    · cases h
      rfl

lemma windowSpots_ok (h : m.resolveLocal nic s = .ok (id, r, off)) :
    m.windowSpots nic s = (List.range' off s.len.toNat).map fun i => some (id, i) := by
  simp only [windowSpots, h]

@[simp] lemma length_windowSpots (m : Memory) (nic : NicId) (s : LocalSlice) :
    (m.windowSpots nic s).length = s.len.toNat := by
  unfold windowSpots
  split <;> simp

@[simp] lemma spots_nil (m : Memory) (nic : NicId) : m.spots nic [] = [] := rfl

lemma spots_cons (m : Memory) (nic : NicId) (s : LocalSlice) (sgl : List LocalSlice) :
    m.spots nic (s :: sgl) = m.windowSpots nic s ++ m.spots nic sgl := rfl

/-! ### Gathering -/

lemma map_byte?_range' (hr : m.regions.get? id = some r) {len : Nat}
    (hlen : off + len ≤ r.bytes.length) :
    (List.range' off len).map (fun i => m.byte? (id, i)) = (r.read off len).map some := by
  refine List.ext_getElem? fun i => ?_
  simp only [List.getElem?_map, Region.read, Bytes.window, List.getElem?_take, List.getElem?_drop,
    byte?, hr, Option.bind_some]
  by_cases hi : i < len
  · have : off + i < r.bytes.length := by omega
    simp [hi, this]
  · simp [hi]

lemma contents_of_gather (h : m.gather nic sgl = .ok data) :
    m.contents nic sgl = data.map some := by
  induction sgl generalizing data with
  | nil =>
    cases h
    rfl
  | cons s sgl ih =>
    rcases hs : m.resolveLocal nic s with e | ⟨id, r, off⟩
    · simp [gather, hs, bind, Except.bind] at h
    · rcases hrest : m.gather nic sgl with e | rest
      · simp [gather, hs, hrest, bind, Except.bind] at h
      · simp only [gather, hs, hrest, bind, Except.bind, pure, Except.pure, Except.ok.injEq] at h
        obtain ⟨hr, hlen⟩ := resolveLocal_ok hs
        have hwindow := map_byte?_range' hr hlen
        rw [← h, List.map_append, ← hwindow, ← ih hrest, contents, spots_cons, List.map_append,
          windowSpots_ok hs, List.map_map]
        rfl

/-! ### Writing into a region -/

lemma poured_append (content : Spot → Option UInt8) {xs : List (Option Spot)}
    (hxs : ∀ x ∈ xs, x.isSome) (ys : List (Option Spot)) (data : Bytes) :
    poured content (xs ++ ys) data =
      poured (poured content xs (data.take xs.length)) ys (data.drop xs.length) := by
  induction xs generalizing content data with
  | nil => simp [poured]
  | cons x xs ih =>
    obtain ⟨x, rfl⟩ := Option.isSome_iff_exists.mp (hxs x List.mem_cons_self)
    cases data with
    | nil => cases ys <;> simp [poured]
    | cons b data =>
      have hrest := ih (Function.update content x (some b))
        (fun y hy => hxs y (List.mem_cons_of_mem _ hy)) data
      simpa [poured] using hrest

lemma poured_range' (content : Spot → Option UInt8) (id : RegionId) (off : Nat) {len : Nat}
    (hlen : data.length ≤ len) (x : Spot) :
    poured content ((List.range' off len).map fun i => some (id, i)) data x =
      if x.1 = id ∧ off ≤ x.2 ∧ x.2 < off + data.length then data[x.2 - off]? else content x := by
  induction data generalizing content off len with
  | nil =>
    simp [poured]
  | cons b data ih =>
    obtain ⟨len, rfl⟩ : ∃ k, len = k + 1 := ⟨len - 1, by simp at hlen; omega⟩
    rw [List.range'_succ, List.map_cons, poured, ih _ (off + 1) (by simpa using hlen)]
    obtain ⟨j, i⟩ := x
    rw [List.length_cons]
    by_cases hj : j = id
    · rcases lt_trichotomy i off with hi | rfl | hi
      · have hlater : ¬ (off + 1 ≤ i) := by omega
        have hnow : ¬ (off ≤ i) := by omega
        simp [hlater, hnow, hi.ne]
      · simp [hj]
      · have hindex : i - off = i - (off + 1) + 1 := by omega
        have hend : i < off + 1 + data.length ↔ i < off + (data.length + 1) := by omega
        simp [hj, hend, hindex, hi.ne', Nat.succ_le_of_lt hi, hi.le]
    · simp [hj]

lemma byte?_write (hr : m.regions.get? id = some r) {len : Nat} (hdata : data.length ≤ len)
    (hlen : off + len ≤ r.bytes.length) :
    { m with regions := m.regions.set id (r.write off data) }.byte? =
      poured m.byte? ((List.range' off len).map fun i => some (id, i)) data := by
  funext x
  obtain ⟨j, i⟩ := x
  rw [poured_range' _ _ _ hdata]
  simp only [byte?, Table.get?_set]
  by_cases hj : j = id
  · subst hj
    simp only [hr, if_true, Option.bind_some, Region.write, Bytes.overwrite, true_and,
      List.append_assoc]
    have hoff : (r.bytes.take off).length = off := by
      rw [List.length_take]
      omega
    by_cases hlow : i < off
    · have : ¬ (off ≤ i ∧ i < off + data.length) := by omega
      rw [if_neg this, List.getElem?_append_left (by omega), List.getElem?_take, if_pos hlow]
    · rw [List.getElem?_append_right (by omega), hoff]
      by_cases hhigh : i < off + data.length
      · rw [if_pos ⟨by omega, hhigh⟩, List.getElem?_append_left (by omega)]
      · have : ¬ (off ≤ i ∧ i < off + data.length) := by omega
        rw [if_neg this, List.getElem?_append_right (by omega), List.getElem?_drop]
        congr 1
        omega
  · simp [hj]

lemma spots_write (hr : m.regions.get? id = some r) (hlen : off + data.length ≤ r.bytes.length)
    (nic : NicId) (sgl : List LocalSlice) :
    { m with regions := m.regions.set id (r.write off data) }.spots nic sgl = m.spots nic sgl := by
  have hwindow : ∀ s : LocalSlice,
      { m with regions := m.regions.set id (r.write off data) }.windowSpots nic s =
        m.windowSpots nic s := by
    intro s
    have hlength : (r.write off data).bytes.length = r.bytes.length :=
      Bytes.length_overwrite hlen
    have hoffset : (r.write off data).offsetOf s.addr s.len.toNat =
        r.offsetOf s.addr s.len.toNat := by
      simp only [Region.offsetOf, hlength]
      rfl
    unfold windowSpots resolveLocal lookup
    simp only [Option.bind_eq_bind, Option.pure_def]
    rcases m.keys.get? (nic, s.lkey) with - | j
    · rfl
    · simp only [Option.bind_some, Table.get?_set]
      by_cases hj : j = id
      · rw [if_pos hj, hj, hr]
        simp only [Option.bind_some, hoffset]
        by_cases hkey : r.lkey = s.lkey
        · have hkey' : (r.write off data).lkey = s.lkey := hkey
          rw [if_pos hkey, if_pos hkey']
          cases r.offsetOf s.addr s.len.toNat <;> rfl
        · have hkey' : (r.write off data).lkey ≠ s.lkey := hkey
          rw [if_neg hkey, if_neg hkey']
      · rw [if_neg hj]
  exact congrArg (List.flatMap · sgl) (funext hwindow)

/-! ### Scattering -/

structure Filled (before after : Memory) (nic : NicId) (sgl : List LocalSlice) (data : Bytes) :
    Prop where
  room : data.length ≤ (before.spots nic sgl).length
  valid : ∀ x ∈ (before.spots nic sgl).take data.length, x.isSome
  byte? : after.byte? = poured before.byte? (before.spots nic sgl) data
  spots : ∀ nic sgl, after.spots nic sgl = before.spots nic sgl

lemma Filled.nil (m : Memory) (nic : NicId) (sgl : List LocalSlice) : Filled m m nic sgl [] where
  room := Nat.zero_le _
  valid := by simp
  byte? := by cases m.spots nic sgl with
    | nil => rfl
    | cons x xs => cases x <;> rfl
  spots := fun _ _ => rfl

lemma Filled.cons {m₀ m₁ : Memory} (hs : m.resolveLocal nic s = .ok (id, r, off))
    (hwrite : m₀ = { m with
      regions := m.regions.set id (r.write off (data.take (min s.len.toNat data.length))) })
    (hrest : Filled m₀ m₁ nic sgl (data.drop (min s.len.toNat data.length))) :
    Filled m m₁ nic (s :: sgl) data := by
  obtain ⟨hr, hlen⟩ := resolveLocal_ok hs
  have hchunk : (data.take (min s.len.toNat data.length)).length ≤ s.len.toNat := by
    rw [List.length_take]
    omega
  have hspots : ∀ nic sgl, m₀.spots nic sgl = m.spots nic sgl := by
    rw [hwrite]
    exact spots_write hr (by omega)
  have hsome : ∀ x ∈ m.windowSpots nic s, x.isSome := by
    intro x hx
    rw [windowSpots_ok hs] at hx
    obtain ⟨i, -, rfl⟩ := List.mem_map.mp hx
    rfl
  have hbyte : m₀.byte? = poured m.byte? (m.windowSpots nic s) (data.take s.len.toNat) := by
    rw [hwrite, byte?_write hr hchunk hlen, windowSpots_ok hs, ← List.take_eq_take_min]
  rw [← List.drop_eq_drop_min] at hrest
  refine ⟨?_, fun x hx => ?_, ?_, fun nic sgl => (hrest.spots nic sgl).trans (hspots nic sgl)⟩
  · have hroom := hrest.room
    rw [hspots, List.length_drop] at hroom
    rw [spots_cons, List.length_append, length_windowSpots]
    omega
  · rw [spots_cons, List.take_append, length_windowSpots] at hx
    rcases List.mem_append.mp hx with hx | hx
    · exact hsome x (List.mem_of_mem_take hx)
    · rw [← hspots, ← List.length_drop] at hx
      exact hrest.valid x hx
  · rw [hrest.byte?, hspots, hbyte, spots_cons, poured_append _ hsome, length_windowSpots]

lemma filled_of_fill (h : m.fill nic sgl data = (m', .ok ()))
    (hroom : data.length ≤ LocalSlice.totalLen sgl) : Filled m m' nic sgl data := by
  induction sgl generalizing m data with
  | nil =>
    have hdata : data = [] := List.length_eq_zero_iff.mp (Nat.le_zero.mp hroom)
    cases h
    rw [hdata]
    exact .nil _ nic []
  | cons s sgl ih =>
    cases data with
    | nil =>
      cases h
      exact .nil _ nic (s :: sgl)
    | cons b data =>
      rw [fill] at h
      split at h
      · cases h
      · rename_i id r off hs
        split at h
        · refine Filled.cons hs rfl (ih h ?_)
          simp only [LocalSlice.totalLen, List.map_cons, List.foldr_cons] at hroom ⊢
          rw [List.length_drop]
          omega
        · cases h

lemma filled_of_scatter (h : m.scatter nic sgl data = (m', .ok ())) :
    Filled m m' nic sgl data := by
  unfold scatter at h
  split at h
  · cases h
  · rename_i hroom
    exact filled_of_fill h (by omega)

lemma poured_of_notMem (content : Spot → Option UInt8) {xs : List (Option Spot)} (data : Bytes)
    {x : Spot} (hx : some x ∉ xs) : poured content xs data x = content x := by
  induction xs generalizing data content with
  | nil => rfl
  | cons y ys ih =>
    rw [List.mem_cons, not_or] at hx
    rcases y with - | y
    · rfl
    · cases data with
      | nil => rfl
      | cons b data =>
        have hne : x ≠ y := fun h => hx.1 (congrArg some h)
        rw [poured, ih _ data hx.2, Function.update_of_ne hne]

lemma map_poured (content : Spot → Option UInt8) {xs : List (Option Spot)} (hxs : xs.Nodup)
    (hsome : ∀ x ∈ xs.take data.length, x.isSome) (hroom : data.length ≤ xs.length) :
    (xs.take data.length).map (fun x => x.bind (poured content xs data)) = data.map some := by
  induction data generalizing content xs with
  | nil => rfl
  | cons b data ih =>
    cases xs with
    | nil => simp at hroom
    | cons x xs =>
      obtain ⟨x, rfl⟩ := Option.isSome_iff_exists.mp (hsome x (by simp))
      obtain ⟨hx, hxs⟩ := List.nodup_cons.mp hxs
      have hrest := ih (Function.update content x (some b)) hxs
        (fun y hy => hsome y (by simp [hy])) (by simpa using hroom)
      rw [List.length_cons, List.take_succ_cons, List.map_cons, poured, List.map_cons, hrest,
        Option.bind_some, poured_of_notMem _ data hx, Function.update_self]

lemma Filled.contents (h : Filled m m' nic sgl data) (hnodup : (m.spots nic sgl).Nodup) :
    (m'.contents nic sgl).take data.length = data.map some := by
  rw [Memory.contents, h.spots, h.byte?, ← List.map_take]
  exact map_poured m.byte? hnodup h.valid h.room

lemma fill_error {e : Status} (h : (m.fill nic sgl data).2 = .error e) : e = .locProtErr := by
  induction sgl generalizing m data with
  | nil => cases h
  | cons s sgl ih =>
    cases data with
    | nil => cases h
    | cons b data =>
      rw [fill] at h
      split at h
      · rename_i hs
        cases h
        exact resolveLocal_error hs
      · split at h
        · exact ih h
        · cases h
          rfl

lemma scatter_error {e : Status} (h : (m.scatter nic sgl data).2 = .error e) :
    e = .locLenErr ∨ e = .locProtErr := by
  unfold scatter at h
  split at h
  · cases h
    exact Or.inl rfl
  · exact Or.inr (fill_error h)

lemma scatter_error_of_le {e : Status} (hroom : data.length ≤ LocalSlice.totalLen sgl)
    (h : (m.scatter nic sgl data).2 = .error e) : e = .locProtErr := by
  rw [scatter, if_neg (Nat.not_lt.mpr hroom)] at h
  exact fill_error h

end Memory

end Verbs
