import Mathlib.Tactic
import Verbs.Proofs.Memory.Access

/-!
Scattering and gathering on one list of windows. Scattering goes through the list once, cuts off the
data what the next window takes, and stops at the first window that it reaches and may not write to.
So it ends in one of three ways, and each leaves the data, or the part of it that was cut off by
then, in the windows up to there. From windows that keep off each other it can be read back, with
what they held before behind it.
-/

namespace Verbs

namespace Memory

variable {m m' : Memory} {nic : NicId} {s : LocalSlice} {sgl : List LocalSlice} {data : Bytes}
  {id : RegionId} {r : Region} {off : Nat} {x : Spot}

def Writable (m : Memory) (nic : NicId) (s : LocalSlice) : Prop :=
  ∃ id r off, m.resolveLocal nic s = .ok (id, r, off) ∧ r.perm.contains .localWrite

/-- Windows that may be written to, and keep off each other. -/
structure Separate (m : Memory) (nic : NicId) (sgl : List LocalSlice) : Prop where
  writable : ∀ s ∈ sgl, m.Writable nic s
  disjoint : sgl.Pairwise fun s t => ∀ y ∈ m.windowSpots nic s, y ∉ m.windowSpots nic t

/-- The data reaches a window that may not be written to, behind some that may be. -/
structure Barred (m : Memory) (nic : NicId) (sgl : List LocalSlice) (data : Bytes)
    (before : List LocalSlice) (s : LocalSlice) : Prop where
  split : ∃ after, sgl = before ++ s :: after
  writable : ∀ t ∈ before, m.Writable nic t
  stuck : ¬ m.Writable nic s
  reached : LocalSlice.totalLen before < data.length

/-- How scattering ends, when the data is not too long for the windows. -/
inductive Scattered (m : Memory) (nic : NicId) (sgl : List LocalSlice) (data : Bytes) :
    Memory × Except Status Unit → Prop
  | done {m' : Memory} (clear : ∀ before s, ¬ m.Barred nic sgl data before s)
      (filled : Filled m m' nic sgl data) : Scattered m nic sgl data (m', .ok ())
  | stopped {m' : Memory} {before : List LocalSlice} {s : LocalSlice}
      (barred : m.Barred nic sgl data before s)
      (filled : Filled m m' nic before (data.take (LocalSlice.totalLen before))) :
      Scattered m nic sgl data (m', .error .locProtErr)

instance (m : Memory) (nic : NicId) (s : LocalSlice) : Decidable (m.Writable nic s) :=
  match h : m.resolveLocal nic s with
  | .ok (id, r, off) =>
    if hperm : r.perm.contains .localWrite then .isTrue ⟨id, r, off, h, hperm⟩
    else .isFalse fun ⟨_, _, _, h', hperm'⟩ => by
      cases h.symm.trans h'
      exact hperm hperm'
  | .error _ => .isFalse fun ⟨_, _, _, h', _⟩ => nomatch h.symm.trans h'

/-! ### Windows -/

namespace SameRegions

lemma resolveLocal (h : SameRegions m m') (hs : m.resolveLocal nic s = .ok (id, r, off)) :
    ∃ r', m'.resolveLocal nic s = .ok (id, r', off) ∧ r'.blank = r.blank := by
  obtain ⟨hlookup, hkey, hoff⟩ := resolveLocal_eq_ok hs
  obtain ⟨r', hr', hblank⟩ := h.symm.get? (regions_of_lookup hlookup)
  obtain ⟨-, hbase, hlength, hlkey, -, -⟩ := Region.eq_of_blank hblank
  have hlookup' : m'.lookup nic s.lkey = some (id, r') := by
    simp [lookup, h.keys, keys_of_lookup hlookup, hr']
  have hoff' : r'.offsetOf s.addr s.len.toNat = some off := by
    rw [← hoff, Region.offsetOf, Region.offsetOf, hbase, hlength]
  refine ⟨r', ?_, hblank⟩
  simp only [Memory.resolveLocal, hlookup', hlkey, hkey, if_true, hoff']

lemma writable (h : SameRegions m m') (hs : m.Writable nic s) : m'.Writable nic s := by
  obtain ⟨id, r, off, hresolve, hperm⟩ := hs
  obtain ⟨r', hresolve', hblank⟩ := h.resolveLocal hresolve
  obtain ⟨-, -, -, -, -, hperm'⟩ := Region.eq_of_blank hblank
  exact ⟨id, r', off, hresolve', hperm' ▸ hperm⟩

end SameRegions

lemma gather_ok (h : ∀ s ∈ sgl, m.Writable nic s) : ∃ data, m.gather nic sgl = .ok data := by
  induction sgl with
  | nil => exact ⟨[], rfl⟩
  | cons s sgl ih =>
    obtain ⟨id, r, off, hs, -⟩ := h s List.mem_cons_self
    obtain ⟨data, hdata⟩ := ih fun t ht => h t (List.mem_cons_of_mem s ht)
    exact ⟨r.read off s.len.toNat ++ data, by rw [gather, hs, hdata]; rfl⟩

lemma Separate.nodup (h : m.Separate nic sgl) : (m.spots nic sgl).Nodup := by
  refine List.nodup_flatMap.mpr ⟨fun s hs => ?_, h.disjoint.imp fun hst y hy => hst y hy⟩
  obtain ⟨id, r, off, hresolve, -⟩ := h.writable s hs
  rw [windowSpots_ok hresolve]
  refine List.Nodup.map (fun i j hij => ?_) List.nodup_range'
  exact congrArg Prod.snd (Option.some.inj hij)

lemma totalLen_cons (s : LocalSlice) (sgl : List LocalSlice) :
    LocalSlice.totalLen (s :: sgl) = s.len.toNat + LocalSlice.totalLen sgl := rfl

/-! ### One window after another -/

lemma fill_of_writable (hs : m.Writable nic s) (hdata : data ≠ []) (sgl : List LocalSlice) :
    ∃ m₀ id r off, m.resolveLocal nic s = .ok (id, r, off) ∧
      m₀ = { m with regions := m.regions.set id (r.write off (data.take s.len.toNat)) } ∧
      SameRegions m m₀ ∧ m.fill nic (s :: sgl) data = m₀.fill nic sgl (data.drop s.len.toNat) := by
  obtain ⟨id, r, off, hresolve, hperm⟩ := hs
  obtain ⟨hr, hlen⟩ := resolveLocal_ok hresolve
  have hroom : off + (data.take s.len.toNat).length ≤ r.bytes.length := by
    rw [List.length_take]
    omega
  refine ⟨_, id, r, off, hresolve, rfl, (write_confined hr hroom).same, ?_⟩
  obtain ⟨b, data, rfl⟩ := List.exists_cons_of_ne_nil hdata
  simp only [fill, hresolve, hperm, if_true, ← List.take_eq_take_min, ← List.drop_eq_drop_min]

lemma fill_of_not_writable (hs : ¬ m.Writable nic s) (hdata : data ≠ []) (sgl : List LocalSlice) :
    m.fill nic (s :: sgl) data = (m, .error .locProtErr) := by
  obtain ⟨b, data, rfl⟩ := List.exists_cons_of_ne_nil hdata
  rw [fill]
  split
  · rename_i hresolve
    rw [resolveLocal_error hresolve]
  · rename_i id r off hresolve
    exact if_neg fun hperm => hs ⟨id, r, off, hresolve, hperm⟩

lemma fill_same (m : Memory) (nic : NicId) (sgl : List LocalSlice) (data : Bytes) :
    SameRegions m (m.fill nic sgl data).1 := by
  induction sgl generalizing m data with
  | nil => exact .refl m
  | cons s sgl ih =>
    by_cases hdata : data = []
    · rw [hdata]
      exact .refl m
    · by_cases hs : m.Writable nic s
      · obtain ⟨m₀, -, -, -, -, -, hsame, hfill⟩ := fill_of_writable hs hdata sgl
        rw [hfill]
        exact hsame.trans (ih m₀ _)
      · rw [fill_of_not_writable hs hdata]
        exact .refl m

lemma scatter_same (m : Memory) (nic : NicId) (sgl : List LocalSlice) (data : Bytes) :
    SameRegions m (m.scatter nic sgl data).1 := by
  unfold scatter
  split
  · exact .refl m
  · exact fill_same m nic sgl data

/-! ### How scattering ends -/

lemma not_barred_nil (before : List LocalSlice) (t : LocalSlice) :
    ¬ m.Barred nic sgl [] before t :=
  fun h => Nat.not_lt_zero _ h.reached

lemma barred_nil_iff {t : LocalSlice} :
    m.Barred nic (s :: sgl) data [] t ↔ t = s ∧ ¬ m.Writable nic s ∧ data ≠ [] := by
  constructor
  · rintro ⟨⟨after, hsplit⟩, -, hstuck, hreached⟩
    cases hsplit
    exact ⟨rfl, hstuck, List.ne_nil_of_length_pos hreached⟩
  · rintro ⟨rfl, hstuck, hdata⟩
    exact ⟨⟨sgl, rfl⟩, by simp, hstuck, List.length_pos_of_ne_nil hdata⟩

lemma barred_cons_iff {m₀ : Memory} {before : List LocalSlice} {t : LocalSlice}
    (hs : m.Writable nic s) (hsame : SameRegions m m₀) :
    m.Barred nic (s :: sgl) data (s :: before) t ↔
      m₀.Barred nic sgl (data.drop s.len.toNat) before t := by
  constructor
  · rintro ⟨⟨after, hsplit⟩, hwritable, hstuck, hreached⟩
    refine ⟨⟨after, List.tail_eq_of_cons_eq hsplit⟩,
      fun u hu => hsame.writable (hwritable u (List.mem_cons_of_mem s hu)),
      fun ht => hstuck (hsame.symm.writable ht), ?_⟩
    rw [totalLen_cons] at hreached
    rw [List.length_drop]
    omega
  · rintro ⟨⟨after, rfl⟩, hwritable, hstuck, hreached⟩
    refine ⟨⟨after, rfl⟩, ?_, fun ht => hstuck (hsame.writable ht), ?_⟩
    · intro u hu
      rcases List.mem_cons.mp hu with rfl | hu
      · exact hs
      · exact hsame.symm.writable (hwritable u hu)
    · rw [List.length_drop] at hreached
      rw [totalLen_cons]
      omega

/-- Data that is not too long fills the windows, or those before one that bars it. -/
lemma fill_scattered (m : Memory) (nic : NicId) (sgl : List LocalSlice) (data : Bytes)
    (hroom : data.length ≤ LocalSlice.totalLen sgl) :
    Scattered m nic sgl data (m.fill nic sgl data) := by
  -- along the list: what is left of the data meets what is left of the list
  induction sgl generalizing m data with
  | nil =>
    have hdata : data = [] := List.length_eq_zero_iff.mp (Nat.le_zero.mp hroom)
    rw [hdata]
    exact .done not_barred_nil (.nil m nic [])
  | cons s sgl ih =>
    by_cases hdata : data = []
    · rw [hdata]
      exact .done not_barred_nil (.nil m nic (s :: sgl))
    · by_cases hs : m.Writable nic s
      · obtain ⟨m₀, id, r, off, hresolve, hwrite, hsame, hfill⟩ := fill_of_writable hs hdata sgl
        rw [totalLen_cons] at hroom
        have hrest := ih m₀ (data.drop s.len.toNat) (by
          rw [List.length_drop]
          omega)
        rw [hfill]
        generalize m₀.fill nic sgl (data.drop s.len.toNat) = after at hrest
        rw [List.take_eq_take_min] at hwrite
        cases hrest with
        | done clear filled =>
          rw [List.drop_eq_drop_min] at filled
          refine .done (fun before t hbarred => ?_) (.cons hresolve hwrite filled)
          cases before with
          | nil => exact (barred_nil_iff.mp hbarred).2.1 hs
          | cons u before =>
            obtain ⟨after, hsplit⟩ := hbarred.split
            obtain rfl : s = u := List.head_eq_of_cons_eq hsplit
            exact clear before t ((barred_cons_iff hs hsame).mp hbarred)
        | @stopped m' before t barred filled =>
          -- the first window takes as much of the whole data as of the part that goes in
          have htake : (data.take (LocalSlice.totalLen (s :: before))).take s.len.toNat =
              data.take s.len.toNat := by
            rw [List.take_take, totalLen_cons, Nat.min_eq_left (Nat.le_add_right _ _)]
          have hdrop : (data.take (LocalSlice.totalLen (s :: before))).drop s.len.toNat =
              (data.drop s.len.toNat).take (LocalSlice.totalLen before) := by
            rw [List.drop_take, totalLen_cons, Nat.add_sub_cancel_left]
          rw [← List.take_eq_take_min, ← htake, List.take_eq_take_min] at hwrite
          rw [← hdrop, List.drop_eq_drop_min] at filled
          exact .stopped ((barred_cons_iff hs hsame).mpr barred) (.cons hresolve hwrite filled)
      · rw [fill_of_not_writable hs hdata]
        exact .stopped (barred_nil_iff.mpr ⟨rfl, hs, hdata⟩) (.nil m nic [])

/-! ### What the windows hold afterwards -/

lemma poured_take (content : Spot → Option UInt8) (xs : List (Option Spot)) (data : Bytes) :
    poured content (xs.take data.length) data = poured content xs data := by
  induction xs generalizing content data with
  | nil => rw [List.take_nil]
  | cons y ys ih =>
    cases data with
    | nil => cases y <;> rfl
    | cons b data =>
      rw [List.length_cons, List.take_succ_cons]
      cases y with
      | none => rfl
      | some y => exact ih _ data

lemma Filled.byte?_of_notMem (h : Filled m m' nic sgl data)
    (hx : some x ∉ (m.spots nic sgl).take data.length) : m'.byte? x = m.byte? x := by
  rw [h.byte?, ← poured_take, poured_of_notMem _ data hx]

lemma Filled.gather {held : Bytes} (h : Filled m m' nic sgl data) (hsame : SameRegions m m')
    (hsgl : m.Separate nic sgl) (hheld : m.gather nic sgl = .ok held) :
    m'.gather nic sgl = .ok (data ++ held.drop data.length) := by
  obtain ⟨back, hback⟩ := gather_ok fun s hs => hsame.writable (hsgl.writable s hs)
  have hfront : (m'.contents nic sgl).take data.length = data.map some := h.contents hsgl.nodup
  have hrest : (m'.contents nic sgl).drop data.length = (m.contents nic sgl).drop data.length := by
    rw [Memory.contents, Memory.contents, h.spots, ← List.map_drop, ← List.map_drop]
    refine List.map_congr_left fun y hy => ?_
    cases y with
    | none => rfl
    | some y =>
      -- no spot behind the data is also one of those that it goes to
      refine h.byte?_of_notMem fun hy' => ?_
      exact List.disjoint_take_drop hsgl.nodup le_rfl hy' hy
  have hcontents : back.map some = (data ++ held.drop data.length).map some := by
    rw [← contents_of_gather hback, ← List.take_append_drop data.length (m'.contents nic sgl),
      hfront, hrest, contents_of_gather hheld, List.map_append, List.map_drop]
  rw [hback, List.map_injective_iff.mpr (Option.some_injective _) hcontents]

lemma Filled.gather_full (h : Filled m m' nic sgl data) (hsame : SameRegions m m')
    (hsgl : m.Separate nic sgl) (hlength : data.length = LocalSlice.totalLen sgl) :
    m'.gather nic sgl = .ok data := by
  obtain ⟨held, hheld⟩ := gather_ok hsgl.writable
  have hnone : held.drop data.length = [] := by
    rw [hlength, ← length_of_gather hheld, List.drop_length]
  rw [h.gather hsame hsgl hheld, hnone, List.append_nil]

/-! ### Scattering and gathering -/

lemma scatter_cases (m : Memory) (nic : NicId) (sgl : List LocalSlice) (data : Bytes) :
    LocalSlice.totalLen sgl < data.length ∧ m.scatter nic sgl data = (m, .error .locLenErr) ∨
      data.length ≤ LocalSlice.totalLen sgl ∧
        Scattered m nic sgl data (m.scatter nic sgl data) := by
  unfold scatter
  split
  · rename_i hlong
    exact Or.inl ⟨hlong, rfl⟩
  · rename_i hroom
    rw [Nat.not_lt] at hroom
    exact Or.inr ⟨hroom, fill_scattered m nic sgl data hroom⟩

lemma scatter_separate (hsgl : m.Separate nic sgl)
    (hroom : data.length ≤ LocalSlice.totalLen sgl) :
    ∃ m', m.scatter nic sgl data = (m', .ok ()) ∧ Filled m m' nic sgl data ∧ SameRegions m m' := by
  have hsame := scatter_same m nic sgl data
  rcases scatter_cases m nic sgl data with ⟨hlong, -⟩ | ⟨-, hscattered⟩
  · exact absurd hroom (Nat.not_le_of_gt hlong)
  · generalize m.scatter nic sgl data = result at hsame hscattered
    cases hscattered with
    | @done m' clear filled => exact ⟨m', rfl, filled, hsame⟩
    | @stopped m' before s barred filled =>
      obtain ⟨after, hsplit⟩ := barred.split
      have hs : s ∈ sgl := hsplit ▸ List.mem_append_right before List.mem_cons_self
      exact absurd (hsgl.writable s hs) barred.stuck

/-- **What is scattered can be gathered.** Into windows that may be written to and keep off each
other, scattering puts all data that is not longer than they are: gathering then yields it and
behind it what the windows held there, and no other byte changes. Whatever the windows are, only
data that is longer fails with a length error, and changes nothing. Any other failure is a
protection error, at a window that may not be written to, and the windows before it have got their
part of the data. -/
theorem gather_scatter (m : Memory) (nic : NicId) (sgl : List LocalSlice) (data : Bytes) :
    (m.Separate nic sgl → data.length ≤ LocalSlice.totalLen sgl → ∃ held m',
      m.gather nic sgl = .ok held ∧ m.scatter nic sgl data = (m', .ok ()) ∧
      m'.gather nic sgl = .ok (data ++ held.drop data.length) ∧ SameRegions m m' ∧
      ∀ x, some x ∉ (m.spots nic sgl).take data.length → m'.byte? x = m.byte? x) ∧
    ((m.scatter nic sgl data).2 = .error .locLenErr ↔
      LocalSlice.totalLen sgl < data.length) ∧
    (LocalSlice.totalLen sgl < data.length → (m.scatter nic sgl data).1 = m) ∧
    ((m.scatter nic sgl data).2 = .ok () ↔
      data.length ≤ LocalSlice.totalLen sgl ∧ ∀ before s, ¬ m.Barred nic sgl data before s) ∧
    ∀ e, (m.scatter nic sgl data).2 = .error e → e ≠ .locLenErr →
      e = .locProtErr ∧ ∃ before s m', m.scatter nic sgl data = (m', .error .locProtErr) ∧
        m.Barred nic sgl data before s ∧ SameRegions m m' ∧
        Filled m m' nic before (data.take (LocalSlice.totalLen before)) ∧
        (m.Separate nic before →
          m'.gather nic before = .ok (data.take (LocalSlice.totalLen before))) := by
  refine ⟨fun hsgl hroom => ?_, ?_⟩
  · obtain ⟨held, hheld⟩ := gather_ok hsgl.writable
    obtain ⟨m', hscatter, hfilled, hsame⟩ := scatter_separate hsgl hroom
    exact ⟨held, m', hheld, hscatter, hfilled.gather hsame hsgl hheld, hsame,
      fun x hx => hfilled.byte?_of_notMem hx⟩
  · have hsame := scatter_same m nic sgl data
    rcases scatter_cases m nic sgl data with ⟨hlong, hscatter⟩ | ⟨hroom, hscattered⟩
    · rw [hscatter]
      refine ⟨⟨fun _ => hlong, fun _ => rfl⟩, fun _ => rfl,
        ⟨nofun, fun hclear => absurd hclear.1 (Nat.not_le_of_gt hlong)⟩, ?_⟩
      rintro e he hne
      cases he
      exact absurd rfl hne
    · have hnot : ¬ LocalSlice.totalLen sgl < data.length := Nat.not_lt_of_ge hroom
      generalize m.scatter nic sgl data = result at hsame hscattered
      cases hscattered with
      | @done m' clear filled =>
        exact ⟨⟨nofun, fun hlong => absurd hlong hnot⟩, fun hlong => absurd hlong hnot,
          ⟨fun _ => ⟨hroom, clear⟩, fun _ => rfl⟩, nofun⟩
      | @stopped m' before s barred filled =>
        refine ⟨⟨nofun, fun hlong => absurd hlong hnot⟩, fun hlong => absurd hlong hnot,
          ⟨nofun, fun hclear => absurd barred (hclear.2 before s)⟩, ?_⟩
        rintro e he -
        cases he
        refine ⟨rfl, before, s, m', rfl, barred, hsame, filled, fun hbefore => ?_⟩
        exact filled.gather_full hsame hbefore
          (List.length_take_of_le (Nat.le_of_lt barred.reached))

def octet : Memory :=
  Memory.insert {} 0
    { nic := 0, base := 4096, bytes := [1, 2, 3, 4, 5, 6, 7, 8], lkey := 7, rkey := 8,
      perm := .localWrite }

def pieces : List LocalSlice := [⟨⟨4101, 3⟩, 7⟩, ⟨⟨4096, 0⟩, 7⟩, ⟨⟨4096, 2⟩, 7⟩]

def keyless : LocalSlice := ⟨⟨4098, 2⟩, 9⟩

/-- Four bytes end inside the last of the windows. Six go past it, and are stopped behind it. -/
theorem gather_scatter_pieces :
    (∃ m', octet.scatter 0 pieces [10, 11, 12, 13] = (m', .ok ()) ∧
      m'.gather 0 pieces = .ok [10, 11, 12, 13, 2]) ∧
    ∃ before s m', octet.scatter 0 (pieces ++ [keyless]) [10, 11, 12, 13, 14, 15] =
        (m', .error .locProtErr) ∧
      octet.Barred 0 (pieces ++ [keyless]) [10, 11, 12, 13, 14, 15] before s ∧
      Filled octet m' 0 before ([10, 11, 12, 13, 14, 15].take (LocalSlice.totalLen before)) := by
  obtain ⟨hfits, -, -, -, -⟩ := gather_scatter octet 0 pieces [10, 11, 12, 13]
  obtain ⟨-, -, -, -, hfails⟩ :=
    gather_scatter octet 0 (pieces ++ [keyless]) [10, 11, 12, 13, 14, 15]
  constructor
  · obtain ⟨held, m', hheld, hscatter, hback, -, -⟩ := hfits ⟨by decide, by decide⟩ (by decide)
    have heldBytes : octet.gather 0 pieces = .ok [6, 7, 8, 1, 2] := by decide
    cases heldBytes.symm.trans hheld
    exact ⟨m', hscatter, hback⟩
  · obtain ⟨-, before, s, m', hscatter, hbarred, -, hfilled, -⟩ :=
      hfails .locProtErr (by decide) (by decide)
    exact ⟨before, s, m', hscatter, hbarred, hfilled⟩

end Memory

end Verbs
