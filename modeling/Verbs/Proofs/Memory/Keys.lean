import Mathlib.Tactic
import Verbs.Proofs.Memory.Access

/-!
Keys and the regions that go by them. Both keys of a region are kept in one table for the whole
memory, so that a key that is given out twice, or removed with a region that it is not of, would
lead into memory that its holder was never told about. The keys of an adapter are counted upwards:
those in the table are the keys of the regions that there are, and all lie below the counter.
-/

namespace Verbs.Memory

variable {m m' : Memory} {nic nic' : NicId} {key : UInt32} {id : RegionId} {r : Region}
  {bound : Nat}

/-- A region of an adapter goes by a key, which may be its local or its remote one. -/
structure GoesBy (m : Memory) (nic : NicId) (key : UInt32) (id : RegionId) (r : Region) : Prop where
  found : m.regions.get? id = some r
  nic : r.nic = nic
  key : r.lkey = key ∨ r.rkey = key

/-- The keys of an adapter, all of them below a bound, lead to the regions that go by them. -/
structure Exact (m : Memory) (nic : NicId) (bound : Nat) : Prop where
  named : ∀ key id, m.keys.get? (nic, key) = some id ↔ ∃ r, m.GoesBy nic key id r
  pair : ∀ id r, m.regions.get? id = some r → r.nic = nic →
    0 < r.lkey.toNat ∧ r.rkey.toNat = r.lkey.toNat + 1 ∧ r.rkey.toNat < bound

/-- A key that leads nowhere any more: no list of windows is valid if one of them, of whatever
length, names it as the local key, and no peer gets access with it as the remote key. -/
structure Revoked (m : Memory) (nic : NicId) (key : UInt32) : Prop where
  lookup : m.lookup nic key = none
  gather : ∀ sgl : List LocalSlice, ∀ s ∈ sgl, s.lkey = key →
    m.gather nic sgl = .error .locProtErr
  resolveRemote : ∀ s : RemoteSlice, s.rkey = key → ∀ len perm,
    m.resolveRemote nic s len perm = .error .remAccessErr
  readRemote : ∀ s : RemoteSlice, s.rkey = key → ∀ len,
    m.readRemote nic s len = .error .remAccessErr
  writeRemote : ∀ s : RemoteSlice, s.rkey = key → ∀ data,
    m.writeRemote nic s data = .error .remAccessErr
  updateRemote : ∀ s : RemoteSlice, s.rkey = key → ∀ f,
    m.updateRemote nic s f = .error .remAccessErr

/-! ### Looking keys up -/

/-- What a window leads to depends on what its key is looked up as, and on nothing else of the
memory. -/
lemma resolveLocal_congr {s : LocalSlice} (h : m'.lookup nic s.lkey = m.lookup nic s.lkey) :
    m'.resolveLocal nic s = m.resolveLocal nic s := by
  unfold resolveLocal
  rw [h]

lemma resolveRemote_congr {s : RemoteSlice} (h : m'.lookup nic s.rkey = m.lookup nic s.rkey)
    (len : Nat) (perm : Permission) :
    m'.resolveRemote nic s len perm = m.resolveRemote nic s len perm := by
  unfold resolveRemote
  rw [h]

lemma gather_of_lookup_none {s : LocalSlice} (h : m.lookup nic s.lkey = none) :
    ∀ {sgl : List LocalSlice}, s ∈ sgl → m.gather nic sgl = .error .locProtErr
  | t :: rest, hs => by
    rcases ht : m.resolveLocal nic t with e | ⟨id, r, off⟩
    · rw [gather, ht, resolveLocal_error ht]
      rfl
    · rcases List.mem_cons.mp hs with rfl | hs
      · simp [resolveLocal, h] at ht
      · rw [gather, ht, gather_of_lookup_none h hs]
        rfl

lemma revoked_of_lookup_none (h : m.lookup nic key = none) : m.Revoked nic key := by
  have hremote : ∀ s : RemoteSlice, s.rkey = key → ∀ len perm,
      m.resolveRemote nic s len perm = .error .remAccessErr := by
    rintro s rfl len perm
    simp [resolveRemote, h]
  refine ⟨h, ?_, hremote, fun s hs len => ?_, fun s hs data => ?_, fun s hs f => ?_⟩
  · rintro sgl s hs rfl
    exact gather_of_lookup_none h hs
  · rw [readRemote, hremote s hs]
    rfl
  · rw [writeRemote, hremote s hs]
    rfl
  · rw [updateRemote, hremote s hs]
    rfl

/-! ### Registering and deregistering -/

lemma keys_insert (m : Memory) (id : RegionId) (r : Region) (nic : NicId) (key : UInt32) :
    (m.insert id r).keys.get? (nic, key) =
      if r.nic = nic ∧ (r.lkey = key ∨ r.rkey = key) then some id else m.keys.get? (nic, key) := by
  simp only [insert, Table.get?_set, Prod.mk.injEq, eq_comm (a := nic), eq_comm (a := key)]
  split_ifs <;> simp_all

lemma goesBy_insert {j : RegionId} {r' : Region} :
    (m.insert id r).GoesBy nic key j r' ↔ (j = id ∧ r' = r ∧ r.nic = nic ∧
      (r.lkey = key ∨ r.rkey = key)) ∨ (j ≠ id ∧ m.GoesBy nic key j r') := by
  have hregions : (m.insert id r).regions.get? j = if j = id then some r else m.regions.get? j :=
    Table.get?_set ..
  by_cases hj : j = id
  · rw [if_pos hj] at hregions
    constructor
    · rintro ⟨hr', hnic, hkey⟩
      cases hregions.symm.trans hr'
      exact Or.inl ⟨hj, rfl, hnic, hkey⟩
    · rintro (⟨-, rfl, hnic, hkey⟩ | ⟨hne, -⟩)
      · exact ⟨hregions, hnic, hkey⟩
      · exact absurd hj hne
  · rw [if_neg hj] at hregions
    constructor
    · rintro ⟨hr', hnic, hkey⟩
      exact Or.inr ⟨hj, hregions ▸ hr', hnic, hkey⟩
    · rintro (⟨hj', -⟩ | ⟨-, hr', hnic, hkey⟩)
      · exact absurd hj' hj
      · exact ⟨hregions ▸ hr', hnic, hkey⟩

lemma keys_remove (hr : m.regions.get? id = some r) (nic : NicId) (key : UInt32) :
    (m.remove id).keys.get? (nic, key) =
      if r.nic = nic ∧ (r.lkey = key ∨ r.rkey = key) then none else m.keys.get? (nic, key) := by
  simp only [remove, hr, Table.get?_erase, Prod.mk.injEq, eq_comm (a := nic), eq_comm (a := key)]
  split_ifs <;> simp_all

lemma goesBy_remove {j : RegionId} {r' : Region} :
    (m.remove id).GoesBy nic key j r' ↔ j ≠ id ∧ m.GoesBy nic key j r' := by
  rcases hr : m.regions.get? id with - | r
  · simp only [remove, hr]
    constructor
    · intro h
      refine ⟨?_, h⟩
      rintro rfl
      cases hr.symm.trans h.found
    · exact fun h => h.2
  · have hregions : (m.remove id).regions.get? j =
        if j = id then none else m.regions.get? j := by
      simp only [remove, hr, Table.get?_erase]
    by_cases hj : j = id
    · rw [if_pos hj] at hregions
      refine ⟨fun h => ?_, fun h => absurd hj h.1⟩
      cases hregions.symm.trans h.found
    · rw [if_neg hj] at hregions
      exact ⟨fun h => ⟨hj, hregions ▸ h.found, h.nic, h.key⟩,
        fun h => ⟨hregions ▸ h.2.found, h.2.nic, h.2.key⟩⟩

lemma lookup_remove (hk : m.Keyed) (h : m.Exact nic bound) (hr : m.regions.get? id = some r)
    (hnic : r.nic = nic) (hkey : nic' = nic → r.lkey ≠ key ∧ r.rkey ≠ key) :
    (m.remove id).lookup nic' key = m.lookup nic' key := by
  have hkeys : (m.remove id).keys.get? (nic', key) = m.keys.get? (nic', key) := by
    rw [keys_remove hr, if_neg]
    rintro ⟨hnic', h | h⟩
    · exact (hkey (hnic'.symm.trans hnic)).1 h
    · exact (hkey (hnic'.symm.trans hnic)).2 h
  rcases hj : m.keys.get? (nic', key) with - | j
  · simp [lookup, hkeys, hj]
  · have hne : j ≠ id := by
      rintro rfl
      have hnic' : nic' = nic := (hk nic' key j r hj hr).symm.trans hnic
      obtain ⟨r', hr'⟩ := (h.named key j).mp (hnic' ▸ hj)
      cases hr.symm.trans hr'.found
      rcases hr'.key with h | h
      · exact (hkey hnic').1 h
      · exact (hkey hnic').2 h
    have hregions : (m.remove id).regions.get? j = m.regions.get? j := by
      simp only [remove, hr, Table.get?_erase, if_neg hne]
    simp [lookup, hkeys, hj, hregions]

namespace Exact

lemma lookup_iff (h : m.Exact nic bound) :
    m.lookup nic key = some (id, r) ↔ m.GoesBy nic key id r := by
  constructor
  · intro hlookup
    have hr := regions_of_lookup hlookup
    obtain ⟨r', hr'⟩ := (h.named key id).mp (keys_of_lookup hlookup)
    cases hr.symm.trans hr'.found
    exact hr'
  · intro hr
    simp [lookup, (h.named key id).mpr ⟨r, hr⟩, hr.found]

lemma resolveLocal_iff (h : m.Exact nic bound) {s : LocalSlice} {off : Nat} :
    m.resolveLocal nic s = .ok (id, r, off) ↔ m.regions.get? id = some r ∧ r.nic = nic ∧
      r.lkey = s.lkey ∧ r.offsetOf s.addr s.len.toNat = some off := by
  constructor
  · intro hs
    obtain ⟨hlookup, hkey, hoff⟩ := resolveLocal_eq_ok hs
    have hr := h.lookup_iff.mp hlookup
    exact ⟨hr.found, hr.nic, hkey, hoff⟩
  · rintro ⟨hr, hnic, hkey, hoff⟩
    simp [resolveLocal, h.lookup_iff.mpr ⟨hr, hnic, Or.inl hkey⟩, hkey, hoff]

lemma resolveRemote_iff (h : m.Exact nic bound) {s : RemoteSlice} {len off : Nat}
    {perm : Permission} :
    m.resolveRemote nic s len perm = .ok (id, r, off) ↔ m.regions.get? id = some r ∧ r.nic = nic ∧
      r.rkey = s.rkey ∧ len ≤ s.len.toNat ∧ r.perm.contains perm ∧
      r.offsetOf s.addr len = some off := by
  constructor
  · intro hs
    obtain ⟨hlen, hlookup, hkey, hperm, hoff⟩ := resolveRemote_eq_ok hs
    have hr := h.lookup_iff.mp hlookup
    exact ⟨hr.found, hr.nic, hkey, hlen, hperm, hoff⟩
  · rintro ⟨hr, hnic, hkey, hlen, hperm, hoff⟩
    simp [resolveRemote, h.lookup_iff.mpr ⟨hr, hnic, Or.inr hkey⟩, hkey, hperm, hoff,
      Nat.not_lt.mpr hlen]

lemma same (h : m.Exact nic bound) (hs : SameRegions m m') : m'.Exact nic bound := by
  refine ⟨fun key id => ?_, fun id r hr hnic => ?_⟩
  · rw [hs.keys, h.named]
    constructor
    · rintro ⟨r, hr, hnic, hkey⟩
      obtain ⟨r', hr', hblank⟩ := hs.symm.get? hr
      obtain ⟨hnic', -, -, hl, hrk, -⟩ := Region.eq_of_blank hblank
      exact ⟨r', hr', hnic'.trans hnic, by rwa [hl, hrk]⟩
    · rintro ⟨r, hr, hnic, hkey⟩
      obtain ⟨r', hr', hblank⟩ := hs.get? hr
      obtain ⟨hnic', -, -, hl, hrk, -⟩ := Region.eq_of_blank hblank
      exact ⟨r', hr', hnic'.trans hnic, by rwa [hl, hrk]⟩
  · obtain ⟨r', hr', hblank⟩ := hs.get? hr
    obtain ⟨hnic', -, -, hl, hrk, -⟩ := Region.eq_of_blank hblank
    rw [← hl, ← hrk]
    exact h.pair id r' hr' (hnic'.trans hnic)

lemma keys_eq_none (h : m.Exact nic bound) (hkey : bound ≤ key.toNat) :
    m.keys.get? (nic, key) = none := by
  by_contra hsome
  obtain ⟨id, hid⟩ := Option.ne_none_iff_exists'.mp hsome
  obtain ⟨r, hr⟩ := (h.named key id).mp hid
  have hpair := h.pair id r hr.found hr.nic
  rcases hr.key with rfl | rfl <;> omega

lemma named_insert (h : m.Exact nic bound) (hid : m.regions.get? id = none)
    (hfree : r.nic = nic → ∀ key, r.lkey = key ∨ r.rkey = key → m.keys.get? (nic, key) = none)
    (key : UInt32) (j : RegionId) :
    (m.insert id r).keys.get? (nic, key) = some j ↔
      ∃ r', (m.insert id r).GoesBy nic key j r' := by
  have hgoes : (∃ r', (m.insert id r).GoesBy nic key j r') ↔
      (j = id ∧ r.nic = nic ∧ (r.lkey = key ∨ r.rkey = key)) ∨
        m.keys.get? (nic, key) = some j := by
    simp only [goesBy_insert, h.named]
    constructor
    · rintro ⟨r', ⟨hj, -, hr⟩ | ⟨-, hr'⟩⟩
      · exact Or.inl ⟨hj, hr⟩
      · exact Or.inr ⟨r', hr'⟩
    · rintro (⟨hj, hr⟩ | ⟨r', hr'⟩)
      · exact ⟨r, Or.inl ⟨hj, rfl, hr⟩⟩
      · refine ⟨r', Or.inr ⟨?_, hr'⟩⟩
        rintro rfl
        cases hid.symm.trans hr'.found
  rw [hgoes, keys_insert]
  split
  · rename_i hr
    rw [hfree hr.1 key hr.2]
    simp only [Option.some.injEq, and_iff_left hr, reduceCtorEq, or_false, eq_comm (a := id)]
  · rename_i hr
    simp [hr]

lemma insert (h : m.Exact nic bound) (hid : m.regions.get? id = none) (hbound : 0 < bound)
    (hlkey : r.lkey.toNat = bound) (hrkey : r.rkey.toNat = bound + 1) :
    (m.insert id r).Exact nic (bound + 2) := by
  refine ⟨h.named_insert hid fun _ key hkey => h.keys_eq_none ?_, fun j r' hr' hnic' => ?_⟩
  · rcases hkey with rfl | rfl <;> omega
  · rcases goesBy_insert.mp ⟨hr', hnic', Or.inl rfl⟩ with ⟨-, rfl, -⟩ | ⟨-, hr'⟩
    · omega
    · have hpair := h.pair j r' hr'.found hnic'
      omega

lemma insert_other (h : m.Exact nic bound) (hid : m.regions.get? id = none) (hnic : r.nic ≠ nic) :
    (m.insert id r).Exact nic bound := by
  refine ⟨h.named_insert hid fun heq => absurd heq hnic, fun j r' hr' hnic' => ?_⟩
  rcases goesBy_insert.mp ⟨hr', hnic', Or.inl rfl⟩ with ⟨-, -, heq, -⟩ | ⟨-, hr'⟩
  · exact absurd heq hnic
  · exact h.pair j r' hr'.found hnic'

lemma remove (h : m.Exact nic bound) (id : RegionId) : (m.remove id).Exact nic bound := by
  refine ⟨fun key j => ?_, fun j r' hr' hnic' =>
    h.pair j r' (goesBy_remove.mp ⟨hr', hnic', Or.inl rfl⟩).2.found hnic'⟩
  simp only [goesBy_remove]
  rcases hr : m.regions.get? id with - | r
  · have hremove : m.remove id = m := by simp only [Memory.remove, hr]
    rw [hremove, h.named]
    refine exists_congr fun r' => ⟨fun hr' => ⟨?_, hr'⟩, fun hr' => hr'.2⟩
    rintro rfl
    cases hr.symm.trans hr'.found
  · rw [keys_remove hr]
    split
    · rename_i hkey
      have hid := (h.named key id).mpr ⟨r, hr, hkey.1, hkey.2⟩
      constructor
      · intro hj
        cases hj
      · rintro ⟨r', hne, hr'⟩
        cases hid.symm.trans ((h.named key j).mpr ⟨r', hr'⟩)
        exact absurd rfl hne
    · rename_i hkey
      rw [h.named]
      refine exists_congr fun r' => ⟨fun hr' => ⟨?_, hr'⟩, fun hr' => hr'.2⟩
      rintro rfl
      cases hr.symm.trans hr'.found
      exact hkey ⟨hr'.nic, hr'.key⟩

end Exact

end Verbs.Memory
