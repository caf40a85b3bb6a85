import Mathlib.Tactic
import Verbs.Device.Post
import Verbs.Proofs.Memory.Spots

/-!
Which bytes an operation may touch. A window leads to bytes only where its key is that of a region
of the adapter, the region allows the access and the whole window lies in it; addresses are summed
up without wrapping. All that operations write goes to such bytes, and all that they move comes from
such bytes.
-/

namespace Verbs

/-- The region with nothing in it: what writing leaves as it is. -/
def Region.blank (r : Region) : Region := { r with bytes := List.replicate r.bytes.length 0 }

/-- The byte at an offset lies in the window of `len` bytes at an address, and the window in the
region. -/
structure Region.Within (r : Region) (addr : UInt64) (len off : Nat) : Prop where
  start : r.base.toNat ≤ addr.toNat
  fits : addr.toNat + len ≤ r.base.toNat + r.bytes.length
  lower : addr.toNat ≤ r.base.toNat + off
  upper : r.base.toNat + off < addr.toNat + len

lemma Region.within_of_offsetOf {r : Region} {addr : UInt64} {len off i : Nat}
    (h : r.offsetOf addr len = some off) (hlower : off ≤ i) (hupper : i < off + len) :
    r.Within addr len i := by
  obtain ⟨hbase, rfl, hlen⟩ := Memory.offsetOf_eq_some h
  exact ⟨hbase, by omega, by omega, by omega⟩

lemma Region.eq_of_blank {r r' : Region} (h : r'.blank = r.blank) :
    r'.nic = r.nic ∧ r'.base = r.base ∧ r'.bytes.length = r.bytes.length ∧ r'.lkey = r.lkey ∧
      r'.rkey = r.rkey ∧ r'.perm = r.perm := by
  simp only [blank, Region.mk.injEq] at h
  obtain ⟨hnic, hbase, hbytes, hlkey, hrkey, hperm⟩ := h
  have hlength := congrArg List.length hbytes
  rw [List.length_replicate, List.length_replicate] at hlength
  exact ⟨hnic, hbase, hlength, hlkey, hrkey, hperm⟩

lemma Region.Within.congr {r r' : Region} {addr : UInt64} {len off : Nat}
    (h : r.Within addr len off) (hblank : r'.blank = r.blank) : r'.Within addr len off := by
  obtain ⟨-, hbase, hlength, -⟩ := eq_of_blank hblank
  exact ⟨hbase ▸ h.start, hlength ▸ hbase ▸ h.fits, hbase ▸ h.lower, hbase ▸ h.upper⟩

lemma Region.blank_write {r : Region} {off : Nat} {data : Bytes}
    (h : off + data.length ≤ r.bytes.length) : (r.write off data).blank = r.blank := by
  simp only [blank, write, Bytes.length_overwrite h]

@[simp] lemma Permission.contains_none (p : Permission) : p.contains .none = true := by
  simp [contains, none]

lemma Bytes.ofNatLE_toNatLE (bs : Bytes) : ofNatLE bs.length bs.toNatLE = bs := by
  induction bs with
  | nil => rfl
  | cons b bs ih =>
    have hlow : UInt8.ofNat (b.toNat + 256 * toNatLE bs) = b := by
      apply UInt8.toNat_inj.mp
      rw [UInt8.toNat_ofNat', Nat.add_mul_mod_self_left]
      exact Nat.mod_eq_of_lt b.toNat_lt
    have hhigh : (b.toNat + 256 * toNatLE bs) / 256 = toNatLE bs := by
      have := b.toNat_lt
      omega
    rw [List.length_cons, toNatLE, ofNatLE, hlow, hhigh, ih]

lemma Bytes.toNatLE_lt (bs : Bytes) : bs.toNatLE < 256 ^ bs.length := by
  induction bs with
  | nil => exact Nat.one_pos
  | cons b bs ih =>
    have := b.toNat_lt
    rw [toNatLE, List.length_cons, Nat.pow_succ]
    omega

lemma Region.ofNatLE_word {r : Region} {off : Nat} (h : off + 8 ≤ r.bytes.length) :
    Bytes.ofNatLE 8 (r.word off).toNat = r.read off 8 := by
  have hlength : (r.read off 8).length = 8 := by
    rw [read, Bytes.window, List.length_take, List.length_drop]
    omega
  have hlt := (r.read off 8).toNatLE_lt
  rw [hlength] at hlt
  have hword : (r.word off).toNat = (r.read off 8).toNatLE := by
    rw [word, UInt64.toNat_ofNat']
    exact Nat.mod_eq_of_lt (by simpa using hlt)
  have hbytes := (r.read off 8).ofNatLE_toNatLE
  rw [hlength] at hbytes
  rw [hword, hbytes]

namespace Memory

variable {m m' m'' : Memory} {nic peerNic : NicId} {s : LocalSlice} {sgl : List LocalSlice}
  {remote : RemoteSlice} {data : Bytes} {id : RegionId} {r : Region} {off len : Nat} {x : Spot}
  {perm : Permission} {op : SendOp} {P Q : Spot → Option UInt8 → Prop}

/-- The keys of an adapter name regions of the adapter. -/
def Keyed (m : Memory) : Prop :=
  ∀ nic key id r, m.keys.get? (nic, key) = some id → m.regions.get? id = some r → r.nic = nic

/-- A byte that a list of windows leads to, with an access that its region allows. -/
def LocalAccess (m : Memory) (nic : NicId) (sgl : List LocalSlice) (perm : Permission)
    (x : Spot) : Prop :=
  ∃ s ∈ sgl, ∃ r, m.regions.get? x.1 = some r ∧ r.nic = nic ∧ r.lkey = s.lkey ∧
    r.perm.contains perm ∧ r.Within s.addr s.len.toNat x.2

/-- A byte among the first `len` of a peer's window, with an access that its region allows. -/
def RemoteAccess (m : Memory) (nic : NicId) (remote : RemoteSlice) (len : Nat) (perm : Permission)
    (x : Spot) : Prop :=
  len ≤ remote.len.toNat ∧ ∃ r, m.regions.get? x.1 = some r ∧ r.nic = nic ∧
    r.rkey = remote.rkey ∧ r.perm.contains perm ∧ r.Within remote.addr len x.2

def AtomicAccess (m : Memory) (nic : NicId) (remote : RemoteSlice) (x : Spot) : Prop :=
  m.RemoteAccess nic remote 8 .remoteAtomic x ∧
    ∀ r, m.regions.get? x.1 = some r → 8 ∣ remote.addr.toNat - r.base.toNat

/-- What a one-sided operation may make of a byte. -/
inductive Moved (m : Memory) (nic peerNic : NicId) (sgl : List LocalSlice) :
    SendOp → Spot → Option UInt8 → Prop where
  | written {remote : RemoteSlice} {imm : Option UInt32} {x y : Spot}
      (target : m.RemoteAccess peerNic remote (LocalSlice.totalLen sgl) .remoteWrite x)
      (source : m.LocalAccess nic sgl .none y) : Moved m nic peerNic sgl (.write remote imm) x (m.byte? y)
  | read {remote : RemoteSlice} {x y : Spot} (target : m.LocalAccess nic sgl .localWrite x)
      (source : m.RemoteAccess peerNic remote (LocalSlice.totalLen sgl) .remoteRead y) :
      Moved m nic peerNic sgl (.read remote) x (m.byte? y)
  | fetched {op : SendOp} {remote : RemoteSlice} {x y : Spot} (atomic : op.isAtomic)
      (named : op.remote? = some remote) (target : m.LocalAccess nic sgl .localWrite x)
      (source : m.AtomicAccess peerNic remote y) : Moved m nic peerNic sgl op x (m.byte? y)
  | updated {op : SendOp} {remote : RemoteSlice} {x : Spot} {v : Option UInt8}
      (atomic : op.isAtomic) (named : op.remote? = some remote)
      (target : m.AtomicAccess peerNic remote x) : Moved m nic peerNic sgl op x v

/-! ### Same regions -/

/-- The two differ in the content of regions at most. -/
structure SameRegions (m m' : Memory) : Prop where
  keys : m'.keys = m.keys
  regions : ∀ id, (m'.regions.get? id).map Region.blank = (m.regions.get? id).map Region.blank

namespace SameRegions

lemma refl (m : Memory) : SameRegions m m := ⟨rfl, fun _ => rfl⟩

lemma symm (h : SameRegions m m') : SameRegions m' m :=
  ⟨h.keys.symm, fun id => (h.regions id).symm⟩

lemma trans (h : SameRegions m m') (h' : SameRegions m' m'') : SameRegions m m'' :=
  ⟨h'.keys.trans h.keys, fun id => (h'.regions id).trans (h.regions id)⟩

lemma get? (h : SameRegions m m') (hr : m'.regions.get? id = some r) :
    ∃ r₀, m.regions.get? id = some r₀ ∧ r₀.blank = r.blank := by
  have hblank := h.regions id
  rw [hr, Option.map_some] at hblank
  exact Option.map_eq_some_iff.mp hblank.symm

lemma keyed (h : SameRegions m m') (hk : m.Keyed) : m'.Keyed := by
  intro nic key id r hkey hr
  obtain ⟨r₀, hr₀, hblank⟩ := h.get? hr
  rw [← (Region.eq_of_blank hblank).1]
  exact hk nic key id r₀ (h.keys ▸ hkey) hr₀

lemma localAccess (h : SameRegions m m') (hx : m'.LocalAccess nic sgl perm x) :
    m.LocalAccess nic sgl perm x := by
  obtain ⟨s, hs, r, hr, hnic, hkey, hperm, hwithin⟩ := hx
  obtain ⟨r₀, hr₀, hblank⟩ := h.get? hr
  obtain ⟨hnic₀, -, -, hkey₀, -, hperm₀⟩ := Region.eq_of_blank hblank
  exact ⟨s, hs, r₀, hr₀, hnic₀.trans hnic, hkey₀.trans hkey, hperm₀ ▸ hperm, hwithin.congr hblank⟩

end SameRegions

/-! ### Confined changes -/

structure Confined (m m' : Memory) (P : Spot → Option UInt8 → Prop) : Prop where
  same : SameRegions m m'
  bytes : ∀ x, m'.byte? x = m.byte? x ∨ P x (m'.byte? x)

namespace Confined

lemma refl (m : Memory) (P : Spot → Option UInt8 → Prop) : Confined m m P :=
  ⟨.refl m, fun _ => Or.inl rfl⟩

lemma mono (h : Confined m m' P) (hPQ : ∀ x v, P x v → Q x v) : Confined m m' Q :=
  ⟨h.same, fun x => (h.bytes x).imp_right (hPQ x _)⟩

lemma trans (h : Confined m m' P) (h' : Confined m' m'' P) : Confined m m'' P := by
  refine ⟨h.same.trans h'.same, fun x => ?_⟩
  rcases h'.bytes x with hx | hx
  · rw [hx]
    exact h.bytes x
  · exact Or.inr hx

end Confined

lemma write_confined (hr : m.regions.get? id = some r) (hlen : off + data.length ≤ r.bytes.length) :
    Confined m { m with regions := m.regions.set id (r.write off data) } fun x v =>
      x.1 = id ∧ off ≤ x.2 ∧ x.2 < off + data.length ∧ ∃ b ∈ data, v = some b := by
  refine ⟨⟨rfl, fun j => ?_⟩, fun x => ?_⟩
  · rw [Table.get?_set]
    by_cases hj : j = id
    · rw [if_pos hj, hj, hr, Option.map_some, Option.map_some, Region.blank_write hlen]
    · rw [if_neg hj]
  · rw [byte?_write hr le_rfl hlen, poured_range' _ _ _ le_rfl]
    split
    · rename_i hx
      obtain ⟨hid, hlower, hupper⟩ := hx
      have hindex : x.2 - off < data.length := by omega
      exact Or.inr ⟨hid, hlower, hupper, data[x.2 - off], List.getElem_mem hindex,
        List.getElem?_eq_getElem hindex⟩
    · exact Or.inl rfl

lemma mem_read (hr : m.regions.get? id = some r) (hlen : off + len ≤ r.bytes.length) {b : UInt8}
    (hb : b ∈ r.read off len) : ∃ i, off ≤ i ∧ i < off + len ∧ m.byte? (id, i) = some b := by
  have hmem : some b ∈ (r.read off len).map some := List.mem_map_of_mem hb
  rw [← map_byte?_range' hr hlen] at hmem
  obtain ⟨i, hi, hbyte⟩ := List.mem_map.mp hmem
  obtain ⟨hlower, hupper⟩ := List.mem_range'_1.mp hi
  exact ⟨i, hlower, hupper, hbyte⟩

lemma keys_of_lookup {key : UInt32} (h : m.lookup nic key = some (id, r)) :
    m.keys.get? (nic, key) = some id := by
  simp only [lookup, Option.bind_eq_bind, Option.bind_eq_some_iff, Option.pure_def,
    Option.some.injEq, Prod.mk.injEq] at h
  obtain ⟨_, hkey, _, -, rfl, -⟩ := h
  exact hkey

lemma Keyed.nic_eq (hk : m.Keyed) {key : UInt32} (h : m.lookup nic key = some (id, r)) :
    r.nic = nic :=
  hk nic key id r (keys_of_lookup h) (regions_of_lookup h)

/-! ### Lists of windows -/

lemma localAccess_of_resolveLocal (hk : m.Keyed) (hs : s ∈ sgl)
    (h : m.resolveLocal nic s = .ok (id, r, off)) (hperm : r.perm.contains perm) {i : Nat}
    (hlower : off ≤ i) (hupper : i < off + s.len.toNat) : m.LocalAccess nic sgl perm (id, i) := by
  obtain ⟨hlookup, hkey, hoff⟩ := resolveLocal_eq_ok h
  exact ⟨s, hs, r, regions_of_lookup hlookup, hk.nic_eq hlookup, hkey, hperm,
    Region.within_of_offsetOf hoff hlower hupper⟩

lemma localAccess_of_mem_spots (hk : m.Keyed) (h : some x ∈ m.spots nic sgl) :
    m.LocalAccess nic sgl .none x := by
  obtain ⟨s, hs, hx⟩ := List.mem_flatMap.mp h
  unfold windowSpots at hx
  split at hx
  · rename_i id r off hresolve
    obtain ⟨i, hi, hspot⟩ := List.mem_map.mp hx
    cases hspot
    obtain ⟨hlower, hupper⟩ := List.mem_range'_1.mp hi
    exact localAccess_of_resolveLocal hk hs hresolve r.perm.contains_none hlower hupper
  · cases List.eq_of_mem_replicate hx

lemma mem_gather (hk : m.Keyed) (h : m.gather nic sgl = .ok data) {b : UInt8} (hb : b ∈ data) :
    ∃ y, m.LocalAccess nic sgl .none y ∧ m.byte? y = some b := by
  have hmem : some b ∈ m.contents nic sgl := by
    rw [contents_of_gather h]
    exact List.mem_map_of_mem hb
  obtain ⟨y, hy, hbyte⟩ := List.mem_map.mp hmem
  obtain ⟨y, rfl, hbyte⟩ := Option.bind_eq_some_iff.mp hbyte
  exact ⟨y, localAccess_of_mem_spots hk hy, hbyte⟩

lemma length_spots (m : Memory) (nic : NicId) (sgl : List LocalSlice) :
    (m.spots nic sgl).length = LocalSlice.totalLen sgl := by
  induction sgl with
  | nil => rfl
  | cons s sgl ih =>
    rw [spots_cons, List.length_append, length_windowSpots, ih]
    rfl

lemma length_of_gather (h : m.gather nic sgl = .ok data) :
    data.length = LocalSlice.totalLen sgl := by
  have hlength := congrArg List.length (contents_of_gather h)
  rw [contents, List.length_map, List.length_map, length_spots] at hlength
  exact hlength.symm

lemma fill_confined (hk : m.Keyed) (nic : NicId) (sgl : List LocalSlice) (data : Bytes) :
    Confined m (m.fill nic sgl data).1 fun x v =>
      m.LocalAccess nic sgl .localWrite x ∧ ∃ b ∈ data, v = some b := by
  induction sgl generalizing m data with
  | nil => exact .refl m _
  | cons s sgl ih =>
    cases data with
    | nil => exact .refl m _
    | cons b data =>
      rw [fill]
      split
      · exact .refl m _
      · rename_i id r off hs
        split
        · rename_i hperm
          obtain ⟨hr, hlen⟩ := resolveLocal_ok hs
          dsimp only
          generalize hn : min s.len.toNat (b :: data).length = n
          have hchunk : ((b :: data).take n).length = n := by
            rw [List.length_take]
            omega
          have hroom : off + ((b :: data).take n).length ≤ r.bytes.length := by omega
          have hfirst := write_confined hr hroom
          have hrest := ih (hfirst.same.keyed hk) ((b :: data).drop n)
          refine (hfirst.mono ?_).trans (hrest.mono ?_)
          · rintro ⟨j, i⟩ v ⟨rfl, hlower, hupper, c, hc, hv⟩
            rw [hchunk] at hupper
            exact ⟨localAccess_of_resolveLocal hk List.mem_cons_self hs hperm hlower (by omega),
              c, List.mem_of_mem_take hc, hv⟩
          · rintro x v ⟨hx, c, hc, hv⟩
            obtain ⟨t, ht, hregion⟩ := hfirst.same.localAccess hx
            exact ⟨⟨t, List.mem_cons_of_mem s ht, hregion⟩, c, List.mem_of_mem_drop hc, hv⟩
        · exact .refl m _

lemma scatter_confined (hk : m.Keyed) (nic : NicId) (sgl : List LocalSlice) (data : Bytes) :
    Confined m (m.scatter nic sgl data).1 fun x v =>
      m.LocalAccess nic sgl .localWrite x ∧ ∃ b ∈ data, v = some b := by
  unfold scatter
  split
  · exact .refl m _
  · exact fill_confined hk nic sgl data

/-! ### Windows of a peer -/

lemma resolveRemote_eq_ok (h : m.resolveRemote nic remote len perm = .ok (id, r, off)) :
    len ≤ remote.len.toNat ∧ m.lookup nic remote.rkey = some (id, r) ∧ r.rkey = remote.rkey ∧
      r.perm.contains perm ∧ r.offsetOf remote.addr len = some off := by
  unfold resolveRemote at h
  split at h
  · cases h
  · rename_i hlen
    split at h
    · cases h
    · rename_i hlookup
      split at h
      · rename_i hcond
        split at h
        · cases h
        · rename_i hoff
          cases h
          exact ⟨Nat.le_of_not_lt hlen, hlookup, hcond.1, hcond.2, hoff⟩
      · cases h

lemma remoteAccess_of_resolveRemote (hk : m.Keyed)
    (h : m.resolveRemote nic remote len perm = .ok (id, r, off)) {i : Nat} (hlower : off ≤ i)
    (hupper : i < off + len) : m.RemoteAccess nic remote len perm (id, i) := by
  obtain ⟨hlen, hlookup, hkey, hperm, hoff⟩ := resolveRemote_eq_ok h
  exact ⟨hlen, r, regions_of_lookup hlookup, hk.nic_eq hlookup, hkey, hperm,
    Region.within_of_offsetOf hoff hlower hupper⟩

lemma writeRemote_confined (hk : m.Keyed) (h : m.writeRemote nic remote data = .ok m') :
    Confined m m' fun x v =>
      m.RemoteAccess nic remote data.length .remoteWrite x ∧ ∃ b ∈ data, v = some b := by
  rcases hs : m.resolveRemote nic remote data.length .remoteWrite with e | ⟨id, r, off⟩
  · simp [writeRemote, hs, bind, Except.bind] at h
  · obtain ⟨-, hlookup, -, -, hoff⟩ := resolveRemote_eq_ok hs
    simp only [writeRemote, hs, bind, Except.bind, pure, Except.pure, Except.ok.injEq] at h
    rw [← h]
    refine (write_confined (regions_of_lookup hlookup) (offsetOf_eq_some hoff).2.2).mono ?_
    rintro ⟨j, i⟩ v ⟨rfl, hlower, hupper, hv⟩
    exact ⟨remoteAccess_of_resolveRemote hk hs hlower hupper, hv⟩

lemma mem_readRemote (hk : m.Keyed) (h : m.readRemote nic remote len = .ok data) {b : UInt8}
    (hb : b ∈ data) : ∃ y, m.RemoteAccess nic remote len .remoteRead y ∧ m.byte? y = some b := by
  rcases hs : m.resolveRemote nic remote len .remoteRead with e | ⟨id, r, off⟩
  · simp [readRemote, hs, bind, Except.bind] at h
  · obtain ⟨-, hlookup, -, -, hoff⟩ := resolveRemote_eq_ok hs
    simp only [readRemote, hs, bind, Except.bind, pure, Except.pure, Except.ok.injEq] at h
    rw [← h] at hb
    obtain ⟨i, hlower, hupper, hbyte⟩ :=
      mem_read (regions_of_lookup hlookup) (offsetOf_eq_some hoff).2.2 hb
    exact ⟨(id, i), remoteAccess_of_resolveRemote hk hs hlower hupper, hbyte⟩

lemma updateRemote_confined (hk : m.Keyed) {f : UInt64 → UInt64} {old : UInt64}
    (h : m.updateRemote nic remote f = .ok (old, m')) :
    Confined m m' (fun x _ => m.AtomicAccess nic remote x) ∧
      ∀ b ∈ Bytes.ofNatLE 8 old.toNat, ∃ y, m.AtomicAccess nic remote y ∧ m.byte? y = some b := by
  rcases hs : m.resolveRemote nic remote 8 .remoteAtomic with e | ⟨id, r, off⟩
  · simp [updateRemote, hs, bind, Except.bind] at h
  · simp only [updateRemote, hs, bind, Except.bind] at h
    split at h
    · cases h
    · rename_i haligned
      cases h
      obtain ⟨-, hlookup, -, -, hoff⟩ := resolveRemote_eq_ok hs
      obtain ⟨-, hstart, hlen⟩ := offsetOf_eq_some hoff
      have hr := regions_of_lookup hlookup
      have haccess : ∀ i, off ≤ i → i < off + 8 → m.AtomicAccess nic remote (id, i) := by
        refine fun i hlower hupper =>
          ⟨remoteAccess_of_resolveRemote hk hs hlower hupper, fun r' hr' => ?_⟩
        cases hr.symm.trans hr'
        rw [← hstart]
        exact Nat.dvd_of_mod_eq_zero (not_not.mp haligned)
      constructor
      · refine (write_confined hr (by simpa using hlen)).mono ?_
        rintro ⟨j, i⟩ v ⟨rfl, hlower, hupper, -⟩
        exact haccess i hlower (by simpa using hupper)
      · intro b hb
        rw [Region.ofNatLE_word hlen] at hb
        obtain ⟨i, hlower, hupper, hbyte⟩ := mem_read hr hlen hb
        exact ⟨(id, i), haccess i hlower hupper, hbyte⟩

/-! ### One-sided operations -/

lemma atomic_confined (hk : m.Keyed) (nic peerNic : NicId) (sgl : List LocalSlice)
    (hatomic : op.isAtomic) (hremote : op.remote? = some remote) (f : UInt64 → UInt64) :
    Confined m (m.atomic nic peerNic sgl remote f).1 (m.Moved nic peerNic sgl op) := by
  unfold atomic
  split
  · exact .refl m _
  · split
    · exact .refl m _
    · rename_i old m₀ hupdate
      obtain ⟨hfirst, hold⟩ := updateRemote_confined hk hupdate
      refine (hfirst.mono fun x v htarget => .updated hatomic hremote htarget).trans ?_
      refine (scatter_confined (hfirst.same.keyed hk) nic sgl _).mono ?_
      rintro x v ⟨htarget, b, hb, rfl⟩
      obtain ⟨y, hsource, hbyte⟩ := hold b hb
      rw [← hbyte]
      exact .fetched hatomic hremote (hfirst.same.localAccess htarget) hsource

lemma oneSided_confined (hk : m.Keyed) (nic peerNic : NicId) (sgl : List LocalSlice) (op : SendOp) :
    Confined m (m.oneSided nic peerNic sgl op).1 (m.Moved nic peerNic sgl op) := by
  cases op with
  | send imm => exact .refl m _
  | write remote imm =>
    simp only [oneSided]
    split
    · exact .refl m _
    · rename_i data hgather
      split
      · exact .refl m _
      · rename_i m' hwrite
        refine (writeRemote_confined hk hwrite).mono ?_
        rintro x v ⟨htarget, b, hb, rfl⟩
        obtain ⟨y, hsource, hbyte⟩ := mem_gather hk hgather hb
        rw [← hbyte]
        exact .written (length_of_gather hgather ▸ htarget) hsource
  | read remote =>
    simp only [oneSided]
    split
    · exact .refl m _
    · rename_i data hread
      refine (scatter_confined hk nic sgl data).mono ?_
      rintro x v ⟨htarget, b, hb, rfl⟩
      obtain ⟨y, hsource, hbyte⟩ := mem_readRemote hk hread hb
      rw [← hbyte]
      exact .read htarget hsource
  | compareSwap remote compare swap => exact atomic_confined hk nic peerNic sgl rfl rfl _
  | fetchAdd remote add => exact atomic_confined hk nic peerNic sgl rfl rfl _

end Memory

end Verbs
