import Mathlib.Tactic
import Verbs.Proofs.Device.Registrations
import Verbs.Proofs.Memory.Slicing

/-!
Windows that are narrowed again and again. Each step looks at the window before it and at nothing
else, while the device checks a window against the region, of which the steps know nothing. The two
agree: what a chain of steps leaves of a region is valid, and begins in the region at the sum of the
offsets that were taken on the way.
-/

namespace Verbs

namespace Narrowing

/-- How far into a window the part begins that a step asks for. -/
def first : Narrowing → Nat
  | slice off _ | unchecked off _ => off.toNat
  | range first _ => first.lower
  | whole => 0

/-- How far into a window of `len` bytes the part ends that a step asks for. -/
def stop (len : Nat) : Narrowing → Nat
  | slice off n | unchecked off n => off.toNat + n.toNat
  | range _ last => last.upper len
  | whole => len

def Fits (n : Narrowing) (len : Nat) : Prop := n.first ≤ n.stop len ∧ n.stop len ≤ len

/-- A step that looks at the bounds of the window, and has no end beyond the largest index. -/
def Checked : Narrowing → Prop
  | slice _ _ | whole => True
  | range first last => first ≠ .excluded lastIndex ∧ last ≠ .included lastIndex
  | unchecked _ _ => False

instance (n : Narrowing) (len : Nat) : Decidable (n.Fits len) :=
  inferInstanceAs (Decidable (_ ∧ _))

instance : DecidablePred Checked
  | slice _ _ | whole => .isTrue trivial
  | range _ _ => inferInstanceAs (Decidable (_ ∧ _))
  | unchecked _ _ => .isFalse id

end Narrowing

/-- A chain of steps that each yield something: it begins with the first, passes those in the list,
and ends with the last. -/
inductive Chain {σ : Type} (apply : σ → Narrowing → Except Fault (Option σ)) :
    σ → List Narrowing → List σ → σ → Prop where
  | nil (s : σ) : Chain apply s [] [] s
  | cons {s t u : σ} {n : Narrowing} {ns : List Narrowing} {passed : List σ}
      (step : apply s n = .ok (some t)) (rest : Chain apply t ns passed u) :
      Chain apply s (n :: ns) (s :: passed) u

lemma Chain.map {σ τ : Type} {f : σ → Narrowing → Except Fault (Option σ)}
    {g : τ → Narrowing → Except Fault (Option τ)} {h : σ → τ}
    (hstep : ∀ s n t, f s n = .ok (some t) → g (h s) n = .ok (some (h t))) {s u : σ}
    {ns : List Narrowing} {passed : List σ} (hchain : Chain f s ns passed u) :
    Chain g (h s) ns (passed.map h) (h u) := by
  induction hchain with
  | nil s => exact .nil (h s)
  | cons step rest ih => exact .cons (hstep _ _ _ step) ih

lemma Chain.same {σ κ : Type} {f : σ → Narrowing → Except Fault (Option σ)} {s u : σ}
    {ns : List Narrowing} {passed : List σ} (hchain : Chain f s ns passed u) (key : σ → κ)
    (hstep : ∀ s n t, f s n = .ok (some t) → key t = key s) : key u = key s := by
  induction hchain with
  | nil s => rfl
  | cons step rest ih => exact ih.trans (hstep _ _ _ step)

namespace Window

variable {w v : Window} {n : Narrowing} {ns : List Narrowing} {passed : List Window}

/-- All bytes of the second window are bytes of the first. -/
structure Holds (w v : Window) : Prop where
  lower : w.addr.toNat ≤ v.addr.toNat
  upper : v.addr.toNat + v.len.toNat ≤ w.addr.toNat + w.len.toNat

lemma apply_spec (hw : w.addr.toNat + w.len.toNat < UInt64.size) (hn : n.Checked) :
    ∃ result, w.apply n = .ok result ∧ ∀ part, result = some part ↔
      n.first ≤ n.stop w.len.toNat ∧ w.IsPart n.first (n.stop w.len.toNat - n.first) part := by
  cases n with
  | slice off len =>
    obtain ⟨result, hslice, hpart⟩ := slice_spec hw off len
    refine ⟨result, hslice, fun part => (hpart part).trans ?_⟩
    simp only [Narrowing.first, Narrowing.stop, Nat.le_add_right, true_and,
      Nat.add_sub_cancel_left]
  | range first last => exact range_spec hw hn.1 hn.2
  | whole =>
    have hzero : (0 : UInt64).toNat + w.size.toNat ≤ w.len.toNat := by
      rw [toNat_size, UInt64.toNat_zero, Nat.zero_add]
    obtain ⟨part, hnarrow, hpart⟩ := narrow_of_within hw hzero
    refine ⟨some part, by rw [apply, Window.whole, hnarrow]; rfl, fun part' => ?_⟩
    rw [toNat_size] at hpart
    refine ⟨?_, fun h => congrArg some (hpart.unique h.2)⟩
    rintro ⟨⟩
    exact ⟨Nat.zero_le _, hpart⟩
  | unchecked off len => exact hn.elim

lemma apply_none (hw : w.addr.toNat + w.len.toNat < UInt64.size) (hn : n.Checked) :
    ∃ result, w.apply n = .ok result ∧ (result = none ↔ ¬ n.Fits w.len.toNat) := by
  obtain ⟨result, happly, hpart⟩ := apply_spec hw hn
  refine ⟨result, happly, ?_⟩
  rcases result with - | part
  · refine iff_of_true rfl fun hfits => ?_
    -- the part that fits is one, so it would have been found
    have hroom : n.first + (n.stop w.len.toNat - n.first) ≤ w.len.toNat := by
      have := hfits.1
      have := hfits.2
      omega
    have haddr : w.addr.toNat + n.first < UInt64.size := by omega
    have hlen : n.stop w.len.toNat - n.first < UInt32.size :=
      (Nat.le_of_add_left_le hroom).trans_lt w.len.toNat_lt
    have hfound : w.IsPart n.first (n.stop w.len.toNat - n.first)
        ⟨UInt64.ofNat (w.addr.toNat + n.first), UInt32.ofNat (n.stop w.len.toNat - n.first)⟩ :=
      ⟨hroom, UInt64.toNat_ofNat_of_lt' haddr, UInt32.toNat_ofNat_of_lt' hlen⟩
    exact nomatch (hpart _).mpr ⟨hfits.1, hfound⟩
  · obtain ⟨hle, hpart⟩ := (hpart part).mp rfl
    have hwithin := hpart.within
    exact iff_of_false nofun fun hnot => hnot ⟨hle, by omega⟩

lemma part_of_chain (hchain : Chain apply w ns passed v)
    (hw : w.addr.toNat + w.len.toNat < UInt64.size) (hns : ∀ n ∈ ns, n.Checked) :
    w.IsPart (ns.map (·.first)).sum v.len.toNat v ∧ ∀ u ∈ passed, u.Holds v := by
  induction hchain with
  | nil w => exact ⟨⟨(Nat.zero_add _).le, rfl, rfl⟩, nofun⟩
  | @cons w t v n ns passed step rest ih =>
    obtain ⟨result, happly, hpart⟩ := apply_spec hw (hns n List.mem_cons_self)
    cases happly.symm.trans step
    obtain ⟨hle, hwithin, haddr, hlen⟩ := (hpart t).mp rfl
    obtain ⟨⟨hwithin', haddr', -⟩, hpassed⟩ :=
      ih (by omega) fun n hn => hns n (List.mem_cons_of_mem _ hn)
    have hsum : ((n :: ns).map (·.first)).sum = n.first + (ns.map (·.first)).sum := rfl
    refine ⟨⟨by omega, by omega, rfl⟩, fun u hu => ?_⟩
    rcases List.mem_cons.mp hu with rfl | hu
    · exact ⟨by omega, by omega⟩
    · exact hpassed u hu

lemma apply_of_keyed {σ : Type} {mk : Window → σ} {t : σ}
    (h : (w.apply n).map (·.map mk) = .ok (some t)) : ∃ v, w.apply n = .ok (some v) ∧ mk v = t := by
  rcases happly : w.apply n with fault | - | v <;> rw [happly] at h <;> cases h
  exact ⟨v, rfl, rfl⟩

lemma keyed_none {σ : Type} (mk : Window → σ) (hw : w.addr.toNat + w.len.toNat < UInt64.size)
    (hn : n.Checked) :
    ∃ result, (w.apply n).map (·.map mk) = .ok result ∧ (result = none ↔ ¬ n.Fits w.len.toNat) := by
  obtain ⟨result, happly, hnone⟩ := apply_none hw hn
  exact ⟨result.map mk, by rw [happly]; rfl, Option.map_eq_none_iff.trans hnone⟩

end Window

/-! ### Descriptors -/

lemma LocalSlice.apply_eq_some {s t : LocalSlice} {n : Narrowing} (h : s.apply n = .ok (some t)) :
    s.toWindow.apply n = .ok (some t.toWindow) ∧ t.lkey = s.lkey := by
  obtain ⟨v, happly, rfl⟩ := Window.apply_of_keyed h
  exact ⟨happly, rfl⟩

lemma RemoteSlice.apply_eq_some {s t : RemoteSlice} {n : Narrowing} (h : s.apply n = .ok (some t)) :
    s.toWindow.apply n = .ok (some t.toWindow) ∧ t.rkey = s.rkey := by
  obtain ⟨v, happly, rfl⟩ := Window.apply_of_keyed h
  exact ⟨happly, rfl⟩

namespace Memory

structure Registered (m : Memory) (id : RegionId) (r : Region) : Prop where
  found : m.regions.get? id = some r
  lkey : m.keys.get? (r.nic, r.lkey) = some id
  rkey : m.keys.get? (r.nic, r.rkey) = some id

variable {m : Memory} {id : RegionId} {r : Region} {w v : Window} {off : Nat}

lemma Registered.lookup_lkey (h : m.Registered id r) : m.lookup r.nic r.lkey = some (id, r) := by
  simp [lookup, h.lkey, h.found]

lemma Registered.lookup_rkey (h : m.Registered id r) : m.lookup r.nic r.rkey = some (id, r) := by
  simp [lookup, h.rkey, h.found]

lemma offsetOf_of_isPart (hlength : r.bytes.length < UInt32.size)
    (h : r.window.IsPart off v.len.toNat v) {len : Nat} (hlen : len ≤ v.len.toNat) :
    r.offsetOf v.addr len = some off := by
  have hsize : r.window.len.toNat = r.bytes.length := UInt32.toNat_ofNat_of_lt' hlength
  have hwithin := h.within
  have haddr : v.addr.toNat = r.base.toNat + off := h.addr
  have hbase : r.base ≤ v.addr := UInt64.le_iff_toNat_le.mpr (by omega)
  have hoff : v.addr.toNat - r.base.toNat = off := by omega
  rw [Region.offsetOf, hoff, if_pos ⟨hbase, by omega⟩]

end Memory

namespace Device

/-- **What a chain of slices leaves is valid and is what it says.** A region goes by both of its keys
as long as its adapter has not used them up. Then however its window, or its descriptor for a peer,
is narrowed step by step, the device finds the result in the region at the sum of the offsets, for a
peer with every length up to its own and every access that the region allows; it lies in every
window that was passed on the way. A step never faults, and yields nothing just where what it asks
for does not lie in the window it is taken from. -/
theorem narrowed_windows_valid :
    (∀ (m : Memory) (id : RegionId) (r : Region), m.Registered id r →
      r.bytes.length < UInt32.size → r.base.toNat + r.bytes.length < UInt64.size →
      ∀ ns : List Narrowing, (∀ n ∈ ns, n.Checked) →
        (∀ passed s, Chain LocalSlice.apply ⟨r.window, r.lkey⟩ ns passed s →
          m.resolveLocal r.nic s = .ok (id, r, (ns.map (·.first)).sum) ∧
          (∀ t ∈ passed, t.toWindow.Holds s.toWindow) ∧
          ∀ n : Narrowing, n.Checked →
            ∃ result, s.apply n = .ok result ∧ (result = none ↔ ¬ n.Fits s.len.toNat)) ∧
        ∀ passed s, Chain RemoteSlice.apply r.toRemote ns passed s →
          (∀ len ≤ s.len.toNat, ∀ perm, r.perm.contains perm →
            m.resolveRemote r.nic s len perm = .ok (id, r, (ns.map (·.first)).sum)) ∧
          (∀ t ∈ passed, t.toWindow.Holds s.toWindow) ∧
          ∀ n : Narrowing, n.Checked →
            ∃ result, s.apply n = .ok result ∧ (result = none ↔ ¬ n.Fits s.len.toNat)) ∧
    ∀ ops id r, (run ops).memory.regions.get? id = some r →
      (registrations r.nic ops).length ≤ 2 ^ 31 - 1 → (run ops).memory.Registered id r := by
  constructor
  · intro m id r hr hlength hwrap ns hns
    have hsize : r.window.len.toNat = r.bytes.length := UInt32.toNat_ofNat_of_lt' hlength
    have hw : r.window.addr.toNat + r.window.len.toNat < UInt64.size := hsize ▸ hwrap
    -- the end of a part of the window is no further than that of the window
    have hroom : ∀ {off : Nat} {v : Window}, r.window.IsPart off v.len.toNat v →
        v.addr.toNat + v.len.toNat < UInt64.size := by
      intro off v hpart
      have hwithin := hpart.within
      have haddr := hpart.addr
      omega
    refine ⟨fun passed s hchain => ?_, fun passed s hchain => ?_⟩
    · have hkey : s.lkey = r.lkey :=
        hchain.same LocalSlice.lkey fun _ _ _ h => (LocalSlice.apply_eq_some h).2
      obtain ⟨hpart, hpassed⟩ := Window.part_of_chain
        (hchain.map fun _ _ _ h => (LocalSlice.apply_eq_some h).1) hw hns
      refine ⟨?_, fun t ht => hpassed _ (List.mem_map_of_mem ht),
        fun n hn => Window.keyed_none _ (hroom hpart) hn⟩
      simp [Memory.resolveLocal, hkey, hr.lookup_lkey, Memory.offsetOf_of_isPart hlength hpart]
    · have hkey : s.rkey = r.rkey :=
        hchain.same RemoteSlice.rkey fun _ _ _ h => (RemoteSlice.apply_eq_some h).2
      obtain ⟨hpart, hpassed⟩ := Window.part_of_chain
        (hchain.map fun _ _ _ h => (RemoteSlice.apply_eq_some h).1) hw hns
      refine ⟨fun len hlen perm hperm => ?_, fun t ht => hpassed _ (List.mem_map_of_mem ht),
        fun n hn => Window.keyed_none _ (hroom hpart) hn⟩
      simp [Memory.resolveRemote, hkey, hr.lookup_rkey, hperm, Nat.not_lt.mpr hlen,
        Memory.offsetOf_of_isPart hlength hpart hlen]
  · intro ops id r hr hkeys
    have hexact := (keyring r.nic ops (by omega)).1.exact
    exact ⟨hr, (hexact.named r.lkey id).mpr ⟨r, hr, rfl, Or.inl rfl⟩,
      (hexact.named r.rkey id).mpr ⟨r, hr, rfl, Or.inr rfl⟩⟩

def registering : List Operation := [.addFabric, .openNic 0 {}, .register 1 4096 16 .full]

def toTheEnd : List Narrowing := [.range (.excluded 3) .unbounded, .slice 12 0, .whole]

theorem narrowed_windows_valid_empty :
    ∃ r, (run registering).memory.resolveLocal 1 ⟨⟨4112, 0⟩, 1⟩ = .ok (2, r, 16) ∧
      (run registering).memory.resolveRemote 1 ⟨⟨4112, 0⟩, 2⟩ 0 .remoteAtomic = .ok (2, r, 16) ∧
      LocalSlice.apply ⟨⟨4112, 0⟩, 1⟩ (.slice 0 1) = .ok none := by
  obtain ⟨r, hr, hrnic, hbase, hbytes, hlkey, hrkey, hperm⟩ :
      ∃ r, (run registering).memory.regions.get? 2 = some r ∧ r.nic = 1 ∧ r.base = 4096 ∧
        r.bytes.length = 16 ∧ r.lkey = 1 ∧ r.rkey = 2 ∧ r.perm = .full :=
    ⟨⟨1, 4096, List.replicate 16 0, 1, 2, .full⟩, by cbv, rfl, rfl, rfl, rfl, rfl, rfl⟩
  have hwindow : r.window = ⟨4096, 16⟩ := by rw [Region.window, hbase, hbytes]; rfl
  obtain ⟨hvalid, hregistered⟩ := narrowed_windows_valid
  have hr' := hregistered registering 2 r hr (by rw [hrnic]; decide)
  obtain ⟨hlocal, hremote⟩ := hvalid _ 2 r hr' (by rw [hbytes]; decide)
    (by rw [hbase, hbytes]; decide) toTheEnd (by decide)
  rw [hrnic, hwindow, hlkey] at hlocal
  rw [hrnic, Region.toRemote, hwindow, hrkey] at hremote
  obtain ⟨hfound, -, hnone⟩ := hlocal _ ⟨⟨4112, 0⟩, 1⟩
    (.cons (t := ⟨⟨4100, 12⟩, 1⟩) rfl (.cons (t := ⟨⟨4112, 0⟩, 1⟩) rfl (.cons rfl (.nil _))))
  obtain ⟨hfound', -⟩ := hremote _ ⟨⟨4112, 0⟩, 2⟩
    (.cons (t := ⟨⟨4100, 12⟩, 2⟩) rfl (.cons (t := ⟨⟨4112, 0⟩, 2⟩) rfl (.cons rfl (.nil _))))
  obtain ⟨result, happly, hresult⟩ := hnone (.slice 0 1) trivial
  refine ⟨r, hfound, hfound' 0 le_rfl .remoteAtomic (by rw [hperm]; decide), ?_⟩
  rw [happly, hresult.mpr (by decide)]

end Device

end Verbs
