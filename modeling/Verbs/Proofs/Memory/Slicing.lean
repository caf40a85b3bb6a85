import Mathlib.Tactic
import Verbs.Memory.Window

/-!
Slicing by a range of indices. The two ends of a range stand for an interval of whole numbers: an
end that leaves its index out at the front, or has it in at the back, stands for the number after
it. As long as indices have room for that number the slice is the part of the window that the
interval denotes, and there is none where the interval does not lie in the window. The largest index
has no room for the number after it, so a range with such an end is a fault, wherever the window
ends.
-/

namespace Verbs

def lastIndex : UInt64 := 18446744073709551615

namespace RangeEnd

/-- The number at which a range begins. -/
def lower : RangeEnd → Nat
  | included i => i.toNat
  | excluded i => i.toNat + 1
  | unbounded => 0

/-- The number before which a range over `len` items ends. -/
def upper (len : Nat) : RangeEnd → Nat
  | included i => i.toNat + 1
  | excluded i => i.toNat
  | unbounded => len

end RangeEnd

lemma toNat_lt_of_ne_lastIndex {i : UInt64} (h : i ≠ lastIndex) : i.toNat + 1 < UInt64.size := by
  have hne : i.toNat ≠ lastIndex.toNat := fun heq => h (UInt64.toNat_inj.mp heq)
  have hlt := i.toNat_lt
  have hlast : lastIndex.toNat = 18446744073709551615 := rfl
  simp only [UInt64.size]
  omega

lemma nextIndex_of_ne {i : UInt64} (h : i ≠ lastIndex) :
    ∃ j, nextIndex i = .ok j ∧ j.toNat = i.toNat + 1 := by
  have hroom := toNat_lt_of_ne_lastIndex h
  refine ⟨i + 1, if_pos hroom, ?_⟩
  rw [UInt64.toNat_add]
  exact Nat.mod_eq_of_lt hroom

@[simp] lemma nextIndex_lastIndex : nextIndex lastIndex = .error .overflow := rfl

namespace RangeEnd

variable {e : RangeEnd}

lemma start_of_ne (h : e ≠ excluded lastIndex) : ∃ s, e.start = .ok s ∧ s.toNat = e.lower := by
  cases e with
  | included i => exact ⟨i, rfl, rfl⟩
  | excluded i => exact nextIndex_of_ne fun hi => h (hi ▸ rfl)
  | unbounded => exact ⟨0, rfl, rfl⟩

lemma start_error {fault : Fault} (h : e.start = .error fault) : fault = .overflow := by
  cases e with
  | included i | unbounded => cases h
  | excluded i =>
    simp only [start, nextIndex] at h
    split at h <;> cases h
    rfl

lemma stop_of_ne (size : UInt64) (h : e ≠ included lastIndex) :
    ∃ s, e.stop size = .ok s ∧ s.toNat = e.upper size.toNat := by
  cases e with
  | included i => exact nextIndex_of_ne fun hi => h (hi ▸ rfl)
  | excluded i => exact ⟨i, rfl, rfl⟩
  | unbounded => exact ⟨size, rfl, rfl⟩

end RangeEnd

namespace Window

variable {w part : Window} {first last : RangeEnd}

@[simp] lemma toNat_size (w : Window) : w.size.toNat = w.len.toNat := rfl

/-- A window is the `len` bytes at `off` of another one. -/
structure IsPart (w : Window) (off len : Nat) (part : Window) : Prop where
  within : off + len ≤ w.len.toNat
  addr : part.addr.toNat = w.addr.toNat + off
  len : part.len.toNat = len

lemma IsPart.unique {off len : Nat} {part' : Window} (h : w.IsPart off len part)
    (h' : w.IsPart off len part') : part = part' := by
  have haddr : part.addr = part'.addr := UInt64.toNat_inj.mp (h.addr.trans h'.addr.symm)
  have hlen : part.len = part'.len := UInt32.toNat_inj.mp (h.len.trans h'.len.symm)
  cases part
  cases part'
  cases haddr
  cases hlen
  rfl

lemma narrow_of_within (hw : w.addr.toNat + w.len.toNat < UInt64.size) {off len : UInt64}
    (h : off.toNat + len.toNat ≤ w.len.toNat) :
    ∃ part, w.narrow off len = .ok part ∧ w.IsPart off.toNat len.toNat part := by
  have hroom : w.addr.toNat + off.toNat < UInt64.size := by omega
  have hlen : len.toNat < 2 ^ 32 := by
    have := w.len.toNat_lt
    omega
  refine ⟨⟨w.addr + off, len.toUInt32⟩, ?_, h, ?_, ?_⟩
  · simp only [narrow, at?, if_pos hroom, Except.map]
  · rw [UInt64.toNat_add]
    exact Nat.mod_eq_of_lt hroom
  · rw [UInt64.toNat_toUInt32]
    exact Nat.mod_eq_of_lt hlen

lemma slice_spec (hw : w.addr.toNat + w.len.toNat < UInt64.size) (off len : UInt64) :
    ∃ result, w.slice off len = .ok result ∧
      ∀ part, result = some part ↔ w.IsPart off.toNat len.toNat part := by
  have hinside : (off ≤ w.size ∧ len ≤ w.size - off) ↔ off.toNat + len.toNat ≤ w.len.toNat := by
    constructor
    · rintro ⟨hoff, hlen⟩
      rw [UInt64.le_iff_toNat_le, UInt64.toNat_sub_of_le _ _ hoff] at hlen
      rw [UInt64.le_iff_toNat_le] at hoff
      rw [toNat_size] at hoff hlen
      omega
    · intro h
      have hoff : off ≤ w.size := UInt64.le_iff_toNat_le.mpr (by rw [toNat_size]; omega)
      refine ⟨hoff, ?_⟩
      rw [UInt64.le_iff_toNat_le, UInt64.toNat_sub_of_le _ _ hoff, toNat_size]
      omega
  by_cases h : off.toNat + len.toNat ≤ w.len.toNat
  · obtain ⟨part, hnarrow, hpart⟩ := narrow_of_within hw h
    refine ⟨some part, ?_, fun part' => ⟨?_, fun hpart' => ?_⟩⟩
    · simp only [slice, if_pos (hinside.mpr h), hnarrow, Except.map]
    · rintro ⟨⟩
      exact hpart
    · rw [hpart.unique hpart']
  · refine ⟨none, if_neg (mt hinside.mp h), fun part => ⟨(nomatch ·), ?_⟩⟩
    exact fun hpart => absurd hpart.within h

lemma range_spec (hw : w.addr.toNat + w.len.toNat < UInt64.size)
    (hfirst : first ≠ .excluded lastIndex) (hlast : last ≠ .included lastIndex) :
    ∃ result, w.range first last = .ok result ∧ ∀ part, result = some part ↔
      first.lower ≤ last.upper w.len.toNat ∧
        w.IsPart first.lower (last.upper w.len.toNat - first.lower) part := by
  obtain ⟨s, hs, hlower⟩ := first.start_of_ne hfirst
  obtain ⟨e, he, hupper⟩ := last.stop_of_ne w.size hlast
  rw [toNat_size] at hupper
  have hrange : w.range first last = if e < s then .ok none else w.slice s (e - s) := by
    simp only [range, hs, he, bind, Except.bind]
  rw [hrange, ← hlower, ← hupper]
  by_cases hlt : e < s
  · refine ⟨none, if_pos hlt, fun part => ⟨(nomatch ·), ?_⟩⟩
    rintro ⟨hle, -⟩
    exact absurd hle (Nat.not_le.mpr (UInt64.lt_iff_toNat_lt.mp hlt))
  · have hle : s ≤ e := UInt64.not_lt.mp hlt
    obtain ⟨result, hslice, hpart⟩ := slice_spec hw s (e - s)
    rw [UInt64.toNat_sub_of_le _ _ hle] at hpart
    refine ⟨result, (if_neg hlt).trans hslice, fun part => (hpart part).trans ?_⟩
    exact ⟨fun h => ⟨UInt64.le_iff_toNat_le.mp hle, h⟩, fun h => h.2⟩

lemma range_overflow (w : Window) (h : first = .excluded lastIndex ∨ last = .included lastIndex) :
    w.range first last = .error .overflow := by
  rcases h with rfl | rfl
  · rfl
  · have hstop : (RangeEnd.included lastIndex).stop w.size = .error .overflow := rfl
    rcases hstart : first.start with fault | s
    · cases RangeEnd.start_error hstart
      simp only [range, hstart, bind, Except.bind]
    · simp only [range, hstart, hstop, bind, Except.bind]

/-- **Slicing by a range is exact**, for windows of local and of peer memory alike: where the
interval that the range denotes lies in the window, the slice is that part of it under the same key,
and everywhere else there is none. It is a fault just where an end stands for the number after the
largest index. -/
theorem slices_of_range (w : Window) (hw : w.addr.toNat + w.len.toNat < UInt64.size)
    (first last : RangeEnd) :
    ((first = .excluded lastIndex ∨ last = .included lastIndex) → ∀ key,
      LocalSlice.apply ⟨w, key⟩ (.range first last) = .error .overflow ∧
      RemoteSlice.apply ⟨w, key⟩ (.range first last) = .error .overflow) ∧
    (first ≠ .excluded lastIndex → last ≠ .included lastIndex → ∃ result : Option Window,
      (∀ key, LocalSlice.apply ⟨w, key⟩ (.range first last) = .ok (result.map (⟨·, key⟩)) ∧
        RemoteSlice.apply ⟨w, key⟩ (.range first last) = .ok (result.map (⟨·, key⟩))) ∧
      ∀ part, result = some part ↔
        first.lower ≤ last.upper w.len.toNat ∧ last.upper w.len.toNat ≤ w.len.toNat ∧
          part.addr.toNat = w.addr.toNat + first.lower ∧
          part.len.toNat = last.upper w.len.toNat - first.lower) := by
  refine ⟨fun h key => ?_, fun hfirst hlast => ?_⟩
  · simp only [LocalSlice.apply, RemoteSlice.apply, Window.apply, range_overflow w h, Except.map,
      and_self]
  · obtain ⟨result, hrange, hpart⟩ := range_spec hw hfirst hlast
    refine ⟨result, fun key => ?_, fun part => (hpart part).trans ?_⟩
    · simp only [LocalSlice.apply, RemoteSlice.apply, Window.apply, hrange, Except.map, and_self]
    · constructor
      · rintro ⟨hle, hwithin, haddr, hlen⟩
        exact ⟨hle, by omega, haddr, hlen⟩
      · rintro ⟨hle, hinside, haddr, hlen⟩
        exact ⟨hle, by omega, haddr, hlen⟩

def topmost : Window := ⟨18446744073709551599, 16⟩

theorem slices_of_range_topmost :
    LocalSlice.apply ⟨topmost, 7⟩ (.range (.excluded 3) (.included 15)) =
        .ok (some ⟨⟨18446744073709551603, 12⟩, 7⟩) ∧
      RemoteSlice.apply ⟨topmost, 8⟩ (.range .unbounded (.excluded lastIndex)) = .ok none ∧
      RemoteSlice.apply ⟨topmost, 8⟩ (.range .unbounded (.included lastIndex)) =
        .error .overflow := by
  have hexact := slices_of_range topmost (by decide)
  obtain ⟨part, hslice, hpart⟩ :=
    (hexact (.excluded 3) (.included 15)).2 (by decide) (by decide)
  obtain ⟨beyond, hbeyond, hnone⟩ :=
    (hexact .unbounded (.excluded lastIndex)).2 (by decide) (by decide)
  have hfound : part = some ⟨18446744073709551603, 12⟩ := (hpart _).mpr (by decide)
  have hmissing : beyond = none := by
    rcases beyond with - | part'
    · rfl
    · exact absurd ((hnone part').mp rfl).2.1 (by decide)
  refine ⟨(hslice 7).1.trans (by rw [hfound]; rfl), (hbeyond 8).2.trans (by rw [hmissing]; rfl), ?_⟩
  exact ((hexact .unbounded (.included lastIndex)).1 (Or.inr rfl) 8).2

/-- A range up to the largest index leaves a window of 16 bytes, and yet there is no answer that
says so. -/
theorem fault_beyond_lastIndex :
    ¬ RangeEnd.upper 16 (.included lastIndex) ≤ 16 ∧
      LocalSlice.apply ⟨⟨4096, 16⟩, 1⟩ (.range .unbounded (.included lastIndex)) ≠ .ok none := by
  decide

end Window

end Verbs
