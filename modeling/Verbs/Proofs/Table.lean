import Mathlib.Algebra.BigOperators.Group.Multiset.Basic
import Mathlib.Tactic
import Verbs.Table

/-!
Totals over tables whose keys are distinct. A weight of the entries is summed up over the whole
table; each operation on the table changes the total by the weight of the one entry it touches.
-/

namespace Verbs.Table

variable {κ α M : Type} [AddCommMonoid M]

def Unique (t : Table κ α) : Prop := t.keys.Nodup

def total (t : Table κ α) (w : κ → α → M) : M := (t.entries.map fun e => w e.1 e.2).sum

def contents (t : Table κ α) : Multiset (κ × α) := t.total fun k a => {(k, a)}

lemma unique_empty : (empty : Table κ α).Unique := List.nodup_nil

@[simp] lemma total_empty (w : κ → α → M) : (empty : Table κ α).total w = 0 := rfl

variable [DecidableEq κ]

/-! ### Keys -/

lemma find?_eq_none_iff {es : List (κ × α)} {k : κ} :
    find? es k = none ↔ k ∉ es.map (·.1) := by
  induction es with
  | nil => simp [find?]
  | cons e r ih =>
    obtain ⟨j, a⟩ := e
    by_cases h : j = k
    · simp [find?, h]
    · simp [find?, h, ih, Ne.symm h]

lemma get?_eq_none_iff {t : Table κ α} {k : κ} : t.get? k = none ↔ k ∉ t.keys :=
  find?_eq_none_iff

lemma mem_of_find? {es : List (κ × α)} {k : κ} {a : α} (h : find? es k = some a) :
    (k, a) ∈ es := by
  induction es with
  | nil => simp [find?] at h
  | cons e r ih =>
    obtain ⟨j, b⟩ := e
    by_cases hj : j = k
    · simp only [find?, hj, if_true, Option.some.injEq] at h
      simp [hj, h]
    · simp only [find?, hj, if_false] at h
      exact List.mem_cons_of_mem _ (ih h)

lemma find?_of_mem {es : List (κ × α)} {k : κ} {a : α} (hu : (es.map (·.1)).Nodup)
    (h : (k, a) ∈ es) : find? es k = some a := by
  induction es with
  | nil => simp at h
  | cons e r ih =>
    obtain ⟨j, b⟩ := e
    rw [List.map_cons, List.nodup_cons] at hu
    rcases List.mem_cons.mp h with he | hr
    · cases he
      simp [find?]
    · have hj : j ≠ k := by
        rintro rfl
        exact hu.1 (List.mem_map.mpr ⟨_, hr, rfl⟩)
      simp only [find?, hj, if_false]
      exact ih hu.2 hr

lemma mem_entries_iff {t : Table κ α} (hu : t.Unique) {k : κ} {a : α} :
    (k, a) ∈ t.entries ↔ t.get? k = some a :=
  ⟨find?_of_mem hu, mem_of_find?⟩

@[simp] lemma keys_modify (t : Table κ α) (k : κ) (f : α → α) : (t.modify k f).keys = t.keys := by
  simp [modify, keys, Function.comp_def]

lemma unique_modify {t : Table κ α} (hu : t.Unique) (k : κ) (f : α → α) :
    (t.modify k f).Unique := by
  rw [Unique, keys_modify]
  exact hu

lemma unique_set {t : Table κ α} (hu : t.Unique) (k : κ) (a : α) : (t.set k a).Unique := by
  unfold set contains
  split
  · exact unique_modify hu k _
  · rename_i h
    have hk : k ∉ t.keys := get?_eq_none_iff.mp (by simpa using h)
    have hkeys : (⟨t.entries ++ [(k, a)]⟩ : Table κ α).keys = t.keys ++ [k] := by simp [keys]
    rw [Unique, hkeys, List.nodup_append]
    refine ⟨hu, List.nodup_singleton k, ?_⟩
    rintro j hj i hi rfl
    rw [List.mem_singleton] at hi
    exact hk (hi ▸ hj)

lemma unique_erase {t : Table κ α} (hu : t.Unique) (k : κ) : (t.erase k).Unique :=
  hu.sublist (List.filter_sublist.map _)

lemma set_eq_modify {t : Table κ α} {k : κ} {a b : α} (h : t.get? k = some a) :
    t.set k b = t.modify k fun _ => b := by
  simp [set, contains, h]

/-! ### One operation after another -/

lemma modify_modify_self (t : Table κ α) (k : κ) (f g : α → α) :
    (t.modify k f).modify k g = t.modify k (g ∘ f) := by
  simp only [modify, List.map_map, Function.comp_def]
  refine congrArg Table.mk (List.map_congr_left fun e _ => ?_)
  split <;> rfl

lemma modify_comm (t : Table κ α) {j k : κ} (h : j ≠ k) (f g : α → α) :
    (t.modify j f).modify k g = (t.modify k g).modify j f := by
  simp only [modify, List.map_map, Function.comp_def]
  refine congrArg Table.mk (List.map_congr_left fun e _ => ?_)
  by_cases hj : e.1 = j
  · simp [hj, h]
  · simp [hj]

lemma modify_of_none {t : Table κ α} {k : κ} (h : t.get? k = none) (f : α → α) :
    t.modify k f = t := by
  obtain ⟨es⟩ := t
  refine congrArg Table.mk ((List.map_congr_left fun e he => ?_).trans (List.map_id es))
  have hne : e.1 ≠ k := fun heq => get?_eq_none_iff.mp h (List.mem_map.mpr ⟨e, he, heq⟩)
  simp [hne]

lemma set_of_none {t : Table κ α} {k : κ} (h : t.get? k = none) (a : α) :
    t.set k a = ⟨t.entries ++ [(k, a)]⟩ := by
  simp [set, contains, h]

lemma set_set (t : Table κ α) (k : κ) (a b : α) : (t.set k a).set k b = t.set k b := by
  rcases h : t.get? k with - | c
  · have hmodify := congrArg entries (modify_of_none h fun _ => b)
    rw [set_eq_modify (get?_set_self t k a), set_of_none h, set_of_none h]
    simp only [modify] at hmodify ⊢
    rw [List.map_append, hmodify]
    simp
  · rw [set_eq_modify (get?_set_self t k a), set_eq_modify h, set_eq_modify h, modify_modify_self]
    rfl

lemma erase_of_none {t : Table κ α} {k : κ} (h : t.get? k = none) : t.erase k = t := by
  obtain ⟨es⟩ := t
  refine congrArg Table.mk (List.filter_eq_self.mpr fun e he => decide_eq_true fun heq => ?_)
  exact get?_eq_none_iff.mp h (List.mem_map.mpr ⟨e, he, heq⟩)

lemma erase_set {t : Table κ α} {k : κ} (h : t.get? k = none) (a : α) :
    (t.set k a).erase k = t := by
  rw [set_of_none h, erase, List.filter_append, List.filter_cons_of_neg (by simp)]
  exact (congrArg Table.mk (List.append_nil _)).trans (erase_of_none h)

/-! ### Totals -/

lemma total_modify_of_find? {es : List (κ × α)} {k : κ} {a b : α} (w : κ → α → M)
    (hu : (es.map (·.1)).Nodup) (h : find? es k = some a) :
    ((es.map fun e => (e.1, if e.1 = k then b else e.2)).map fun e => w e.1 e.2).sum + w k a =
      (es.map fun e => w e.1 e.2).sum + w k b := by
  induction es with
  | nil => simp [find?] at h
  | cons e r ih =>
    obtain ⟨j, c⟩ := e
    rw [List.map_cons, List.nodup_cons] at hu
    by_cases hj : j = k
    · subst hj
      -- the key is not met again, so the rest of the entries stays
      have hrest : (r.map fun e => (e.1, if e.1 = j then b else e.2)) = r := by
        conv_rhs => rw [← List.map_id r]
        refine List.map_congr_left fun e he => ?_
        have : e.1 ≠ j := fun hej => hu.1 (List.mem_map.mpr ⟨e, he, hej⟩)
        simp [this]
      simp only [find?, if_true, Option.some.injEq] at h
      simp only [List.map_cons, if_true, hrest, List.sum_cons, h]
      abel
    · simp only [find?, hj, if_false] at h
      have := ih hu.2 h
      simp only [List.map_cons, hj, if_false, List.sum_cons]
      rw [add_assoc, this, add_assoc]

lemma total_modify_add {t : Table κ α} (hu : t.Unique) {k : κ} {a : α} (h : t.get? k = some a)
    (b : α) (w : κ → α → M) : (t.modify k fun _ => b).total w + w k a = t.total w + w k b :=
  total_modify_of_find? w hu h

lemma total_set_add {t : Table κ α} (hu : t.Unique) {k : κ} {a : α} (h : t.get? k = some a)
    (b : α) (w : κ → α → M) : (t.set k b).total w + w k a = t.total w + w k b := by
  rw [set_eq_modify h]
  exact total_modify_add hu h b w

lemma total_set_of_none {t : Table κ α} {k : κ} (h : t.get? k = none) (a : α)
    (w : κ → α → M) : (t.set k a).total w = t.total w + w k a := by
  simp [set, contains, h, total]

lemma total_erase_add {t : Table κ α} (hu : t.Unique) {k : κ} {a : α} (h : t.get? k = some a)
    (w : κ → α → M) : (t.erase k).total w + w k a = t.total w := by
  obtain ⟨es⟩ := t
  simp only [Unique, keys, get?, erase, total] at *
  induction es with
  | nil => simp [find?] at h
  | cons e r ih =>
    obtain ⟨j, c⟩ := e
    rw [List.map_cons, List.nodup_cons] at hu
    by_cases hj : j = k
    · subst hj
      have hrest : r.filter (fun e => e.1 ≠ j) = r := by
        refine List.filter_eq_self.mpr fun e he => ?_
        have : e.1 ≠ j := fun hej => hu.1 (List.mem_map.mpr ⟨e, he, hej⟩)
        simpa using this
      simp only [find?, if_true, Option.some.injEq] at h
      rw [List.filter_cons_of_neg (by simp), hrest, List.map_cons, List.sum_cons, h]
      abel
    · simp only [find?, hj, if_false] at h
      rw [List.filter_cons_of_pos (by simpa using hj), List.map_cons, List.map_cons,
        List.sum_cons, List.sum_cons, add_assoc, ih hu.2 h]

lemma mem_total {β : Type} {t : Table κ α} (hu : t.Unique) {w : κ → α → Multiset β} {x : β} :
    x ∈ t.total w ↔ ∃ k a, t.get? k = some a ∧ x ∈ w k a := by
  have hsum : ∀ l : List (Multiset β), x ∈ l.sum ↔ ∃ m ∈ l, x ∈ m := by
    intro l
    induction l with
    | nil => simp
    | cons m r ih => simp [ih]
  rw [total, hsum]
  constructor
  · rintro ⟨m, hm, hx⟩
    obtain ⟨⟨k, a⟩, he, rfl⟩ := List.mem_map.mp hm
    exact ⟨k, a, (mem_entries_iff hu).mp he, hx⟩
  · rintro ⟨k, a, h, hx⟩
    exact ⟨w k a, List.mem_map.mpr ⟨(k, a), (mem_entries_iff hu).mpr h, rfl⟩, hx⟩

lemma mem_contents {t : Table κ α} (hu : t.Unique) {k : κ} {a : α} :
    (k, a) ∈ t.contents ↔ t.get? k = some a := by
  rw [contents, mem_total hu]
  constructor
  · rintro ⟨j, b, h, hmem⟩
    obtain ⟨rfl, rfl⟩ : k = j ∧ a = b := by simpa using hmem
    exact h
  · exact fun h => ⟨k, a, h, Multiset.mem_singleton_self _⟩

end Verbs.Table
