/-!
Finite tables: each key has at most one value, and entries keep the order in which their keys
came. A table is seen through `get?`: the lemmas say what each operation does to that view.
-/

namespace Verbs

/-- A finite table from keys to values. -/
structure Table (κ α : Type) where
  entries : List (κ × α) := []
  deriving Repr

namespace Table

variable {κ α : Type} [DecidableEq κ]

def empty : Table κ α := {}

instance : Inhabited (Table κ α) := ⟨empty⟩

/-- The value found first under a key in a list of entries. -/
def find? : List (κ × α) → κ → Option α
  | [], _ => none
  | (j, a) :: r, k => if j = k then some a else find? r k

def get? (t : Table κ α) (k : κ) : Option α := find? t.entries k

def contains (t : Table κ α) (k : κ) : Bool := (t.get? k).isSome

/-- The table with the value of one key changed, where it has one. -/
def modify (t : Table κ α) (k : κ) (f : α → α) : Table κ α :=
  ⟨t.entries.map fun (j, a) => (j, if j = k then f a else a)⟩

/-- The table with `a` as the value of `k`, in the place of an earlier value or at the end. -/
def set (t : Table κ α) (k : κ) (a : α) : Table κ α :=
  if t.contains k then t.modify k fun _ => a else ⟨t.entries ++ [(k, a)]⟩

def erase (t : Table κ α) (k : κ) : Table κ α := ⟨t.entries.filter (·.1 ≠ k)⟩

def size (t : Table κ α) : Nat := t.entries.length

def keys (t : Table κ α) : List κ := t.entries.map (·.1)

def values (t : Table κ α) : List α := t.entries.map (·.2)

@[simp] theorem get?_empty (k : κ) : (empty : Table κ α).get? k = none := rfl

theorem find?_map (es : List (κ × α)) (k j : κ) (f : α → α) :
    find? (es.map fun (i, a) => (i, if i = k then f a else a)) j =
      if j = k then (find? es j).map f else find? es j := by
  induction es with
  | nil => simp [find?]
  | cons e r ih =>
    obtain ⟨i, a⟩ := e
    by_cases hij : i = j
    · subst hij; by_cases hik : i = k <;> simp [find?, hik]
    · simp only [List.map_cons, find?, hij, if_false]; exact ih

theorem find?_append (es fs : List (κ × α)) (k : κ) :
    find? (es ++ fs) k = (find? es k).or (find? fs k) := by
  induction es with
  | nil => rfl
  | cons e r ih =>
    obtain ⟨i, a⟩ := e
    by_cases h : i = k <;> simp [find?, h, ih]

theorem find?_filter (es : List (κ × α)) (k j : κ) :
    find? (es.filter (·.1 ≠ k)) j = if j = k then none else find? es j := by
  induction es with
  | nil => simp [find?]
  | cons e r ih =>
    obtain ⟨i, a⟩ := e
    by_cases hik : i = k
    · subst hik
      rw [List.filter_cons_of_neg (by simp), ih]
      by_cases hj : j = i
      · simp [hj]
      · simp [find?, hj, Ne.symm hj]
    · rw [List.filter_cons_of_pos (by simpa using hik)]
      by_cases hij : i = j
      · subst hij; simp [find?, hik]
      · simp only [find?, hij, if_false]; exact ih

theorem get?_modify (t : Table κ α) (k j : κ) (f : α → α) :
    (t.modify k f).get? j = if j = k then (t.get? j).map f else t.get? j :=
  find?_map t.entries k j f

theorem get?_set (t : Table κ α) (k j : κ) (a : α) :
    (t.set k a).get? j = if j = k then some a else t.get? j := by
  unfold set contains
  split
  · rename_i h
    rw [get?_modify]
    by_cases hj : j = k
    · subst hj
      obtain ⟨b, hb⟩ := Option.isSome_iff_exists.1 h
      simp [hb]
    · simp [hj]
  · rename_i h
    have hn : find? t.entries k = none := by simpa [get?] using h
    simp only [get?, find?_append]
    by_cases hj : j = k
    · subst hj; simp [hn, find?]
    · simp [find?, hj, Ne.symm hj]

@[simp] theorem get?_set_self (t : Table κ α) (k : κ) (a : α) : (t.set k a).get? k = some a := by
  simp [get?_set]

theorem get?_set_of_ne (t : Table κ α) {k j : κ} (a : α) (h : j ≠ k) :
    (t.set k a).get? j = t.get? j := by
  simp [get?_set, h]

theorem get?_erase (t : Table κ α) (k j : κ) :
    (t.erase k).get? j = if j = k then none else t.get? j :=
  find?_filter t.entries k j

@[simp] theorem get?_erase_self (t : Table κ α) (k : κ) : (t.erase k).get? k = none := by
  simp [get?_erase]

/-- A sum over all values falls by what the first value under a key loses, at least, when that key's
values are replaced by one that weighs `w b`. -/
theorem sum_modify_add_le (t : Table κ α) (k : κ) (a b : α) (w : α → Nat)
    (ha : t.get? k = some a) (hb : ∀ x, w b ≤ w x) :
    ((t.modify k fun _ => b).values.map w).foldr (· + ·) 0 + w a ≤
      (t.values.map w).foldr (· + ·) 0 + w b := by
  obtain ⟨es⟩ := t
  simp only [get?, modify, values, List.map_map] at ha ⊢
  induction es with
  | nil => simp [find?] at ha
  | cons e r ih =>
    obtain ⟨i, c⟩ := e
    have hle : ∀ es : List (κ × α),
        (es.map (w ∘ (·.2) ∘ fun (j, x) => (j, if j = k then b else x))).foldr (· + ·) 0 ≤
          (es.map (w ∘ (·.2))).foldr (· + ·) 0 := by
      intro es
      induction es with
      | nil => simp
      | cons f s ihs =>
        obtain ⟨j, x⟩ := f
        have hx := hb x
        simp only [List.map_cons, List.foldr_cons, Function.comp_apply] at ihs ⊢
        split <;> omega
    by_cases hik : i = k
    · simp only [find?, hik, if_true, Option.some.injEq] at ha
      subst ha
      have := hle r
      simp only [List.map_cons, List.foldr_cons, Function.comp_apply, hik, if_true] at this ⊢
      omega
    · simp only [find?, hik, if_false] at ha
      have := ih ha
      simp only [List.map_cons, List.foldr_cons, Function.comp_apply, hik, if_false] at this ⊢
      omega

end Table

end Verbs
