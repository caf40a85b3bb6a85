import Mathlib.Algebra.BigOperators.Group.Multiset.Basic
import Mathlib.Tactic
import Verbs.Executor.Registry
import Verbs.Proofs.Table

/-!
What a registry holds after a callback was taken out, and the tokens that it hands out.
-/

namespace Verbs.Registry

variable {κ : Type}

/-! ### Taking out -/

section Take

variable (r : Registry κ) (token : UInt64)

lemma take_fst : (r.take token).1 = r.callbacks.get? token := by
  simp only [take]
  split <;> rename_i h <;> simp [h]

lemma get?_take (t : UInt64) : (r.take token).2.callbacks.get? t =
    if t = token then none else r.callbacks.get? t := by
  simp only [take]
  split
  · rename_i h
    split
    · rename_i ht
      rw [ht, h]
    · rfl
  · exact Table.get?_erase _ _ _

@[simp] lemma take_next : (r.take token).2.next = r.next := by
  simp only [take]
  split <;> rfl

@[simp] lemma take_closed : (r.take token).2.closed = r.closed := by
  simp only [take]
  split <;> rfl

lemma takeAll_cons (tokens : List UInt64) : r.takeAll (token :: tokens) =
    ((r.take token).1.toList ++ ((r.take token).2.takeAll tokens).1,
      ((r.take token).2.takeAll tokens).2) := by
  rcases htake : r.take token with ⟨- | cb, r'⟩ <;> simp [takeAll, htake]

variable {r}

lemma unique_take (h : r.callbacks.Unique) : (r.take token).2.callbacks.Unique := by
  simp only [take]
  split
  · exact h
  · exact Table.unique_erase h token

lemma contents_take (h : r.callbacks.Unique) : (r.take token).2.callbacks.contents +
    ((r.take token).1.toList.map (token, ·) : Multiset (UInt64 × κ)) = r.callbacks.contents := by
  simp only [take]
  split
  · exact add_zero _
  · rename_i cb hcb
    exact Table.total_erase_add h hcb _

end Take

/-! ### Tokens -/

lemma ofNat_succ_inj {j k : Nat} (hj : j + 1 < 2 ^ 64) (hk : k + 1 < 2 ^ 64)
    (h : UInt64.ofNat (j + 1) = UInt64.ofNat (k + 1)) : j = k := by
  have hsize : UInt64.size = 2 ^ 64 := rfl
  have := congrArg UInt64.toNat h
  rw [UInt64.toNat_ofNat_of_lt' (by omega), UInt64.toNat_ofNat_of_lt' (by omega)] at this
  omega

lemma nodup_tokens {k : Nat} (h : k < 2 ^ 64) :
    ((List.range k).map fun i => UInt64.ofNat (i + 1)).Nodup := by
  refine List.Nodup.map_on (fun i hi j hj heq => ?_) List.nodup_range
  have hi' := List.mem_range.mp hi
  have hj' := List.mem_range.mp hj
  exact ofNat_succ_inj (by omega) (by omega) heq

end Verbs.Registry
