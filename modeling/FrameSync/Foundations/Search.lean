import Mathlib.Algebra.Order.Group.Nat
import Mathlib.Data.List.Basic
import Mathlib.Tactic.Common

/-! # Binary search

The half-open binary search, over a list whose keys ascend strictly. It finds the element of a key, if
there is one (`search_eq_some`). -/

namespace FrameSync

namespace Search

variable {α : Type*} (key : α → ℕ)

/-- The loop of a binary search for `k` in the places from `lo` up to `hi`. Each round makes the
interval smaller, so `fuel` rounds are enough for an interval of that length. -/
def searchLoop (xs : List α) (k : ℕ) : ℕ → ℕ → ℕ → Option α
  | 0, _, _ => none
  | fuel + 1, lo, hi =>
      if lo < hi then
        xs[(lo + hi) / 2]?.bind fun x =>
          if key x = k then some x
          else if key x < k then searchLoop xs k fuel ((lo + hi) / 2 + 1) hi
          else searchLoop xs k fuel lo ((lo + hi) / 2)
      else none

/-- Binary search for `k` in all of the list. -/
def search (xs : List α) (k : ℕ) : Option α := searchLoop key xs k xs.length 0 xs.length

variable {key}

/-- Nothing is left when the interval is empty. -/
theorem not_mem_of_empty {xs : List α} {k lo hi : ℕ} {x : α} (hle : hi ≤ lo)
    (hbefore : ∀ i, i < lo → ∀ y, xs[i]? = some y → key y < k)
    (hafter : ∀ i, hi ≤ i → ∀ y, xs[i]? = some y → k < key y) : ¬ (x ∈ xs ∧ key x = k) := by
  rintro ⟨hx, hkey⟩
  obtain ⟨i, hi'⟩ := List.mem_iff_getElem?.mp hx
  rcases Nat.lt_or_ge i lo with h | h
  · exact (hbefore i h x hi').ne hkey
  · exact (hafter i (hle.trans h) x hi').ne' hkey

/-- What is before the interval is too small, and what is after it too large. -/
theorem searchLoop_eq_some {xs : List α} (hsorted : xs.Pairwise fun x y : α => key x < key y) {k : ℕ} {x : α}
    {fuel lo hi : ℕ} (hfuel : hi - lo ≤ fuel) (hhi : hi ≤ xs.length)
    (hbefore : ∀ i, i < lo → ∀ y, xs[i]? = some y → key y < k)
    (hafter : ∀ i, hi ≤ i → ∀ y, xs[i]? = some y → k < key y) :
    searchLoop key xs k fuel lo hi = some x ↔ x ∈ xs ∧ key x = k := by
  have hlt : ∀ i j : ℕ, i < j → ∀ y z, xs[i]? = some y → xs[j]? = some z → key y < key z := by
    intro i j hij y z hy hz
    obtain ⟨hi', rfl⟩ := List.getElem?_eq_some_iff.mp hy
    obtain ⟨hj', rfl⟩ := List.getElem?_eq_some_iff.mp hz
    exact List.pairwise_iff_getElem.mp hsorted i j hi' hj' hij
  induction fuel generalizing lo hi with
  | zero => exact iff_of_false (fun h => by cases h) (not_mem_of_empty (by omega) hbefore hafter)
  | succ fuel ih =>
      rw [searchLoop]
      split
      · rename_i hopen
        have hmid : (lo + hi) / 2 < xs.length := by omega
        rw [List.getElem?_eq_getElem hmid, Option.bind_some]
        have hget : xs[(lo + hi) / 2]? = some xs[(lo + hi) / 2] := List.getElem?_eq_getElem hmid
        split_ifs with heq hless
        · -- the keys ascend, so no other element has this one
          rw [Option.some_inj]
          constructor
          · rintro rfl
            exact ⟨List.getElem_mem hmid, heq⟩
          · rintro ⟨hx, hkey⟩
            obtain ⟨i, hi'⟩ := List.mem_iff_getElem?.mp hx
            rcases Nat.lt_trichotomy i ((lo + hi) / 2) with h | h | h
            · exact absurd (hlt _ _ h _ _ hi' hget) (by omega)
            · rw [h, hget] at hi'
              exact Option.some.inj hi'
            · exact absurd (hlt _ _ h _ _ hget hi') (by omega)
        · -- the middle is too small, and so is what is before it
          refine ih (by omega) hhi (fun i hi' y hy => ?_) hafter
          rcases Nat.lt_or_eq_of_le (Nat.le_of_lt_succ hi') with h | rfl
          · exact (hlt _ _ h _ _ hy hget).trans hless
          · obtain rfl := Option.some.inj (hget.symm.trans hy)
            exact hless
        · -- the middle is too large, and so is what is after it
          refine ih (by omega) hmid.le hbefore fun i hi' y hy => ?_
          rcases Nat.lt_or_eq_of_le hi' with h | rfl
          · have hmore := hlt _ _ h _ _ hget hy
            omega
          · obtain rfl := Option.some.inj (hget.symm.trans hy)
            omega
      · exact iff_of_false (fun h => by cases h) (not_mem_of_empty (by omega) hbefore hafter)

/-- **Binary search** finds the element of the key. -/
theorem search_eq_some {xs : List α} (hsorted : xs.Pairwise fun x y : α => key x < key y) {k : ℕ} {x : α} :
    search key xs k = some x ↔ x ∈ xs ∧ key x = k := by
  refine searchLoop_eq_some hsorted (Nat.le_of_eq (Nat.sub_zero xs.length)) (Nat.le_refl _)
    (fun i hi => absurd hi (Nat.not_lt_zero i)) ?_
  intro i hi y hy
  rw [List.getElem?_eq_none hi] at hy
  cases hy

end Search

end FrameSync
