import Mathlib.Data.List.Basic
import Mathlib.Logic.Function.Basic
import Mathlib.Tactic.Common

/-! # Elements in the slots of their keys

A table of lists, where each element of a list `l` stands in the slot of its key, behind those that came
before it: the slot `s` is the part of `l` with the key `s` (`Sorts`). When the keys change, and only those
in one slot do, it is enough to take the elements of that slot and to put each behind what is in the slot of
its new key (`Sorts.move`), as long as no slot gets elements from two. -/

namespace FrameSync

variable {α σ : Type*} [DecidableEq σ]

/-- The slots have the elements of `l` in the order of `l`, each in the slot of its key. -/
def Sorts (slots : σ → List α) (key : α → σ) (l : List α) : Prop := ∀ s, slots s = l.filter fun x => key x = s

/-- Put an element behind those in a slot. -/
def putSlot (slots : σ → List α) (s : σ) (x : α) : σ → List α := Function.update slots s (slots s ++ [x])

/-- Put each element of a list into its slot. -/
def putSlots (key : α → σ) (slots : σ → List α) (xs : List α) : σ → List α :=
  xs.foldl (fun slots x => putSlot slots (key x) x) slots

variable {slots : σ → List α} {key key' : α → σ} {l : List α}

theorem sorts_empty (key : α → σ) : Sorts (fun _ => []) key [] := fun _ => rfl

/-- **A new element.** -/
theorem Sorts.put (h : Sorts slots key l) (x : α) : Sorts (putSlot slots (key x) x) key (l ++ [x]) := by
  intro s
  rw [putSlot, List.filter_append]
  rcases eq_or_ne s (key x) with rfl | hne
  · rw [Function.update_self, h]
    simp
  · rw [Function.update_of_ne hne, h]
    simp [hne.symm]

theorem putSlots_apply (key : α → σ) (slots : σ → List α) (xs : List α) (s : σ) :
    putSlots key slots xs s = slots s ++ xs.filter fun x => key x = s := by
  induction xs generalizing slots with
  | nil => exact (List.append_nil _).symm
  | cons x xs ih =>
      rw [putSlots, List.foldl_cons, ← putSlots, ih, putSlot]
      rcases eq_or_ne s (key x) with rfl | hne
      · rw [Function.update_self, List.append_assoc, List.singleton_append, List.filter_cons_of_pos (by simp)]
      · rw [Function.update_of_ne hne, List.filter_cons_of_neg (by simpa using hne.symm)]

/-- **A slot is emptied.** -/
theorem Sorts.clear (h : Sorts slots key l) (s : σ) :
    Sorts (Function.update slots s []) key (l.filter fun x => key x ≠ s) := by
  intro t
  rw [List.filter_filter]
  rcases eq_or_ne t s with rfl | hne
  · rw [Function.update_self]
    exact (List.filter_eq_nil_iff.mpr fun x _ => by simp).symm
  · rw [Function.update_of_ne hne, h]
    refine List.filter_congr fun x _ => ?_
    by_cases hx : key x = t
    · simp [hx, hne]
    · simp [hx]

/-- **The elements of a slot move to their new slots.** The keys of the others do not change, and no two
elements of different slots come together. -/
theorem Sorts.move (h : Sorts slots key l) (s : σ) (hsame : ∀ x ∈ l, key x ≠ s → key' x = key x)
    (hapart : ∀ x ∈ l, ∀ y ∈ l, key' x = key' y → key x = key y) :
    Sorts (putSlots key' (Function.update slots s []) (slots s)) key' l := by
  intro t
  rw [putSlots_apply, h.clear s t, List.filter_filter, h s, List.filter_filter]
  by_cases hmoved : ∃ x ∈ l, key x = s ∧ key' x = t
  · -- all elements with this new key come from the slot
    obtain ⟨x, hx, hxs, hxt⟩ := hmoved
    have hall : ∀ y ∈ l, key' y = t → key y = s :=
      fun y hy hyt => (hapart y hy x hx (hyt.trans hxt.symm)).trans hxs
    have hnone : l.filter (fun y => decide (key y = t) && decide (key y ≠ s)) = [] := by
      refine List.filter_eq_nil_iff.mpr fun y hy hkey => ?_
      simp only [Bool.and_eq_true, decide_eq_true_eq] at hkey
      exact hkey.2 (hall y hy ((hsame y hy hkey.2).trans hkey.1))
    rw [hnone, List.nil_append]
    refine List.filter_congr fun y hy => ?_
    by_cases hyt : key' y = t
    · simp [hyt, hall y hy hyt]
    · simp [hyt]
  · have hnone : l.filter (fun y => decide (key' y = t) && decide (key y = s)) = [] := by
      refine List.filter_eq_nil_iff.mpr fun y hy hkey => ?_
      simp only [Bool.and_eq_true, decide_eq_true_eq] at hkey
      exact hmoved ⟨y, hy, hkey.2, hkey.1⟩
    rw [hnone, List.append_nil]
    refine List.filter_congr fun y hy => ?_
    by_cases hys : key y = s
    · have hyt : key' y ≠ t := fun hyt => hmoved ⟨y, hy, hys, hyt⟩
      simp [hys, hyt]
    · simp [hsame y hy hys, hys]

/-- The keys may change where they are not looked at. -/
theorem Sorts.congr (h : Sorts slots key l) (hsame : ∀ x ∈ l, key' x = key x) : Sorts slots key' l := by
  intro s
  rw [h]
  exact List.filter_congr fun x hx => by rw [hsame x hx]

end FrameSync
