import Mathlib.Algebra.Order.Group.Nat
import Mathlib.Data.List.Basic
import Mathlib.Logic.Function.Basic
import Mathlib.Tactic.Common

/-! # Ring buffers that grow

An array with a head and a tail that go around its end. A push that fills the array moves the elements to the
beginning of a larger one. Whatever the way the array grows, it is a queue: a push adds at the end of
the list that the ring stands for, and a pop takes from its front (`Stands.push`, `Stands.pop`). -/

namespace FrameSync

/-- An array of `cap` cells, with the places of its first element and behind its last. -/
structure Ring (α : Type*) where
  /-- The number of cells. -/
  cap : ℕ
  /-- The place of the first element. -/
  head : ℕ
  /-- The place for the next one. -/
  tail : ℕ
  /-- The cells. What was never written is `none`. -/
  cells : ℕ → Option α

namespace Ring

variable {α : Type*}

/-- A ring with no elements. -/
def empty (cap : ℕ) : Ring α := ⟨cap, 0, 0, fun _ => none⟩

/-- The next place. -/
def next (cap i : ℕ) : ℕ := if cap ≤ i + 1 then 0 else i + 1

/-- A ring of `cap` cells that are all in use, in an array of `cap'` cells. -/
def expand (cap' : ℕ) (r : Ring α) : Ring α :=
  ⟨cap', 0, r.cap, fun i => if i < r.cap then r.cells ((r.head + i) % r.cap) else none⟩

/-- Write an element, and expand the ring if that was the last cell. -/
def push (grow : ℕ → ℕ) (r : Ring α) (x : α) : Ring α :=
  let r' : Ring α := { r with tail := next r.cap r.tail, cells := Function.update r.cells r.tail (some x) }
  if r'.head = r'.tail then r'.expand (grow r.cap) else r'

/-- The first element, if there is one. -/
def pop (r : Ring α) : Option α × Ring α :=
  if r.head = r.tail then (none, r) else (r.cells r.head, { r with head := next r.cap r.head })

/-- The number of elements. -/
def length (r : Ring α) : ℕ := if r.head ≤ r.tail then r.tail - r.head else r.tail + r.cap - r.head

/-- The elements. -/
def contents (r : Ring α) : List α := (List.range r.length).filterMap fun i => r.cells ((r.head + i) % r.cap)

/-- The ring stands for the list `l`. -/
structure Stands (r : Ring α) (l : List α) : Prop where
  /-- The head is a place of the array. -/
  head_lt : r.head < r.cap
  /-- One cell is free. -/
  length_lt : l.length < r.cap
  /-- The tail is behind the last element. -/
  tail_eq : r.tail = (r.head + l.length) % r.cap
  /-- The elements are in the cells from the head on. -/
  cells_eq : ∀ i, i < l.length → r.cells ((r.head + i) % r.cap) = l[i]?

/-- Around the end at most once. -/
theorem mod_eq {cap a i : ℕ} (ha : a < cap) (hi : i ≤ cap) :
    (a + i) % cap = if a + i < cap then a + i else a + i - cap := by
  split_ifs with h
  · exact Nat.mod_eq_of_lt h
  · rw [Nat.mod_eq_sub_mod (by omega), Nat.mod_eq_of_lt (by omega)]

/-- A step of the tail. -/
theorem next_mod {cap a i : ℕ} (ha : a < cap) (hi : i < cap) :
    next cap ((a + i) % cap) = (a + (i + 1)) % cap := by
  rw [mod_eq ha hi.le, mod_eq ha hi, next]
  split_ifs <;> omega

/-- Two places are different. -/
theorem mod_ne {cap a i j : ℕ} (ha : a < cap) (hi : i < cap) (hj : j < cap) (hij : i ≠ j) :
    (a + i) % cap ≠ (a + j) % cap := by
  rw [mod_eq ha hi.le, mod_eq ha hj.le]
  split_ifs <;> omega

theorem stands_empty {cap : ℕ} (h : 0 < cap) : (empty cap : Ring α).Stands [] where
  head_lt := h
  length_lt := h
  tail_eq := rfl
  cells_eq := fun i hi => absurd hi (Nat.not_lt_zero i)

theorem Stands.length_eq {r : Ring α} {l : List α} (h : r.Stands l) : r.length = l.length := by
  have hlength := h.length_lt
  have hhead := h.head_lt
  rw [length, h.tail_eq, mod_eq hhead hlength.le]
  split_ifs <;> omega

theorem Stands.contents_eq {r : Ring α} {l : List α} (h : r.Stands l) : r.contents = l := by
  have hcells : ∀ n ≤ l.length,
      (List.range n).filterMap (fun i => r.cells ((r.head + i) % r.cap)) = l.take n := by
    intro n hn
    induction n with
    | zero => rfl
    | succ n ih =>
        have hcell := h.cells_eq n hn
        rw [List.getElem?_eq_getElem hn] at hcell
        rw [List.range_succ, List.filterMap_append, ih (Nat.le_of_succ_le hn), List.take_add_one,
          List.getElem?_eq_getElem hn]
        simp [hcell]
  rw [contents, h.length_eq, hcells l.length le_rfl, List.take_length]

/-- **A push adds at the end.** -/
theorem Stands.push {r : Ring α} {l : List α} (h : r.Stands l) (grow : ℕ → ℕ) (hgrow : r.cap < grow r.cap)
    (x : α) : (r.push grow x).Stands (l ++ [x]) := by
  have hwritten : ∀ i, i < (l ++ [x]).length →
      Function.update r.cells r.tail (some x) ((r.head + i) % r.cap) = (l ++ [x])[i]? := by
    intro i hi
    rw [List.length_append, List.length_singleton] at hi
    rcases Nat.lt_or_eq_of_le (Nat.le_of_lt_succ hi) with hold | rfl
    · have hne : (r.head + i) % r.cap ≠ r.tail := by
        rw [h.tail_eq]
        exact mod_ne h.head_lt (hold.trans h.length_lt) h.length_lt hold.ne
      rw [Function.update_of_ne hne, h.cells_eq i hold, List.getElem?_append_left hold]
    · rw [← h.tail_eq, Function.update_self, List.getElem?_append_right le_rfl, Nat.sub_self]
      rfl
  have htail : next r.cap r.tail = (r.head + (l ++ [x]).length) % r.cap := by
    rw [h.tail_eq, next_mod h.head_lt h.length_lt, List.length_append, List.length_singleton]
  have hfull : r.head = next r.cap r.tail ↔ (l ++ [x]).length = r.cap := by
    have hlength := h.length_lt
    rw [htail, List.length_append, List.length_singleton, mod_eq h.head_lt hlength]
    have hhead := h.head_lt
    split_ifs <;> omega
  rw [Ring.push]
  dsimp only
  split_ifs with hexpand
  · -- the list starts at 0 in the new array
    have hlength := hfull.mp hexpand
    refine ⟨Nat.lt_of_le_of_lt (Nat.zero_le _) hgrow, hlength ▸ hgrow, ?_, fun i hi => ?_⟩
    · rw [expand, Nat.zero_add, hlength, Nat.mod_eq_of_lt hgrow]
    · have hi' : i < r.cap := hlength ▸ hi
      simp only [expand, Nat.zero_add, Nat.mod_eq_of_lt (hi'.trans hgrow), if_pos hi']
      exact hwritten i hi
  · refine ⟨h.head_lt, ?_, htail, hwritten⟩
    have hlength := h.length_lt
    have hne := mt hfull.mpr hexpand
    rw [List.length_append, List.length_singleton] at hne ⊢
    exact Nat.lt_of_le_of_ne hlength hne

/-- **A pop takes from the front**, and nothing but what was pushed. -/
theorem Stands.pop {r : Ring α} {l : List α} (h : r.Stands l) :
    r.pop.1 = l.head? ∧ r.pop.2.Stands l.tail ∧ r.pop.2.cap = r.cap := by
  have hempty : r.head = r.tail ↔ l = [] := by
    have hlength := h.length_lt
    have hhead := h.head_lt
    rw [h.tail_eq, mod_eq hhead hlength.le, ← List.length_eq_zero_iff]
    split_ifs <;> omega
  rw [Ring.pop]
  cases l with
  | nil =>
      rw [if_pos (hempty.mpr rfl)]
      exact ⟨rfl, h, rfl⟩
  | cons x l =>
      have hlength : l.length + 1 < r.cap := h.length_lt
      have hnext : next r.cap r.head = (r.head + 1) % r.cap := by
        have hstep := next_mod h.head_lt (Nat.lt_of_le_of_lt (Nat.zero_le _) h.head_lt)
        rwa [Nat.add_zero, Nat.mod_eq_of_lt h.head_lt] at hstep
      have hplace : ∀ i, i ≤ l.length → (next r.cap r.head + i) % r.cap = (r.head + (i + 1)) % r.cap := by
        intro i _
        rw [hnext, Nat.mod_add_mod, Nat.add_assoc, Nat.add_comm 1 i]
      rw [if_neg (mt hempty.mp (List.cons_ne_nil x l))]
      refine ⟨?_, ⟨?_, ?_, ?_, fun i hi => ?_⟩, rfl⟩
      · have hfirst := h.cells_eq 0 (Nat.succ_pos _)
        rwa [Nat.add_zero, Nat.mod_eq_of_lt h.head_lt] at hfirst
      · show next r.cap r.head < r.cap
        rw [hnext]
        exact Nat.mod_lt _ (Nat.lt_of_le_of_lt (Nat.zero_le _) h.head_lt)
      · exact Nat.lt_of_succ_lt hlength
      · show r.tail = (next r.cap r.head + l.length) % r.cap
        rw [hplace l.length le_rfl]
        exact h.tail_eq
      · show r.cells ((next r.cap r.head + i) % r.cap) = l[i]?
        rw [hplace i (Nat.le_of_lt hi), h.cells_eq (i + 1) (Nat.succ_lt_succ hi)]
        rfl

end Ring

end FrameSync
