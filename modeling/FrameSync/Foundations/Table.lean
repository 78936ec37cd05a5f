import Mathlib.Algebra.BigOperators.Group.List.Basic
import Mathlib.Data.List.AList
import Mathlib.Tactic.Abel

/-! # Association lists

What a replacement does to a lookup, and what each change does to the total of a weight over the
values. -/

namespace AList

variable {α β : Type*} [DecidableEq α]

/-- Looking up a key after the value under a key was replaced. -/
theorem lookup_replace_eq (t : AList fun _ : α => β) (a a' : α) (b : β) :
    (t.replace a b).lookup a' = if a' = a then (t.lookup a).map fun _ => b else t.lookup a' := by
  obtain ⟨l, hl⟩ := t
  show List.dlookup a' (List.kreplace a b l)
    = if a' = a then (List.dlookup a l).map fun _ => b else List.dlookup a' l
  clear hl
  induction l with
  | nil => simp [List.kreplace]
  | cons e l ih =>
      obtain ⟨c, v⟩ := e
      by_cases hc : a = c
      · subst hc
        rw [List.kreplace, List.lookmap_cons_some _ _ (by rw [if_pos rfl])]
        by_cases ha : a' = a
        · subst ha; simp
        · rw [if_neg ha, List.dlookup_cons_ne _ _ (by exact ha),
            List.dlookup_cons_ne _ _ (by exact ha)]
      · rw [List.kreplace, List.lookmap_cons_none _ _ (by rw [if_neg hc]),
          List.dlookup_cons_ne l (Sigma.mk c v) (by exact hc)]
        by_cases ha : a' = c
        · subst ha; simp [Ne.symm hc]
        · rw [List.dlookup_cons_ne _ _ (by exact ha), List.dlookup_cons_ne _ _ (by exact ha)]
          exact ih

/-! ## Totals -/

variable {M : Type*} [AddCommGroup M] (w : β → M)

/-- The total weight of the values. -/
def total (t : AList fun _ : α => β) : M := (t.entries.map fun e => w e.2).sum

/-- A new key adds the weight of its value. -/
theorem total_insert {t : AList fun _ : α => β} {a : α} (h : t.lookup a = none) (b : β) :
    total w (t.insert a b) = w b + total w t := by
  rw [total, entries_insert_of_notMem (lookup_eq_none.mp h), List.map_cons, List.sum_cons]
  rfl

/-- A list with a value has the weight of the value, and that of the rest. -/
private theorem sum_kerase {l : List (Sigma fun _ : α => β)} {a : α} {b : β}
    (h : List.dlookup a l = some b) :
    (l.map fun e => w e.2).sum = w b + ((List.kerase a l).map fun e => w e.2).sum := by
  induction l with
  | nil => cases h
  | cons e l ih =>
      obtain ⟨c, v⟩ := e
      by_cases hc : a = c
      · subst hc
        rw [List.dlookup_cons_eq] at h
        obtain rfl := Option.some.inj h
        have hkerase : List.kerase a (⟨a, v⟩ :: l : List (Sigma fun _ : α => β)) = l :=
          List.kerase_cons_eq rfl
        rw [hkerase, List.map_cons, List.sum_cons]
      · rw [List.dlookup_cons_ne _ _ hc] at h
        rw [List.kerase_cons_ne (by exact hc), List.map_cons, List.sum_cons, ih h, List.map_cons, List.sum_cons]
        abel

/-- A key that is deleted takes the weight of its value away. -/
theorem total_erase {t : AList fun _ : α => β} {a : α} {b : β} (h : t.lookup a = some b) :
    total w (t.erase a) = total w t - w b := by
  have hsum : total w t = w b + total w (t.erase a) := sum_kerase w h
  rw [hsum, add_sub_cancel_left]

private theorem sum_kreplace {l : List (Sigma fun _ : α => β)} {a : α} {b : β}
    (h : List.dlookup a l = some b) (b' : β) :
    ((List.kreplace a b' l).map fun e => w e.2).sum = (l.map fun e => w e.2).sum - w b + w b' := by
  induction l with
  | nil => cases h
  | cons e l ih =>
      obtain ⟨c, v⟩ := e
      by_cases hc : a = c
      · subst hc
        rw [List.dlookup_cons_eq] at h
        obtain rfl := Option.some.inj h
        rw [List.kreplace, List.lookmap_cons_some _ _ (by rw [if_pos rfl]), List.map_cons, List.map_cons,
          List.sum_cons, List.sum_cons]
        abel
      · rw [List.dlookup_cons_ne _ _ hc] at h
        rw [List.kreplace, List.lookmap_cons_none _ _ (by rw [if_neg hc]), List.map_cons, List.map_cons,
          List.sum_cons, List.sum_cons, ← List.kreplace, ih h]
        abel

/-- A value that is replaced changes the total by the difference. -/
theorem total_replace {t : AList fun _ : α => β} {a : α} {b : β} (h : t.lookup a = some b) (b' : β) :
    total w (t.replace a b') = total w t - w b + w b' := sum_kreplace w h b'

/-- Weights that agree on the values have the same total. -/
theorem total_congr {w w' : β → M} {t : AList fun _ : α => β}
    (h : ∀ a b, t.lookup a = some b → w b = w' b) : total w t = total w' t := by
  rw [total, total]
  congr 1
  refine List.map_congr_left fun e he => h e.1 e.2 ?_
  exact mem_lookup_iff.mpr he

end AList
