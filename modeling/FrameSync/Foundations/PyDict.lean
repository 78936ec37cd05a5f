import Mathlib.Data.List.Basic
import Mathlib.Data.List.Perm.Basic
import Mathlib.Tactic.Common

/-! # Insertion-and-deletion tables

The keys of a hash table, where the order of iteration depends on every insertion and deletion made
so far and on nothing else. `PyDict` keeps that history; `DictOrder` is the order a runtime derives
from it. -/

namespace FrameSync

variable {κ : Type} [DecidableEq κ]

/-- A change of a table. -/
inductive DictOp (κ : Type)
  /-- `d[k] = v` -/
  | insert (k : κ)
  /-- `del d[k]` -/
  | delete (k : κ)
  deriving Repr, DecidableEq

/-- The keys after one more change. -/
def DictOp.apply (keys : List κ) : DictOp κ → List κ
  | .insert k => if k ∈ keys then keys else keys ++ [k]
  | .delete k => keys.erase k

/-- The keys a history leaves; the last change comes first in the history. -/
def DictOp.replay : List (DictOp κ) → List κ
  | [] => []
  | op :: ops => op.apply (replay ops)

/-- The keys of a table, with the history that made them. -/
@[ext] structure PyDict (κ : Type) [DecidableEq κ] where
  /-- All changes so far, the last one first. -/
  history : List (DictOp κ)
  /-- The keys, in order of insertion. -/
  keys : List κ
  /-- The keys are those the history leaves. -/
  keys_eq : keys = DictOp.replay history

instance : DecidableEq (PyDict κ) := fun d e =>
  decidable_of_iff (d.history = e.history) ⟨fun h => PyDict.ext h
    (by rw [d.keys_eq, e.keys_eq, h]), fun h => by rw [h]⟩

namespace PyDict

/-- `{}` -/
def empty : PyDict κ := ⟨[], [], rfl⟩

/-- `d[k] = v` -/
def insert (d : PyDict κ) (k : κ) : PyDict κ :=
  ⟨.insert k :: d.history, (DictOp.insert k).apply d.keys, by rw [DictOp.replay, ← d.keys_eq]⟩

/-- `del d[k]`, for a key that is present. -/
def delete (d : PyDict κ) (k : κ) : PyDict κ :=
  ⟨.delete k :: d.history, (DictOp.delete k).apply d.keys, by rw [DictOp.replay, ← d.keys_eq]⟩

/-- No key occurs twice. -/
theorem nodup_keys (d : PyDict κ) : d.keys.Nodup := by
  obtain ⟨history, keys, rfl⟩ := d
  induction history with
  | nil => exact List.nodup_nil
  | cons op ops ih =>
      cases op with
      | insert k =>
          show (if k ∈ DictOp.replay ops then _ else _ : List κ).Nodup
          split
          · exact ih
          · rename_i hk
            exact List.nodup_append.mpr ⟨ih, List.pairwise_singleton _ k, fun a ha b hb => by
              rintro rfl
              exact hk (List.mem_singleton.mp hb ▸ ha)⟩
      | delete k => exact List.Nodup.erase k ih

@[simp] theorem mem_keys_insert {d : PyDict κ} {k k' : κ} :
    k' ∈ (d.insert k).keys ↔ k' = k ∨ k' ∈ d.keys := by
  show k' ∈ (if k ∈ d.keys then d.keys else d.keys ++ [k] : List κ) ↔ _
  split
  · constructor
    · exact Or.inr
    · rintro (rfl | h)
      · assumption
      · exact h
  · rw [List.mem_append, List.mem_singleton, or_comm]

@[simp] theorem mem_keys_delete {d : PyDict κ} {k k' : κ} :
    k' ∈ (d.delete k).keys ↔ k' ≠ k ∧ k' ∈ d.keys :=
  List.Nodup.mem_erase_iff d.nodup_keys

end PyDict

/-- The order in which a runtime iterates over a table: a function of the table's history. -/
class DictOrder (κ : Type) [DecidableEq κ] where
  /-- `d.items()`, the keys. -/
  items : PyDict κ → List κ
  /-- Every key once. -/
  perm : ∀ d, (items d).Perm d.keys

/-- Iteration in order of insertion. -/
@[reducible] def DictOrder.byInsertion : DictOrder κ := ⟨PyDict.keys, fun _ => .refl _⟩

namespace PyDict

variable [DictOrder κ]

/-- `d.items()`, the keys. -/
def items (d : PyDict κ) : List κ := DictOrder.items d

@[simp] theorem mem_items {d : PyDict κ} {k : κ} : k ∈ d.items ↔ k ∈ d.keys :=
  (DictOrder.perm d).mem_iff

theorem nodup_items (d : PyDict κ) : d.items.Nodup := (DictOrder.perm d).nodup_iff.mpr d.nodup_keys

end PyDict

end FrameSync
