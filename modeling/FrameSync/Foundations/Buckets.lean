import Mathlib.Data.List.Basic
import Mathlib.Logic.Function.Basic
import Mathlib.Tactic.Common

/-! # Hash tables with chains

A table of chains: an element is in the chain of the hash of its key. Looking up a key unlinks its element,
and a new element is linked in front. The table stands for a partial function of the keys, whatever the
hash function is (`Stands.unlink`, `Stands.link`). -/

namespace FrameSync

/-- The chains, by hash. -/
abbrev Buckets (α : Type*) := ℕ → List α

namespace Buckets

variable {κ α : Type*} (key : α → κ) (hash : κ → ℕ)

/-- The table stands for the partial function `m`. -/
structure Stands (b : Buckets α) (m : κ → Option α) : Prop where
  /-- A key occurs once in a chain. -/
  nodup : ∀ h, ((b h).map key).Nodup
  /-- An element is in the chain of its hash. -/
  placed : ∀ h, ∀ x ∈ b h, hash (key x) = h
  /-- The elements are the values. -/
  mem_iff : ∀ k x, x ∈ b (hash k) ∧ key x = k ↔ m k = some x

theorem stands_empty {key : α → κ} {hash : κ → ℕ} : Stands key hash (fun _ => []) fun _ => none where
  nodup := fun _ => List.nodup_nil
  placed := fun _ _ hx => absurd hx List.not_mem_nil
  mem_iff := fun _ x => iff_of_false (fun h => absurd h.1 List.not_mem_nil) (Option.some_ne_none x).symm

variable [DecidableEq κ]

/-- The first element of a chain with the key `k`, and the chain without it. -/
def unlinkChain (k : κ) : List α → Option α × List α
  | [] => (none, [])
  | x :: chain =>
      if key x = k then (some x, chain) else ((unlinkChain k chain).1, x :: (unlinkChain k chain).2)

/-- Take the element of a key out of the table. -/
def unlink (b : Buckets α) (k : κ) : Option α × Buckets α :=
  ((unlinkChain key k (b (hash k))).1, Function.update b (hash k) (unlinkChain key k (b (hash k))).2)

/-- Put an element in front of its chain. -/
def link (b : Buckets α) (x : α) : Buckets α := Function.update b (hash (key x)) (x :: b (hash (key x)))

variable {key hash}

/-- What is left of a chain. -/
theorem mem_unlinkChain {k : κ} {chain : List α} (h : (chain.map key).Nodup) {x : α} :
    x ∈ (unlinkChain key k chain).2 ↔ x ∈ chain ∧ key x ≠ k := by
  induction chain with
  | nil => simp [unlinkChain]
  | cons y chain ih =>
      rw [List.map_cons, List.nodup_cons] at h
      rw [unlinkChain]
      split_ifs with hk
      · -- no other element of the chain has the key
        constructor
        · intro hx
          refine ⟨List.mem_cons_of_mem y hx, fun heq => h.1 ?_⟩
          rw [hk, ← heq]
          exact List.mem_map_of_mem hx
        · rintro ⟨hx, hne⟩
          rcases List.mem_cons.mp hx with rfl | hx
          · exact absurd hk hne
          · exact hx
      · rw [List.mem_cons, List.mem_cons, ih h.2]
        constructor
        · rintro (rfl | ⟨hx, hne⟩)
          · exact ⟨Or.inl rfl, hk⟩
          · exact ⟨Or.inr hx, hne⟩
        · rintro ⟨rfl | hx, hne⟩
          · exact Or.inl rfl
          · exact Or.inr ⟨hx, hne⟩

theorem unlinkChain_sublist (k : κ) (chain : List α) : (unlinkChain key k chain).2.Sublist chain := by
  induction chain with
  | nil => exact List.Sublist.slnil
  | cons y chain ih =>
      rw [unlinkChain]
      split_ifs
      · exact List.sublist_cons_self y chain
      · exact ih.cons_cons y

/-- What is found in a chain. -/
theorem unlinkChain_eq_some {k : κ} {chain : List α} (h : (chain.map key).Nodup) {x : α} :
    (unlinkChain key k chain).1 = some x ↔ x ∈ chain ∧ key x = k := by
  induction chain with
  | nil => simp [unlinkChain]
  | cons y chain ih =>
      rw [List.map_cons, List.nodup_cons] at h
      rw [unlinkChain, List.mem_cons]
      split_ifs with hk
      · rw [Option.some_inj]
        constructor
        · rintro rfl
          exact ⟨Or.inl rfl, hk⟩
        · rintro ⟨rfl | hx, heq⟩
          · rfl
          · refine absurd ?_ h.1
            rw [hk, ← heq]
            exact List.mem_map_of_mem hx
      · rw [ih h.2]
        constructor
        · rintro ⟨hx, heq⟩
          exact ⟨Or.inr hx, heq⟩
        · rintro ⟨rfl | hx, heq⟩
          · exact absurd heq hk
          · exact ⟨hx, heq⟩

/-- **Looking up a key** gives its value, and removes it. -/
theorem Stands.unlink {b : Buckets α} {m : κ → Option α} (h : Stands key hash b m) (k : κ) :
    (unlink key hash b k).1 = m k ∧ Stands key hash (unlink key hash b k).2 (Function.update m k none) := by
  have hfound : (Buckets.unlink key hash b k).1 = m k :=
    Option.ext fun x => (unlinkChain_eq_some (h.nodup (hash k))).trans (h.mem_iff k x)
  have hleft : ∀ i, (Buckets.unlink key hash b k).2 i =
      if i = hash k then (unlinkChain key k (b (hash k))).2 else b i := by
    intro i
    exact Function.update_apply b (hash k) _ i
  refine ⟨hfound, ?_, ?_, ?_⟩
  · intro i
    rw [hleft]
    by_cases hi : i = hash k
    · subst hi
      rw [if_pos rfl]
      exact (h.nodup (hash k)).sublist ((unlinkChain_sublist k _).map key)
    · rw [if_neg hi]
      exact h.nodup i
  · intro i x hx
    rw [hleft] at hx
    by_cases hi : i = hash k
    · subst hi
      rw [if_pos rfl] at hx
      exact h.placed _ x ((unlinkChain_sublist k _).subset hx)
    · rw [if_neg hi] at hx
      exact h.placed i x hx
  · intro k' x
    -- a chain loses the element of `k` if it is the one of its hash, and no other
    have hchain : x ∈ (Buckets.unlink key hash b k).2 (hash k') ↔
        x ∈ b (hash k') ∧ (hash k' = hash k → key x ≠ k) := by
      rw [hleft]
      by_cases hi : hash k' = hash k
      · rw [if_pos hi, mem_unlinkChain (h.nodup (hash k)), hi]
        exact and_congr_right fun _ => ⟨fun hne _ => hne, fun hne => hne rfl⟩
      · rw [if_neg hi]
        exact ⟨fun hx => ⟨hx, fun heq => absurd heq hi⟩, And.left⟩
    rw [hchain]
    by_cases hk : k' = k
    · subst hk
      rw [Function.update_self]
      exact iff_of_false (fun hx => hx.1.2 rfl hx.2) (Option.some_ne_none x).symm
    · rw [Function.update_of_ne hk, ← h.mem_iff k' x]
      constructor
      · rintro ⟨⟨hx, -⟩, heq⟩
        exact ⟨hx, heq⟩
      · rintro ⟨hx, heq⟩
        exact ⟨⟨hx, fun _ hkey => hk (heq.symm.trans hkey)⟩, heq⟩

/-- **A new element** becomes the value of its key. -/
theorem Stands.link {b : Buckets α} {m : κ → Option α} (h : Stands key hash b m) {x : α}
    (hx : m (key x) = none) :
    Stands key hash (link key hash b x) (Function.update m (key x) (some x)) := by
  have hnew : ∀ y ∈ b (hash (key x)), key y ≠ key x := by
    intro y hy heq
    have hsome := (h.mem_iff (key x) y).mp ⟨hy, heq⟩
    rw [hx] at hsome
    cases hsome
  have hchain : ∀ i y, y ∈ Buckets.link key hash b x i ↔ i = hash (key x) ∧ y = x ∨ y ∈ b i := by
    intro i y
    rw [Buckets.link]
    by_cases hi : i = hash (key x)
    · subst hi
      rw [Function.update_self, List.mem_cons]
      exact or_congr_left (and_iff_right rfl).symm
    · rw [Function.update_of_ne hi]
      exact (or_iff_right fun hy => hi hy.1).symm
  refine ⟨fun i => ?_, fun i y hy => ?_, fun k y => ?_⟩
  · rw [Buckets.link]
    by_cases hi : i = hash (key x)
    · subst hi
      rw [Function.update_self, List.map_cons, List.nodup_cons]
      refine ⟨fun hmem => ?_, h.nodup _⟩
      obtain ⟨y, hy, heq⟩ := List.mem_map.mp hmem
      exact hnew y hy heq
    · rw [Function.update_of_ne hi]
      exact h.nodup i
  · rcases (hchain i y).mp hy with ⟨rfl, rfl⟩ | hy
    · rfl
    · exact h.placed i y hy
  · rw [hchain]
    by_cases hk : k = key x
    · subst hk
      rw [Function.update_self, Option.some_inj]
      constructor
      · rintro ⟨⟨-, rfl⟩ | hy, heq⟩
        · rfl
        · exact absurd heq (hnew y hy)
      · rintro rfl
        exact ⟨Or.inl ⟨rfl, rfl⟩, rfl⟩
    · rw [Function.update_of_ne hk, ← h.mem_iff k y]
      constructor
      · rintro ⟨⟨-, rfl⟩ | hy, heq⟩
        · exact absurd heq.symm hk
        · exact ⟨hy, heq⟩
      · rintro ⟨hy, heq⟩
        exact ⟨Or.inr hy, heq⟩

end Buckets

end FrameSync
