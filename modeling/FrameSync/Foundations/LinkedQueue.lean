import Mathlib.Data.List.Chain
import Mathlib.Data.List.Nodup
import Mathlib.Logic.Function.Basic
import Mathlib.Tactic.Common

/-! # Queues that are linked through their elements

Each element has room for one link, which is empty while the element is in no queue and while it is the last
of one. An element that is pushed must not be in the queue. Then a push adds at the end of the list that the
queue stands for, a pop takes from its front (`Stands.push`, `Stands.pop`), and the links of what is not in
the queue are empty (`Stands.next_eq_none`). -/

namespace FrameSync

/-- The first and the last element, and the link of each. -/
structure LinkedQueue (α : Type*) where
  /-- The first element. -/
  head : Option α
  /-- The last one. -/
  tail : Option α
  /-- The links. -/
  next : α → Option α

namespace LinkedQueue

variable {α : Type*}

/-- The queue with no elements. -/
def empty : LinkedQueue α := ⟨none, none, fun _ => none⟩

/-- Link an element behind the last one. -/
def push [DecidableEq α] (q : LinkedQueue α) (x : α) : LinkedQueue α :=
  match q.tail with
  | some t => { q with tail := some x, next := Function.update q.next t (some x) }
  | none => { q with head := some x, tail := some x }

/-- Take the first element, if there is one, and empty its link. -/
def pop [DecidableEq α] (q : LinkedQueue α) : Option α × LinkedQueue α :=
  match q.head with
  | some x => (some x, ⟨q.next x, if q.next x = none then none else q.tail, Function.update q.next x none⟩)
  | none => (none, q)

/-- An element of the queue has a link, or it is the last one. -/
def Has (q : LinkedQueue α) (x : α) : Prop := q.next x ≠ none ∨ q.tail = some x

/-- The queue stands for the list `l`. -/
structure Stands (q : LinkedQueue α) (l : List α) : Prop where
  /-- No element is in the queue twice. -/
  nodup : l.Nodup
  /-- The first element. -/
  head_eq : q.head = l.head?
  /-- The last one. -/
  tail_eq : q.tail = l.getLast?
  /-- Each element is linked to the one behind it. -/
  chain : l.IsChain fun a b => q.next a = some b
  /-- Nothing else is linked. -/
  unlinked : ∀ x, x ∉ l.dropLast → q.next x = none

variable {q : LinkedQueue α} {l : List α} {x : α}

theorem stands_empty : (empty : LinkedQueue α).Stands [] where
  nodup := List.nodup_nil
  head_eq := rfl
  tail_eq := rfl
  chain := List.isChain_nil
  unlinked := fun _ _ => rfl

/-- What is not in the queue is not linked. -/
theorem Stands.next_eq_none (h : q.Stands l) (hx : x ∉ l) : q.next x = none :=
  h.unlinked x fun hmem => hx ((List.dropLast_sublist l).subset hmem)

theorem Stands.has_iff (h : q.Stands l) : q.Has x ↔ x ∈ l := by
  constructor
  · rintro (hnext | htail)
    · by_contra hx
      exact hnext (h.next_eq_none hx)
    · rw [h.tail_eq] at htail
      exact List.mem_of_mem_getLast? htail
  · intro hx
    rcases List.eq_nil_or_concat l with rfl | ⟨l, t, rfl⟩
    · exact absurd hx List.not_mem_nil
    · rw [List.concat_eq_append] at *
      rcases List.mem_append.mp hx with hx | hx
      · obtain ⟨a, b, rfl⟩ := List.append_of_mem hx
        obtain ⟨y, c, hy⟩ := List.exists_cons_of_ne_nil (List.concat_ne_nil t b)
        have hchain := h.chain
        rw [List.append_assoc, List.cons_append, hy, List.isChain_append] at hchain
        exact Or.inl ((List.isChain_cons_cons.mp hchain.2.1).1 ▸ Option.some_ne_none y)
      · rw [List.mem_singleton.mp hx]
        exact Or.inr (h.tail_eq.trans List.getLast?_concat)

/-- **A push adds at the end.** -/
theorem Stands.push [DecidableEq α] (h : q.Stands l) (hx : x ∉ l) : (q.push x).Stands (l ++ [x]) := by
  have hnodup : (l ++ [x]).Nodup := List.nodup_append.mpr ⟨h.nodup, List.nodup_singleton x,
    fun a ha b hb => fun hab => hx (List.mem_singleton.mp hb ▸ hab ▸ ha)⟩
  rcases List.eq_nil_or_concat l with rfl | ⟨l, t, rfl⟩
  · have htail : q.tail = none := h.tail_eq
    rw [LinkedQueue.push, htail]
    exact ⟨hnodup, rfl, rfl, List.isChain_singleton x, fun y hy => h.unlinked y List.not_mem_nil⟩
  · rw [List.concat_eq_append] at *
    have htail : q.tail = some t := h.tail_eq.trans List.getLast?_concat
    have ht : t ∉ l := fun hmem => (List.nodup_append.mp h.nodup).2.2 t hmem t List.mem_cons_self rfl
    rw [LinkedQueue.push, htail]
    refine ⟨hnodup, ?_, List.getLast?_concat.symm, ?_, fun y hy => ?_⟩
    · rw [List.head?_append_of_ne_nil _ (List.concat_ne_nil t l)]
      exact h.head_eq
    · -- only the link of the last element changes
      have hlinks : (l ++ [t]).IsChain fun a b => Function.update q.next t (some x) a = some b := by
        refine h.chain.imp_of_mem_tail_imp fun a b ha hb hab => ?_
        rw [Function.update_of_ne _, hab]
        rintro rfl
        exact absurd (h.unlinked a (by rwa [List.dropLast_concat])) (hab ▸ Option.some_ne_none b)
      rw [List.append_assoc, List.singleton_append, List.isChain_split]
      exact ⟨hlinks, List.isChain_pair.mpr (Function.update_self t _ _)⟩
    · rw [List.dropLast_concat, List.mem_append, List.mem_singleton, not_or] at hy
      show Function.update q.next t (some x) y = none
      rw [Function.update_of_ne hy.2]
      exact h.unlinked y (by rw [List.dropLast_concat]; exact hy.1)

/-- **A pop takes from the front.** -/
theorem Stands.pop [DecidableEq α] (h : q.Stands l) : q.pop.1 = l.head? ∧ q.pop.2.Stands l.tail := by
  cases l with
  | nil =>
      have hhead : q.head = none := h.head_eq
      rw [LinkedQueue.pop, hhead]
      exact ⟨rfl, h⟩
  | cons x l =>
      have hhead : q.head = some x := h.head_eq
      have hx : x ∉ l := (List.nodup_cons.mp h.nodup).1
      have hnext : q.next x = l.head? := by
        cases l with
        | nil => exact h.unlinked x List.not_mem_nil
        | cons y l => exact (List.isChain_cons_cons.mp h.chain).1
      rw [LinkedQueue.pop, hhead]
      dsimp only
      refine ⟨rfl, (List.nodup_cons.mp h.nodup).2, hnext, ?_, ?_, fun y hy => ?_⟩
      · rw [hnext, h.tail_eq]
        cases l with
        | nil => rfl
        | cons y l => exact List.getLast?_cons_cons
      · refine h.chain.of_cons.imp_of_mem_imp fun a b ha _ hab => ?_
        show Function.update q.next x none a = some b
        rwa [Function.update_of_ne]
        rintro rfl
        exact hx ha
      · show Function.update q.next x none y = none
        rcases eq_or_ne y x with rfl | hne
        · exact Function.update_self y none q.next
        · rw [Function.update_of_ne hne]
          refine h.unlinked y fun hmem => hy ?_
          cases l with
          | nil => exact absurd hmem List.not_mem_nil
          | cons z l =>
              rw [List.dropLast_cons_of_ne_nil (List.cons_ne_nil z l)] at hmem
              exact (List.mem_cons.mp hmem).resolve_left hne

/-- The list that a queue stands for. -/
theorem Stands.unique [DecidableEq α] {l' : List α} (h : q.Stands l) (h' : q.Stands l') : l = l' := by
  induction l generalizing q l' with
  | nil => exact (List.head?_eq_none_iff.mp (h'.head_eq.symm.trans h.head_eq)).symm
  | cons x l ih =>
      obtain ⟨l', rfl⟩ := List.head?_eq_some_iff.mp (h'.head_eq.symm.trans h.head_eq)
      exact congrArg (List.cons x) (ih h.pop.2 h'.pop.2)

/-- The last element stays the last one until the queue is empty. -/
theorem Stands.tail_of_next (h : q.Stands l) (hhead : q.head = some x) (hnext : q.next x = none) :
    q.tail = some x := by
  cases l with
  | nil => exact absurd (h.head_eq.symm.trans hhead) (Option.some_ne_none x).symm
  | cons y l =>
      obtain rfl : y = x := Option.some.inj (h.head_eq.symm.trans hhead)
      cases l with
      | nil => exact h.tail_eq
      | cons z l =>
          exact absurd (hnext.symm.trans (List.isChain_cons_cons.mp h.chain).1) (Option.some_ne_none z).symm

end LinkedQueue

end FrameSync
