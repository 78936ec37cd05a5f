import Mathlib.Data.List.Basic
import Mathlib.Tactic.Common

/-! # Programs that keep a state and may raise

A `Program` reads and writes a state and ends with a value or by raising. Two kinds of triples are
stated about it: `Ensures`, a total one (the program does not raise, and its result is as said), and
`Agrees`, a relational one (two runs from related states end alike, in related states). Both come
with the rules that follow the shape of a program: `pure`, `bind`, reading and writing the state,
and the loop `List.forM`. -/

namespace FrameSync

variable {σ ε α β ι : Type}

/-- A program over the state `σ` that may raise an `ε`. -/
abbrev Program (σ ε α : Type) := StateT σ (Except ε) α

namespace Program

/-! ## What a program does -/

@[simp] theorem pure_apply (a : α) (s : σ) : (pure a : Program σ ε α) s = .ok (a, s) := rfl

@[simp] theorem throw_apply (e : ε) (s : σ) : (throw e : Program σ ε α) s = .error e := rfl

@[simp] theorem get_apply (s : σ) : (get : Program σ ε σ) s = .ok (s, s) := rfl

@[simp] theorem set_apply (s s' : σ) : (set s' : Program σ ε PUnit) s = .ok ((), s') := rfl

@[simp] theorem modify_apply (f : σ → σ) (s : σ) :
    (modify f : Program σ ε PUnit) s = .ok ((), f s) := rfl

/-- A sequence whose first part ends with `a` in `s'`. -/
theorem bind_of_ok {m : Program σ ε α} {f : α → Program σ ε β} {s s' : σ} {a : α}
    (h : m s = .ok (a, s')) : (m >>= f) s = f a s' := by
  show (m s >>= fun r => f r.1 r.2) = f a s'
  rw [h]
  rfl

/-- A sequence whose first part raises. -/
theorem bind_of_error {m : Program σ ε α} {f : α → Program σ ε β} {s : σ} {e : ε}
    (h : m s = .error e) : (m >>= f) s = .error e := by
  show (m s >>= fun r => f r.1 r.2) = .error e
  rw [h]
  rfl

/-- A sequence that ends normally has two parts that do. -/
theorem bind_eq_ok {m : Program σ ε α} {f : α → Program σ ε β} {s : σ} {r : β × σ} :
    (m >>= f) s = .ok r ↔ ∃ a s', m s = .ok (a, s') ∧ f a s' = .ok r := by
  constructor
  · intro h
    cases hm : m s with
    | error e =>
        rw [bind_of_error hm] at h
        cases h
    | ok x =>
        obtain ⟨a, s'⟩ := x
        rw [bind_of_ok hm] at h
        exact ⟨a, s', rfl, h⟩
  · rintro ⟨a, s', hm, hf⟩
    rw [bind_of_ok hm, hf]

@[simp] theorem get_bind_apply (f : σ → Program σ ε β) (s : σ) : (get >>= f) s = f s s := rfl

@[simp] theorem modify_bind_apply (g : σ → σ) (f : PUnit → Program σ ε β) (s : σ) :
    (modify g >>= f) s = f () (g s) := rfl

/-- A loop over two lists that ends normally. -/
theorem forM_append_eq_ok {f : ι → Program σ ε PUnit} {xs ys : List ι} {s : σ} {r : PUnit × σ} :
    (xs ++ ys).forM f s = .ok r ↔ ∃ a s', xs.forM f s = .ok (a, s') ∧ ys.forM f s' = .ok r := by
  induction xs generalizing s with
  | nil =>
      constructor
      · exact fun h => ⟨(), s, rfl, h⟩
      · rintro ⟨a, s', hnil, h⟩
        obtain rfl := (Prod.mk.inj (Except.ok.inj hnil)).2
        exact h
  | cons x xs ih =>
      constructor
      · intro h
        obtain ⟨a, s₁, hx, hrest⟩ := bind_eq_ok.mp h
        obtain ⟨b, s₂, hxs, hys⟩ := ih.mp hrest
        exact ⟨b, s₂, bind_eq_ok.mpr ⟨a, s₁, hx, hxs⟩, hys⟩
      · rintro ⟨b, s₂, hxxs, hys⟩
        obtain ⟨a, s₁, hx, hxs⟩ := bind_eq_ok.mp hxxs
        exact bind_eq_ok.mpr ⟨a, s₁, hx, ih.mpr ⟨b, s₂, hxs, hys⟩⟩

/-- **When a loop ends normally**: each turn does, in the state that the turns before it left. -/
theorem forM_ok_iff {f : ι → Program σ ε PUnit} {xs : List ι} {s : σ} :
    (∃ r, xs.forM f s = .ok r) ↔ ∀ pre x post, xs = pre ++ x :: post →
      ∀ s', pre.forM f s = .ok ((), s') → ∃ r, f x s' = .ok r := by
  constructor
  · rintro ⟨r, hr⟩ pre x post rfl s' hpre
    induction pre generalizing s with
    | nil =>
        obtain rfl : s = s' := (Prod.mk.inj (Except.ok.inj hpre)).2
        obtain ⟨a, s₁, hx, -⟩ := bind_eq_ok.mp hr
        exact ⟨_, hx⟩
    | cons y pre ih =>
        obtain ⟨a, s₁, hy, hrest⟩ := bind_eq_ok.mp hpre
        obtain ⟨a', s₂, hy', hall⟩ := bind_eq_ok.mp hr
        rw [hy] at hy'
        obtain ⟨rfl, rfl⟩ := Prod.mk.inj (Except.ok.inj hy')
        exact ih hall hrest
  · intro h
    induction xs generalizing s with
    | nil => exact ⟨_, rfl⟩
    | cons x xs ih =>
        obtain ⟨⟨a, s₁⟩, hx⟩ := h [] x xs rfl s rfl
        obtain ⟨r, hr⟩ := ih (s := s₁) fun pre y post hxs s' hpre =>
          h (x :: pre) y post (by rw [hxs]; rfl) s' (bind_eq_ok.mpr ⟨a, s₁, hx, hpre⟩)
        exact ⟨r, bind_eq_ok.mpr ⟨a, s₁, hx, hr⟩⟩

/-- The program ends normally, in a state with `p`. -/
def endsIn (m : Program σ ε α) (s : σ) (p : σ → Bool) : Bool :=
  match m s with
  | .ok (_, s') => p s'
  | .error _ => false

theorem endsIn_eq_true {m : Program σ ε α} {s : σ} {p : σ → Bool} (h : endsIn m s p = true) :
    ∃ a s', m s = .ok (a, s') ∧ p s' = true := by
  unfold endsIn at h
  split at h
  · exact ⟨_, _, by assumption, h⟩
  · cases h

/-! ## Total triples -/

/-- From every state with `P` the program ends normally, with `Q`. -/
def Ensures (P : σ → Prop) (m : Program σ ε α) (Q : α → σ → Prop) : Prop :=
  ∀ s, P s → ∃ a s', m s = .ok (a, s') ∧ Q a s'

namespace Ensures

variable {P P' : σ → Prop} {Q Q' : α → σ → Prop} {S : β → σ → Prop}

theorem pure {a : α} (h : ∀ s, P s → Q a s) : Ensures P (pure a : Program σ ε α) Q :=
  fun s hs => ⟨a, s, rfl, h s hs⟩

theorem bind {m : Program σ ε α} {f : α → Program σ ε β} (hm : Ensures P m Q)
    (hf : ∀ a, Ensures (Q a) (f a) S) : Ensures P (m >>= f) S := by
  intro s hs
  obtain ⟨a, s', hrun, ha⟩ := hm s hs
  rw [bind_of_ok hrun]
  exact hf a s' ha

theorem mono {m : Program σ ε α} (h : Ensures P m Q) (hP : ∀ s, P' s → P s)
    (hQ : ∀ a s, Q a s → Q' a s) : Ensures P' m Q' := by
  intro s hs
  obtain ⟨a, s', hrun, ha⟩ := h s (hP s hs)
  exact ⟨a, s', hrun, hQ a s' ha⟩

theorem modify {f : σ → σ} {Q : PUnit → σ → Prop} (h : ∀ s, P s → Q () (f s)) :
    Ensures P (modify f : Program σ ε PUnit) Q :=
  fun s hs => ⟨(), f s, rfl, h s hs⟩

/-- A program that starts by reading the state may treat what it read as a constant. -/
theorem get_bind {f : σ → Program σ ε β} (h : ∀ s, P s → Ensures (· = s) (f s) S) :
    Ensures P (get >>= f) S :=
  fun s hs => h s hs s rfl

/-- What a normal end of the program is known to satisfy. -/
theorem post {m : Program σ ε α} (h : Ensures P m Q) {s s' : σ} {a : α} (hs : P s)
    (hrun : m s = .ok (a, s')) : Q a s' := by
  obtain ⟨b, t, hm, hb⟩ := h s hs
  rw [hrun] at hm
  obtain ⟨rfl, rfl⟩ := Prod.mk.inj (Except.ok.inj hm)
  exact hb

/-- **Loop rule.** The invariant speaks about the elements still to come. -/
theorem forM {I : List ι → σ → Prop} {f : ι → Program σ ε PUnit}
    (hf : ∀ x xs, Ensures (I (x :: xs)) (f x) fun _ => I xs) (xs : List ι) :
    Ensures (I xs) (xs.forM f) fun _ => I [] := by
  induction xs with
  | nil => exact Ensures.pure fun s hs => hs
  | cons x xs ih => exact (hf x xs).bind fun _ => ih

end Ensures

/-! ## What every normal end has in common with the start -/

/-- Every normal end of the program is related by `R` to the state it started in. -/
def Leaves (R : σ → σ → Prop) (m : Program σ ε α) : Prop :=
  ∀ s a s', m s = .ok (a, s') → R s s'

namespace Leaves

variable {R : σ → σ → Prop}

theorem throw (e : ε) : Leaves R (throw e : Program σ ε α) := fun _ _ _ h => nomatch h

theorem modify {f : σ → σ} (h : ∀ s, R s (f s)) : Leaves R (modify f : Program σ ε PUnit) := by
  intro s a s' hrun
  obtain ⟨-, rfl⟩ := Prod.mk.inj (Except.ok.inj hrun)
  exact h s

theorem ite {c : Prop} [Decidable c] {m m' : Program σ ε α} (h : Leaves R m) (h' : Leaves R m') :
    Leaves R (if c then m else m') := by
  split
  · exact h
  · exact h'

theorem get_bind {f : σ → Program σ ε β} (h : ∀ s, Leaves R (f s)) : Leaves R (get >>= f) :=
  fun s => h s s

theorem pure [Std.Refl R] (a : α) : Leaves R (pure a : Program σ ε α) := by
  intro s b s' hrun
  obtain ⟨-, rfl⟩ := Prod.mk.inj (Except.ok.inj hrun)
  exact Std.Refl.refl s

theorem bind [IsTrans σ R] {m : Program σ ε α} {f : α → Program σ ε β} (hm : Leaves R m)
    (hf : ∀ a, Leaves R (f a)) : Leaves R (m >>= f) := by
  intro s b s' hrun
  obtain ⟨a, s₁, hfirst, hsecond⟩ := bind_eq_ok.mp hrun
  exact IsTrans.trans _ _ _ (hm s a s₁ hfirst) (hf a s₁ b s' hsecond)

theorem forM [Std.Refl R] [IsTrans σ R] {f : ι → Program σ ε PUnit} (hf : ∀ x, Leaves R (f x))
    (xs : List ι) : Leaves R (xs.forM f) := by
  induction xs with
  | nil => exact Leaves.pure _
  | cons x xs ih => exact (hf x).bind fun _ => ih

end Leaves

/-! ## Relational triples -/

/-- Two results that are alike: both raised the same, or both ended with the same value and related
states. -/
inductive Alike (R : σ → σ → Prop) : Except ε (α × σ) → Except ε (α × σ) → Prop
  /-- Both ended normally. -/
  | ok {a : α} {s t : σ} : R s t → Alike R (.ok (a, s)) (.ok (a, t))
  /-- Both raised. -/
  | error {e : ε} : Alike R (.error e) (.error e)

/-- Runs of the program from related states end alike. -/
def Agrees (R : σ → σ → Prop) (m : Program σ ε α) : Prop :=
  ∀ s t, R s t → Alike R (m s) (m t)

namespace Agrees

variable {R : σ → σ → Prop}

theorem pure (a : α) : Agrees R (pure a : Program σ ε α) := fun _ _ h => .ok h

theorem throw (e : ε) : Agrees R (throw e : Program σ ε α) := fun _ _ _ => .error

theorem bind {m : Program σ ε α} {f : α → Program σ ε β} (hm : Agrees R m)
    (hf : ∀ a, Agrees R (f a)) : Agrees R (m >>= f) := by
  intro s t h
  show Alike R (m s >>= fun r => f r.1 r.2) (m t >>= fun r => f r.1 r.2)
  have halike := hm s t h
  revert halike
  generalize m s = x
  generalize m t = y
  intro halike
  cases halike with
  | ok h' => exact hf _ _ _ h'
  | error => exact .error

theorem modify {f : σ → σ} (h : ∀ s t, R s t → R (f s) (f t)) :
    Agrees R (modify f : Program σ ε PUnit) := fun s t hst => .ok (h s t hst)

/-- A program that starts by reading the state: what it does next must be alike for related
readings. -/
theorem get_bind {f : σ → Program σ ε β} (h : ∀ s t, R s t → Alike R (f s s) (f t t)) :
    Agrees R (get >>= f) := h

theorem ite {c : Prop} [Decidable c] {m m' : Program σ ε α} (h : Agrees R m) (h' : Agrees R m') :
    Agrees R (if c then m else m') := by
  split
  · exact h
  · exact h'

theorem forM {f : ι → Program σ ε PUnit} (hf : ∀ x, Agrees R (f x)) (xs : List ι) :
    Agrees R (xs.forM f) := by
  induction xs with
  | nil => exact Agrees.pure _
  | cons x xs ih => exact (hf x).bind fun _ => ih

end Agrees

end Program

end FrameSync
