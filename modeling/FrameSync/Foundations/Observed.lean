import FrameSync.Foundations.Program

/-! # Programs whose operations are observed

The state of a `Program` in the middle of a run is out of reach: a program is a function of the state
it starts in. An `Observed` program comes with the list of the operations of each of its runs, and the
state each of them left. Its `run` is a program like any other; `Traces` is a triple about it that says
that the operations of a run are steps of a given relation, one after another (`Path`). What holds of
every path then holds in the middle of every run. -/

namespace FrameSync

variable {σ ε ω α β ι : Type}

/-! ## Paths -/

/-- The operations of the list, each with the state it left, lead from one state to another by steps
of `R`. -/
inductive Path (R : σ → ω → σ → Prop) : σ → List (ω × σ) → σ → Prop
  /-- No operation. -/
  | nil {s : σ} : Path R s [] s
  /-- One operation, and then others. -/
  | cons {s t s' : σ} {o : ω} {l : List (ω × σ)} :
      R s o t → Path R t l s' → Path R s ((o, t) :: l) s'

namespace Path

variable {R : σ → ω → σ → Prop} {s t s' : σ} {l l' : List (ω × σ)}

/-- A path of one operation. -/
theorem single {o : ω} (h : R s o s') : Path R s [(o, s')] s' := .cons h .nil

/-- Paths compose. -/
theorem append (h : Path R s l t) (h' : Path R t l' s') : Path R s (l ++ l') s' := by
  induction h with
  | nil => exact h'
  | cons hstep _ ih => exact .cons hstep (ih h')

/-- A path over a concatenation comes in two parts. -/
theorem of_append (h : Path R s (l ++ l') s') : ∃ t, Path R s l t ∧ Path R t l' s' := by
  induction l generalizing s with
  | nil => exact ⟨s, .nil, h⟩
  | cons x l ih =>
      rw [List.cons_append] at h
      cases h with
      | cons hstep hrest =>
          obtain ⟨t, hfirst, hsecond⟩ := ih hrest
          exact ⟨t, .cons hstep hfirst, hsecond⟩

/-- **Invariant rule.** What holds at the start, with no operation done, and is kept by every step
holds at the end, of the operations and the state. -/
theorem invariant {P : List (ω × σ) → σ → Prop} (h : Path R s l s') (init : P [] s)
    (pres : ∀ l t o t', P l t → R t o t' → P (l ++ [(o, t')]) t') : P l s' := by
  have main : ∀ {l' t t'}, Path R t l' t' → ∀ pre, P pre t → P (pre ++ l') t' := by
    intro l' t t' h'
    induction h' with
    | nil =>
        intro pre hpre
        rwa [List.append_nil]
    | @cons t t' _ o rest hstep _ ih =>
        intro pre hpre
        have hnext := ih (pre ++ [(o, t')]) (pres pre t o t' hpre hstep)
        rwa [List.append_assoc] at hnext
  exact main h [] init

/-- An invariant of the states holds after each operation, and at the end. -/
theorem forall_states {I : σ → Prop} (h : Path R s l s') (init : I s)
    (pres : ∀ t o t', I t → R t o t' → I t') : (∀ x ∈ l, I x.2) ∧ I s' := by
  refine h.invariant (P := fun l t => (∀ x ∈ l, I x.2) ∧ I t) ⟨fun x hx => ?_, init⟩ ?_
  · exact absurd hx List.not_mem_nil
  · rintro l t o t' ⟨hl, ht⟩ hstep
    have ht' := pres t o t' ht hstep
    refine ⟨fun x hx => ?_, ht'⟩
    rcases List.mem_append.mp hx with hx | hx
    · exact hl x hx
    · obtain rfl := List.mem_singleton.mp hx
      exact ht'

/-- A path ends where it started, or where its last operation left it. -/
theorem last_state (h : Path R s l s') : s' = s ∨ ∃ o, (o, s') ∈ l := by
  induction h with
  | nil => exact Or.inl rfl
  | @cons s t s' o l hstep _ ih =>
      rcases ih with rfl | ⟨o', hmem⟩
      · exact Or.inr ⟨o, List.mem_cons_self⟩
      · exact Or.inr ⟨o', List.mem_cons_of_mem _ hmem⟩

/-- A path of a relation is one of a weaker relation. -/
theorem weaken {R' : σ → ω → σ → Prop} (h : Path R s l s') (hR : ∀ t o t', R t o t' → R' t o t') :
    Path R' s l s' := by
  induction h with
  | nil => exact .nil
  | cons hstep _ ih => exact .cons (hR _ _ _ hstep) ih

/-- A path of two relations is a path of their meet. -/
theorem and {R' : σ → ω → σ → Prop} (h : Path R s l s') (h' : Path R' s l s') :
    Path (fun s o s' => R s o s' ∧ R' s o s') s l s' := by
  induction h with
  | nil => exact .nil
  | cons hstep _ ih =>
      cases h' with
      | cons hstep' hrest' => exact .cons ⟨hstep, hstep'⟩ (ih hrest')

end Path

/-! ## Observed programs -/

/-- A program with the operations of its runs. -/
structure Observed (σ ε ω α : Type) where
  /-- The program. -/
  run : Program σ ε α
  /-- The operations of the run from a state, each with the state it left. -/
  log : σ → List (ω × σ)

namespace Observed

/-- A program that is one operation, which may be named after the state it left. -/
def op (m : Program σ ε α) (o : σ → ω) : Observed σ ε ω α where
  run := m
  log s :=
    match m s with
    | .ok (_, s') => [(o s', s')]
    | .error _ => []

/-- A program without an operation: it only reads. -/
def reads (m : Program σ ε α) : Observed σ ε ω α := ⟨m, fun _ => []⟩

instance : Monad (Observed σ ε ω) where
  pure a := reads (pure a)
  bind m f :=
    { run := m.run >>= fun a => (f a).run
      log := fun s => m.log s ++
        match m.run s with
        | .ok (a, s') => (f a).log s'
        | .error _ => [] }

instance : MonadLift (Program σ ε) (Observed σ ε ω) := ⟨reads⟩

@[simp] theorem run_op (m : Program σ ε α) (o : σ → ω) : (op m o).run = m := rfl

@[simp] theorem run_bind (m : Observed σ ε ω α) (f : α → Observed σ ε ω β) :
    (m >>= f).run = m.run >>= fun a => (f a).run := rfl

@[simp] theorem run_ite {c : Prop} [Decidable c] (m m' : Observed σ ε ω α) :
    (if c then m else m').run = if c then m.run else m'.run := apply_ite ..

@[simp] theorem run_forM (f : ι → Observed σ ε ω PUnit) (xs : List ι) :
    (xs.forM f).run = xs.forM fun x => (f x).run := by
  induction xs with
  | nil => rfl
  | cons x xs ih =>
      show (f x).run >>= (fun _ => (xs.forM f).run) = _
      rw [ih]
      rfl

/-- The operations of a sequence. -/
theorem log_bind_of_ok {m : Observed σ ε ω α} {f : α → Observed σ ε ω β} {s s' : σ} {a : α}
    (h : m.run s = .ok (a, s')) : (m >>= f).log s = m.log s ++ (f a).log s' := by
  show m.log s ++ _ = _
  rw [h]

/-! ## Triples about the operations -/

/-- From every state with `P`, a run that ends normally ends with `Q`, and its operations are steps
of `R`. -/
def Traces (R : σ → ω → σ → Prop) (P : σ → Prop) (m : Observed σ ε ω α) (Q : α → σ → Prop) : Prop :=
  ∀ s, P s → ∀ a s', m.run s = .ok (a, s') → Path R s (m.log s) s' ∧ Q a s'

namespace Traces

variable {R : σ → ω → σ → Prop} {P P' : σ → Prop} {Q Q' : α → σ → Prop} {S : β → σ → Prop}

theorem pure {a : α} (h : ∀ s, P s → Q a s) : Traces R P (pure a : Observed σ ε ω α) Q := by
  intro s hs b s' hrun
  obtain ⟨rfl, rfl⟩ := Prod.mk.inj (Except.ok.inj hrun)
  exact ⟨.nil, h s hs⟩

theorem reads {m : Program σ ε α} (h : ∀ s, P s → ∀ a s', m s = .ok (a, s') → s = s' ∧ Q a s') :
    Traces R P (reads m : Observed σ ε ω α) Q := by
  intro s hs a s' hrun
  obtain ⟨rfl, hq⟩ := h s hs a s' hrun
  exact ⟨.nil, hq⟩

theorem op {m : Program σ ε α} {o : σ → ω}
    (h : ∀ s, P s → ∀ a s', m s = .ok (a, s') → R s (o s') s' ∧ Q a s') : Traces R P (op m o) Q := by
  intro s hs a s' hrun
  obtain ⟨hstep, hq⟩ := h s hs a s' hrun
  have hlog : (Observed.op m o).log s = [(o s', s')] := by
    change m s = _ at hrun
    simp only [Observed.op, hrun]
  exact ⟨hlog ▸ .single hstep, hq⟩

theorem bind {m : Observed σ ε ω α} {f : α → Observed σ ε ω β} (hm : Traces R P m Q)
    (hf : ∀ a, Traces R (Q a) (f a) S) : Traces R P (m >>= f) S := by
  intro s hs b s' hrun
  obtain ⟨a, t, hfirst, hsecond⟩ := Program.bind_eq_ok.mp hrun
  obtain ⟨hpath, hq⟩ := hm s hs a t hfirst
  obtain ⟨hpath', hb⟩ := hf a t hq b s' hsecond
  rw [log_bind_of_ok hfirst]
  exact ⟨hpath.append hpath', hb⟩

theorem mono {m : Observed σ ε ω α} (h : Traces R P m Q) (hP : ∀ s, P' s → P s)
    (hQ : ∀ a s, Q a s → Q' a s) : Traces R P' m Q' := by
  intro s hs a s' hrun
  obtain ⟨hpath, hq⟩ := h s (hP s hs) a s' hrun
  exact ⟨hpath, hQ a s' hq⟩

/-- The steps may be described by a weaker relation. -/
theorem weaken {R' : σ → ω → σ → Prop} {m : Observed σ ε ω α} (h : Traces R P m Q)
    (hR : ∀ s o s', R s o s' → R' s o s') : Traces R' P m Q := by
  intro s hs a s' hrun
  obtain ⟨hpath, hq⟩ := h s hs a s' hrun
  exact ⟨hpath.weaken hR, hq⟩

theorem ite {c : Prop} [Decidable c] {m m' : Observed σ ε ω α} (h : c → Traces R P m Q)
    (h' : ¬ c → Traces R P m' Q) : Traces R P (if c then m else m') Q := by
  split
  · exact h ‹c›
  · exact h' ‹¬ c›

/-- What does not depend on the state can be assumed. -/
theorem assume {c : Prop} {m : Observed σ ε ω α} (h : c → Traces R P m Q) :
    Traces R (fun s => c ∧ P s) m Q := fun s hs => h hs.1 s hs.2

/-- A program that starts by reading the state may treat what it read as a constant. -/
theorem get_bind {f : σ → Observed σ ε ω β} (h : ∀ s, P s → Traces R (· = s) (f s) S) :
    Traces R P (Observed.reads get >>= f) S := by
  intro s hs b s' hrun
  exact h s hs s rfl b s' hrun

/-- **Loop rule.** The invariant speaks about the elements still to come. -/
theorem forM {I : List ι → σ → Prop} {f : ι → Observed σ ε ω PUnit}
    (hf : ∀ x xs, Traces R (I (x :: xs)) (f x) fun _ => I xs) (xs : List ι) :
    Traces R (I xs) (xs.forM f) fun _ => I [] := by
  induction xs with
  | nil => exact Traces.pure fun s hs => hs
  | cons x xs ih => exact (hf x xs).bind fun _ => ih

/-- Two triples about one program. -/
theorem and {R' : σ → ω → σ → Prop} {m : Observed σ ε ω α} (h : Traces R P m Q)
    (h' : Traces R' P' m Q') :
    Traces (fun s o s' => R s o s' ∧ R' s o s') (fun s => P s ∧ P' s) m fun a s => Q a s ∧ Q' a s := by
  intro s hs a s' hrun
  obtain ⟨hpath, hq⟩ := h s hs.1 a s' hrun
  obtain ⟨hpath', hq'⟩ := h' s hs.2 a s' hrun
  exact ⟨hpath.and hpath', hq, hq'⟩

/-- What every step keeps holds at the end. -/
theorem keeps {I : σ → Prop} {m : Observed σ ε ω α} (h : Traces R P m Q) (hP : ∀ s, P s → I s)
    (pres : ∀ s o t, I s → R s o t → I t) : Traces R P m fun a s => Q a s ∧ I s := by
  intro s hs a s' hrun
  obtain ⟨hpath, hq⟩ := h s hs a s' hrun
  exact ⟨hpath, hq, (hpath.forall_states (hP s hs) pres).2⟩

end Traces

/-! ## Triples that rely on the states of the operations -/

/-- From every state with `P`, a run that ends normally ends with `Q` and its operations are as `C`
says, provided that all the states it went through are as `L` says. -/
def Within (L : σ → Prop) (C : ω → σ → Prop) (P : σ → Prop) (m : Observed σ ε ω α)
    (Q : α → σ → Prop) : Prop :=
  ∀ s, L s → P s → ∀ a s', m.run s = .ok (a, s') → (∀ x ∈ m.log s, L x.2) →
    L s' ∧ (∀ x ∈ m.log s, C x.1 x.2) ∧ Q a s'

namespace Within

variable {L : σ → Prop} {C : ω → σ → Prop} {P : σ → Prop} {Q : α → σ → Prop} {S : β → σ → Prop}

/-- The steps of a program satisfy what they are relied on for. -/
theorem of_traces {R : σ → ω → σ → Prop} {m : Observed σ ε ω α}
    (h : Traces R (fun s => L s ∧ P s) m Q) (hC : ∀ s o s', R s o s' → C o s') : Within L C P m Q := by
  intro s hl hs a s' hrun hlog
  obtain ⟨hpath, hq⟩ := h s ⟨hl, hs⟩ a s' hrun
  refine ⟨?_, ?_, hq⟩
  · rcases hpath.last_state with rfl | ⟨o, hmem⟩
    · exact hl
    · exact hlog _ hmem
  · refine (hpath.invariant (P := fun l _ => ∀ x ∈ l, C x.1 x.2) ?_ ?_)
    · exact fun x hx => absurd hx List.not_mem_nil
    · intro l t o t' hl hstep x hx
      rcases List.mem_append.mp hx with hx | hx
      · exact hl x hx
      · obtain rfl := List.mem_singleton.mp hx
        exact hC t o t' hstep

theorem op {m : Program σ ε α} {o : σ → ω}
    (h : ∀ s, L s → P s → ∀ a s', m s = .ok (a, s') → L s' → C (o s') s' ∧ Q a s') :
    Within L C P (op m o) Q := by
  intro s hl hs a s' hrun hlog
  have hlist : (Observed.op m o).log s = [(o s', s')] := by
    change m s = _ at hrun
    simp only [Observed.op, hrun]
  rw [hlist] at hlog ⊢
  have hl' := hlog _ List.mem_cons_self
  obtain ⟨hc, hq⟩ := h s hl hs a s' hrun hl'
  refine ⟨hl', fun x hx => ?_, hq⟩
  obtain rfl := List.mem_singleton.mp hx
  exact hc

theorem bind {m : Observed σ ε ω α} {f : α → Observed σ ε ω β} (hm : Within L C P m Q)
    (hf : ∀ a, Within L C (Q a) (f a) S) : Within L C P (m >>= f) S := by
  intro s hl hs b s' hrun hlog
  obtain ⟨a, t, hfirst, hsecond⟩ := Program.bind_eq_ok.mp hrun
  rw [log_bind_of_ok hfirst] at hlog ⊢
  obtain ⟨ht, hc, hq⟩ := hm s hl hs a t hfirst fun x hx => hlog x (List.mem_append_left _ hx)
  obtain ⟨hl', hc', hb⟩ := hf a t ht hq b s' hsecond fun x hx => hlog x (List.mem_append_right _ hx)
  refine ⟨hl', fun x hx => ?_, hb⟩
  exact (List.mem_append.mp hx).elim (hc x) (hc' x)

/-- **Loop rule** -/
theorem forM {f : ι → Observed σ ε ω PUnit} {xs : List ι}
    (hf : ∀ x ∈ xs, Within L C P (f x) fun _ => P) : Within L C P (xs.forM f) fun _ => P := by
  induction xs with
  | nil =>
      intro s hl hs a s' hrun _
      obtain rfl := (Prod.mk.inj (Except.ok.inj hrun)).2
      exact ⟨hl, fun x hx => absurd hx List.not_mem_nil, hs⟩
  | cons x xs ih =>
      exact (hf x List.mem_cons_self).bind fun _ => ih fun y hy => hf y (List.mem_cons_of_mem _ hy)

end Within

end Observed

end FrameSync
