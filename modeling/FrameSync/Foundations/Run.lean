import Mathlib.Data.List.Basic
import Mathlib.Tactic.Common

/-! # Runs of an event-driven step function

A system is a partial step function `step : σ → ε → Option σ`: the event `e` is enabled in `s`
when `step s e` is defined. A *run* carries its trace, the list of the states it left together
with the events that left them, so that a property may look back at what happened before. -/

namespace FrameSync

variable {σ ε : Type*}

/-- `Run step s₀ tr s`: from `s₀` the events of `tr` lead to `s`, and `tr` pairs each event with
the state in which it was taken. -/
inductive Run (step : σ → ε → Option σ) (s₀ : σ) : List (σ × ε) → σ → Prop
  /-- The empty run. -/
  | nil : Run step s₀ [] s₀
  /-- One more event, enabled in the last state. -/
  | snoc {tr : List (σ × ε)} {s s' : σ} {e : ε} :
      Run step s₀ tr s → step s e = some s' → Run step s₀ (tr ++ [(s, e)]) s'

namespace Run

variable {step : σ → ε → Option σ} {s₀ : σ}

/-- **Invariant rule.** A property of trace and state that holds at the start and is preserved by
every enabled step of a run holds at the end of every run. -/
theorem invariant {P : List (σ × ε) → σ → Prop} (init : P [] s₀)
    (pres : ∀ tr s e s', Run step s₀ tr s → P tr s → step s e = some s' → P (tr ++ [(s, e)]) s')
    {tr : List (σ × ε)} {s : σ} (h : Run step s₀ tr s) : P tr s := by
  induction h with
  | nil => exact init
  | snoc hrun hstep ih => exact pres _ _ _ _ hrun ih hstep

/-- **Invariant rule under a condition on the steps.** As `Run.invariant`, for the runs each of
whose steps meets `C`. -/
theorem invariant_of_steps {C : σ → ε → Prop} {P : List (σ × ε) → σ → Prop} (init : P [] s₀)
    (pres : ∀ tr s e s', Run step s₀ tr s → P tr s → C s e → step s e = some s' →
      P (tr ++ [(s, e)]) s')
    {tr : List (σ × ε)} {s : σ} (h : Run step s₀ tr s) (hC : ∀ x ∈ tr, C x.1 x.2) : P tr s := by
  induction h with
  | nil => exact init
  | snoc hrun hstep ih =>
      have hprev := ih fun x hx => hC x (List.mem_append_left _ hx)
      exact pres _ _ _ _ hrun hprev (hC _ (List.mem_append_right _ (List.mem_singleton.mpr rfl))) hstep

/-- Runs compose. -/
theorem trans {tr₁ tr₂ : List (σ × ε)} {s₁ s₂ : σ} (h₁ : Run step s₀ tr₁ s₁)
    (h₂ : Run step s₁ tr₂ s₂) : Run step s₀ (tr₁ ++ tr₂) s₂ := by
  induction h₂ with
  | nil => rwa [List.append_nil]
  | snoc _ hstep ih => rw [← List.append_assoc]; exact ih.snoc hstep

/-- A run up to one of its steps is a run. -/
theorem before {tr pre post : List (σ × ε)} {x : σ × ε} {s : σ} (h : Run step s₀ tr s)
    (hsplit : tr = pre ++ x :: post) : Run step s₀ pre x.1 := by
  induction h generalizing post with
  | nil => exact absurd hsplit.symm (by simp)
  | snoc hrun _ ih =>
      rcases List.eq_nil_or_concat post with rfl | ⟨post, y, rfl⟩
      · obtain ⟨rfl, hx⟩ := List.append_inj' hsplit rfl
        obtain rfl := (List.cons.inj hx).1
        exact hrun
      · rw [List.concat_eq_append, ← List.cons_append, ← List.append_assoc] at hsplit
        exact ih (List.append_inj_left' hsplit rfl)

/-- Each event of a trace was enabled in the state it was taken in. -/
theorem enabled {tr pre post : List (σ × ε)} {x : σ × ε} {s : σ} (h : Run step s₀ tr s)
    (hsplit : tr = pre ++ x :: post) : ∃ s', step x.1 x.2 = some s' := by
  induction h generalizing post with
  | nil => exact absurd hsplit.symm (by simp)
  | snoc _ hstep ih =>
      rcases List.eq_nil_or_concat post with rfl | ⟨post, y, rfl⟩
      · obtain ⟨-, hx⟩ := List.append_inj' hsplit rfl
        obtain rfl := (List.cons.inj hx).1
        exact ⟨_, hstep⟩
      · rw [List.concat_eq_append, ← List.cons_append, ← List.append_assoc] at hsplit
        exact ih (List.append_inj_left' hsplit rfl)

/-! ## Where a run leads -/

/-- One event and then a run. -/
theorem cons {tr : List (σ × ε)} {s s₁ s' : σ} {e : ε} (hstep : step s e = some s₁)
    (h : Run step s₁ tr s') : Run step s ((s, e) :: tr) s' :=
  (nil.snoc hstep).trans h

/-- The first event of a run that leads elsewhere. -/
theorem uncons {tr : List (σ × ε)} {s s' : σ} (h : Run step s tr s') (hne : s ≠ s') :
    ∃ e s₁ tr', step s e = some s₁ ∧ Run step s₁ tr' s' := by
  induction h with
  | nil => exact absurd rfl hne
  | snoc hrun hstep ih =>
      rename_i tr s₂ s' e
      by_cases hs : s = s₂
      · subst hs
        exact ⟨e, s', [], hstep, nil⟩
      · obtain ⟨e', s₁, tr', hfirst, hrest⟩ := ih hs
        exact ⟨e', s₁, _, hfirst, hrest.snoc hstep⟩

/-- **Leads-to rule.** If from each state of `P` an event leads out of `P`, or to a state of `P` with
less left to do, then from each state of `P` a run leads out of it. -/
theorem leads_out {P : σ → Prop} (left : σ → ℕ)
    (h : ∀ s, P s → ∃ e s', step s e = some s' ∧ (P s' → left s' < left s)) {s : σ} (hs : P s) :
    ∃ tr s', Run step s tr s' ∧ ¬ P s' := by
  induction hn : left s using Nat.strongRecOn generalizing s with
  | _ n ih =>
      obtain ⟨e, s₁, hstep, hless⟩ := h s hs
      by_cases hs₁ : P s₁
      · obtain ⟨tr, s', hrun, hout⟩ := ih (left s₁) (hn ▸ hless hs₁) hs₁ rfl
        exact ⟨_, s', hrun.cons hstep, hout⟩
      · exact ⟨_, s₁, nil.snoc hstep, hs₁⟩

/-- **Determinism rule.** While at most one event is enabled in the states of `P`, a run through `P`
is on the way of every run that leads out of `P`. -/
theorem on_the_way {P : σ → Prop}
    (hdet : ∀ s e e' s₁ s₂, P s → step s e = some s₁ → step s e' = some s₂ → e = e')
    {tr tr' : List (σ × ε)} {s s₁ s' : σ} (h : Run step s tr s₁) (hP : ∀ x ∈ tr, P x.1)
    (h' : Run step s tr' s') (hout : ¬ P s') : ∃ tr₂, Run step s₁ tr₂ s' := by
  induction h with
  | nil => exact ⟨tr', h'⟩
  | snoc hrun hstep ih =>
      rename_i tr s₂ s₁ e
      have hs₂ : P s₂ := hP (s₂, e) (List.mem_append_right _ List.mem_cons_self)
      obtain ⟨tr₂, hrest⟩ := ih fun x hx => hP x (List.mem_append_left _ hx)
      obtain ⟨e', s₃, tr₃, hfirst, hafter⟩ := hrest.uncons fun heq => hout (heq ▸ hs₂)
      obtain rfl := hdet s₂ e e' s₁ s₃ hs₂ hstep hfirst
      obtain rfl := Option.some.inj (hstep.symm.trans hfirst)
      exact ⟨tr₃, hafter⟩

/-- A run that ends in `P` went through `P` if nothing returns to `P`. -/
theorem through {I P : σ → Prop} (hI : ∀ s e s', I s → step s e = some s' → I s')
    (hback : ∀ s e s', I s → step s e = some s' → P s' → P s) {tr : List (σ × ε)} {s s' : σ}
    (h : Run step s tr s') (hs : I s) : I s' ∧ (P s' → ∀ x ∈ tr, P x.1) := by
  induction h with
  | nil => exact ⟨hs, fun _ x hx => absurd hx List.not_mem_nil⟩
  | snoc _ hstep ih =>
      refine ⟨hI _ _ _ ih.1 hstep, fun hs' x hx => ?_⟩
      have hlast := hback _ _ _ ih.1 hstep hs'
      rcases List.mem_append.mp hx with hx | hx
      · exact ih.2 hlast x hx
      · obtain rfl := List.mem_singleton.mp hx
        exact hlast

/-- **A deterministic stretch.** In the states of `P`, where at most one event is enabled, `R` tells
whether one is, and each event leaves less to do or leads out of `P` for good. Then a run leads out
of `P` if and only if `R` holds in each state of `P` on the way. `I` is an invariant. -/
theorem leads_out_iff {I P R : σ → Prop} (left : σ → ℕ)
    (hI : ∀ s e s', I s → step s e = some s' → I s')
    (hback : ∀ s e s', I s → step s e = some s' → P s' → P s)
    (hdet : ∀ s e e' s₁ s₂, P s → step s e = some s₁ → step s e' = some s₂ → e = e')
    (hon : ∀ s, I s → P s → ((∃ e s', step s e = some s') ↔ R s))
    (hless : ∀ s e s', P s → step s e = some s' → P s' → left s' < left s) {s : σ} (hs : I s)
    (hP : P s) :
    (∃ tr s', Run step s tr s' ∧ ¬ P s') ↔ ∀ tr s', Run step s tr s' → P s' → R s' := by
  constructor
  · rintro ⟨tr', s', hrun', hout⟩ tr s₁ hrun hs₁
    obtain ⟨hI₁, hthrough⟩ := hrun.through hI hback hs
    obtain ⟨tr₂, hrest⟩ := on_the_way hdet hrun (hthrough hs₁) hrun' hout
    obtain ⟨e, s₂, -, hstep, -⟩ := hrest.uncons fun heq => hout (heq ▸ hs₁)
    exact (hon s₁ hI₁ hs₁).mp ⟨e, s₂, hstep⟩
  · intro hR
    have hnext : ∀ s₁, (P s₁ ∧ ∃ tr, Run step s tr s₁) → ∃ e s', step s₁ e = some s' ∧
        ((P s' ∧ ∃ tr, Run step s tr s') → left s' < left s₁) := by
      rintro s₁ ⟨hP₁, tr, hrun⟩
      obtain ⟨e, s₂, hstep⟩ := (hon s₁ (hrun.through hI hback hs).1 hP₁).mpr (hR tr s₁ hrun hP₁)
      exact ⟨e, s₂, hstep, fun hs₂ => hless s₁ e s₂ hP₁ hstep hs₂.1⟩
    obtain ⟨tr, s', hrun, hout⟩ := leads_out left hnext ⟨hP, [], nil⟩
    exact ⟨tr, s', hrun, fun hs' => hout ⟨hs', tr, hrun⟩⟩

end Run

/-- Take the listed events one after another, failing at the first that is not enabled. -/
def runFrom (step : σ → ε → Option σ) (s : σ) : List ε → Option σ
  | [] => some s
  | e :: es => (step s e).bind fun s' => runFrom step s' es

/-- One list of events after another. -/
theorem runFrom_append (step : σ → ε → Option σ) (s : σ) (es es' : List ε) :
    runFrom step s (es ++ es') = (runFrom step s es).bind fun s' => runFrom step s' es' := by
  induction es generalizing s with
  | nil => rfl
  | cons e es ih =>
      rw [List.cons_append, runFrom, runFrom, Option.bind_assoc]
      exact Option.bind_congr fun s' _ => ih s'

/-- Two lists of events that execute, one after the other. -/
theorem runFrom_append_eq_some {step : σ → ε → Option σ} {s s₁ s₂ : σ} {es es' : List ε}
    (h : runFrom step s es = some s₁) (h' : runFrom step s₁ es' = some s₂) :
    runFrom step s (es ++ es') = some s₂ := by
  rw [runFrom_append, h, Option.bind_some, h']

/-- The trace that `runFrom` leaves behind. -/
def traceFrom (step : σ → ε → Option σ) (s : σ) : List ε → List (σ × ε)
  | [] => []
  | e :: es => (s, e) :: ((step s e).elim [] fun s' => traceFrom step s' es)

/-- An event list that executes is a run, so concrete executions witness reachability. -/
theorem run_of_runFrom {step : σ → ε → Option σ} {s s' : σ} {es : List ε}
    (h : runFrom step s es = some s') : Run step s (traceFrom step s es) s' := by
  induction es generalizing s with
  | nil =>
      obtain rfl : s = s' := Option.some.inj h
      exact Run.nil
  | cons e es ih =>
      rw [runFrom, Option.bind_eq_some_iff] at h
      obtain ⟨s₁, hs₁, hrest⟩ := h
      have hone : Run step s [(s, e)] s₁ := Run.nil.snoc hs₁
      have := hone.trans (ih hrest)
      simpa [traceFrom, hs₁] using this

/-- The trace of a list that executes has its events. -/
theorem traceFrom_map_snd {step : σ → ε → Option σ} {s s' : σ} {es : List ε}
    (h : runFrom step s es = some s') : (traceFrom step s es).map Prod.snd = es := by
  induction es generalizing s with
  | nil => rfl
  | cons e es ih =>
      rw [runFrom, Option.bind_eq_some_iff] at h
      obtain ⟨s₁, hs₁, hrest⟩ := h
      rw [traceFrom, hs₁, List.map_cons, Option.elim_some, ih hrest]

/-! ## Two systems that do the same -/

section Map

variable {τ : Type*} {step : σ → ε → Option σ} {step' : τ → ε → Option τ} {f : τ → σ}

/-- Steps that do the same make runs that do the same. -/
theorem runFrom_map (h : ∀ t e, (step' t e).map f = step (f t) e) (t : τ) (es : List ε) :
    (runFrom step' t es).map f = runFrom step (f t) es := by
  induction es generalizing t with
  | nil => rfl
  | cons e es ih =>
      rw [runFrom, runFrom, ← h]
      cases step' t e with
      | none => rfl
      | some t' => exact ih t'

/-- And they leave the same trace. -/
theorem traceFrom_map (h : ∀ t e, (step' t e).map f = step (f t) e) (t : τ) (es : List ε) :
    (traceFrom step' t es).map (Prod.map f fun e => e) = traceFrom step (f t) es := by
  induction es generalizing t with
  | nil => rfl
  | cons e es ih =>
      rw [traceFrom, traceFrom, List.map_cons, ← h]
      cases step' t e with
      | none => rfl
      | some t' => exact congrArg (List.cons _) (ih t')

end Map

end FrameSync
