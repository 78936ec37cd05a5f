import Mathlib.Data.List.Induction
import Mathlib.Tactic.Common

/-! # Handlers that may raise half way

A message handler changes the state of its object and sends messages, one after the other. An
error stops it where it is: what was assigned stays assigned, what was sent stays sent, and the
rest is not done. `Outcome` records the three, and `Outcome.andThen` sequences two handlers. -/

namespace FrameSync

/-- What a handler leaves behind: the state, the messages sent in order, and whether it raised. -/
structure Outcome (σ ω : Type*) where
  /-- The state left behind, also by a handler that raised. -/
  state : σ
  /-- The messages sent before the handler ended or raised. -/
  sent : List ω
  /-- Whether the handler ended by raising an error. -/
  raised : Bool
  deriving Repr, DecidableEq

namespace Outcome

variable {σ τ ω : Type*}

/-- The handler ends normally, sending `ws`. -/
def done (s : σ) (ws : List ω) : Outcome σ ω := ⟨s, ws, false⟩

/-- The handler raises, nothing sent. -/
def raise (s : σ) : Outcome σ ω := ⟨s, [], true⟩

/-- Run `k` from the state `r` left, unless `r` raised. -/
def andThen (r : Outcome σ ω) (k : σ → Outcome σ ω) : Outcome σ ω :=
  if r.raised then r else ⟨(k r.state).state, r.sent ++ (k r.state).sent, (k r.state).raised⟩

/-- Change the state of the result, for a handler that works on a part of a larger object. -/
def mapState (f : σ → τ) (r : Outcome σ ω) : Outcome τ ω := ⟨f r.state, r.sent, r.raised⟩

@[simp] theorem done_state (s : σ) (ws : List ω) : (done s ws).state = s := rfl
@[simp] theorem done_sent (s : σ) (ws : List ω) : (done s ws).sent = ws := rfl
@[simp] theorem done_raised (s : σ) (ws : List ω) : (done s ws).raised = false := rfl
@[simp] theorem raise_state (s : σ) : (raise s : Outcome σ ω).state = s := rfl
@[simp] theorem raise_sent (s : σ) : (raise s : Outcome σ ω).sent = [] := rfl
@[simp] theorem raise_raised (s : σ) : (raise s : Outcome σ ω).raised = true := rfl
@[simp] theorem mapState_state (f : σ → τ) (r : Outcome σ ω) : (r.mapState f).state = f r.state := rfl
@[simp] theorem mapState_sent (f : σ → τ) (r : Outcome σ ω) : (r.mapState f).sent = r.sent := rfl
@[simp] theorem mapState_raised (f : σ → τ) (r : Outcome σ ω) : (r.mapState f).raised = r.raised := rfl

/-- A sequence whose first part did not raise. -/
theorem andThen_of_not_raised {r : Outcome σ ω} {k : σ → Outcome σ ω} (h : r.raised = false) :
    r.andThen k = ⟨(k r.state).state, r.sent ++ (k r.state).sent, (k r.state).raised⟩ := by
  simp [andThen, h]

/-- A sequence whose first part raised is that first part. -/
theorem andThen_of_raised {r : Outcome σ ω} {k : σ → Outcome σ ω} (h : r.raised = true) :
    r.andThen k = r := by
  simp [andThen, h]

@[simp] theorem done_andThen (s : σ) (ws : List ω) (k : σ → Outcome σ ω) :
    (done s ws).andThen k = ⟨(k s).state, ws ++ (k s).sent, (k s).raised⟩ := rfl

/-- A sequence ends normally exactly when both parts do. -/
theorem andThen_raised_eq_false {r : Outcome σ ω} {k : σ → Outcome σ ω} :
    (r.andThen k).raised = false ↔ r.raised = false ∧ (k r.state).raised = false := by
  cases h : r.raised <;> simp [andThen, h]

/-! ### One message after another -/

section After

variable {μ : Type*} (handle : σ → μ → Outcome σ ω) (s : σ)

/-- The messages `ms`, one after the other. A handler that raises ends there; the next message is
handled all the same. -/
def after (ms : List μ) : Outcome σ ω :=
  ms.foldl (fun r m => ⟨(handle r.state m).state, r.sent ++ (handle r.state m).sent,
    r.raised || (handle r.state m).raised⟩) (done s [])

@[simp] theorem after_nil : after handle s [] = done s [] := rfl

@[simp] theorem after_snoc_state (ms : List μ) (m : μ) :
    (after handle s (ms ++ [m])).state = (handle (after handle s ms).state m).state := by
  rw [after, List.foldl_append]
  rfl

@[simp] theorem after_snoc_sent (ms : List μ) (m : μ) : (after handle s (ms ++ [m])).sent
    = (after handle s ms).sent ++ (handle (after handle s ms).state m).sent := by
  rw [after, List.foldl_append]
  rfl

/-- What `obs` sees of each message, and of the state in which it is handled. -/
def observed {α : Type*} (obs : σ → μ → List α) (ms : List μ) : List α :=
  (after (fun s m => ⟨(handle s m).state, obs s m, false⟩) s ms).sent

variable {α : Type*} (obs : σ → μ → List α)

@[simp] theorem observed_nil : observed handle s obs [] = [] := rfl

@[simp] theorem observed_snoc (ms : List μ) (m : μ) : observed handle s obs (ms ++ [m])
    = observed handle s obs ms ++ obs (after handle s ms).state m := by
  have hstate : ∀ ms, (after (fun s m => (⟨(handle s m).state, obs s m, false⟩ : Outcome σ α)) s
      ms).state = (after handle s ms).state := by
    intro ms
    induction ms using List.reverseRecOn with
    | nil => rfl
    | append_singleton ms m ih => rw [after_snoc_state, ih, after_snoc_state]
  rw [observed, after_snoc_sent, hstate]
  rfl

end After

end Outcome

end FrameSync
