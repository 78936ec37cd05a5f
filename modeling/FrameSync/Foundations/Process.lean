import FrameSync.Foundations.Outcome
import FrameSync.Foundations.Run
import Mathlib.Logic.Function.Basic

/-! # Processes with inboxes

Processes at addresses, each with a state of its own and one FIFO inbox. A process handles the first
letter of its inbox, or acts on its own account; either way it changes its state and sends letters,
which go to the ends of the inboxes. A run leaves two logs for each address, the letters that were
sent there and those that were handled there, and what was handled is the first part of what was sent
(`handled_append_mail`). So a statement about letters under way is one about the logs, which only
grow. -/

namespace FrameSync

variable {A I : Type} {S L X : A → Type}

/-! ## Letters -/

/-- A letter with its address. -/
abbrev Letter (L : A → Type) := Σ a, L a

section Letters

variable [DecidableEq A]

/-- The letters for one address, in order. -/
def lettersTo (a : A) : List (Letter L) → List (L a)
  | [] => []
  | ⟨b, m⟩ :: ls => if h : b = a then (h ▸ m) :: lettersTo a ls else lettersTo a ls

@[simp] theorem lettersTo_nil (a : A) : lettersTo a ([] : List (Letter L)) = [] := rfl

@[simp] theorem lettersTo_cons_same (a : A) (m : L a) (ls : List (Letter L)) :
    lettersTo a (⟨a, m⟩ :: ls) = m :: lettersTo a ls := dif_pos rfl

theorem lettersTo_cons_ne {a b : A} (h : b ≠ a) (m : L b) (ls : List (Letter L)) :
    lettersTo a (⟨b, m⟩ :: ls) = lettersTo a ls := dif_neg h

@[simp] theorem lettersTo_append (a : A) (ls ls' : List (Letter L)) :
    lettersTo a (ls ++ ls') = lettersTo a ls ++ lettersTo a ls' := by
  induction ls with
  | nil => rfl
  | cons l ls ih =>
      obtain ⟨b, m⟩ := l
      by_cases h : b = a
      · subst h
        rw [List.cons_append, lettersTo_cons_same, lettersTo_cons_same, ih, List.cons_append]
      · rw [List.cons_append, lettersTo_cons_ne h, lettersTo_cons_ne h, ih]

@[simp] theorem mem_lettersTo {a : A} {m : L a} {ls : List (Letter L)} :
    m ∈ lettersTo a ls ↔ ⟨a, m⟩ ∈ ls := by
  induction ls with
  | nil => simp
  | cons l ls ih =>
      obtain ⟨b, m'⟩ := l
      by_cases h : b = a
      · subst h
        simp [ih]
      · have hne : (⟨a, m⟩ : Letter L) ≠ ⟨b, m'⟩ := fun heq => h (congrArg Sigma.fst heq).symm
        rw [lettersTo_cons_ne h, List.mem_cons, ih]
        simp [hne]

/-- Letters that all go to one address. -/
theorem lettersTo_map_same (a : A) (ms : List (L a)) :
    lettersTo a (ms.map fun m => (⟨a, m⟩ : Letter L)) = ms := by
  induction ms with
  | nil => rfl
  | cons m ms ih => rw [List.map_cons, lettersTo_cons_same, ih]

/-- Letters that all go elsewhere. -/
theorem lettersTo_eq_nil {a : A} {ls : List (Letter L)} (h : ∀ l ∈ ls, l.1 ≠ a) :
    lettersTo a ls = [] := by
  induction ls with
  | nil => rfl
  | cons l ls ih =>
      rw [lettersTo_cons_ne (h l List.mem_cons_self)]
      exact ih fun l' hl' => h l' (List.mem_cons_of_mem _ hl')

/-- The letters of one kind for one address. -/
theorem filter_lettersTo {a : A} {p : L a → Bool} {q : Letter L → Bool} (h : ∀ m, q ⟨a, m⟩ = p m)
    (ls : List (Letter L)) : (lettersTo a ls).filter p = lettersTo a (ls.filter q) := by
  induction ls with
  | nil => rfl
  | cons l ls ih =>
      obtain ⟨b, m⟩ := l
      by_cases hb : b = a
      · subst hb
        rw [lettersTo_cons_same, List.filter_cons, List.filter_cons, h m, ih]
        split
        · rw [lettersTo_cons_same]
        · rfl
      · rw [lettersTo_cons_ne hb, List.filter_cons, ih]
        split
        · rw [lettersTo_cons_ne hb]
        · rfl

end Letters

/-! ## The system -/

/-- What the processes do, given the readings `I` of clocks and random generators. -/
structure Behaviour (I : Type) (S L X : A → Type) where
  /-- Handling a letter. -/
  receive (a : A) : I → S a → L a → Outcome (S a) (Letter L)
  /-- Acting without one. -/
  act (a : A) : I → S a → X a → Outcome (S a) (Letter L)

/-- The states of the processes and the letters that wait in their inboxes. -/
structure Config (S L : A → Type) where
  /-- The states. -/
  state : ∀ a, S a
  /-- The inboxes. -/
  mail : ∀ a, List (L a)

/-- What happens next. -/
inductive Move (I : Type) (X : A → Type)
  /-- A process handles the first letter of its inbox. -/
  | deliver (a : A) (i : I)
  /-- A process acts on its own. -/
  | act (a : A) (x : X a) (i : I)

/-- The process that moves. -/
def Move.addr : Move I X → A
  | .deliver a _ | .act a _ _ => a

variable [DecidableEq A]

/-- Process `a` ends a handler with the outcome `o`, having left `rest` in its inbox. -/
def Config.commit (c : Config S L) (a : A) (rest : List (L a)) (o : Outcome (S a) (Letter L)) :
    Config S L where
  state := Function.update c.state a o.state
  mail := fun b => Function.update c.mail a rest b ++ lettersTo b o.sent

namespace Config

variable (c : Config S L) (a : A) (rest : List (L a)) (o : Outcome (S a) (Letter L))

@[simp] theorem commit_state_same : (c.commit a rest o).state a = o.state :=
  Function.update_self ..

theorem commit_state_ne {b : A} (h : b ≠ a) : (c.commit a rest o).state b = c.state b :=
  Function.update_of_ne h ..

@[simp] theorem commit_mail_same : (c.commit a rest o).mail a = rest ++ lettersTo a o.sent :=
  congrArg (· ++ _) (Function.update_self ..)

theorem commit_mail_ne {b : A} (h : b ≠ a) :
    (c.commit a rest o).mail b = c.mail b ++ lettersTo b o.sent :=
  congrArg (· ++ _) (Function.update_of_ne h ..)

end Config

namespace Behaviour

variable (B : Behaviour I S L X)

/-- One move. -/
def step (c : Config S L) : Move I X → Option (Config S L)
  | .deliver a i =>
      match c.mail a with
      | [] => none
      | m :: rest => some (c.commit a rest (B.receive a i (c.state a) m))
  | .act a x i => some (c.commit a (c.mail a) (B.act a i (c.state a) x))

/-- The runs. -/
abbrev Runs (c₀ : Config S L) (tr : List (Config S L × Move I X)) (c : Config S L) : Prop :=
  Run B.step c₀ tr c

/-- The letters a move sends. -/
def emitted (c : Config S L) : Move I X → List (Letter L)
  | .deliver a i =>
      match c.mail a with
      | [] => []
      | m :: _ => (B.receive a i (c.state a) m).sent
  | .act a x i => (B.act a i (c.state a) x).sent

/-- The letter at `a` that a move handles, if it is one of `a`. -/
def took (a : A) (c : Config S L) : Move I X → List (L a)
  | .deliver b _ => if b = a then (c.mail a).take 1 else []
  | .act .. => []

/-- The letters that `a` sends to `b` in a move. -/
def emittedBy (a b : A) (c : Config S L) (e : Move I X) : List (L b) :=
  if e.addr = a then lettersTo b (B.emitted c e) else []

/-- The letters that were handled at `a`. -/
def handled (a : A) (tr : List (Config S L × Move I X)) : List (L a) :=
  tr.flatMap fun x => took a x.1 x.2

/-- The letters that were sent to `a`. -/
def sent (a : A) (tr : List (Config S L × Move I X)) : List (L a) :=
  tr.flatMap fun x => lettersTo a (B.emitted x.1 x.2)

/-- The letters that `a` sent to `b`. -/
def sentBy (a b : A) (tr : List (Config S L × Move I X)) : List (L b) :=
  tr.flatMap fun x => B.emittedBy a b x.1 x.2

/-- What `obs` sees of the letters that are handled at `a`, and of the readings and states with which
they are handled. -/
def observed {α : Type} (a : A) (obs : I → S a → L a → List α) (tr : List (Config S L × Move I X)) :
    List α :=
  tr.flatMap fun x =>
    match x.2 with
    | .deliver b i => if b = a then ((x.1.mail a).take 1).flatMap (obs i (x.1.state a)) else []
    | .act .. => []

/-! ## How the logs grow -/

section Logs

variable {tr : List (Config S L × Move I X)} {c : Config S L}

@[simp] theorem handled_nil (a : A) : handled a ([] : List (Config S L × Move I X)) = [] := rfl

@[simp] theorem sent_nil (a : A) : B.sent a [] = [] := rfl

theorem handled_snoc (a : A) (e : Move I X) :
    handled a (tr ++ [(c, e)]) = handled a tr ++ took a c e := by
  simp [handled]

theorem sent_snoc (a : A) (e : Move I X) :
    B.sent a (tr ++ [(c, e)]) = B.sent a tr ++ lettersTo a (B.emitted c e) := by
  simp [sent]

theorem handled_deliver {a : A} {i : I} {m : L a} {rest : List (L a)} (h : c.mail a = m :: rest) :
    handled a (tr ++ [(c, .deliver a i)]) = handled a tr ++ [m] := by
  rw [handled_snoc, took, if_pos rfl, h]
  rfl

theorem handled_deliver_ne {a b : A} {i : I} (h : b ≠ a) :
    handled a (tr ++ [(c, .deliver b i)]) = handled a tr := by
  rw [handled_snoc, took, if_neg h, List.append_nil]

@[simp] theorem handled_act (a : A) {b : A} {x : X b} {i : I} :
    handled a (tr ++ [(c, .act b x i)]) = handled a tr := by
  rw [handled_snoc, took, List.append_nil]

theorem sent_deliver (b : A) {a : A} {i : I} {m : L a} {rest : List (L a)} (h : c.mail a = m :: rest) :
    B.sent b (tr ++ [(c, .deliver a i)])
      = B.sent b tr ++ lettersTo b (B.receive a i (c.state a) m).sent := by
  rw [sent_snoc, emitted, h]

@[simp] theorem sent_act (b : A) {a : A} {x : X a} {i : I} :
    B.sent b (tr ++ [(c, .act a x i)])
      = B.sent b tr ++ lettersTo b (B.act a i (c.state a) x).sent := by
  rw [sent_snoc, emitted]

theorem sentBy_snoc (a b : A) (e : Move I X) :
    B.sentBy a b (tr ++ [(c, e)]) = B.sentBy a b tr ++ B.emittedBy a b c e := by
  simp [sentBy]

theorem sentBy_ne {a b : A} {e : Move I X} (h : e.addr ≠ a) :
    B.sentBy a b (tr ++ [(c, e)]) = B.sentBy a b tr := by
  rw [sentBy_snoc, emittedBy, if_neg h, List.append_nil]

theorem sentBy_deliver {a b : A} {i : I} {m : L a} {rest : List (L a)} (h : c.mail a = m :: rest) :
    B.sentBy a b (tr ++ [(c, .deliver a i)])
      = B.sentBy a b tr ++ lettersTo b (B.receive a i (c.state a) m).sent := by
  rw [sentBy_snoc, emittedBy, Move.addr, if_pos rfl, emitted, h]

section Observed

variable {α : Type} {a : A} (obs : I → S a → L a → List α)

@[simp] theorem observed_nil : observed a obs ([] : List (Config S L × Move I X)) = [] := rfl

theorem observed_deliver {i : I} {m : L a} {rest : List (L a)} (h : c.mail a = m :: rest) :
    observed a obs (tr ++ [(c, .deliver a i)]) = observed a obs tr ++ obs i (c.state a) m := by
  simp [observed, h]

theorem observed_deliver_ne {b : A} {i : I} (h : b ≠ a) :
    observed a obs (tr ++ [(c, .deliver b i)]) = observed a obs tr := by
  simp [observed, h]

@[simp] theorem observed_act {b : A} {x : X b} {i : I} :
    observed a obs (tr ++ [(c, .act b x i)]) = observed a obs tr := by
  simp [observed]

end Observed

end Logs

/-- What one process sent to another was sent there. -/
theorem sentBy_subset (a b : A) (tr : List (Config S L × Move I X)) : B.sentBy a b tr ⊆ B.sent b tr := by
  intro m hm
  obtain ⟨x, hx, hm⟩ := List.mem_flatMap.mp hm
  refine List.mem_flatMap.mpr ⟨x, hx, ?_⟩
  rw [emittedBy] at hm
  split at hm
  · exact hm
  · cases hm

/-- The letters of one kind are those of the one process that sends letters of that kind. -/
theorem filter_sent {a b : A} {p : L b → Bool}
    (receive : ∀ a' i s m, a' ≠ a → ∀ m' ∈ lettersTo b (B.receive a' i s m).sent, p m' = false)
    (act : ∀ a' i s x, a' ≠ a → ∀ m' ∈ lettersTo b (B.act a' i s x).sent, p m' = false)
    (tr : List (Config S L × Move I X)) :
    (B.sent b tr).filter p = (B.sentBy a b tr).filter p := by
  rw [sent, sentBy, List.filter_flatMap, List.filter_flatMap]
  refine congrArg (List.flatMap · tr) (funext fun x => ?_)
  obtain ⟨c, e⟩ := x
  show List.filter p (lettersTo b (B.emitted c e)) = List.filter p (B.emittedBy a b c e)
  rw [emittedBy]
  split
  · rfl
  · rename_i hne
    rw [List.filter_nil, List.filter_eq_nil_iff]
    intro m' hm'
    cases e with
    | deliver a' i =>
        dsimp only [emitted] at hm'
        split at hm'
        · cases hm'
        · simp [receive a' i _ _ hne m' hm']
    | act a' x i => simp [act a' i _ x hne m' hm']

/-- In a run in which one process only has sent letters of a kind, these are the letters of that
kind. -/
theorem filter_sent_of_run {a b : A} {p : L b → Bool} {tr : List (Config S L × Move I X)}
    (h : ∀ a', a' ≠ a → (B.sentBy a' b tr).filter p = []) :
    (B.sent b tr).filter p = (B.sentBy a b tr).filter p := by
  rw [sent, sentBy, List.filter_flatMap, List.filter_flatMap]
  refine List.flatMap_congr fun x hx => ?_
  by_cases ha : x.2.addr = a
  · rw [emittedBy, if_pos ha]
  · -- the letters of this move are among those of another process
    have hother := h x.2.addr ha
    rw [sentBy, List.filter_flatMap, List.flatMap_eq_nil_iff] at hother
    have hnone := hother x hx
    rw [emittedBy, if_pos rfl] at hnone
    rw [hnone, emittedBy, if_neg ha]
    rfl

/-- What every letter to `b` satisfies when it is sent, all letters sent to `b` satisfy. -/
theorem forall_sent {b : A} {Q : L b → Prop}
    (receive : ∀ a i s m, ∀ m' ∈ lettersTo b (B.receive a i s m).sent, Q m')
    (act : ∀ a i s x, ∀ m' ∈ lettersTo b (B.act a i s x).sent, Q m')
    {tr : List (Config S L × Move I X)} : ∀ m ∈ B.sent b tr, Q m := by
  intro m hm
  obtain ⟨⟨c, e⟩, -, hm⟩ := List.mem_flatMap.mp hm
  cases e with
  | deliver a i =>
      dsimp only [emitted] at hm
      split at hm
      · cases hm
      · exact receive a i _ _ m hm
  | act a x i => exact act a i _ x m hm

/-! ## Rules for runs -/

variable {B} {c₀ : Config S L}

/-- A run goes on with a letter that waits. -/
theorem runs_deliver {tr : List (Config S L × Move I X)} {c : Config S L} {a : A} {m : L a}
    {rest : List (L a)} (h : B.Runs c₀ tr c) (i : I) (hmail : c.mail a = m :: rest) :
    B.Runs c₀ (tr ++ [(c, .deliver a i)]) (c.commit a rest (B.receive a i (c.state a) m)) :=
  h.snoc (by rw [step, hmail])

/-- **Invariant rule**: what holds at the start and is preserved by handling a letter and by acting
on one's own holds along every run, here of moves that satisfy `C`. -/
theorem invariant_of_moves {C : Config S L → Move I X → Prop}
    {P : List (Config S L × Move I X) → Config S L → Prop} (init : P [] c₀)
    (receive : ∀ tr c a i m rest, B.Runs c₀ tr c → P tr c → C c (.deliver a i) →
      c.mail a = m :: rest →
      P (tr ++ [(c, .deliver a i)]) (c.commit a rest (B.receive a i (c.state a) m)))
    (act : ∀ tr c a x i, B.Runs c₀ tr c → P tr c → C c (.act a x i) →
      P (tr ++ [(c, .act a x i)]) (c.commit a (c.mail a) (B.act a i (c.state a) x)))
    {tr : List (Config S L × Move I X)} {c : Config S L} (h : B.Runs c₀ tr c)
    (hC : ∀ x ∈ tr, C x.1 x.2) : P tr c := by
  refine h.invariant_of_steps init ?_ hC
  intro tr c e c' hrun hc hCe hstep
  cases e with
  | deliver a i =>
      rw [step] at hstep
      split at hstep
      · cases hstep
      · rename_i m rest hmail
        obtain rfl := Option.some.inj hstep
        exact receive tr c a i m rest hrun hc hCe hmail
  | act a x i =>
      obtain rfl := Option.some.inj hstep
      exact act tr c a x i hrun hc hCe

/-- The invariant rule for all runs. -/
theorem invariant {P : List (Config S L × Move I X) → Config S L → Prop} (init : P [] c₀)
    (receive : ∀ tr c a i m rest, B.Runs c₀ tr c → P tr c → c.mail a = m :: rest →
      P (tr ++ [(c, .deliver a i)]) (c.commit a rest (B.receive a i (c.state a) m)))
    (act : ∀ tr c a x i, B.Runs c₀ tr c → P tr c →
      P (tr ++ [(c, .act a x i)]) (c.commit a (c.mail a) (B.act a i (c.state a) x)))
    {tr : List (Config S L × Move I X)} {c : Config S L} (h : B.Runs c₀ tr c) : P tr c :=
  invariant_of_moves (C := fun _ _ => True) init
    (fun tr c a i m rest hrun hc _ hmail => receive tr c a i m rest hrun hc hmail)
    (fun tr c a x i hrun hc _ => act tr c a x i hrun hc) h fun _ _ => trivial

/-- **What was handled and what waits is what was sent.** -/
theorem handled_append_mail {tr : List (Config S L × Move I X)} {c : Config S L} {a : A}
    (h : B.Runs c₀ tr c) (h₀ : c₀.mail a = []) : handled a tr ++ c.mail a = B.sent a tr := by
  refine invariant (P := fun tr c => handled a tr ++ c.mail a = B.sent a tr) ?_ ?_ ?_ h
  · rw [handled_nil, h₀, sent_nil]
    rfl
  · intro tr c b i m rest _ hc hmail
    rw [sent_deliver B a hmail, ← hc]
    by_cases hab : b = a
    · subst hab
      rw [handled_deliver hmail, Config.commit_mail_same, hmail]
      simp
    · rw [handled_deliver_ne hab, Config.commit_mail_ne _ _ _ _ (Ne.symm hab), List.append_assoc]
  · intro tr c b x i _ hc
    rw [sent_act, handled_act, ← hc]
    by_cases hab : b = a
    · subst hab
      rw [Config.commit_mail_same, List.append_assoc]
    · rw [Config.commit_mail_ne _ _ _ _ (Ne.symm hab), List.append_assoc]

/-- What was handled is the first part of what was sent. -/
theorem handled_prefix_sent {tr : List (Config S L × Move I X)} {c : Config S L} {a : A}
    (h : B.Runs c₀ tr c) (h₀ : c₀.mail a = []) : handled a tr <+: B.sent a tr :=
  ⟨c.mail a, handled_append_mail h h₀⟩

/-- So is what was handled with the letter that is handled next. -/
theorem handled_deliver_prefix {tr : List (Config S L × Move I X)} {c : Config S L} {a : A} {i : I}
    {m : L a} {rest : List (L a)} (h : B.Runs c₀ tr c) (h₀ : c₀.mail a = [])
    (hmail : c.mail a = m :: rest) : handled a (tr ++ [(c, .deliver a i)]) <+: B.sent a tr := by
  refine ⟨rest, ?_⟩
  rw [handled_deliver hmail, ← handled_append_mail h h₀, hmail, List.append_assoc]
  rfl

/-- **Fold rule**: an observation of a process that each handled letter changes in one way, and
nothing else changes, is a fold over the letters handled. -/
theorem state_eq_foldl {α : Type} {a : A} (obs : S a → α) (f : α → L a → α)
    (receive : ∀ i s m, obs (B.receive a i s m).state = f (obs s) m)
    (act : ∀ i s x, obs (B.act a i s x).state = obs s)
    {tr : List (Config S L × Move I X)} {c : Config S L} (h : B.Runs c₀ tr c) :
    obs (c.state a) = (handled a tr).foldl f (obs (c₀.state a)) := by
  refine invariant (P := fun tr c => obs (c.state a) = (handled a tr).foldl f (obs (c₀.state a)))
    rfl ?_ ?_ h
  · intro tr c b i m rest _ hc hmail
    by_cases hab : b = a
    · subst hab
      rw [handled_deliver hmail, List.foldl_append, ← hc, Config.commit_state_same, receive]
      rfl
    · rw [handled_deliver_ne hab, Config.commit_state_ne _ _ _ _ (Ne.symm hab), hc]
  · intro tr c b x i _ hc
    rw [handled_act]
    by_cases hab : b = a
    · subst hab
      rw [Config.commit_state_same, act, hc]
    · rw [Config.commit_state_ne _ _ _ _ (Ne.symm hab), hc]

/-- **A process that only handles letters**, without reading anything, is what these letters make of
it, and has sent what they make it send. -/
theorem served_eq {a : A} {handle : S a → L a → Outcome (S a) (Letter L)} [IsEmpty (X a)]
    (hhandle : ∀ i s m, B.receive a i s m = handle s m)
    {tr : List (Config S L × Move I X)} {c : Config S L} (h : B.Runs c₀ tr c) :
    c.state a = (Outcome.after handle (c₀.state a) (handled a tr)).state ∧
      ∀ b, B.sentBy a b tr = lettersTo b (Outcome.after handle (c₀.state a) (handled a tr)).sent := by
  refine invariant (P := fun tr c =>
    c.state a = (Outcome.after handle (c₀.state a) (handled a tr)).state ∧ ∀ b, B.sentBy a b tr
      = lettersTo b (Outcome.after handle (c₀.state a) (handled a tr)).sent) ?_ ?_ ?_ h
  · exact ⟨rfl, fun b => rfl⟩
  · intro tr c b i m rest _ hc hmail
    by_cases hab : b = a
    · subst hab
      rw [handled_deliver hmail, Outcome.after_snoc_state, Outcome.after_snoc_sent, ← hc.1,
        Config.commit_state_same, hhandle]
      refine ⟨rfl, fun d => ?_⟩
      rw [sentBy_deliver B hmail, hc.2, hhandle, lettersTo_append]
    · rw [handled_deliver_ne hab, Config.commit_state_ne _ _ _ _ (Ne.symm hab)]
      refine ⟨hc.1, fun d => ?_⟩
      rw [sentBy_ne B (show (Move.deliver b i : Move I X).addr ≠ a from hab), hc.2]
  · intro tr c b x i _ hc
    have hab : b ≠ a := by
      rintro rfl
      exact isEmptyElim x
    rw [handled_act, Config.commit_state_ne _ _ _ _ (Ne.symm hab)]
    refine ⟨hc.1, fun d => ?_⟩
    rw [sentBy_ne B (show (Move.act b x i : Move I X).addr ≠ a from hab), hc.2]

end Behaviour

end FrameSync
