import FrameSync.Client.Bounds
import FrameSync.Scene.Roster

/-! # Server and client agree on who is in the game

The entries of the frames tell a client who is in the table of the server (`memberBy_run`). A player
of the table has an object at the client unless the object died since it entered: every operation keeps
this (`Buried.step`) but those of an `ENTER` or `LEAVE` entry, after which it holds for the new table
(`Buried.entry`). -/

namespace FrameSync.Client

open FighterWar (memberAfter memberBy)

variable {γ : Type}

/-! ## Who died -/

/-- A hit takes the last blood of the player of `pid`. -/
def Entity.diesAs (pid : Pid) (obj : Entity) : Bool := decide (obj.pid? = some pid) && obj.onHit.isDead

/-- Whether the player of `pid` died since it last entered. -/
def EntityOp.died (pid : Pid) (d : Bool) : EntityOp → Bool
  | .created _ obj => if obj.pid? = some pid then false else d
  | .hit _ _ obj₁ obj₂ => d || obj₁.diesAs pid || obj₂.diesAs pid
  | _ => d

/-- Whether it did after more operations. -/
def diedBy (pid : Pid) (d : Bool) (l : List (EntityOp × GameObj γ)) : Bool :=
  l.foldl (fun d x => x.1.died pid d) d

theorem diedBy_append (pid : Pid) (d : Bool) (l l' : List (EntityOp × GameObj γ)) :
    diedBy pid d (l ++ l') = diedBy pid (diedBy pid d l) l' := List.foldl_append

/-- The player of `pid` is neither created nor destroyed. -/
def EntityOp.Keeps (pid : Pid) : EntityOp → Prop
  | .created _ obj | .destroyed _ obj => obj.pid? ≠ some pid
  | _ => True

namespace GameObj

/-- The player of `pid` has an object that is alive. -/
def Alive (pid : Pid) (g : GameObj γ) : Prop :=
  ∃ id e, g.objects.lookup id = some e ∧ e.pid? = some pid ∧ e.isDead = false

/-- The player of `pid` is alive exactly if it is a member and did not die. -/
def Buried (pid : Pid) (member died : Bool) (g : GameObj γ) : Prop :=
  g.Alive pid ↔ member = true ∧ died = false

section Alive

variable {pid : Pid} {g : GameObj γ} {id : ℕ} {e e' : Entity}

/-- A new object -/
theorem alive_create (hindexed : g.Indexed) :
    (g.create e).Alive pid ↔ g.Alive pid ∨ (e.pid? = some pid ∧ e.isDead = false) := by
  constructor
  · rintro ⟨id, e', he', hpid, halive⟩
    rw [lookup_create] at he'
    split_ifs at he'
    · obtain rfl := Option.some.inj he'
      exact Or.inr ⟨hpid, halive⟩
    · exact Or.inl ⟨id, e', he', hpid, halive⟩
  · rintro (⟨id, e', he', hpid, halive⟩ | ⟨hpid, halive⟩)
    · refine ⟨id, e', ?_, hpid, halive⟩
      rw [lookup_create, if_neg]
      · exact he'
      · rintro rfl
        rw [hindexed.lookup_next] at he'
        cases he'
    · exact ⟨g.entityId + 1, e, by rw [lookup_create, if_pos rfl], hpid, halive⟩

/-- An object is taken away that was not the player of `pid`, alive. -/
theorem alive_unstore (he : g.objects.lookup id = some e) (hnot : ¬(e.pid? = some pid ∧ e.isDead = false)) :
    (g.unstore id e).Alive pid ↔ g.Alive pid := by
  constructor
  · rintro ⟨id', e', he', hpid, halive⟩
    rw [lookup_unstore] at he'
    split_ifs at he'
    exact ⟨id', e', he', hpid, halive⟩
  · rintro ⟨id', e', he', hpid, halive⟩
    refine ⟨id', e', ?_, hpid, halive⟩
    rw [lookup_unstore, if_neg]
    · exact he'
    · rintro rfl
      obtain rfl := Option.some.inj (he.symm.trans he')
      exact hnot ⟨hpid, halive⟩

/-- An object is written that is the player of `pid`, alive, before and after, or neither. -/
theorem alive_put (he : g.objects.lookup id = some e)
    (hsame : (e'.pid? = some pid ∧ e'.isDead = false) ↔ (e.pid? = some pid ∧ e.isDead = false)) :
    (g.put id e').Alive pid ↔ g.Alive pid := by
  constructor
  · rintro ⟨id', e'', he'', halive⟩
    rw [lookup_put he] at he''
    split_ifs at he'' with hid
    · obtain rfl := Option.some.inj he''
      exact ⟨id, e, he, hsame.mp halive⟩
    · exact ⟨id', e'', he'', halive⟩
  · rintro ⟨id', e'', he'', halive⟩
    by_cases hid : id' = id
    · subst hid
      obtain rfl := Option.some.inj (he.symm.trans he'')
      exact ⟨id', e', by rw [lookup_put he, if_pos rfl], hsame.mpr halive⟩
    · exact ⟨id', e'', by rw [lookup_put he, if_neg hid]; exact he'', halive⟩

/-- A player that is alive has a pid that was found. -/
theorem pidAt_eq (he : g.objects.lookup id = some e) : g.pidAt id = e.pid? := by
  rw [pidAt, he]
  rfl

/-- Without its object the player of `pid` is not alive. -/
theorem Consistent.not_alive_unstore (h : g.Consistent) (he : g.objects.lookup id = some e)
    (hpid : e.pid? = some pid) : ¬ (g.unstore id e).Alive pid := by
  rintro ⟨id', e', he', hpid', -⟩
  rw [lookup_unstore] at he'
  split_ifs at he' with hid
  exact hid (h.unique id' id pid ((pidAt_eq he').trans hpid') ((pidAt_eq he).trans hpid))

/-- Nor is it when its object has died. -/
theorem Consistent.not_alive_put (h : g.Consistent) (he : g.objects.lookup id = some e)
    (hpid : e.pid? = some pid) (hdead : e'.isDead = true) : ¬ (g.put id e').Alive pid := by
  rintro ⟨id', e'', he'', hpid', halive⟩
  rw [lookup_put he] at he''
  split_ifs at he'' with hid
  · obtain rfl := Option.some.inj he''
    rw [hdead] at halive
    cases halive
  · exact hid (h.unique id' id pid ((pidAt_eq he'').trans hpid') ((pidAt_eq he).trans hpid))

end Alive

/-! ## What every operation keeps -/

section Step

variable {pid : Pid} {member d : Bool} {g g' : GameObj γ} {o : EntityOp}

/-- **Step lemma**: an operation that neither creates nor destroys the player of `pid`. -/
theorem Buried.step (h : g.Buried pid member d) (hcons : g.Consistent) (hin : g.Inside)
    (hstep : EntityStep OnStart g o g') (hkeeps : o.Keeps pid) :
    g'.Buried pid member (o.died pid d) := by
  cases hstep with
  | drew | seeded | began | ctrlOnce => exact h
  | spawned | fired | entered =>
      rw [EntityOp.died, if_neg hkeeps, Buried, alive_create hcons.indexed, or_iff_left fun h => hkeeps h.1]
      exact h
  | destroyed he _ =>
      show Alive pid _ ↔ member = true ∧ d = false
      rw [alive_unstore he fun h => hkeeps h.1]
      exact h
  | @removed id e he hgone =>
      have he' : (g.rewarded e).objects.lookup id = some e := by rwa [objects_rewarded]
      have hnot : ¬(e.pid? = some pid ∧ e.isDead = false) := by
        -- a player is on the screen, so it is removed because it is dead
        rintro ⟨hpid, halive⟩
        rw [halive, hin id e he (type_of_pid? hpid)] at hgone
        cases hgone
      have hrewarded : (g.rewarded e).Alive pid ↔ g.Alive pid := by
        simp only [Alive, objects_rewarded]
      show Alive pid _ ↔ member = true ∧ d = false
      rw [alive_unstore he' hnot, hrewarded]
      exact h
  | moved he _ =>
      show Alive pid _ ↔ member = true ∧ d = false
      rw [alive_put he]
      · exact h
      · rw [Entity.pid?_advance, Entity.isDead_advance]
  | turned he _ _ _ hpid hblood =>
      show Alive pid _ ↔ member = true ∧ d = false
      rw [alive_put he]
      · exact h
      · rw [hpid, Entity.isDead, hblood, ← Entity.isDead]
  | @hit id₁ id₂ e₁ e₂ h₁ h₂ halive₁ halive₂ hfoes =>
      -- the first object is no player
      have hnone : e₁.pid? ≠ some pid := by
        intro hpid
        have htype := type_of_pid? hpid
        rcases hfoes with hfoes | hfoes
        · rw [hfoes.1] at htype
          cases htype
        · rw [hfoes.1] at htype
          cases htype
      have h₂' := hfoes.lookup_put h₁ h₂ e₁.onHit
      have hput₁ : (g.put id₁ e₁.onHit).Alive pid ↔ g.Alive pid :=
        alive_put h₁ (iff_of_false (fun h => hnone h.1) fun h => hnone h.1)
      have hd₁ : e₁.diesAs pid = false := by rw [Entity.diesAs, decide_eq_false hnone, Bool.false_and]
      rw [EntityOp.died, hd₁, Bool.or_false]
      by_cases hpid : e₂.pid? = some pid
      · rw [Entity.diesAs, decide_eq_true hpid, Bool.true_and]
        cases hdead : e₂.onHit.isDead with
        | true =>
            have hcons₁ := hcons.put h₁ (Entity.type_onHit e₁) rfl
            rw [Bool.or_true]
            exact iff_of_false (hcons₁.not_alive_put h₂' hpid hdead) fun h => Bool.noConfusion h.2
        | false =>
            have hput₂ : ((g.put id₁ e₁.onHit).put id₂ e₂.onHit).Alive pid ↔ (g.put id₁ e₁.onHit).Alive pid :=
              alive_put h₂' (iff_of_true ⟨hpid, hdead⟩ ⟨hpid, halive₂⟩)
            rw [Bool.or_false, Buried, hput₂, hput₁]
            exact h
      · have hput₂ : ((g.put id₁ e₁.onHit).put id₂ e₂.onHit).Alive pid ↔ (g.put id₁ e₁.onHit).Alive pid :=
          alive_put h₂' (iff_of_false (fun h => hpid h.1) fun h => hpid h.1)
        rw [Entity.diesAs, decide_eq_false hpid, Bool.false_and, Bool.or_false, Buried, hput₂, hput₁]
        exact h

/-- A player that is alive did not die, whatever the operation. -/
theorem not_died_step (h : g.Alive pid → d = false) (hcons : g.Consistent) (hin : g.Inside)
    (hstep : EntityStep OnStart g o g') (halive : g'.Alive pid) : o.died pid d = false := by
  classical
  have hkept : o.Keeps pid → o.died pid d = false := by
    intro hkeeps
    have hburied : g.Buried pid (decide (g.Alive pid)) d :=
      ⟨fun h' => ⟨decide_eq_true h', h h'⟩, fun h' => of_decide_eq_true h'.1⟩
    exact ((hburied.step hcons hin hstep hkeeps).mp halive).2
  cases hstep with
  | @entered _ e _ _ _ =>
      by_cases hpid : e.pid? = some pid
      · rw [EntityOp.died, if_pos hpid]
      · exact hkept hpid
  | @destroyed id e he _ =>
      by_cases hpid : e.pid? = some pid
      · exact absurd halive (hcons.not_alive_unstore he hpid)
      · exact hkept hpid
  | @spawned e hnew =>
      refine hkept fun hpid => ?_
      rw [Entity.pid?, hnew.body] at hpid
      cases hpid
  | fired => exact hkept fun hpid => Option.some_ne_none _ hpid.symm
  | drew | seeded | began | removed | moved | turned | hit | ctrlOnce => exact hkept trivial

end Step

/-! ## Paths -/

section Paths

variable {pid : Pid} {member d : Bool} {g g' : GameObj γ} {l : List (EntityOp × GameObj γ)}

/-- Operations that neither create nor destroy the player of `pid`. -/
theorem Buried.path (hpath : Path (fun g o g' => EntityStep OnStart g o g' ∧ o.Keeps pid) g l g')
    (hcons : g.Consistent) (hin : g.Inside) (h : g.Buried pid member d) :
    g'.Buried pid member (diedBy pid d l) := by
  refine (hpath.invariant (P := fun l t => t.Consistent ∧ t.Inside ∧ t.Buried pid member (diedBy pid d l))
    ⟨hcons, hin, h⟩ ?_).2.2
  rintro l t o t' ⟨hcons, hin, h⟩ ⟨hstep, hkeeps⟩
  rw [diedBy_append]
  exact ⟨hstep.consistent hcons, hin.step hstep, h.step hcons hin hstep hkeeps⟩

/-- A player that is alive in the end did not die. -/
theorem not_died_path (hpath : Path (EntityStep OnStart) g l g') (hcons : g.Consistent) (hin : g.Inside)
    (h : g.Alive pid → d = false) (halive : g'.Alive pid) : diedBy pid d l = false := by
  refine (hpath.invariant (P := fun l t => t.Consistent ∧ t.Inside ∧ (t.Alive pid → diedBy pid d l = false))
    ⟨hcons, hin, h⟩ ?_).2.2 halive
  rintro l t o t' ⟨hcons, hin, h⟩ hstep
  rw [diedBy_append]
  exact ⟨hstep.consistent hcons, hin.step hstep, not_died_step h hcons hin hstep⟩

/-- A player that has an object is alive, when no object is dead. -/
theorem DeadIn.alive_iff (h : g.DeadIn []) : g.Alive pid ↔ ∃ id, g.pidAt id = some pid := by
  constructor
  · rintro ⟨id, e, he, hpid, -⟩
    exact ⟨id, (pidAt_eq he).trans hpid⟩
  · rintro ⟨id, hid⟩
    obtain ⟨e, he, hpid⟩ := Option.bind_eq_some_iff.mp hid
    refine ⟨id, e, he, hpid, ?_⟩
    rw [← Bool.not_eq_true]
    exact fun hdead => absurd (h id e he hdead) List.not_mem_nil

/-- **An entry**: afterwards the player of `pid` is alive exactly if it is a member then and did not
die. -/
theorem Buried.entry {q : Pid} {action : ℤ} {ctrl : CtrlInfo}
    (hpath : Path (EntryStep OnStart q action) g l g') (hq : ctrl.pid = some q)
    (haction : ctrl.action = some action) (hacted : g'.Acted q action) (hdead : g'.DeadIn [])
    (hcons : g.Consistent) (hin : g.Inside) (h : g.Buried pid member d) :
    g'.Buried pid (memberAfter pid member ctrl) (diedBy pid d l) := by
  have hkept : (∀ g o g', EntryStep OnStart q action g o g' → o.Keeps pid) →
      g'.Buried pid member (diedBy pid d l) := fun hkeeps =>
    Buried.path (hpath.weaken fun g o g' hstep => ⟨hstep.step, hkeeps g o g' hstep⟩) hcons hin h
  have hother : ∀ {o : EntityOp}, q ≠ pid → o.Concerns q → o.Keeps pid := by
    intro o hne hconcerns
    cases o with
    | created | destroyed =>
        intro hpid
        exact hne (Option.some.inj (hconcerns.symm.trans hpid))
    | wrote => trivial
    | drew | seeded | began | removed | hit | ctrlOnce => exact hconcerns.elim
  rw [memberAfter, hq, haction]
  simp only [Option.some.injEq]
  split_ifs with hpid henter hleave
  · -- it has entered, and is alive
    obtain rfl := hpid
    have halive : g'.Alive q := hdead.alive_iff.mpr (hacted.1 henter)
    have hd : diedBy q d l = false :=
      not_died_path (hpath.weaken fun g o g' hstep => hstep.step) hcons hin (fun h' => (h.mp h').2) halive
    exact iff_of_true halive ⟨rfl, hd⟩
  · -- it has left
    obtain rfl := hpid
    refine iff_of_false (fun halive => ?_) fun h => Bool.noConfusion h.1
    obtain ⟨id, hid⟩ := hdead.alive_iff.mp halive
    exact hacted.2 hleave id hid
  · -- it has acted
    refine hkept fun g o g' hstep => ?_
    obtain ⟨id, obj, rfl⟩ := hstep.writes henter hleave
    trivial
  · exact hkept fun g o g' hstep => hother hpid hstep.concerns

end Paths

/-- The game between two calls of `update_ctrl_once`. -/
structure Living (g : GameObj γ) : Prop where
  /-- It is consistent. -/
  consistent : g.Consistent
  /-- No object is dead. -/
  dead : g.DeadIn []
  /-- The players are on the screen. -/
  inside : g.Inside

end GameObj

namespace Observing

open GameObj Observed

variable {α β : Type} {pid : Pid}

/-- A method after which the player of `pid` is a member according to `f`. -/
def Tracks (pid : Pid) (f : Bool → Bool) (m : Observing γ α) : Prop :=
  ∀ g, g.Living → ∀ a g', m.run g = .ok (a, g') → g'.Living ∧
    ∀ member d, g.Buried pid member d → g'.Buried pid (f member) (diedBy pid d (m.log g))

namespace Tracks

theorem bind {f f' : Bool → Bool} {m : Observing γ α} {k : α → Observing γ β} (hm : Tracks pid f m)
    (hk : ∀ a, Tracks pid f' (k a)) : Tracks pid (f' ∘ f) (m >>= k) := by
  intro g hg b g' hrun
  obtain ⟨a, t, hfirst, hsecond⟩ := Program.bind_eq_ok.mp hrun
  obtain ⟨ht, hburied⟩ := hm g hg a t hfirst
  obtain ⟨hg', hburied'⟩ := hk a t ht b g' hsecond
  rw [log_bind_of_ok hfirst]
  refine ⟨hg', fun member d h => ?_⟩
  rw [diedBy_append]
  exact hburied' _ _ (hburied member d h)

/-- **Loop rule** -/
theorem forM {ι : Type} {f : ι → Bool → Bool} {k : ι → Observing γ PUnit} {xs : List ι}
    (hk : ∀ x ∈ xs, Tracks pid (f x) (k x)) :
    Tracks pid (fun member => xs.foldl (fun b x => f x b) member) (xs.forM k) := by
  induction xs with
  | nil =>
      intro g hg a g' hrun
      obtain rfl := (Prod.mk.inj (Except.ok.inj hrun)).2
      exact ⟨hg, fun member d h => h⟩
  | cons x xs ih =>
      exact (hk x List.mem_cons_self).bind fun _ => ih fun y hy => hk y (List.mem_cons_of_mem _ hy)

/-- A method that neither creates nor destroys the player of `pid`. -/
theorem of_traces {R : GameObj γ → EntityOp → GameObj γ → Prop} {m : Observing γ α}
    (h : Traces R Living m fun _ g => g.Consistent ∧ g.DeadIn [])
    (hR : ∀ g o g', R g o g' → EntityStep OnStart g o g' ∧ o.Keeps pid) : Tracks pid id m := by
  intro g hg a g' hrun
  obtain ⟨hpath, hcons, hdead⟩ := h g hg a g' hrun
  have hkept := hpath.weaken hR
  refine ⟨⟨hcons, hdead, ?_⟩, fun member d hburied => hburied.path hkept hg.consistent hg.inside⟩
  exact (hkept.forall_states hg.inside fun t o t' ht hstep => ht.step hstep.1).2

end Tracks

/-- The operations of a turn leave the players where they are. -/
theorem keeps_of_inTurn {o : EntityOp} (h : o.InTurn) : o.Keeps pid := by
  cases o with
  | created id obj => exact fun hpid => Option.some_ne_none pid (hpid.symm.trans h)
  | destroyed => exact h.elim
  | drew | seeded | began | removed | wrote | hit | ctrlOnce => trivial

section Frame

variable [PyRandom γ] [DictOrder ℕ]

/-- `update_ctrl_once` -/
theorem tracks_updateCtrlOnce : Tracks pid id (updateCtrlOnce : Observing γ Unit) := by
  let keeps (g : GameObj γ) (o : EntityOp) (g' : GameObj γ) : Prop :=
    EntityStep OnStart g o g' ∧ o.Keeps pid
  -- `update` finds every object in its turn only while the players are on the screen, so that has
  -- to be carried along.
  have inside : ∀ {α : Type} {m : Observing γ α} {Q : α → GameObj γ → Prop},
      Traces keeps (fun g => g.Consistent ∧ g.Inside) m Q →
      Traces keeps (fun g => g.Consistent ∧ g.Inside) m fun a g => Q a g ∧ g.Inside := fun h =>
    h.keeps (fun _ h => h.2) fun g o g' hin hstep => hin.step hstep.1
  have hspawn : Traces keeps (fun g => g.Consistent ∧ g.Inside) (spawnEnemy : Observing γ Unit)
      fun _ g => g.Consistent := by
    refine traces_spawnEnemy (fun g gen hg => ?_) (fun g e hg he => ?_) fun g hg => hg.1
    · have hstep : EntityStep OnStart g .drew { g with gen := gen } := .drew gen
      exact ⟨⟨hstep, trivial⟩, hstep.consistent hg.1, hg.2⟩
    · have hstep : EntityStep OnStart g (.created (g.entityId + 1) e) (g.create e) := .spawned he
      refine ⟨⟨hstep, keeps_of_inTurn ?_⟩, hstep.consistent hg.1⟩
      rw [EntityOp.InTurn, Entity.pid?, he.body]
  -- A collision wounds both objects but takes no player out.
  have hcollide : ∀ t t' : EntityType, (∀ e₁ e₂ : Entity, e₁.type = t → e₂.type = t' → Foes e₁ e₂) →
      Traces keeps (fun g => g.Consistent ∧ g.Inside)
        (collide (fun g : GameObj γ => g.dictOf t) fun g => g.dictOf t') fun _ g => g.Consistent := by
    intro t t' htypes
    refine (((traces_collide (N := OnStart) t t' htypes).and (turn_collide _ _)).weaken ?_).mono
      (fun g hg => ⟨hg.1, trivial⟩) fun _ g h => h.1
    exact fun g o g' hstep => ⟨hstep.1, keeps_of_inTurn hstep.2⟩
  have hupdate : Traces keeps (fun g => g.Consistent ∧ g.Inside) (updateAll : Observing γ Unit)
      fun _ g => g.Consistent ∧ g.DeadIn [] := by
    intro g hg a g' hrun
    obtain ⟨hpath, hq⟩ := traces_updateAll (N := OnStart) g hg.1 a g' hrun
    obtain ⟨hpath', -⟩ := turn_updateAll hg.1.indexed hg.2 g rfl a g' hrun
    exact ⟨(hpath.and hpath').weaken fun g o g' h => ⟨h.1, keeps_of_inTurn h.2⟩, hq⟩
  have hturn : Traces keeps (fun g => g.Consistent ∧ g.Inside) (updateCtrlOnce : Observing γ Unit)
      fun _ g => g.Consistent ∧ g.DeadIn [] := by
    refine (inside hspawn).bind fun _ => ?_
    refine (inside (hcollide .bullet .enemy fun _ _ h h' => Or.inl ⟨h, h'⟩)).bind fun _ => ?_
    refine (inside (hcollide .enemy .player fun _ _ h h' => Or.inr ⟨h, h'⟩)).bind fun _ => ?_
    refine hupdate.bind fun _ => Traces.op fun g hg a g' hrun => ?_
    obtain rfl := (Prod.mk.inj (Except.ok.inj hrun)).2
    exact ⟨⟨.ctrlOnce hg.2, trivial⟩, hg⟩
  exact Tracks.of_traces (hturn.mono (fun g hg => ⟨hg.consistent, hg.inside⟩) fun _ _ h => h)
    fun _ _ _ h => h

/-- An entry with its `update_ctrl_once` -/
theorem tracks_updateEntry {ctrl : CtrlInfo} (hplaced : Placed OnStart ctrl) :
    Tracks pid (memberAfter pid · ctrl) (updateEntry ctrl : Observing γ Unit) := by
  have hact : Tracks pid (memberAfter pid · ctrl) (act ctrl : Observing γ Unit) := by
    intro g hg a g' hrun
    obtain ⟨hpath, hcons, hdead, q, action, hq, haction, hacted⟩ :=
      traces_act hplaced g ⟨hg.consistent, hg.dead⟩ a g' hrun
    have hentry : Path (EntryStep OnStart q action) g ((act ctrl : Observing γ Unit).log g) g' := by
      refine hpath.weaken ?_
      rintro t o t' ⟨q', action', hq', haction', hstep⟩
      obtain rfl := Option.some.inj (hq.symm.trans hq')
      obtain rfl := Option.some.inj (haction.symm.trans haction')
      exact hstep
    refine ⟨⟨hcons, hdead, ?_⟩, fun member d h =>
      h.entry hentry hq haction hacted hdead hg.consistent hg.inside⟩
    exact (hentry.forall_states hg.inside fun t o t' ht hstep => ht.step hstep.step).2
  exact hact.bind fun _ => tracks_updateCtrlOnce

/-- **A frame**: the entries in it say who is a member afterwards. -/
theorem tracks_updateFrame {msg : FrameInfo} (hplaced : ∀ ctrl ∈ msg.ctrlData, Placed OnStart ctrl) :
    Tracks pid (fun member => msg.ctrlData.foldl (memberAfter pid) member)
      (updateFrame msg : Observing γ Unit) := by
  refine Tracks.bind (f := id) ?_ fun _ => tracks_updateCtrlOnce.bind fun _ =>
    Tracks.forM fun ctrl hctrl => tracks_updateEntry (hplaced ctrl hctrl)
  refine Tracks.of_traces (R := fun g o g' => EntityStep OnStart g o g' ∧ o = .began)
    (Traces.op fun g hg a g' hrun => ?_) ?_
  · obtain rfl := (Prod.mk.inj (Except.ok.inj hrun)).2
    have hstep : EntityStep OnStart g .began { g with gsFrameNo := msg.frameNumber } := .began _
    exact ⟨⟨hstep, rfl⟩, hstep.consistent hg.consistent, hg.dead⟩
  · rintro g o g' ⟨hstep, rfl⟩
    exact ⟨hstep, trivial⟩

/-- **What a client calls** -/
theorem tracks_call {a : Action} (hplaced : ∀ data ∈ a.applied, ∀ ctrl ∈ data.ctrlData, Placed OnStart ctrl) :
    Tracks pid (fun member => (a.applied.flatMap FrameInfo.ctrlData).foldl (memberAfter pid) member)
      (call a : Observing γ Unit) := by
  cases a with
  | nothing =>
      intro g hg b g' hrun
      obtain rfl := (Prod.mk.inj (Except.ok.inj hrun)).2
      exact ⟨hg, fun member d h => h⟩
  | seed rndseed =>
      rw [call, setRndSeed]
      refine Tracks.of_traces (R := fun g o g' => EntityStep OnStart g o g' ∧ o = .seeded)
        (Traces.op fun g hg a g' hrun => ?_) ?_
      · obtain rfl := (Prod.mk.inj (Except.ok.inj hrun)).2
        have hstep : EntityStep OnStart g .seeded
            { g with rndSeed := some rndseed, gen := PyRandom.seed rndseed } := .seeded _ _
        exact ⟨⟨hstep, rfl⟩, hstep.consistent hg.consistent, hg.dead⟩
      · rintro g o g' ⟨hstep, rfl⟩
        exact ⟨hstep, trivial⟩
  | frame data =>
      have happlied : (Action.frame data).applied.flatMap FrameInfo.ctrlData = data.ctrlData :=
        List.append_nil _
      rw [happlied]
      exact tracks_updateFrame (hplaced data (List.mem_singleton_self data))
  | finish =>
      refine Tracks.of_traces (R := MobStep OnStart)
        (traces_finish.mono (fun g hg => ⟨hg.consistent, hg.dead⟩) fun _ _ h => h) ?_
      rintro g o g' ⟨hstep, id, e, rfl, hnone⟩
      exact ⟨hstep, fun hpid => Option.some_ne_none pid (hpid.symm.trans hnone)⟩

end Frame

end Observing

/-! ## Runs -/

namespace Fsm

open GameObj

section Run

variable [PyRandom γ] [DictOrder ℕ]

/-- The players of a client after the frames it applied. -/
theorem buried_run {pid : Pid} {gen : γ} {msg : Loginsuc} {tr : List (Fsm γ × Event)} {c : Fsm γ}
    (h : Run step (Fsm.init pid gen msg) tr c)
    (hplaced : ∀ data ∈ applied tr, ∀ ctrl ∈ data.ctrlData, Placed OnStart ctrl) (p : Pid) :
    c.game.Living ∧
      c.game.Buried p (memberBy p ((applied tr).flatMap FrameInfo.ctrlData)) (diedBy p false (ops tr)) := by
  revert hplaced
  refine h.invariant (P := fun tr c => (∀ data ∈ applied tr, ∀ ctrl ∈ data.ctrlData, Placed OnStart ctrl) →
    c.game.Living ∧ c.game.Buried p (memberBy p ((applied tr).flatMap FrameInfo.ctrlData))
      (diedBy p false (ops tr))) ?_ ?_
  · intro _
    have hnone : ∀ id (e : Entity), (GameObj.init pid gen).objects.lookup id ≠ some e := by
      intro id e he
      cases he
    refine ⟨⟨consistent_init pid gen, fun id e he => absurd he (hnone id e),
      fun id e he => absurd he (hnone id e)⟩, ?_⟩
    exact iff_of_false (fun ⟨id, e, he, _⟩ => hnone id e he) fun h => Bool.noConfusion h.1
  · intro tr c e c' _ ih hstep hplaced
    rw [applied_snoc] at hplaced ⊢
    obtain ⟨hliving, hburied⟩ := ih fun data hdata => hplaced data (List.mem_append_left _ hdata)
    obtain ⟨a, hpace, hcall⟩ := step_eq_some.mp hstep
    have happlied : c.appliedBy e = a.applied := by rw [appliedBy, hpace]
    have hops : c.opsBy e = (Observing.call a).log c.game := by rw [opsBy, hpace]
    rw [← Observing.run_call] at hcall
    rw [happlied] at hplaced ⊢
    -- What one event adds to the frames and to the operations are those of one call.
    obtain ⟨hliving', htracks⟩ := Observing.tracks_call
      (fun data hdata => hplaced data (List.mem_append_right _ hdata)) c.game hliving () c'.game hcall
    refine ⟨hliving', ?_⟩
    rw [List.flatMap_append, FighterWar.memberBy_append, ops_snoc, hops, diedBy_append]
    exact htracks _ _ hburied

end Run

section Server

variable [Wire]

/-- The players enter where `FWPlayer:init` places them. -/
theorem placed_pushed {g : FighterWar} {clk : Clock} {ev : FighterWar.Event} (hplaying : ev.Playing) :
    ∀ ctrl ∈ g.pushed clk ev, Placed OnStart ctrl := by
  intro ctrl hctrl haction args x z hargs hpos
  cases ev with
  | addPlayer q a spawn =>
      rw [FighterWar.pushed] at hctrl
      split_ifs at hctrl
      · exact absurd hctrl List.not_mem_nil
      · obtain rfl := List.mem_singleton.mp hctrl
        obtain rfl := Option.some.inj hargs
        obtain ⟨rfl, rfl⟩ : (spawn.x : ℤ) = x ∧ (spawn.z : ℤ) = z := by
          simpa [FWPlayer.init] using hpos
        have hx := spawn.hx
        have hz := spawn.hz
        simp only [OnStart, screenWidth, screenHeight]
        omega
  | delPlayer q =>
      rw [FighterWar.pushed] at hctrl
      split_ifs at hctrl
      · obtain rfl := List.mem_singleton.mp hctrl
        -- The other entries are no `enter`.
        change some actionLeave = some actionEnter at haction
        exact absurd haction (by decide)
      · exact absurd hctrl List.not_mem_nil
  | syncCtrl q ctrlData =>
      rw [FighterWar.pushed] at hctrl
      split_ifs at hctrl
      · rcases (hplaying ctrl (Option.mem_toList.mp hctrl)).2 with h | h
        · rw [h] at haction
          exact absurd haction (by decide)
        · rw [h] at haction
          exact absurd haction (by decide)
      · exact absurd hctrl List.not_mem_nil
  | frameSkip | syncData | syncRtt => exact absurd hctrl List.not_mem_nil

variable [PyRandom γ] [DictOrder ℕ]

/-- **Server and client agree on who is in the game.** In a game in which no call raised, frame `n`
was made by a tick after `pre`: a client that has applied exactly the frames up to `n` has objects for
the players who were in the table then, but not for those that died since they last entered; and it
never has two for one pid. -/
theorem membership_run {gameID rndSeed n : ℕ} {evs pre post : List (Clock × FighterWar.Event)}
    {clk : Clock} (hplaying : ∀ e ∈ evs, e.2.Playing)
    (hok : ((FighterWar.init gameID rndSeed).run evs).raised = false)
    (hsplit : evs = pre ++ (clk, .frameSkip) :: post)
    (hn : ((FighterWar.init gameID rndSeed).run pre).state.frameMgr.curFrameNo = n)
    {pid : Pid} {gen : γ} {msg : Loginsuc} {tr : List (Fsm γ × Event)} {c : Fsm γ}
    (h : Run step (Fsm.init pid gen msg) tr c)
    (happlied : applied tr
      = ((FighterWar.init gameID rndSeed).run evs).state.frameMgr.frameCache.take n) :
    (∀ p, (∃ id ∈ c.game.playerObjects.keys, c.game.pidAt id = some p) ↔
      p ∈ ((FighterWar.init gameID rndSeed).run pre).state.players ∧ diedBy p false (ops tr) = false) ∧
    ∀ id ∈ c.game.playerObjects.keys, ∀ id' ∈ c.game.playerObjects.keys,
      c.game.pidAt id = c.game.pidAt id' → id = id' := by
  -- `buried_run` asks where the players enter, and the frames hold what the server pushed.
  have hentries : ∀ ctrl ∈ ((FighterWar.init gameID rndSeed).run evs).state.frameMgr.entries,
      Placed OnStart ctrl :=
    FighterWar.forall_entries_run (fun g e he => placed_pushed (hplaying e he))
      fun ctrl hctrl => absurd hctrl List.not_mem_nil
  have hplaced : ∀ data ∈ applied tr, ∀ ctrl ∈ data.ctrlData, Placed OnStart ctrl := by
    intro data hdata ctrl hctrl
    rw [happlied] at hdata
    exact hentries ctrl (List.mem_append_left _ (List.mem_flatMap.mpr ⟨data, List.mem_of_mem_take hdata, hctrl⟩))
  refine ⟨fun p => ?_, ?_⟩
  · obtain ⟨hliving, hburied⟩ := buried_run h hplaced p
    have hmember := FighterWar.memberBy_frames hplaying hok hsplit hn p
    rw [← happlied] at hmember
    refine Iff.trans ?_ (hliving.dead.alive_iff.symm.trans (hburied.trans (and_congr_left' hmember)))
    constructor
    · rintro ⟨id, -, hid⟩
      exact ⟨id, hid⟩
    · rintro ⟨id, hid⟩
      exact ⟨id, hliving.consistent.mem_players hid, hid⟩
  · exact (buried_run h hplaced 0).1.consistent.entityIndex.unique

end Server

section Recorded

attribute [local instance] DictOrder.byInsertion

/-- The server's calls of a game that player 1 joins. -/
def joinCalls : List (Clock × FighterWar.Event) :=
  [(⟨5, 1⟩, .addPlayer 1 ⟨[97], 1, 9, ⟨some 1, some 2, some 3⟩⟩ Spawn.corner), (⟨6, 1⟩, .frameSkip)]

/-- The events of a client that applies its first frame. -/
def joinEvents : List Event :=
  [.frameCacheData [], .fsmOpen] ++
    (@FighterWar.run sprotoWire (FighterWar.init 1 43) joinCalls).state.frameMgr.frameCache.flatMap
      fun data => [.frameData data, .updateLogic, .drain]

/-- After the first frame the client has an object for player 1. -/
theorem membership_run_join : ∃ c, Run step livePlayer (traceFrom step livePlayer joinEvents) c ∧
    ((∃ id ∈ c.game.playerObjects.keys, c.game.pidAt id = some 1) ↔
      1 ∈ (@FighterWar.run sprotoWire (FighterWar.init 1 43) (joinCalls.take 1)).state.players ∧
        diedBy 1 false (ops (traceFrom step livePlayer joinEvents)) = false) := by
  let := sprotoWire
  have hrun : (runFrom step livePlayer joinEvents).isSome = true := by decide +kernel
  obtain ⟨c, hc⟩ := Option.isSome_iff_exists.mp hrun
  have hplaying : ∀ e ∈ joinCalls, e.2.Playing := by
    intro e he
    rcases List.mem_cons.mp he with rfl | he
    · trivial
    · obtain rfl := List.mem_singleton.mp he
      trivial
  have happlied : applied (traceFrom step livePlayer joinEvents)
      = ((FighterWar.init 1 43).run joinCalls).state.frameMgr.frameCache.take 1 := by decide +kernel
  have hsplit : joinCalls = joinCalls.take 1 ++ (⟨6, 1⟩, .frameSkip) :: [] := rfl
  exact ⟨c, run_of_runFrom hc, (membership_run hplaying (by decide +kernel) hsplit (by decide +kernel)
    (run_of_runFrom hc) happlied).1 1⟩

end Recorded

end Fsm

end FrameSync.Client
