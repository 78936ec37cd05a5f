import FrameSync.Client.Agree
import FrameSync.Client.UpdateLogic

/-! # Lockstep

Two clients that received the same frames and applied the same number of them are in the same
simulation state. What a client has done to its simulation is `replay`: seed the generator, then
apply the frames in order, however they were grouped into calls of `update_logic`, and clear the
screen once if the game is over (`follows_run`). `replay` does the same on every client. -/

namespace FrameSync.Client

open Program

variable {γ : Type}

namespace GameObj

/-! ## The frame number and the end of the game -/

/-- The frame number is the same, and a game that was over is over. -/
structure Calm (g g' : GameObj γ) : Prop where
  /-- `m_GSFrameNo` -/
  frameNo : g'.gsFrameNo = g.gsFrameNo
  /-- `m_GameOver` -/
  gameOver : g.gameOver = true → g'.gameOver = true

instance : Std.Refl (Calm (γ := γ)) := ⟨fun _ => ⟨rfl, id⟩⟩

instance : IsTrans (GameObj γ) Calm :=
  ⟨fun _ _ _ h h' => ⟨h'.frameNo.trans h.frameNo, fun ho => h'.gameOver (h.gameOver ho)⟩⟩

/-- The frame number, the score and the end of the game are the same. -/
structure Still (g g' : GameObj γ) : Prop where
  /-- `m_GSFrameNo` -/
  frameNo : g'.gsFrameNo = g.gsFrameNo
  /-- `m_CurScore` -/
  curScore : g'.curScore = g.curScore
  /-- `m_GameOver` -/
  gameOver : g'.gameOver = g.gameOver

instance : Std.Refl (Still (γ := γ)) := ⟨fun _ => ⟨rfl, rfl, rfl⟩⟩

instance : IsTrans (GameObj γ) Still :=
  ⟨fun _ _ _ h h' => ⟨h'.frameNo.trans h.frameNo, h'.curScore.trans h.curScore,
    h'.gameOver.trans h.gameOver⟩⟩

theorem Still.calm {g g' : GameObj γ} (h : Still g g') : Calm g g' :=
  ⟨h.frameNo, fun ho => h.gameOver.trans ho⟩

/-- A method that scores nothing is calm. -/
theorem calm_of_still {α : Type} {m : Method γ α} (h : Leaves Still m) : Leaves Calm m :=
  fun g a g' hrun => (h g a g' hrun).calm

theorem still_key {α : Type} (v : Option α) : Leaves Still (key v : Method γ α) := by
  cases v with
  | none => exact Leaves.throw _
  | some a => exact Leaves.pure a

theorem still_object (id : ℕ) : Leaves Still (object id : Method γ Entity) := by
  refine Leaves.get_bind fun g => ?_
  split
  · exact Leaves.pure _
  · exact Leaves.throw _

theorem still_putObject (id : ℕ) (e : Entity) : Leaves Still (putObject id e : Method γ Unit) :=
  Leaves.modify fun _ => ⟨rfl, rfl, rfl⟩

theorem still_createEntity {init : Method γ Entity} (h : Leaves Still init) :
    Leaves Still (createEntity init) := by
  refine h.bind fun obj => ?_
  refine Leaves.bind ?_ fun id => ?_
  · refine Leaves.bind (Leaves.modify fun _ => ⟨rfl, rfl, rfl⟩) fun _ => ?_
    exact Leaves.get_bind fun g => Leaves.pure _
  · exact Leaves.modify fun _ => ⟨rfl, rfl, rfl⟩

theorem still_destroyEntity (id : ℕ) : Leaves Still (destroyEntity id : Method γ Unit) := by
  refine (still_object id).bind fun obj => ?_
  refine Leaves.get_bind fun g => ?_
  exact Leaves.ite (Leaves.modify fun _ => ⟨rfl, rfl, rfl⟩) (Leaves.throw _)

theorem still_initPlayer (pid : Pid) (args : ActionEnter) :
    Leaves Still (initPlayer pid args : Method γ Entity) := by
  intro g e g' h
  obtain rfl := initPlayer_state h
  exact Std.Refl.refl g

theorem calm_reward (obj : Entity) : Leaves Calm (reward obj : Method γ Unit) := by
  unfold reward
  split
  · refine Leaves.ite (Leaves.modify fun g => ⟨rfl, fun ho => ?_⟩) (Leaves.pure _)
    show (g.gameOver || _) = true
    rw [ho, Bool.true_or]
  · exact Leaves.pure _

theorem still_onUpdate (id : ℕ) (obj : Entity) : Leaves Still (onUpdate id obj : Method γ Unit) := by
  unfold onUpdate
  split
  · refine Leaves.bind ?_ fun _ => still_putObject _ _
    exact Leaves.ite (still_createEntity (Leaves.pure _)) (Leaves.pure _)
  · exact Leaves.pure _

theorem calm_update (id : ℕ) : Leaves Calm (update id : Method γ Unit) := by
  refine (calm_of_still (still_object id)).bind fun obj => ?_
  split
  · exact (calm_reward obj).bind fun _ => calm_of_still (still_destroyEntity id)
  · exact calm_of_still ((still_putObject _ _).bind fun _ => still_onUpdate _ _)

theorem still_collidePair (id₁ id₂ : ℕ) : Leaves Still (collidePair id₁ id₂ : Method γ Unit) := by
  refine (still_object id₁).bind fun obj₁ => ?_
  refine (still_object id₂).bind fun obj₂ => ?_
  split
  · exact (still_putObject _ _).bind fun _ => still_putObject _ _
  · exact Leaves.pure _

section Frame

variable [DictOrder ℕ]

theorem still_collide (outer inner : GameObj γ → PyDict ℕ) :
    Leaves Still (collide outer inner : Method γ Unit) := by
  refine Leaves.get_bind fun g => ?_
  refine Leaves.forM (fun id₁ => ?_) _
  refine Leaves.get_bind fun g => ?_
  exact Leaves.forM (fun id₂ => still_collidePair id₁ id₂) _

theorem still_dropPlayer (pid : Pid) : Leaves Still (dropPlayer pid : Method γ Unit) := by
  refine Leaves.get_bind fun g => ?_
  split
  · exact still_destroyEntity _
  · exact Leaves.pure _

theorem still_handle {α : Type} (pid : Pid) {read : Method γ α} (h : Leaves Still read)
    (handler : α → Entity → Entity) : Leaves Still (handle pid read handler) := by
  refine Leaves.get_bind fun g => ?_
  split
  · refine (still_object _).bind fun obj => ?_
    exact h.bind fun a => still_putObject _ _
  · exact Leaves.pure _

theorem still_act (ctrl : CtrlInfo) : Leaves Still (act ctrl : Method γ Unit) := by
  refine (still_key _).bind fun pid => ?_
  refine (still_key _).bind fun action => ?_
  refine Leaves.ite ?_ (Leaves.ite (still_dropPlayer _) (Leaves.ite ?_ (Leaves.ite ?_ (Leaves.pure _))))
  · refine (still_dropPlayer _).bind fun _ => ?_
    refine (still_key _).bind fun args => ?_
    exact still_createEntity (still_initPlayer _ _)
  · refine still_handle _ ?_ _
    exact (still_key _).bind fun info => still_key _
  · refine still_handle _ ?_ _
    refine (still_key _).bind fun info => ?_
    refine (still_key _).bind fun dir => ?_
    exact (still_key _).bind fun status => Leaves.pure _

/-- Clearing the screen scores nothing. -/
theorem still_clearScreen : Leaves Still (clearScreen : Method γ Unit) := by
  refine Leaves.get_bind fun g => ?_
  refine Leaves.bind (Leaves.forM still_destroyEntity _) fun _ => ?_
  exact Leaves.get_bind fun g => Leaves.forM still_destroyEntity _

/-- The end of `update_logic` scores nothing. -/
theorem still_finish : Leaves Still (finish : Method γ Unit) :=
  Leaves.get_bind fun _ => Leaves.ite still_clearScreen (Leaves.pure _)

/-- A game that is not over is left as it is at the end of `update_logic`. -/
theorem finish_of_not_over {g : GameObj γ} (h : g.gameOver = false) : finish g = .ok ((), g) := by
  rw [finish, get_bind_apply, if_neg (by rw [h]; exact Bool.false_ne_true)]
  rfl

theorem agrees_finish : Agrees SameSim (finish : Method γ Unit) :=
  agrees_get (fun _ _ _ _ _ => rfl) fun _ => Agrees.ite agrees_clearScreen (Agrees.pure _)

variable [PyRandom γ]

omit [DictOrder ℕ] in
theorem still_randomInt (lo hi : ℤ) : Leaves Still (randomInt lo hi : Method γ ℤ) := by
  intro g n g' h
  rw [randomInt, get_bind_apply] at h
  split at h
  · cases h
  · obtain ⟨-, rfl⟩ := Prod.mk.inj (Except.ok.inj h)
    exact ⟨rfl, rfl, rfl⟩

omit [DictOrder ℕ] in
theorem still_initEnemy : Leaves Still (initEnemy : Method γ Entity) := by
  refine (still_randomInt _ _).bind fun _ => ?_
  refine (still_randomInt _ _).bind fun _ => ?_
  refine Leaves.bind ?_ fun _ => ?_
  · refine (still_randomInt _ _).bind fun pos => ?_
    unfold nth
    split
    · exact Leaves.pure _
    · exact Leaves.throw _
  refine (still_randomInt _ _).bind fun _ => ?_
  refine (still_randomInt _ _).bind fun _ => ?_
  refine (still_randomInt _ _).bind fun _ => ?_
  exact Leaves.pure _

theorem calm_updateCtrlOnce : Leaves Calm (updateCtrlOnce : Method γ Unit) := by
  refine Leaves.bind (calm_of_still ?_) fun _ => ?_
  · refine (still_randomInt _ _).bind fun n => ?_
    exact Leaves.ite (still_createEntity still_initEnemy) (Leaves.pure _)
  refine (calm_of_still (still_collide _ _)).bind fun _ => ?_
  refine (calm_of_still (still_collide _ _)).bind fun _ => ?_
  exact Leaves.get_bind fun g => Leaves.forM calm_update _

/-- A frame sets the frame number and never ends a game's end. -/
theorem updateFrame_calm {g g' : GameObj γ} {msg : FrameInfo}
    (h : updateFrame msg g = .ok ((), g')) :
    g'.gsFrameNo = msg.frameNumber ∧ (g.gameOver = true → g'.gameOver = true) := by
  rw [updateFrame, modify_bind_apply] at h
  have hcalm : Calm ({ g with gsFrameNo := msg.frameNumber } : GameObj γ) g' := by
    refine Leaves.bind calm_updateCtrlOnce (fun _ => ?_) _ _ _ h
    exact Leaves.forM (fun ctrl => (calm_of_still (still_act ctrl)).bind fun _ => calm_updateCtrlOnce) _
  exact ⟨hcalm.frameNo, hcalm.gameOver⟩

/-! ## Replaying frames -/

/-- Seed the generator, then apply the frames. -/
def replay (rndseed : ℕ) (frames : List FrameInfo) : Method γ Unit := do
  setRndSeed rndseed
  frames.forM updateFrame

/-- One more frame. -/
theorem replay_snoc {rndseed : ℕ} {frames : List FrameInfo} {data : FrameInfo} {g g₁ g₂ : GameObj γ}
    (h₁ : replay rndseed frames g = .ok ((), g₁)) (h₂ : updateFrame data g₁ = .ok ((), g₂)) :
    replay rndseed (frames ++ [data]) g = .ok ((), g₂) := by
  obtain ⟨a, g', hseed, hframes⟩ := bind_eq_ok.mp h₁
  refine bind_eq_ok.mpr ⟨a, g', hseed, ?_⟩
  exact forM_append_eq_ok.mpr ⟨(), g₁, hframes, bind_eq_ok.mpr ⟨(), g₂, h₂, rfl⟩⟩

/-- The frame number after a replay is that of the last frame. -/
theorem replay_frameNo {rndseed : ℕ} {frames : List FrameInfo} {g g' : GameObj γ}
    (h : replay rndseed frames g = .ok ((), g')) :
    g'.gsFrameNo = (frames.getLast?.map FrameInfo.frameNumber).getD g.gsFrameNo := by
  rcases List.eq_nil_or_concat frames with rfl | ⟨pre, data, rfl⟩
  · obtain rfl := (Prod.mk.inj (Except.ok.inj h)).2
    rfl
  · obtain ⟨a, g₁, -, hframes⟩ := bind_eq_ok.mp h
    obtain ⟨⟨⟩, g₂, -, hlast⟩ := forM_append_eq_ok.mp (List.concat_eq_append ▸ hframes)
    obtain ⟨⟨⟩, g₃, hdata, hnil⟩ := bind_eq_ok.mp hlast
    obtain rfl := (Prod.mk.inj (Except.ok.inj hnil)).2
    simp [(updateFrame_calm hdata).1]

/-- **A replay does the same for every client**, whatever its pid and its generator were. -/
theorem replay_sameSim (rndseed : ℕ) (frames : List FrameInfo) (pid pid' : Pid) (gen gen' : γ) :
    Alike SameSim (replay rndseed frames (GameObj.init pid gen))
      (replay rndseed frames (GameObj.init pid' gen')) := by
  have hseeded : SameSim
      ({ GameObj.init pid gen with rndSeed := some rndseed, gen := PyRandom.seed rndseed } : GameObj γ)
      { GameObj.init pid' gen' with rndSeed := some rndseed, gen := PyRandom.seed rndseed } := rfl
  exact Agrees.forM agrees_updateFrame frames _ _ hseeded

end Frame

end GameObj

/-! ## What a client has done -/

namespace Fsm

open GameObj

variable [PyRandom γ] [DictOrder ℕ]

/-- What a client that applied the frames `frames` has done to its simulation: nothing as long as it
waits, else `replay`, followed by the end of `update_logic` when no call is under way. -/
structure Follows (pid : Pid) (gen : γ) (msg : Loginsuc) (frames : List FrameInfo) (c : Fsm γ) :
    Prop where
  /-- A waiting client is as it was created. -/
  waiting : c.pace.phase = .waiting → c.game = GameObj.init pid gen ∧ frames = [] ∧
    c.pace.inUpdate = false ∧ c.pace.fsmInitData = some msg
  /-- A started client has replayed the frames. -/
  started : c.pace.phase ≠ .waiting → c.pace.fsmInitData = none ∧
    ∃ g, replay msg.rndseed frames (GameObj.init pid gen) = .ok ((), g) ∧
      (c.pace.inUpdate = true → c.game = g) ∧
      (c.pace.inUpdate = false → finish g = .ok ((), c.game))

/-- The frames a step applies. -/
def appliedBy (c : Fsm γ) (e : Event) : List FrameInfo :=
  match c.pace.step c.game.gameOver e with
  | none => []
  | some (_, a) => a.applied

/-- The frames a run applied, in order. -/
def applied (tr : List (Fsm γ × Event)) : List FrameInfo := tr.flatMap fun x => x.1.appliedBy x.2

omit [PyRandom γ] [DictOrder ℕ] in
theorem applied_snoc (tr : List (Fsm γ × Event)) (c : Fsm γ) (e : Event) :
    applied (tr ++ [(c, e)]) = applied tr ++ c.appliedBy e := by
  simp [applied]

omit [PyRandom γ] [DictOrder ℕ] in
theorem received_snoc (tr : List (Fsm γ × Event)) (c : Fsm γ) (e : Event) :
    received (tr ++ [(c, e)]) = received tr ++ c.pace.received e := by
  simp [received]

omit [PyRandom γ] [DictOrder ℕ] in
/-- An event that calls nothing on the simulation leaves the client on its replay, as long as the
phase and the loop flag move only as they may. -/
theorem Follows.of_pace {pid : Pid} {gen : γ} {msg : Loginsuc} {frames : List FrameInfo}
    [PyRandom γ] [DictOrder ℕ] {c : Fsm γ} (h : c.Follows pid gen msg frames) {p : Pace}
    (hphase : p.phase = .waiting ↔ c.pace.phase = .waiting)
    (hinit : p.fsmInitData = c.pace.fsmInitData) (hloop : p.inUpdate = c.pace.inUpdate) :
    Follows pid gen msg frames ⟨p, c.game⟩ := by
  refine ⟨fun hw => ?_, fun hs => ?_⟩
  · obtain ⟨hgame, hframes, hloop', hdata⟩ := h.waiting (hphase.mp hw)
    exact ⟨hgame, hframes, hloop.trans hloop', hinit.trans hdata⟩
  · obtain ⟨hdata, g, hreplay, hin, hout⟩ := h.started fun hw => hs (hphase.mpr hw)
    exact ⟨hinit.trans hdata, g, hreplay, fun hi => hin (hloop ▸ hi), fun hi => hout (hloop ▸ hi)⟩

/-- A client in a call of `update_logic` is started. -/
theorem Follows.started_of_inUpdate {pid : Pid} {gen : γ} {msg : Loginsuc} {frames : List FrameInfo}
    {c : Fsm γ} (h : c.Follows pid gen msg frames) (hloop : c.pace.inUpdate = true) :
    c.pace.phase ≠ .waiting := by
  intro hw
  rw [(h.waiting hw).2.2.1] at hloop
  cases hloop

/-- A step is one of the moves of the pace, and what it calls is done. -/
theorem move_of_step {c c' : Fsm γ} {e : Event} (h : c.step e = some c') :
    ∃ a, c.pace.Move c.game.gameOver e c'.pace a ∧ a.call c.game = .ok ((), c'.game) ∧
      c.appliedBy e = a.applied := by
  obtain ⟨a, hpace, hcall⟩ := step_eq_some.mp h
  refine ⟨a, Pace.move_of_step hpace, hcall, ?_⟩
  rw [appliedBy, hpace]

/-- **Step lemma**: each event of a client that follows its frames leaves it so, with the frame it
applied, if any. -/
theorem Follows.step {pid : Pid} {gen : γ} {msg : Loginsuc} {frames : List FrameInfo} {c c' : Fsm γ}
    {e : Event} (h : c.Follows pid gen msg frames) (hstep : c.step e = some c') :
    c'.Follows pid gen msg (frames ++ c.appliedBy e) := by
  obtain ⟨a, hmove, hcall, happlied⟩ := move_of_step hstep
  rw [happlied]
  obtain ⟨p', g'⟩ := c'
  cases hmove with
  | dropped | stored | live =>
      obtain rfl := (Prod.mk.inj (Except.ok.inj hcall)).2
      rw [Action.applied, List.append_nil]
      exact h.of_pace Iff.rfl rfl rfl
  | @started frames' msg' hphase hdata hnum =>
      -- the login answer is still there, so the client has not started
      have hw : c.pace.phase = .waiting := by
        by_contra hs
        exact Option.some_ne_none _ (hdata.symm.trans (h.started hs).1)
      obtain ⟨hgame, rfl, hloop, hmsg⟩ := h.waiting hw
      obtain rfl : msg' = msg := Option.some.inj (hdata.symm.trans hmsg)
      refine ⟨fun hw' => Phase.noConfusion hw', fun _ => ⟨rfl, g', ?_, fun hi => ?_, fun _ => ?_⟩⟩
      · rw [← hgame]
        exact hcall
      · exact absurd (hloop.symm.trans hi) Bool.false_ne_true
      · refine finish_of_not_over ?_
        obtain rfl := (Prod.mk.inj (Except.ok.inj hcall)).2
        show c.game.gameOver = false
        rw [hgame]
        rfl
  | called hloop hcaller =>
      obtain rfl := (Prod.mk.inj (Except.ok.inj hcall)).2
      rw [Action.applied, List.append_nil]
      have hs : c.pace.phase ≠ .waiting := fun hw => by simp [hw] at hcaller
      obtain ⟨hdata, g, hreplay, -, hout⟩ := h.started hs
      refine ⟨fun hw => absurd hw hs, fun _ => ⟨hdata, g, hreplay, fun hi => ?_, fun _ => hout hloop⟩⟩
      -- the loop is entered only while the game is not over, and then nothing was cleared
      have hover : c.game.gameOver = false := by
        cases ho : c.game.gameOver with
        | false => rfl
        | true => simp [ho] at hi
      have hg : g.gameOver = false := (still_finish g _ _ (hout hloop)).gameOver.symm.trans hover
      rw [finish_of_not_over hg] at hout
      exact ((Prod.mk.inj (Except.ok.inj (hout hloop))).2).symm
  | applied hloop =>
      have hs := h.started_of_inUpdate hloop
      obtain ⟨hdata, g, hreplay, hin, -⟩ := h.started hs
      obtain rfl := hin hloop
      exact ⟨fun hw => absurd hw hs, fun _ => ⟨hdata, g', replay_snoc hreplay hcall, fun _ => rfl,
        fun hi => absurd (hloop.symm.trans hi) (by simp)⟩⟩
  | left hloop =>
      have hs := h.started_of_inUpdate hloop
      obtain ⟨hdata, g, hreplay, hin, -⟩ := h.started hs
      obtain rfl := hin hloop
      rw [Action.applied, List.append_nil]
      exact ⟨fun hw => absurd hw hs, fun _ => ⟨hdata, c.game, hreplay, fun hi => Bool.noConfusion hi,
        fun _ => hcall⟩⟩
  | opened hphase =>
      obtain rfl := (Prod.mk.inj (Except.ok.inj hcall)).2
      rw [Action.applied, List.append_nil]
      refine h.of_pace ⟨fun hw => Phase.noConfusion hw, fun hw => ?_⟩ rfl rfl
      rw [hphase] at hw
      cases hw

/-- **Run lemma**: a client that was started follows the frames it applied. -/
theorem follows_run {pid : Pid} {gen : γ} {msg : Loginsuc} {tr : List (Fsm γ × Event)} {c : Fsm γ}
    (h : Run step (Fsm.init pid gen msg) tr c) : c.Follows pid gen msg (applied tr) := by
  refine h.invariant (P := fun tr c => c.Follows pid gen msg (applied tr)) ?_ ?_
  · exact ⟨fun _ => ⟨rfl, rfl, rfl, rfl⟩, fun hs => absurd rfl hs⟩
  · intro tr c e c' _ hc hstep
    rw [applied_snoc]
    exact hc.step hstep

/-- An event moves frames from what was received to what was applied; the rest waits in the queue. -/
theorem queue_step {c c' : Fsm γ} {e : Event} (hstep : c.step e = some c') :
    c.pace.frameQueue ++ c.pace.received e = c.appliedBy e ++ c'.pace.frameQueue := by
  obtain ⟨a, hmove, -, happlied⟩ := move_of_step hstep
  rw [happlied]
  obtain ⟨p', g'⟩ := c'
  cases hmove with
  | dropped _ hdata => simp [Pace.received, Action.applied, hdata]
  | stored _ hdata => simp [Pace.received, Action.applied, hdata]
  | started _ hdata => simp [Pace.received, Action.applied, hdata, Pace.recvFrames]
  | live => simp [Pace.received, Action.applied]
  | called => simp [Pace.received, Action.applied]
  | applied _ hqueue => simp [Pace.received, Action.applied, hqueue]
  | left => simp [Pace.received, Action.applied]
  | opened => simp [Pace.received, Action.applied]

/-- What was received is what was applied, followed by what waits in the queue. -/
theorem received_eq {pid : Pid} {gen : γ} {msg : Loginsuc} {tr : List (Fsm γ × Event)} {c : Fsm γ}
    (h : Run step (Fsm.init pid gen msg) tr c) : received tr = applied tr ++ c.pace.frameQueue := by
  refine h.invariant (P := fun tr c => received tr = applied tr ++ c.pace.frameQueue) rfl ?_
  intro tr c e c' _ hc hstep
  rw [received_snoc, applied_snoc, hc, List.append_assoc, queue_step hstep, List.append_assoc]

/-- The frames are numbered from 1. -/
def NumberedFrames (frames : List FrameInfo) : Prop :=
  ∀ i f, frames[i]? = some f → f.frameNumber = i + 1

omit [PyRandom γ] [DictOrder ℕ] in
/-- The number of the last frame of a part that was received first is the length of the part. -/
theorem NumberedFrames.getLast {frames part : List FrameInfo} (h : NumberedFrames frames)
    (hpart : part <+: frames) : (part.getLast?.map FrameInfo.frameNumber).getD 0 = part.length := by
  rcases List.eq_nil_or_concat part with rfl | ⟨pre, data, rfl⟩
  · rfl
  · obtain ⟨rest, rfl⟩ := hpart
    have := h pre.length data (by simp)
    simp [this]

/-- A client applies the frames in the order in which it receives them. -/
theorem applied_isPrefix {pid : Pid} {gen : γ} {msg : Loginsuc} {frames : List FrameInfo}
    {tr : List (Fsm γ × Event)} {c : Fsm γ} (h : Run step (Fsm.init pid gen msg) tr c)
    (hrec : received tr <+: frames) : applied tr <+: frames :=
  (List.prefix_append _ c.pace.frameQueue).trans (received_eq h ▸ hrec)

/-- The frame number of an idle client counts the frames it applied. -/
theorem gsFrameNo_eq {pid : Pid} {gen : γ} {msg : Loginsuc} {frames : List FrameInfo}
    {tr : List (Fsm γ × Event)} {c : Fsm γ} (h : Run step (Fsm.init pid gen msg) tr c)
    (hno : NumberedFrames frames) (hrec : received tr <+: frames) (hidle : c.Idle) :
    c.game.gsFrameNo = (applied tr).length := by
  obtain ⟨-, g, hreplay, -, hout⟩ := (follows_run h).started hidle.1
  rw [(still_finish g _ _ (hout hidle.2)).frameNo, replay_frameNo hreplay]
  exact hno.getLast (applied_isPrefix h hrec)

/-- An idle client that received the first frames of `frames` has replayed as many of them as its
frame number says, and then ended its call. -/
theorem idle_run {pid : Pid} {gen : γ} {msg : Loginsuc} {frames : List FrameInfo}
    {tr : List (Fsm γ × Event)} {c : Fsm γ} (h : Run step (Fsm.init pid gen msg) tr c)
    (hno : NumberedFrames frames) (hrec : received tr <+: frames) (hidle : c.Idle) :
    ∃ g, replay msg.rndseed (frames.take c.game.gsFrameNo) (GameObj.init pid gen) = .ok ((), g) ∧
      finish g = .ok ((), c.game) := by
  obtain ⟨-, g, hreplay, -, hout⟩ := (follows_run h).started hidle.1
  refine ⟨g, ?_, hout hidle.2⟩
  rw [gsFrameNo_eq h hno hrec hidle, ← List.prefix_iff_eq_take.mp (applied_isPrefix h hrec)]
  exact hreplay

/-- **Lockstep agreement.** Two clients, for any pids, that got the same seed and received the first
frames of one sequence, in any portions and with any delays, live or from the cache: whenever both
are between two calls of `update_logic` and applied the same last frame, their simulation states are
equal: objects, dicts and their histories, score, end of the game, next id and generator. -/
theorem lockstep {pid pid' : Pid} {gen gen' : γ} {msg msg' : Loginsuc} {frames : List FrameInfo}
    {tr tr' : List (Fsm γ × Event)} {c c' : Fsm γ} (hseed : msg.rndseed = msg'.rndseed)
    (hno : NumberedFrames frames)
    (h : Run step (Fsm.init pid gen msg) tr c) (h' : Run step (Fsm.init pid' gen' msg') tr' c')
    (hrec : received tr <+: frames) (hrec' : received tr' <+: frames)
    (hidle : c.Idle) (hidle' : c'.Idle) (hlast : c.game.gsFrameNo = c'.game.gsFrameNo) :
    c.game.toSim = c'.game.toSim := by
  obtain ⟨g, hreplay, hfinish⟩ := idle_run h hno hrec hidle
  obtain ⟨g', hreplay', hfinish'⟩ := idle_run h' hno hrec' hidle'
  rw [← hlast, ← hseed] at hreplay'
  have hsame := replay_sameSim msg.rndseed (frames.take c.game.gsFrameNo) pid pid' gen gen'
  rw [hreplay, hreplay'] at hsame
  obtain hg : g.toSim = g'.toSim := by
    cases hsame with
    | ok hg => exact hg
  have hend := agrees_finish g g' hg
  rw [hfinish, hfinish'] at hend
  cases hend with
  | ok hc => exact hc

end Fsm

/-! ## A live player and one who comes later -/

namespace Fsm

section Recorded

attribute [local instance] DictOrder.byInsertion

/-- Player 1 enters with the first frame; the second is empty. -/
def twoFrames : List FrameInfo :=
  [⟨1, [{ pid := some 1, action := some actionEnter, enterInfo := some {
            name := some [97], color := some ⟨some 1, some 2, some 3⟩,
            pos := some ⟨some 100, some 500⟩ } }], 10⟩,
   ⟨2, [], 20⟩]

/-- The events of a client that is there from the start and applies one frame in each call. -/
def liveEvents : List Event :=
  [.frameCacheData [], .fsmOpen] ++
    twoFrames.flatMap fun data => [.frameData data, .updateLogic, .drain, .drain]

/-- The events of a client that comes later and gets both frames from the cache. -/
def cachedEvents : List Event :=
  [.frameCacheData twoFrames, .updateLogic, .drain, .drain, .updateLogic, .drain, .drain, .fsmOpen]

/-- The client of player 1 before `liveEvents`. -/
def livePlayer : Fsm MersenneTwister := Fsm.init 1 (.seed 1) ⟨1, 43, 0, 0, 0⟩

/-- The client of player 2 before `cachedEvents`. -/
def cachedPlayer : Fsm MersenneTwister := Fsm.init 2 (.seed 2) ⟨1, 43, 20, 2, 0⟩

/-- Player 1, who was there from the start, and player 2, who came later, see the same game. -/
theorem lockstep_from_cache :
    ∃ c c', runFrom step livePlayer liveEvents = some c ∧
      runFrom step cachedPlayer cachedEvents = some c' ∧
      c.game.enemyObjects.keys = [1, 3] ∧ c.game.toSim = c'.game.toSim := by
  have hlive : (runFrom step livePlayer liveEvents).any (fun c =>
      c.Idle ∧ c.game.gsFrameNo = 2 ∧ c.game.enemyObjects.keys = [1, 3]) = true := by decide +kernel
  have hcached : (runFrom step cachedPlayer cachedEvents).any (fun c =>
      c.Idle ∧ c.game.gsFrameNo = 2) = true := by decide +kernel
  obtain ⟨c, hc, hstate⟩ := Option.any_eq_true _ _ |>.mp hlive
  obtain ⟨c', hc', hstate'⟩ := Option.any_eq_true _ _ |>.mp hcached
  obtain ⟨hidle, hlast, henemies⟩ := of_decide_eq_true hstate
  obtain ⟨hidle', hlast'⟩ := of_decide_eq_true hstate'
  have hno : NumberedFrames twoFrames := by
    intro i f hf
    match i, hf with
    | 0, hf => exact (Option.some.inj hf) ▸ rfl
    | 1, hf => exact (Option.some.inj hf) ▸ rfl
  refine ⟨c, c', hc, hc', henemies, ?_⟩
  refine lockstep ?_ hno (run_of_runFrom hc) (run_of_runFrom hc') ?_ ?_ hidle hidle'
    (hlast.trans hlast'.symm)
  · rfl
  · decide +kernel
  · decide +kernel

end Recorded

end Fsm

end FrameSync.Client
