import FrameSync.Server.Finished
import FrameSync.Server.TimerObject

/-! # Games that are never released

A scene with the two timer objects of each game and the suspended calls of `game_over`.
`FighterWar:release` takes a game out of `gameobj_list` and releases its frame manager, and nothing calls
it: the answer to `game_over` removes `CheckOver` and that is all. So a finished game stays, and
`FrameSkip` and `SyncRtt` go on for ever (`finished_never_released`). -/

namespace FrameSync

/-- The timers of a game. -/
inductive GameTimer
  /-- `FrameSkip` -/
  | frameSkip
  /-- `CheckOver` -/
  | checkOver
  /-- `SyncRtt` -/
  | syncRtt
  deriving Repr, DecidableEq

/-- The timer objects of a game. -/
inductive TimerOwner
  /-- `m_FrameMgr` -/
  | frameMgr
  /-- The `FighterWar` itself. -/
  | war
  deriving Repr, DecidableEq

/-- `frame_rate` of the game mode, in frames a second. -/
def frameRate : ℤ := 50

/-- The timers of a game. Their callbacks are what the scene does on a timer. -/
structure GameTimers where
  /-- Those of `m_FrameMgr`. -/
  frameMgr : Timers GameTimer SceneAct
  /-- Those of the `FighterWar`. -/
  war : Timers GameTimer SceneAct

namespace GameTimers

/-- `FrameMgr:start` and the end of `FighterWar:init`. -/
def start (g : GameId) : GameTimers where
  frameMgr := Timers.init.addTimer (100 / frameRate) (.frameSkip g) (some (.named .frameSkip)) none
  war := (Timers.init.addTimer 500 (.checkOver g) (some (.named .checkOver)) none).addTimer 100
    (.syncRtt g) (some (.named .syncRtt)) none

/-- The timers of one of the objects. -/
def of (s : GameTimers) : TimerOwner → Timers GameTimer SceneAct
  | .frameMgr => s.frameMgr
  | .war => s.war

/-- A timeout of one of the objects fires. -/
def fire (s : GameTimers) (owner : TimerOwner) (t : Timeout GameTimer SceneAct) : GameTimers :=
  match owner with
  | .frameMgr => { s with frameMgr := s.frameMgr.fire t }
  | .war => { s with war := s.war.fire t }

/-- The end of `game_over`. -/
def gameOver (s : GameTimers) : GameTimers := { s with war := s.war.removeTimer (.named .checkOver) }

/-- `CheckOver` is removed. -/
theorem gameOver_checkOver (s : GameTimers) :
    s.gameOver.war.object.timerList (.named .checkOver) = none := by
  simp [gameOver, Timers.removeTimer]

/-- The timers of a game that go on. -/
structure Ticking (s : GameTimers) (g : GameId) : Prop where
  /-- `FrameSkip` -/
  frameSkip : s.frameMgr.Armed (.named .frameSkip) (.frameSkip g)
  /-- `SyncRtt` -/
  syncRtt : s.war.Armed (.named .syncRtt) (.syncRtt g)

theorem ticking_start (g : GameId) : (start g).Ticking g where
  frameSkip := Timers.armed_addTimer _ (by decide) _ _
  syncRtt := Timers.armed_addTimer _ (by decide) _ _

theorem Ticking.fire {s : GameTimers} {g : GameId} (h : s.Ticking g) (owner : TimerOwner)
    (t : Timeout GameTimer SceneAct) : (s.fire owner t).Ticking g := by
  cases owner with
  | frameMgr => exact ⟨h.frameSkip.fire t, h.syncRtt⟩
  | war => exact ⟨h.frameSkip, h.syncRtt.fire t⟩

theorem Ticking.gameOver {s : GameTimers} {g : GameId} (h : s.Ticking g) : s.gameOver.Ticking g :=
  ⟨h.frameSkip, h.syncRtt.removeTimer (by decide)⟩

end GameTimers

/-- A scene with the timers of its games. -/
structure TimedScene where
  /-- The scene. -/
  scene : Scene
  /-- The timers of each game. -/
  timers : GameId → GameTimers
  /-- The suspended calls of `game_over`. -/
  waiting : List GameId

/-- What happens to a scene. -/
inductive SceneEvent
  /-- It handles a letter. -/
  | letter (i : Inputs) (m : SceneMsg)
  /-- A timeout of a game fires. -/
  | timeout (i : Inputs) (g : GameId) (owner : TimerOwner) (t : Timeout GameTimer SceneAct)

namespace TimedScene

/-- A scene without games. -/
def init : TimedScene := ⟨fun _ => none, fun _ => ⟨Timers.init, Timers.init⟩, []⟩

section Step

variable [Wire] [ServerConfig] (n : ℕ)

/-- What the handler of an event of `SCENEn` does. -/
def handle (s : TimedScene) : SceneEvent → Outcome Scene (Letter Msg)
  | .letter i m => s.scene.receive i m
  | .timeout i g owner t =>
      match ((s.timers g).of owner).runs t with
      | [] => .done s.scene []
      | x :: _ => s.scene.act n i.clk x

/-- The games that letters report over. -/
def overIn (ls : List (Letter Msg)) : List GameId :=
  ls.filterMap fun
    | ⟨.sceneMgr, .gameOver _ g⟩ => some g
    | _ => none

/-- The state after an event. -/
def next (s : TimedScene) (e : SceneEvent) : TimedScene where
  scene := (s.handle n e).state
  timers :=
    match e with
    | .letter _ (.newGame g) => Function.update s.timers g (.start g)
    | .letter _ (.gameOver g) => Function.update s.timers g (s.timers g).gameOver
    | .letter .. => s.timers
    | .timeout _ g owner t => Function.update s.timers g ((s.timers g).fire owner t)
  waiting :=
    match e with
    | .letter _ (.gameOver g) => s.waiting.erase g
    | .letter .. | .timeout .. => s.waiting ++ overIn (s.handle n e).sent

/-- An event may happen: a game is made once, `game_over` is answered after it was called, and a timeout
fires when it is under way. -/
def enabled (s : TimedScene) : SceneEvent → Bool
  | .letter _ (.newGame g) => (s.scene g).isNone
  | .letter _ (.gameOver g) => g ∈ s.waiting
  | .letter .. => true
  | .timeout _ g owner t => t ∈ ((s.timers g).of owner).pending

/-- One event. -/
def step (s : TimedScene) (e : SceneEvent) : Option TimedScene :=
  if s.enabled e = true then some (s.next n e) else none

/-- The game whose call of `game_over` an event answers. -/
def answers : SceneEvent → Option GameId
  | .letter _ (.gameOver g) => some g
  | .letter .. | .timeout .. => none

/-- The games whose calls of `game_over` a run answered. -/
def answered (tr : List (TimedScene × SceneEvent)) : List GameId :=
  tr.flatMap fun x => (answers x.2).toList

end Step

section Runs

variable [Wire] [ServerConfig] {n : ℕ} {tr : List (TimedScene × SceneEvent)} {s : TimedScene}

/-- No event takes a game out. -/
theorem isSome_next {g : GameId} (h : (s.scene g).isSome) (e : SceneEvent) :
    ((s.next n e).scene g).isSome := by
  cases e with
  | letter i m =>
      show ((s.scene.receive i m).state g).isSome = true
      rw [Scene.isSome_receive, h, Bool.true_or]
  | timeout i g' owner t =>
      show ((s.handle n _).state g).isSome = true
      rw [handle]
      split
      · exact h
      · rw [Scene.isSome_act]
        exact h

/-- A game that an event reports over is there. -/
theorem isSome_of_overIn {e : SceneEvent} {g : GameId} (h : g ∈ overIn (s.handle n e).sent) :
    (s.scene g).isSome := by
  obtain ⟨l, hl, heq⟩ := List.mem_filterMap.mp h
  obtain ⟨a, m⟩ := l
  cases a with
  | sceneMgr =>
      cases m with
      | gameOver k g' =>
          obtain rfl := Option.some.inj heq
          rw [← mem_lettersTo] at hl
          cases e with
          | letter i m =>
              rw [handle, Scene.lettersTo_sceneMgr] at hl
              cases m with
              | newGame => cases List.mem_singleton.mp hl
              | enterPlayer | leavePlayer | syncCtrl | syncData | c2gsRttData | gameOver => cases hl
          | timeout i g'' owner t =>
              rw [handle] at hl
              split at hl
              · cases hl
              · obtain ⟨-, -, game, hgame, -⟩ := Scene.game_of_reported hl
                rw [hgame]
                rfl
      | enterPlayer | newGame => cases heq
  | gamegate | gamelogin | agent | scene | broadcast | socket => cases heq

/-- A game that was there keeps its frames numbered. -/
theorem numbered_next {g : GameId} {game : Game} (h : ∀ old, s.scene g = some old → old.war.frameMgr.Numbered)
    {e : SceneEvent} (hgame : (s.next n e).scene g = some game) : game.war.frameMgr.Numbered := by
  -- Every event that reaches the war is a `step` of it.
  have call : ∀ gameId clk ev, (s.scene.call gameId clk ev).state g = some game →
      game.war.frameMgr.Numbered := by
    intro gameId clk ev hgame
    rw [Scene.call_state] at hgame
    split at hgame
    · obtain ⟨old, hold, rfl⟩ := Option.map_eq_some_iff.mp hgame
      exact FighterWar.numbered_step (h old hold) clk ev
    · exact h game hgame
  cases e with
  | letter i m =>
      change (s.scene.receive i m).state g = some game at hgame
      rw [Scene.receive_state] at hgame
      cases m with
      | newGame gameId =>
          dsimp only at hgame
          split at hgame
          · obtain rfl := Option.some.inj hgame
            exact FrameMgr.numbered_init
          · exact h game hgame
      | enterPlayer | leavePlayer | syncCtrl | syncData => exact call _ _ _ hgame
      | c2gsRttData => exact h game hgame
      | gameOver gameId =>
          dsimp only at hgame
          split at hgame
          · obtain ⟨old, hold, rfl⟩ := Option.map_eq_some_iff.mp hgame
            exact h old hold
          · exact h game hgame
  | timeout i g' owner t =>
      change (s.handle n _).state g = some game at hgame
      rw [handle] at hgame
      split at hgame
      · exact h game hgame
      · rw [Scene.act_state] at hgame
        split at hgame
        · exact call _ _ _ hgame
        · exact call _ _ _ hgame
        · exact h game hgame

/-- What holds of the games and their timers in every run. -/
structure Sound (tr : List (TimedScene × SceneEvent)) (s : TimedScene) : Prop where
  /-- The timers of a game that is there go on. -/
  ticking : ∀ g, (s.scene g).isSome → (s.timers g).Ticking g
  /-- Its frames are numbered, and none was ever dropped. -/
  numbered : ∀ g game, s.scene g = some game → game.war.frameMgr.Numbered
  /-- The games whose reports wait are there. -/
  waiting : ∀ g ∈ s.waiting, (s.scene g).isSome
  /-- The games whose reports were answered are there, without `CheckOver`. -/
  answered : ∀ g ∈ answered tr, (s.scene g).isSome ∧
    (s.timers g).war.object.timerList (.named .checkOver) = none

omit [Wire] [ServerConfig] in
theorem answered_snoc (tr : List (TimedScene × SceneEvent)) (s : TimedScene) (e : SceneEvent) :
    answered (tr ++ [(s, e)]) = answered tr ++ (answers e).toList := by
  simp [answered]

/-- The timers of a game that is there, after an event. -/
theorem Sound.ticking_next (h : Sound tr s) {e : SceneEvent} {g : GameId}
    (hgame : ((s.next n e).scene g).isSome) : ((s.next n e).timers g).Ticking g := by
  cases e with
  | letter i m =>
      -- A game is there because it was, or because this very letter made it.
      have hmade : m ≠ .newGame g → (s.scene g).isSome := by
        intro hne
        change ((s.scene.receive i m).state g).isSome = true at hgame
        rwa [Scene.isSome_receive, decide_eq_false hne, Bool.or_false] at hgame
      cases m with
      | newGame g' =>
          show (Function.update s.timers g' _ g).Ticking g
          by_cases hg : g = g'
          · subst hg
            rw [Function.update_self]
            exact GameTimers.ticking_start g
          · rw [Function.update_of_ne hg]
            exact h.ticking g (hmade fun heq => hg (SceneMsg.newGame.inj heq).symm)
      | gameOver g' =>
          show (Function.update s.timers g' _ g).Ticking g
          have hticking := h.ticking g (hmade fun heq => nomatch heq)
          by_cases hg : g = g'
          · subst hg
            rw [Function.update_self]
            exact hticking.gameOver
          · rwa [Function.update_of_ne hg]
      | enterPlayer | leavePlayer | syncCtrl | syncData | c2gsRttData =>
          exact h.ticking g (hmade fun heq => nomatch heq)
  | timeout i g' owner t =>
      have hmade : (s.scene g).isSome := by
        change ((s.handle n _).state g).isSome = true at hgame
        rw [handle] at hgame
        split at hgame
        · exact hgame
        · rwa [Scene.isSome_act] at hgame
      show (Function.update s.timers g' _ g).Ticking g
      by_cases hg : g = g'
      · subst hg
        rw [Function.update_self]
        exact (h.ticking g hmade).fire owner t
      · rw [Function.update_of_ne hg]
        exact h.ticking g hmade

/-- `CheckOver` stays removed. -/
theorem checkOver_next {g : GameId} (hmade : (s.scene g).isSome)
    (hgone : (s.timers g).war.object.timerList (.named .checkOver) = none) {e : SceneEvent}
    (hen : s.enabled e = true) :
    ((s.next n e).timers g).war.object.timerList (.named .checkOver) = none := by
  cases e with
  | letter i m =>
      cases m with
      | newGame g' =>
          -- A game that is there is not made again, which would start its timers anew.
          have hg : g ≠ g' := by
            rintro rfl
            rw [enabled, Option.isNone_iff_eq_none] at hen
            rw [hen] at hmade
            cases hmade
          show (Function.update s.timers g' _ g).war.object.timerList _ = none
          rwa [Function.update_of_ne hg]
      | gameOver g' =>
          show (Function.update s.timers g' _ g).war.object.timerList _ = none
          by_cases hg : g = g'
          · subst hg
            rw [Function.update_self]
            exact GameTimers.gameOver_checkOver _
          · rwa [Function.update_of_ne hg]
      | enterPlayer | leavePlayer | syncCtrl | syncData | c2gsRttData => exact hgone
  | timeout i g' owner t =>
      show (Function.update s.timers g' _ g).war.object.timerList _ = none
      by_cases hg : g = g'
      · subst hg
        rw [Function.update_self]
        cases owner with
        | frameMgr => exact hgone
        | war => exact Timers.fire_removed hgone t
      · rwa [Function.update_of_ne hg]

/-- **The games and timers of every run.** -/
theorem sound_run (h : Run (step n) init tr s) : Sound tr s := by
  refine h.invariant (P := Sound) ?_ ?_
  · exact ⟨fun g hg => (nomatch hg), fun g game hg => (nomatch hg),
      fun g hg => absurd hg List.not_mem_nil, fun g hg => absurd hg List.not_mem_nil⟩
  · intro tr s e s' _ hs hstep
    rw [step] at hstep
    split_ifs at hstep with hen
    obtain rfl := Option.some.inj hstep
    refine ⟨fun g hg => hs.ticking_next hg, fun g game hgame => numbered_next (hs.numbered g) hgame,
      fun g hg => ?_, fun g hg => ?_⟩
    · refine isSome_next ?_ e
      -- A game whose `gameOver` is under way is there: it was, or its war has just sent it.
      have hkeep : g ∈ s.waiting ++ overIn (s.handle n e).sent → (s.scene g).isSome := by
        intro hg
        rcases List.mem_append.mp hg with hg | hg
        · exact hs.waiting g hg
        · exact isSome_of_overIn hg
      cases e with
      | letter i m =>
          cases m with
          | gameOver g' => exact hs.waiting g (List.mem_of_mem_erase hg)
          | newGame | enterPlayer | leavePlayer | syncCtrl | syncData | c2gsRttData => exact hkeep hg
      | timeout i g' owner t => exact hkeep hg
    · rw [answered_snoc] at hg
      rcases List.mem_append.mp hg with hg | hg
      · obtain ⟨hmade, hgone⟩ := hs.answered g hg
        exact ⟨isSome_next hmade e, checkOver_next hmade hgone hen⟩
      · cases e with
        | letter i m =>
            cases m with
            | gameOver g' =>
                obtain rfl := List.mem_singleton.mp hg
                refine ⟨isSome_next (hs.waiting g (of_decide_eq_true hen)) _, ?_⟩
                -- Answering the letter takes `CheckOver` out of the timer list.
                show (Function.update s.timers g _ g).war.object.timerList _ = none
                rw [Function.update_self]
                exact GameTimers.gameOver_checkOver _
            | newGame | enterPlayer | leavePlayer | syncCtrl | syncData | c2gsRttData => cases hg
        | timeout => cases hg

/-- A timeout of a game that is there runs the callback it was asked for. -/
theorem handle_timeout {i : Inputs} {g : GameId} {owner : TimerOwner} {t : Timeout GameTimer SceneAct}
    {x : SceneAct} (hruns : ((s.timers g).of owner).runs t = [x]) :
    s.handle n (.timeout i g owner t) = s.scene.act n i.clk x := by
  rw [handle, hruns]

/-- **A finished game is never released.** Once its `game_over` was answered, in every later state the
game is in `gameobj_list` and its frame manager has all its frames; timeouts of `FrameSkip` and `SyncRtt`
are under way that run their callbacks, and the one of `FrameSkip` makes another frame whenever it packs.
`CheckOver` alone runs no more. -/
theorem finished_never_released (h : Run (step n) init tr s) {g : GameId} (hg : g ∈ answered tr) :
    ∃ game, s.scene g = some game ∧
      game.war.frameMgr.curFrameNo = game.war.frameMgr.frameCacheQueue.length + 1 ∧
      (∃ t ∈ (s.timers g).frameMgr.pending, ∀ i, ∃ s', s.step n (.timeout i g .frameMgr t) = some s' ∧
        s.handle n (.timeout i g .frameMgr t) = s.scene.act n i.clk (.frameSkip g) ∧
        (Wire.packs (.gs2cFrameData (game.war.frameMgr.param i.clk.now)) i.clk.sec = true →
          ∃ game', s'.scene g = some game' ∧ game'.war.frameMgr.frameCacheQueue =
            game.war.frameMgr.frameCacheQueue ++ [game.war.frameMgr.param i.clk.now])) ∧
      (∃ t ∈ (s.timers g).war.pending, ∀ i, ∃ s', s.step n (.timeout i g .war t) = some s' ∧
        s.handle n (.timeout i g .war t) = s.scene.act n i.clk (.syncRtt g)) ∧
      ∀ t ∈ (s.timers g).war.pending, t.handle = .named .checkOver → (s.timers g).war.runs t = [] := by
  have hsound := sound_run h
  obtain ⟨hmade, hgone⟩ := hsound.answered g hg
  obtain ⟨game, hgame⟩ := Option.isSome_iff_exists.mp hmade
  -- `gameOver` removed `CheckOver` and nothing else: the other two timers go on.
  obtain ⟨t, ht, -, hskip⟩ := (hsound.ticking g hmade).frameSkip.exists_runs
  obtain ⟨t', ht', -, hrtt⟩ := (hsound.ticking g hmade).syncRtt.exists_runs
  refine ⟨game, hgame, (hsound.numbered g game hgame).curFrameNo, ⟨t, ht, fun i => ?_⟩,
    ⟨t', ht', fun i => ⟨_, if_pos (decide_eq_true ht'), handle_timeout hrtt⟩⟩, fun t'' _ hhandle => ?_⟩
  · have hhandle : s.handle n (.timeout i g .frameMgr t) = s.scene.act n i.clk (.frameSkip g) :=
      handle_timeout hskip
    refine ⟨_, if_pos (decide_eq_true ht), hhandle, fun hpacks => ?_⟩
    refine ⟨{ game with war := (game.war.frameSkip i.clk).state }, ?_, ?_⟩
    · show (s.handle n (.timeout i g .frameMgr t)).state g = _
      rw [hhandle, Scene.act_state]
      dsimp only
      rw [Scene.call_state, if_pos rfl, hgame]
      rfl
    · exact (FighterWar.frameSkip_frames hpacks 0).2.cache
  · refine Timers.runs_of_removed ?_
    rw [hhandle]
    exact hgone

end Runs

/-! ## The frames of a finished game -/

section First

attribute [local instance] sprotoWire gameConfig

/-- The first game is made, found empty and reported, and the report is answered. -/
def firstOver : List SceneEvent :=
  [.letter (readings 0) (.newGame 1),
   .timeout (readings 500) 1 .war ⟨500, .checkOver 1, .named .checkOver, 0⟩,
   .letter (readings 500) (.gameOver 1)]

/-- Then its timer `FrameSkip` fires. -/
def skipOver : SceneEvent :=
  .timeout (readings 502) 1 .frameMgr ⟨2, .frameSkip 1, .named .frameSkip, 0⟩

/-- The number of frames of the first game; none when it is not there. -/
def framesOfFirst (s : TimedScene) : Option ℕ :=
  (s.scene 1).map fun game => game.war.frameMgr.frameCacheQueue.length

/-- **A finished game makes frames.** The report of the first game was answered while it had no frame;
the game is still there, and the next `FrameSkip` makes its first frame. -/
theorem frame_after_gameOver :
    ∃ tr s, Run (step 1) init tr s ∧ 1 ∈ answered tr ∧ framesOfFirst s = some 0 ∧
      ∃ s', s.step 1 skipOver = some s' ∧ framesOfFirst s' = some 1 := by
  have hrun : (runFrom (step 1) init firstOver).any (fun s =>
      decide (framesOfFirst s = some 0) &&
        (s.step 1 skipOver).any fun s' => decide (framesOfFirst s' = some 1)) = true := by
    decide +kernel
  obtain ⟨s, hs, hstate⟩ := Option.any_eq_true _ _ |>.mp hrun
  simp only [Bool.and_eq_true, decide_eq_true_eq, Option.any_eq_true] at hstate
  obtain ⟨hnone, s', hs', hone⟩ := hstate
  exact ⟨_, s, run_of_runFrom hs, by decide +kernel, hnone, s', hs', hone⟩

/-- The first game after its report was answered: it is there with its frames numbered. -/
theorem finished_never_released_first :
    ∃ s : TimedScene, runFrom (step 1) init firstOver = some s ∧ ∃ game, s.scene 1 = some game ∧
      game.war.frameMgr.curFrameNo = game.war.frameMgr.frameCacheQueue.length + 1 := by
  have hrun : (runFrom (step 1) init firstOver).isSome = true := by decide +kernel
  obtain ⟨s, hs⟩ := Option.isSome_iff_exists.mp hrun
  have hanswered : 1 ∈ answered (traceFrom (step 1) init firstOver) := by decide +kernel
  obtain ⟨game, hgame, hno, -⟩ := finished_never_released (run_of_runFrom hs) hanswered
  exact ⟨s, hs, game, hgame, hno⟩

end First

end TimedScene

end FrameSync
