import FrameSync.Scene.Roster
import FrameSync.Server.Pushes

/-! # The games of a run

A game is made once, before anybody is sent to it (`newGame_fresh`, `game_of_seat`). From then on the
letters its scene handles settle who is in it: the player a game holds for a pid is the one of the last
`enter_player`, unless a `leave_player` came after it (`fdOf_eq`). -/

namespace FrameSync

open Behaviour

/-! ## A scene and its letters -/

/-- The call that a letter makes on a game. -/
def SceneMsg.call (i : Inputs) : SceneMsg → Option (GameId × FighterWar.Event)
  | .enterPlayer gameId pid mArgs => some (gameId, .addPlayer pid mArgs i.spawn)
  | .leavePlayer gameId pid => some (gameId, .delPlayer pid)
  | .syncCtrl gameId pid ctrlData => some (gameId, .syncCtrl pid ctrlData)
  | .syncData gameId pid val => some (gameId, .syncData pid val)
  | .newGame _ | .c2gsRttData .. | .gameOver _ => none

namespace Scene

variable [Wire] [ServerConfig]

theorem receive_of_call (s : Scene) {i : Inputs} {m : SceneMsg} {gameId : GameId}
    {ev : FighterWar.Event} (h : m.call i = some (gameId, ev)) : s.receive i m = s.call gameId i.clk ev := by
  cases m with
  | enterPlayer | leavePlayer | syncCtrl | syncData =>
      obtain ⟨rfl, rfl⟩ := Prod.mk.inj (Option.some.inj h)
      rfl
  | newGame | c2gsRttData | gameOver => cases h

/-- A call changes its game and no other. -/
theorem call_state (s : Scene) (gameId : GameId) (clk : Clock) (ev : FighterWar.Event) (g : GameId) :
    (s.call gameId clk ev).state g =
      if gameId = g then (s g).map fun game => { game with war := (game.war.step clk ev).state }
      else s g := by
  rw [call]
  cases hgame : s gameId with
  | none =>
      by_cases hg : gameId = g
      · subst hg
        simp [hgame]
      · simp [hg]
  | some game =>
      by_cases hg : gameId = g
      · subst hg
        simp [hgame]
      · simp [Ne.symm hg, hg]

/-- What a letter does to a game. -/
theorem receive_state (s : Scene) (i : Inputs) (m : SceneMsg) (g : GameId) :
    (s.receive i m).state g =
      match m with
      | .newGame gameId => if gameId = g then some ⟨FighterWar.init g i.rndSeed, true⟩ else s g
      | .enterPlayer gameId pid mArgs => (s.call gameId i.clk (.addPlayer pid mArgs i.spawn)).state g
      | .leavePlayer gameId pid => (s.call gameId i.clk (.delPlayer pid)).state g
      | .syncCtrl gameId pid ctrlData => (s.call gameId i.clk (.syncCtrl pid ctrlData)).state g
      | .syncData gameId pid val => (s.call gameId i.clk (.syncData pid val)).state g
      | .c2gsRttData .. => s g
      | .gameOver gameId =>
          if gameId = g then (s g).map fun game => { game with checkOver := false } else s g := by
  cases m with
  | newGame gameId =>
      show Function.update s gameId _ g = if gameId = g then _ else s g
      by_cases hg : gameId = g
      · -- the letter is about this game
        subst hg
        rw [Function.update_self, if_pos rfl]
      · rw [Function.update_of_ne (Ne.symm hg), if_neg hg]
  | c2gsRttData gameId pid =>
      show (s.c2gsRttData gameId pid).state g = s g
      rw [c2gsRttData]
      split
      · rfl
      · rfl
  | gameOver gameId =>
      show Function.update s gameId _ g = if gameId = g then _ else s g
      by_cases hg : gameId = g
      · subst hg
        rw [Function.update_self, if_pos rfl]
      · rw [Function.update_of_ne (Ne.symm hg), if_neg hg]
  | enterPlayer | leavePlayer | syncCtrl | syncData => rfl

/-- What a timer does to a game. -/
theorem act_state (s : Scene) (n : ℕ) (clk : Clock) (x : SceneAct) (g : GameId) :
    (s.act n clk x).state g =
      match x with
      | .frameSkip gameId => (s.call gameId clk .frameSkip).state g
      | .syncRtt gameId => (s.call gameId clk .syncRtt).state g
      | .checkOver _ => s g := by
  cases x with
  | frameSkip | syncRtt | checkOver => rfl

/-- A letter takes no game out. -/
theorem isSome_receive (s : Scene) (i : Inputs) (m : SceneMsg) (g : GameId) :
    ((s.receive i m).state g).isSome = ((s g).isSome || decide (m = .newGame g)) := by
  rw [receive_state]
  cases m with
  | newGame gameId =>
      by_cases hg : gameId = g
      · simp [hg]
      · simp [hg]
  | enterPlayer gameId _ _ | leavePlayer gameId _ | syncCtrl gameId _ _ | syncData gameId _ _ =>
      simp only [call_state]
      split
      · simp
      · simp
  | c2gsRttData => simp
  | gameOver gameId =>
      by_cases hg : gameId = g
      · simp [hg]
      · simp [hg]

theorem isSome_act (s : Scene) (n : ℕ) (clk : Clock) (x : SceneAct) (g : GameId) :
    ((s.act n clk x).state g).isSome = (s g).isSome := by
  rw [act_state]
  cases x with
  | frameSkip gameId | syncRtt gameId =>
      simp only [call_state]
      split
      · simp
      · rfl
  | checkOver => rfl

/-- The socket of a player of a game. -/
def fdOf (s : Scene) (gameId : GameId) (pid : Pid) : Option Fd :=
  (s gameId).bind fun game => game.war.fdOf pid

theorem fdOf_call (s : Scene) (gameId : GameId) (clk : Clock) (ev : FighterWar.Event) (g : GameId)
    (pid : Pid) : Scene.fdOf (s.call gameId clk ev).state g pid =
      if gameId = g then (s g).bind fun game => (game.war.step clk ev).state.fdOf pid
      else s.fdOf g pid := by
  rw [fdOf, call_state]
  split
  · cases s g with
    | none => rfl
    | some game => rfl
  · rfl

end Scene

/-! ## The games of a run -/

section Games

variable [Wire] [ServerConfig] {tr : List (World × WorldMove)} {w : World}

omit [Wire] [ServerConfig] in
theorem foldl_or_eq (m : SceneMsg) (ms : List SceneMsg) (b : Bool) :
    ms.foldl (fun b m' => b || decide (m' = m)) b = (b || decide (m ∈ ms)) := by
  induction ms generalizing b with
  | nil => simp
  | cons m' ms ih =>
      rw [List.foldl_cons, ih, Bool.or_assoc]
      simp [eq_comm]

/-- **A game is there once its scene was asked for it.** -/
theorem game_isSome_iff (h : ServerRun tr w) (k : ℕ) (g : GameId) :
    ((w.state (.scene k) : Scene) g).isSome = true ↔ .newGame g ∈ handled (.scene k) tr := by
  have hfold := state_eq_foldl (a := Addr.scene k) (fun s : Scene => (s g).isSome)
    (fun b m => b || decide (m = .newGame g)) (fun i s m => Scene.isSome_receive s i m g)
    (fun i s x => Scene.isSome_act s k i.clk x g) h
  rw [hfold, foldl_or_eq]
  simp [World.init, Scene.init]

/-- The scene manager is told of a game by its scene. -/
theorem newGame_answered (h : ServerRun tr w) {g : GameId}
    (hm : .newGame g ∈ server.sent .sceneMgr tr) :
    .newGame g ∈ handled (.scene (getSceneService g)) tr := by
  revert g
  refine invariant (P := fun tr (_ : World) => ∀ {g : GameId},
    .newGame g ∈ server.sent .sceneMgr tr → .newGame g ∈ handled (.scene (getSceneService g)) tr)
    ?_ ?_ ?_ h
  · intro g hm
    cases hm
  · intro tr (w : World) a i m rest hrun hw hmail g hm
    rw [server.sent_deliver _ hmail] at hm
    rcases List.mem_append.mp hm with hm | hm
    · rw [handled_snoc]
      exact List.mem_append_left _ (hw hm)
    · cases a with
      | agent k =>
          rw [server_receive_agent, Agent.lettersTo_sceneMgr] at hm
          cases m with
          | start => cases List.mem_singleton.mp hm
          | kick | unpack | entered => cases hm
      | scene k =>
          rw [server_receive_scene, Scene.lettersTo_sceneMgr] at hm
          cases m with
          | newGame gameId =>
              obtain rfl := MgrMsg.newGame.inj (List.mem_singleton.mp hm)
              -- The scene was told to open the game, and games are opened at their own scene.
              have hsent : .newGame g ∈ server.sent (.scene k) tr := by
                rw [← handled_append hrun, hmail]
                exact List.mem_append_right _ List.mem_cons_self
              obtain ⟨-, -, rfl⟩ := mem_newGame_sent hrun hsent
              rw [handled_deliver hmail]
              exact List.mem_append_right _ (List.mem_singleton_self _)
          | enterPlayer | leavePlayer | syncCtrl | syncData | c2gsRttData | gameOver => cases hm
      | gamegate | gamelogin | sceneMgr | broadcast k | socket k =>
          rw [lettersTo_receive rfl] at hm
          cases hm
  · intro tr (w : World) a x i hrun hw g hm
    rw [server.sent_act] at hm
    rw [handled_act]
    rcases List.mem_append.mp hm with hm | hm
    · exact hw hm
    · cases a with
      | agent k =>
          rw [server_act_agent, Agent.lettersTo_sceneMgr_act] at hm
          cases hm
      | scene k =>
          obtain ⟨gameId, -, heq⟩ := Scene.lettersTo_sceneMgr_act _ _ _ _ _ hm
          cases heq
      | gamegate =>
          rw [lettersTo_act rfl] at hm
          cases hm
      | gamelogin | sceneMgr | broadcast k | socket k => cases x

omit [Wire] in
/-- The scene manager hands out places in games it was told of. -/
theorem SceneMgr.newGame_of_placed (ms : List MgrMsg) :
    (∀ proxy ∈ (served ms).state.sceneProxyList, .newGame proxy.gameId ∈ ms) ∧
      ∀ x ∈ placed ms, .newGame x.gameId ∈ ms := by
  induction ms using List.reverseRecOn with
  | nil => exact ⟨fun _ h => absurd h List.not_mem_nil, fun _ h => absurd h List.not_mem_nil⟩
  | append_singleton ms msg ih =>
      obtain ⟨hopen, hplaced⟩ := ih
      rw [served_snoc_state, placed_snoc]
      have keep : ∀ g, .newGame g ∈ ms → .newGame g ∈ ms ++ [msg] := fun _ h =>
        List.mem_append_left _ h
      cases msg with
      | enterPlayer req =>
          rw [receive, enterPlayer, seats]
          cases hlist : (served ms).state.sceneProxyList with
          | nil =>
              refine ⟨fun proxy hproxy => ?_, fun x hx => ?_⟩
              · change proxy ∈ (served ms).state.sceneProxyList at hproxy
                exact keep _ (hopen proxy hproxy)
              · rw [List.take_nil, List.map_nil, List.append_nil] at hx
                exact keep _ (hplaced x hx)
          | cons proxy proxies =>
              -- the place is in the first game of the list
              have hfirst := keep _ (hopen proxy (hlist ▸ List.mem_cons_self))
              refine ⟨fun p hp => ?_, fun x hx => ?_⟩
              · have hp' : p ∈ { proxy with playercnt := proxy.playercnt + 1 } :: proxies := by
                  change p ∈ popFull _ _ at hp
                  rw [popFull] at hp
                  split at hp
                  · exact List.mem_cons_of_mem _ hp
                  · exact hp
                rcases List.mem_cons.mp hp' with rfl | hp'
                · exact hfirst
                · exact keep _ (hopen p (hlist ▸ List.mem_cons_of_mem _ hp'))
              · rcases List.mem_append.mp hx with hx | hx
                · exact keep _ (hplaced x hx)
                · rw [List.mem_singleton.mp hx]
                  exact hfirst
      | newGame gameId =>
          rw [receive, newGame, seats]
          cases hfind : (served ms).state.creating.find? fun c => c.gameId = gameId with
          | none =>
              refine ⟨fun proxy hproxy => keep _ (hopen proxy hproxy), fun x hx => ?_⟩
              rw [Option.toList_none, List.map_nil, List.append_nil] at hx
              exact keep _ (hplaced x hx)
          | some c =>
              refine ⟨fun proxy hproxy => ?_, fun x hx => ?_⟩
              · -- the new game was reported by this letter
                change proxy ∈ (served ms).state.sceneProxyList ++ [proxyOf gameId] at hproxy
                rcases List.mem_append.mp hproxy with hproxy | hproxy
                · exact keep _ (hopen proxy hproxy)
                · rw [List.mem_singleton.mp hproxy]
                  exact List.mem_append_right _ (List.mem_singleton_self _)
              · rcases List.mem_append.mp hx with hx | hx
                · exact keep _ (hplaced x hx)
                · rw [List.mem_singleton.mp hx]
                  exact List.mem_append_right _ (List.mem_singleton_self _)
      | gameOver n gameId =>
          refine ⟨fun proxy hproxy => ?_, fun x hx => ?_⟩
          · exact keep _ (hopen proxy (List.mem_of_mem_eraseP hproxy))
          · rw [seats, List.append_nil] at hx
            exact keep _ (hplaced x hx)

/-- **A game is there before anybody is sent to it.** -/
theorem game_of_seat (h : ServerRun tr w) {x : Seat} (hx : x ∈ seated tr) :
    (w.game x.gameId).isSome = true := by
  refine (game_isSome_iff h _ _).mpr (newGame_answered h ?_)
  exact (handled_first h _).subset ((SceneMgr.newGame_of_placed _).2 x hx)

/-- An `enter_player` is for a place, in the scene of its game. -/
theorem seat_of_enter (h : ServerRun tr w) {k : ℕ} {g : GameId} {pid : Pid} {mArgs : PlayerArgs}
    (hm : .enterPlayer g pid mArgs ∈ server.sent (.scene k) tr) : k = getSceneService g ∧
      ∃ x ∈ seated tr, x.gameId = g ∧ x.req.pid = pid ∧ x.req.mArgs = mArgs := by
  have hfilter : .enterPlayer g pid mArgs ∈ (server.sent (.scene k) tr).filter SceneMsg.isEnter :=
    List.mem_filter.mpr ⟨hm, rfl⟩
  rw [enters_sent h] at hfilter
  obtain ⟨x, hx, heq⟩ := List.mem_map.mp hfilter
  obtain ⟨hmem, hscene⟩ := List.mem_filter.mp hx
  obtain ⟨rfl, rfl, rfl⟩ := SceneMsg.enterPlayer.inj heq
  exact ⟨(of_decide_eq_true hscene).symm, x, hmem, rfl, rfl, rfl⟩

/-- The next letter of a service was sent. -/
theorem mem_sent_of_mail (h : ServerRun tr w) {a : Addr} {m : Msg a} {rest : List (Msg a)}
    (hmail : w.mail a = m :: rest) : m ∈ server.sent a tr := by
  rw [← handled_append h, hmail]
  exact List.mem_append_right _ List.mem_cons_self

/-- **A game is made once**, in its scene. -/
theorem newGame_fresh (h : ServerRun tr w) {k : ℕ} {g : GameId} {rest : List SceneMsg}
    (hmail : w.mail (.scene k) = .newGame g :: rest) : k = getSceneService g ∧ w.game g = none := by
  have hscene := (mem_newGame_sent h (mem_sent_of_mail h hmail)).2.2
  refine ⟨hscene.symm, ?_⟩
  subst hscene
  rw [← Option.not_isSome_iff_eq_none, game_isSome_iff h]
  intro hmem
  have hnodup : ((server.sent (.scene (getSceneService g)) tr).filter SceneMsg.isNewGame).Nodup := by
    rw [newGames_sent h]
    refine List.Nodup.map (fun _ _ heq => SceneMsg.newGame.inj heq) ?_
    exact List.Nodup.filter _ List.nodup_range'
  rw [← handled_append h, List.filter_append, hmail] at hnodup
  refine (List.nodup_append.mp hnodup).2.2 (.newGame g) ?_ (.newGame g) ?_ rfl
  · exact List.mem_filter.mpr ⟨hmem, rfl⟩
  · exact List.mem_filter.mpr ⟨List.mem_cons_self, rfl⟩

/-- What a letter to a scene does to the place of `pid` in the game `g`. -/
def SceneMsg.hold (g : GameId) (pid : Pid) (cur : Option Fd) : SceneMsg → Option Fd
  | .enterPlayer gameId q mArgs => if gameId = g ∧ q = pid then some mArgs.fd else cur
  | .leavePlayer gameId q => if gameId = g ∧ q = pid then none else cur
  | .newGame _ | .syncCtrl .. | .syncData .. | .c2gsRttData .. | .gameOver _ => cur

/-- Who is in the game `g` for `pid` after some letters. -/
def holder (g : GameId) (pid : Pid) (ms : List SceneMsg) : Option Fd :=
  ms.foldl (SceneMsg.hold g pid) none

omit [Wire] [ServerConfig] in
@[simp] theorem holder_snoc (g : GameId) (pid : Pid) (ms : List SceneMsg) (m : SceneMsg) :
    holder g pid (ms ++ [m]) = SceneMsg.hold g pid (holder g pid ms) m := by
  simp [holder]

/-- **The letters settle who is in a game.** -/
theorem fdOf_eq (h : ServerRun tr w) (g : GameId) (pid : Pid) :
    Scene.fdOf (w.state (.scene (getSceneService g))) g pid
      = holder g pid (handled (.scene (getSceneService g)) tr) := by
  refine invariant (P := fun tr (w : World) => Scene.fdOf (w.state (.scene (getSceneService g))) g pid
    = holder g pid (handled (.scene (getSceneService g)) tr)) ?_ ?_ ?_ h
  · rfl
  · intro tr (w : World) a i m rest hrun hw hmail
    by_cases ha : a = .scene (getSceneService g)
    · subst ha
      rw [Config.commit_state_same, server_receive_scene, handled_deliver hmail, holder_snoc, ← hw]
      cases m with
      | newGame gameId =>
          rw [Scene.fdOf, Scene.receive_state]
          dsimp only
          split
          · rename_i hg
            subst hg
            -- there was no game before, so nobody was in it
            have hfresh : (w.state (.scene (getSceneService gameId)) : Scene) gameId = none :=
              (newGame_fresh hrun hmail).2
            rw [Scene.fdOf, hfresh]
            rfl
          · rfl
      | enterPlayer gameId q mArgs =>
          refine (Scene.fdOf_call _ gameId i.clk (.addPlayer q mArgs i.spawn) g pid).trans ?_
          rw [SceneMsg.hold]
          split
          · rename_i hg
            subst hg
            obtain ⟨-, x, hx, rfl, -⟩ := seat_of_enter hrun (mem_sent_of_mail hrun hmail)
            obtain ⟨game, hgame⟩ := Option.isSome_iff_exists.mp (game_of_seat hrun hx)
            change (w.state (.scene (getSceneService x.gameId)) : Scene) x.gameId = some game at hgame
            rw [Scene.fdOf, hgame, Option.bind_some, Option.bind_some, FighterWar.fdOf_step]
            simp
          · rename_i hg
            rw [if_neg (fun hboth => hg hboth.1)]
      | leavePlayer gameId q =>
          refine (Scene.fdOf_call _ gameId i.clk (.delPlayer q) g pid).trans ?_
          rw [SceneMsg.hold]
          split
          · rename_i hg
            subst hg
            rw [Scene.fdOf]
            cases hgame : (w.state (.scene (getSceneService gameId)) : Scene) gameId with
            | none => simp
            | some game =>
                rw [Option.bind_some, Option.bind_some, FighterWar.fdOf_step]
                simp
          · rename_i hg
            rw [if_neg (fun hboth => hg hboth.1)]
      | syncCtrl gameId q c =>
          refine (Scene.fdOf_call _ gameId i.clk (.syncCtrl q c) g pid).trans ?_
          simp only [FighterWar.fdOf_step]
          exact ite_self _
      | syncData gameId q val =>
          refine (Scene.fdOf_call _ gameId i.clk (.syncData q val) g pid).trans ?_
          simp only [FighterWar.fdOf_step]
          exact ite_self _
      | c2gsRttData gameId q => rw [Scene.fdOf, Scene.receive_state]; rfl
      | gameOver gameId =>
          rw [Scene.fdOf, Scene.receive_state]
          dsimp only
          split
          · rw [Option.bind_map]
            rfl
          · rfl
    · rw [Config.commit_state_ne _ _ _ _ (Ne.symm ha), handled_deliver_ne ha, hw]
  · intro tr (w : World) a x i hrun hw
    rw [handled_act, ← hw]
    by_cases ha : a = .scene (getSceneService g)
    · subst ha
      rw [Config.commit_state_same, server_act_scene]
      cases x with
      | frameSkip gameId =>
          refine (Scene.fdOf_call _ gameId i.clk .frameSkip g pid).trans ?_
          simp only [FighterWar.fdOf_step]
          exact ite_self _
      | syncRtt gameId =>
          refine (Scene.fdOf_call _ gameId i.clk .syncRtt g pid).trans ?_
          simp only [FighterWar.fdOf_step]
          exact ite_self _
      | checkOver gameId => rfl
    · rw [Config.commit_state_ne _ _ _ _ (Ne.symm ha)]

/-- A game is in its scene. -/
theorem scene_of_game (h : ServerRun tr w) {k : ℕ} {g : GameId} {game : Game}
    (hgame : (w.state (.scene k) : Scene) g = some game) : k = getSceneService g := by
  have hmade := (game_isSome_iff h k g).mp (by rw [hgame]; rfl)
  exact (mem_newGame_sent h ((handled_first h _).subset hmade)).2.2.symm

/-- **Rule for games**: what a new game satisfies and every call preserves, the games of a run satisfy. -/
theorem game_invariant {P : GameId → FighterWar → Prop} (init : ∀ g seed, P g (FighterWar.init g seed))
    (step : ∀ g war clk ev, P g war → P g (war.step clk ev).state) (h : ServerRun tr w) {k : ℕ}
    {g : GameId} {game : Game} (hgame : (w.state (.scene k) : Scene) g = some game) : P g game.war := by
  revert game
  refine invariant (P := fun _ (w : World) => ∀ {game : Game},
    (w.state (.scene k) : Scene) g = some game → P g game.war) ?_ ?_ ?_ h
  · intro game hgame
    cases hgame
  · intro tr (w : World) a i m rest hrun hw hmail game hgame
    -- a call of another game leaves this one as it is
    have call : ∀ gameId ev, (Scene.call (w.state (.scene k)) gameId i.clk ev).state g = some game →
        P g game.war := by
      intro gameId ev hgame
      rw [Scene.call_state] at hgame
      split at hgame
      · obtain ⟨old, hold, rfl⟩ := Option.map_eq_some_iff.mp hgame
        exact step g _ _ _ (hw hold)
      · exact hw hgame
    by_cases ha : a = .scene k
    · subst ha
      rw [Config.commit_state_same, server_receive_scene, Scene.receive_state] at hgame
      cases m with
      | newGame gameId =>
          dsimp only at hgame
          split at hgame
          · -- the game is made now
            obtain rfl := Option.some.inj hgame
            exact init g _
          · exact hw hgame
      | enterPlayer | leavePlayer | syncCtrl | syncData => exact call _ _ hgame
      | c2gsRttData => exact hw hgame
      | gameOver gameId =>
          dsimp only at hgame
          split at hgame
          · obtain ⟨old, hold, rfl⟩ := Option.map_eq_some_iff.mp hgame
            exact @hw old hold
          · exact hw hgame
    · rw [Config.commit_state_ne _ _ _ _ (Ne.symm ha)] at hgame
      exact hw hgame
  · intro tr (w : World) a x i hrun hw game hgame
    by_cases ha : a = .scene k
    · subst ha
      rw [Config.commit_state_same, server_act_scene, Scene.act_state] at hgame
      cases x with
      | frameSkip gameId | syncRtt gameId =>
          dsimp only at hgame
          rw [Scene.call_state] at hgame
          split at hgame
          · obtain ⟨old, hold, rfl⟩ := Option.map_eq_some_iff.mp hgame
            exact step g _ _ _ (hw hold)
          · exact hw hgame
      | checkOver => exact hw hgame
    · rw [Config.commit_state_ne _ _ _ _ (Ne.symm ha)] at hgame
      exact hw hgame

/-- The games of a run have their ids and number their frames. -/
theorem game_numbered (h : ServerRun tr w) {k : ℕ} {g : GameId} {game : Game}
    (hgame : (w.state (.scene k) : Scene) g = some game) :
    game.war.gameID = g ∧ game.war.frameMgr.Numbered :=
  game_invariant (P := fun g war => war.gameID = g ∧ war.frameMgr.Numbered)
    (fun _ _ => ⟨rfl, FrameMgr.numbered_init⟩)
    (fun _ war clk ev hwar => ⟨(war.gameID_step clk ev).trans hwar.1, FighterWar.numbered_step hwar.2 clk ev⟩)
    h hgame

end Games

end FrameSync
