import FrameSync.Server.Pushes

/-! # Open places and new games

A place is handed out once. The scene manager counts the players that enter a game and never those
that leave it, and between its look for an open game and the new game there is a call. So a new game is
made only when every game so far is being made, was sent five players or is over
(`new_game_only_when_taken`); but a game that lost a player is not found again
(`left_place_is_not_used`). -/

namespace FrameSync

open Behaviour

section OpenPlaces

variable [Wire] [ServerConfig] {tr : List (World × WorldMove)} {w : World}

/-- The number of `enter_player` that were sent for a game. -/
def entersSent (gameId : GameId) (tr : List (World × WorldMove)) : ℕ :=
  (server.sent (.scene (getSceneService gameId)) tr).countP (SceneMsg.enters gameId)

/-- They are its places. -/
theorem entersSent_eq (h : ServerRun tr w) (gameId : GameId) :
    entersSent gameId tr = seatCount gameId (seated tr) := by
  have hkind : (fun m => SceneMsg.enters gameId m && SceneMsg.isEnter m) = SceneMsg.enters gameId :=
    funext fun m => by cases m <;> simp [SceneMsg.enters, SceneMsg.isEnter]
  have hcount := congrArg (List.countP (SceneMsg.enters gameId))
    (enters_sent h (getSceneService gameId))
  rw [List.countP_filter, hkind, List.countP_map, List.countP_filter] at hcount
  refine hcount.trans (List.countP_congr fun x _ => ?_)
  simp only [Function.comp, Seat.enterMsg, SceneMsg.enters, Bool.and_eq_true, decide_eq_true_eq]
  constructor
  · exact fun hx => hx.1
  · exact fun hx => ⟨hx, by rw [hx]⟩

omit [Wire] in
/-- A letter makes the scene manager ask for a game only if no game is open. -/
theorem SceneMgr.newGame_of_closed {m : SceneMgr} {msg : MgrMsg} {k : ℕ}
    {gameId : GameId} (hm : .newGame gameId ∈ lettersTo (.scene k) (m.receive msg).sent) :
    (∃ req, msg = .enterPlayer req) ∧ m.sceneProxyList = [] := by
  have hjoin : ∀ proxy req, (⟨.scene k, .newGame gameId⟩ : Letter Msg) ∉ join proxy req := by
    intro proxy req hmem
    rcases List.mem_cons.mp hmem with heq | hmem
    · cases heq
    · cases List.mem_singleton.mp hmem
  rw [mem_lettersTo] at hm
  cases msg with
  | enterPlayer req =>
      rw [receive, enterPlayer] at hm
      split at hm
      · exact absurd hm (hjoin _ _)
      · rename_i hclosed
        exact ⟨⟨req, rfl⟩, hclosed⟩
  | newGame g =>
      rw [receive, newGame] at hm
      split at hm
      · exact absurd hm (hjoin _ _)
      · cases hm
  | gameOver n g => cases List.mem_singleton.mp hm

/-- **A new game is made only when no place was left to hand out.** When a letter makes the scene
manager ask for a new game, it is a call of `enter_player` that finds no open game, and every game that was
asked for before is still being made, was sent five players, or was reported over. -/
theorem new_game_only_when_taken (h : ServerRun tr w) {m : MgrMsg} {rest : List MgrMsg} {i : Inputs}
    {k : ℕ} {new : GameId} (hmail : w.mail .sceneMgr = m :: rest)
    (hnew : .newGame new ∈ lettersTo (.scene k) (server.emitted w (.deliver .sceneMgr i))) :
    (∃ req, m = .enterPlayer req) ∧ w.sceneMgr.sceneProxyList = [] ∧
    ∀ n gameId, .newGame gameId ∈ server.sent (.scene n) tr →
      (∃ c ∈ w.sceneMgr.creating, c.gameId = gameId) ∨ entersSent gameId tr = 5 ∨
        ∃ n, .gameOver n gameId ∈ handled .sceneMgr tr := by
  rw [emitted, hmail] at hnew
  obtain ⟨hcall, hclosed⟩ := SceneMgr.newGame_of_closed hnew
  refine ⟨hcall, hclosed, fun n gameId hasked => ?_⟩
  obtain ⟨hpos, hle, -⟩ := mem_newGame_sent h hasked
  rw [entersSent_eq h]
  rcases (sound_run h).closed gameId hpos hle with hids | hrest
  · rw [SceneMgr.ids, hclosed] at hids
    obtain ⟨c, hc, heq⟩ := List.mem_map.mp hids
    exact Or.inl ⟨c, hc, heq⟩
  · exact Or.inr hrest

end OpenPlaces

/-! ## A place that is not used -/

section LeftPlace

attribute [local instance] sprotoWire gameConfig

/-- A connection is opened and logs in as `pid`, whose agent is `n`, and enters the first game. -/
def enterFirst (fd : Fd) (pid : Pid) (n : ℕ) : List WorldMove :=
  [report .open] ++ logIn fd pid ++
    [next (.agent n), next .sceneMgr, next (.scene 1), next (.agent n)]

/-- Five players are in the first game; one leaves, and a sixth player logs in. -/
def sixthPlayer : List WorldMove :=
  [report .open] ++ logIn 1 1 ++ firstEnter 1 ++ enterFirst 2 2 2 ++ enterFirst 3 3 1 ++
    enterFirst 4 4 2 ++ enterFirst 5 5 1 ++ [report (.close 1), next (.agent 1), next (.scene 1)] ++
    [report .open] ++ logIn 6 6 ++ [next (.agent 2)]

/-- The call of the sixth player. -/
def sixthCall : EnterRequest := ⟨2, 2, 6, ⟨[97], 6, 6, ⟨some 1, some 2, some 3⟩⟩⟩

/-- Two players log in, and the call of the first one is handled. -/
def twoPlayers : List WorldMove :=
  [report .open] ++ logIn 1 1 ++ [report .open] ++ logIn 2 2 ++
    [next (.agent 1), next (.agent 2), next .sceneMgr]

/-- The call of the second player. -/
def secondCall : EnterRequest := ⟨2, 0, 2, ⟨[97], 2, 2, ⟨some 1, some 2, some 3⟩⟩⟩

/-- The game of the first player is being made, and the call of the second one makes another game. -/
theorem second_player_is_alone :
    ∃ w : World, runFrom server.step World.init twoPlayers = some w ∧
      (∃ rest, w.mail .sceneMgr = .enterPlayer secondCall :: rest) ∧
      (∃ c ∈ w.sceneMgr.creating, c.gameId = 1) ∧
      .newGame 2 ∈ lettersTo (.scene 2) (server.emitted w (next .sceneMgr)) := by
  have hrun : (runFrom server.step World.init twoPlayers).any (fun (w : World) =>
      decide ((w.mail .sceneMgr).head? = some (.enterPlayer secondCall)) &&
      decide (∃ c ∈ w.sceneMgr.creating, c.gameId = 1) &&
      decide (.newGame 2 ∈ lettersTo (.scene 2) (server.emitted w (next .sceneMgr)))) = true := by
    decide +kernel
  obtain ⟨w, hw, hstate⟩ := Option.any_eq_true _ _ |>.mp hrun
  simp only [Bool.and_eq_true, decide_eq_true_eq] at hstate
  obtain ⟨⟨hcall, hcreating⟩, hnew⟩ := hstate
  exact ⟨w, hw, List.head?_eq_some_iff.mp hcall, hcreating, hnew⟩

/-- **The place of a player who left is not used.** The first game goes on with four players, and no
other is on the way to it or to a game that is being made; the call of the sixth player makes a second
game. Nor do two players who enter together share a game. -/
theorem left_place_is_not_used :
    (∃ w : World, runFrom server.step World.init sixthPlayer = some w ∧
      (∃ req rest, w.mail .sceneMgr = .enterPlayer req :: rest) ∧
      w.sceneMgr.creating = [] ∧ w.mail (.scene 1) = [] ∧
      (∃ game, w.game 1 = some game ∧ game.checkOver = true ∧ game.war.players.keys.length = 4) ∧
      .newGame 2 ∈ lettersTo (.scene 2) (server.emitted w (next .sceneMgr))) ∧
    ∃ w : World, runFrom server.step World.init twoPlayers = some w ∧
      (∃ rest, w.mail .sceneMgr = .enterPlayer secondCall :: rest) ∧
      (∃ c ∈ w.sceneMgr.creating, c.gameId = 1) ∧
      .newGame 2 ∈ lettersTo (.scene 2) (server.emitted w (next .sceneMgr)) := by
  refine ⟨?_, second_player_is_alone⟩
  have hrun : (runFrom server.step World.init sixthPlayer).any (fun (w : World) =>
      decide ((w.mail .sceneMgr).head? = some (.enterPlayer sixthCall)) &&
      w.sceneMgr.creating.isEmpty && (w.mail (.scene 1)).isEmpty &&
      (w.game 1).any (fun game => game.checkOver && game.war.players.keys.length = 4) &&
      decide (.newGame 2 ∈ lettersTo (.scene 2) (server.emitted w (next .sceneMgr)))) = true := by
    decide +kernel
  obtain ⟨w, hw, hstate⟩ := Option.any_eq_true _ _ |>.mp hrun
  simp only [Bool.and_eq_true, List.isEmpty_iff, Option.any_eq_true, decide_eq_true_eq] at hstate
  obtain ⟨⟨⟨⟨hcall, hcreating⟩, hmail⟩, game, hgame, hover, hplayers⟩, hnew⟩ := hstate
  obtain ⟨rest, hcalls⟩ := List.head?_eq_some_iff.mp hcall
  exact ⟨w, hw, ⟨sixthCall, rest, hcalls⟩, hcreating, hmail, ⟨game, hgame, hover, hplayers⟩, hnew⟩

/-- The call of the sixth player comes when the first game was sent five. -/
theorem new_game_only_when_taken_sixth :
    ∃ w : World, runFrom server.step World.init sixthPlayer = some w ∧
      ((∃ c ∈ w.sceneMgr.creating, c.gameId = 1) ∨
        entersSent 1 (traceFrom server.step World.init sixthPlayer) = 5 ∨
        ∃ n, .gameOver n 1 ∈ handled .sceneMgr (traceFrom server.step World.init sixthPlayer)) := by
  have hrun : (runFrom server.step World.init sixthPlayer).any (fun (w : World) =>
      !(w.mail .sceneMgr).isEmpty &&
      decide (.newGame 2 ∈ lettersTo (.scene 2) (server.emitted w (next .sceneMgr)))) = true := by
    decide +kernel
  obtain ⟨w, hw, hstate⟩ := Option.any_eq_true _ _ |>.mp hrun
  simp only [Bool.and_eq_true, Bool.not_eq_true', List.isEmpty_eq_false_iff, decide_eq_true_eq] at hstate
  obtain ⟨m, rest, hmail⟩ := List.exists_cons_of_ne_nil hstate.1
  refine ⟨w, hw, ?_⟩
  exact (new_game_only_when_taken (run_of_runFrom hw) hmail hstate.2).2.2 1 1 (by decide +kernel)

end LeftPlace

end FrameSync
