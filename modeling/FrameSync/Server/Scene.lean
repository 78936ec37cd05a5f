import FrameSync.Server.Letters

/-! # The scenes

`scene/command.lua`, `scene/env.lua` and the timers of `FighterWar`. A scene keeps its games by id and
never takes one out; a game that is over has left the scene manager only. -/

namespace FrameSync

/-- A game with its timer `CheckOver`. -/
structure Game where
  /-- `FighterWar` -/
  war : FighterWar
  /-- The timer `CheckOver` is there. -/
  checkOver : Bool

/-- The state of a scene: `gameobj_list`. -/
abbrev Scene := GameId → Option Game

/-- The timers of a game. -/
inductive SceneAct
  /-- `FrameSkip` -/
  | frameSkip (gameId : GameId)
  /-- `SyncRtt` -/
  | syncRtt (gameId : GameId)
  /-- `CheckOver` -/
  | checkOver (gameId : GameId)
  deriving Repr, DecidableEq

namespace Scene

variable [Wire] [ServerConfig]

/-- A scene without games. -/
def init : Scene := fun _ => none

/-- `new_game`, with its answer to `SCENE_MGR`. -/
def newGame (s : Scene) (gameId : GameId) (rndSeed : ℕ) : Outcome Scene (Letter Msg) :=
  .done (Function.update s gameId (some ⟨FighterWar.init gameId rndSeed, true⟩))
    [⟨.sceneMgr, .newGame gameId⟩]

/-- The requests of a game go to its broadcast service. -/
def toBroadcast (gameId : GameId) (reqs : List BcMsg) : List (Letter Msg) :=
  reqs.map fun req => ⟨.broadcast (getSceneBroadcast gameId), req⟩

/-- The game `gameId`, if there is one, makes the call `ev`. -/
def call (s : Scene) (gameId : GameId) (clk : Clock) (ev : FighterWar.Event) :
    Outcome Scene (Letter Msg) :=
  match s gameId with
  | some game =>
      ⟨Function.update s gameId (some { game with war := (game.war.step clk ev).state }),
        toBroadcast gameId (game.war.step clk ev).sent, (game.war.step clk ev).raised⟩
  | none => .done s []

/-- `command.c2gs_rtt_data` raises for a player who is there: it reads a global that is not set. -/
def c2gsRttData (s : Scene) (gameId : GameId) (pid : Pid) : Outcome Scene (Letter Msg) :=
  match (s gameId).bind fun game => game.war.players.lookup pid with
  | some _ => .raise s
  | none => .done s []

/-- The end of `game_over`: `RemoveTimer("CheckOver")`. -/
def gameOver (s : Scene) (gameId : GameId) : Scene :=
  Function.update s gameId ((s gameId).map fun game => { game with checkOver := false })

/-- `check_over`, up to the call of `game_over`, in `SCENEn`. -/
def checkOver (s : Scene) (n : ℕ) (gameId : GameId) : List (Letter Msg) :=
  match s gameId with
  | some game =>
      if game.checkOver = true ∧ game.war.players.keys = [] then
        [⟨.sceneMgr, .gameOver n gameId⟩]
      else []
  | none => []

/-- Handling a letter. -/
def receive (s : Scene) (i : Inputs) : SceneMsg → Outcome Scene (Letter Msg)
  | .newGame gameId => s.newGame gameId i.rndSeed
  | .enterPlayer gameId pid mArgs => s.call gameId i.clk (.addPlayer pid mArgs i.spawn)
  | .leavePlayer gameId pid => s.call gameId i.clk (.delPlayer pid)
  | .syncCtrl gameId pid ctrlData => s.call gameId i.clk (.syncCtrl pid ctrlData)
  | .syncData gameId pid val => s.call gameId i.clk (.syncData pid val)
  | .c2gsRttData gameId pid => s.c2gsRttData gameId pid
  | .gameOver gameId => .done (s.gameOver gameId) []

/-- Acting on a timer, in `SCENEn`. -/
def act (s : Scene) (n : ℕ) (clk : Clock) : SceneAct → Outcome Scene (Letter Msg)
  | .frameSkip gameId => s.call gameId clk .frameSkip
  | .syncRtt gameId => s.call gameId clk .syncRtt
  | .checkOver gameId => .done s (s.checkOver n gameId)

end Scene

end FrameSync
