import FrameSync.Server.Letters

/-! # The scene manager

`scenemgrcmd.lua`. A call of `enter_player` joins the first game that is open to players; if there is
none it makes a game, and is suspended until the scene has answered. -/

namespace FrameSync

/-- `oProxy`: a game that is open to players. -/
structure Proxy where
  /-- `playercnt` -/
  playercnt : ℕ
  /-- `game_id` -/
  gameId : GameId
  /-- `agent` -/
  agent : ℕ
  deriving Repr, DecidableEq

/-- A call of `enter_player` that waits for its new game. -/
structure Creating where
  /-- The game that was asked for. -/
  gameId : GameId
  /-- The call. -/
  req : EnterRequest
  deriving Repr, DecidableEq

/-- The state of `SCENE_MGR`. -/
structure SceneMgr where
  /-- The last `GAMEID` of `NewServiceUniqID`. -/
  lastGameId : GameId
  /-- `m_SceneProxyList` of the one game mode. -/
  sceneProxyList : List Proxy
  /-- The calls that are suspended in `new_proxy`. -/
  creating : List Creating
  deriving Repr, DecidableEq

namespace SceneMgr

/-- The scene manager before any game. -/
def init : SceneMgr := ⟨0, [], []⟩

variable [ServerConfig]

/-- The player goes to the game, and the caller is told. -/
def join (proxy : Proxy) (req : EnterRequest) : List (Letter Msg) :=
  [⟨.scene proxy.agent, .enterPlayer proxy.gameId req.pid req.mArgs⟩,
   ⟨.agent req.source, .entered req.obj proxy.gameId proxy.agent⟩]

/-- `pop_proxy` when the game is full. -/
def popFull (playercnt : ℕ) (proxies : List Proxy) : List Proxy :=
  if 5 ≤ playercnt then proxies.tail else proxies

/-- `new_proxy` up to its call. -/
def newProxy (m : SceneMgr) (req : EnterRequest) : Outcome SceneMgr (Letter Msg) :=
  .done { m with
      lastGameId := m.lastGameId + 1
      creating := m.creating ++ [⟨m.lastGameId + 1, req⟩] }
    [⟨.scene (getSceneService (m.lastGameId + 1)), .newGame (m.lastGameId + 1)⟩]

/-- `command.enter_player` -/
def enterPlayer (m : SceneMgr) (req : EnterRequest) : Outcome SceneMgr (Letter Msg) :=
  match m.sceneProxyList with
  | proxy :: proxies =>
      .done { m with
          sceneProxyList :=
            popFull (proxy.playercnt + 1) ({ proxy with playercnt := proxy.playercnt + 1 } :: proxies) }
        (join proxy req)
  | [] => m.newProxy req

/-- A new game, which is open to four more players. -/
def proxyOf (gameId : GameId) : Proxy := ⟨1, gameId, getSceneService gameId⟩

/-- `command.enter_player` from where `new_game` returns. -/
def newGame (m : SceneMgr) (gameId : GameId) : Outcome SceneMgr (Letter Msg) :=
  match m.creating.find? fun c => c.gameId = gameId with
  | some c =>
      .done { m with
          sceneProxyList := m.sceneProxyList ++ [proxyOf gameId]
          creating := m.creating.erase c }
        (join (proxyOf gameId) c.req)
  | none => .done m []

/-- `del_proxy` -/
def delProxy (m : SceneMgr) (gameId : GameId) : SceneMgr :=
  { m with sceneProxyList := m.sceneProxyList.eraseP fun proxy => proxy.gameId = gameId }

/-- Handling a letter. -/
def receive (m : SceneMgr) : MgrMsg → Outcome SceneMgr (Letter Msg)
  | .enterPlayer req => m.enterPlayer req
  | .newGame gameId => m.newGame gameId
  | .gameOver n gameId => .done (m.delProxy gameId) [⟨.scene n, .gameOver gameId⟩]

end SceneMgr

end FrameSync
