import FrameSync.Foundations.Process
import FrameSync.Scene.FighterWar

/-! # The services and their letters

The services of the server, what they send to one another, and the three choices by number
(`get_user_agent`, `get_scene_service`, `get_scene_broadcast`). A `skynet_call` is a letter with the
address of the caller and a letter back; the caller is suspended in between, and its service goes on
with other letters. -/

namespace FrameSync

open Sproto

/-- A game id. -/
abbrev GameId := ℕ

/-! ## Choosing a service -/

/-- `n` rounded to a multiple of `2 ^ s`, ties to the even multiple. -/
def roundEven (s n : ℕ) : ℕ :=
  if 2 ^ s < 2 * (n % 2 ^ s) ∨ (2 ^ s = 2 * (n % 2 ^ s) ∧ n / 2 ^ s % 2 = 1) then
    (n / 2 ^ s + 1) * 2 ^ s
  else n / 2 ^ s * 2 ^ s

/-- The double nearest to an integer. -/
def luaFloat (n : ℤ) : ℤ := n.sign * (roundEven (n.natAbs.log2 + 1 - 53) n.natAbs : ℕ)

/-- The counts of services in the configuration file. -/
class ServerConfig where
  /-- `AGENT_CNT` -/
  agentCnt : ℕ
  /-- `SCENESERVICE_CNT` -/
  sceneServiceCnt : ℕ
  /-- `SCENE_BC_CNT` -/
  sceneBcCnt : ℕ
  /-- There is a broadcast service for the games. -/
  sceneBcCnt_pos : 0 < sceneBcCnt

/-- The number of the service for `id` among `cnt`. `Skynet.getenv` returns a string, so that `%`
works on floats. -/
def serviceNo (id : ℤ) (cnt : ℕ) : ℕ :=
  if luaFloat id % cnt = 0 then cnt else (luaFloat id % cnt).toNat

/-- There is a service with that number. -/
theorem serviceNo_mem (id : ℤ) {cnt : ℕ} (h : 0 < cnt) : 0 < serviceNo id cnt ∧ serviceNo id cnt ≤ cnt := by
  have hpos : (0 : ℤ) < cnt := by exact_mod_cast h
  have hnonneg := Int.emod_nonneg (luaFloat id) (ne_of_gt hpos)
  have hlt := Int.emod_lt_of_pos (luaFloat id) hpos
  unfold serviceNo
  split
  · exact ⟨h, le_rfl⟩
  · constructor
    · omega
    · omega

section Choice

variable [ServerConfig]

/-- `get_user_agent` -/
def getUserAgent (pid : Pid) : ℕ := serviceNo pid ServerConfig.agentCnt

/-- `get_scene_service` -/
def getSceneService (gameId : GameId) : ℕ := serviceNo gameId ServerConfig.sceneServiceCnt

/-- `get_scene_broadcast` -/
def getSceneBroadcast (gameId : GameId) : ℕ := serviceNo gameId ServerConfig.sceneBcCnt

/-- The broadcast service of a game is one of those that sockets are registered with. -/
theorem getSceneBroadcast_le (gameId : GameId) : getSceneBroadcast gameId ≤ ServerConfig.sceneBcCnt :=
  (serviceNo_mem gameId ServerConfig.sceneBcCnt_pos).2

end Choice

/-! ## Letters -/

/-- A service, or the socket of a client. -/
inductive Addr
  /-- `GAMEGATE` -/
  | gamegate
  /-- `GAMELOGIN` -/
  | gamelogin
  /-- `AGENTn` -/
  | agent (n : ℕ)
  /-- `SCENE_MGR` -/
  | sceneMgr
  /-- `SCENEn` -/
  | scene (n : ℕ)
  /-- `PUB_BC` for 0, else `SCENE_BCn`. -/
  | broadcast (n : ℕ)
  /-- The client's end of a connection. -/
  | socket (fd : Fd)
  deriving Repr, DecidableEq

/-- `mArgs` of `loginsuc` and `start`. The game mode is always `GAME_FIGHTER_WAR`. -/
structure LoginArgs where
  /-- `mArgs.pid` -/
  pid : Pid
  /-- `mArgs.agent` -/
  agent : ℕ
  /-- `mArgs.name` -/
  name : Bytes
  /-- `mArgs.color` -/
  color : Color
  /-- `mArgs.fd` -/
  fd : Fd
  deriving Repr, DecidableEq

/-- To `GAMEGATE`. -/
inductive GateMsg
  /-- `loginsuc` -/
  | loginsuc (fd : Fd) (mArgs : LoginArgs)
  deriving Repr, DecidableEq

/-- To `GAMELOGIN`. -/
inductive LoginMsg
  /-- `UpackData` -/
  | upackData (fd : Fd) (msg : ClientMsg)
  deriving Repr, DecidableEq

/-- To an agent. -/
inductive AgentMsg
  /-- `start` -/
  | start (pid : Pid) (mArgs : LoginArgs)
  /-- `kick` -/
  | kick (pid : Pid)
  /-- `Unpack` -/
  | unpack (pid : Pid) (msg : ClientMsg)
  /-- What the call of `enter_player` in `enterwar` returns to the object `obj`. -/
  | entered (obj : ℕ) (gameId : GameId) (agent : ℕ)
  deriving Repr, DecidableEq

/-- A call of `enter_player` at `SCENE_MGR`, with the caller. -/
structure EnterRequest where
  /-- The agent of the caller. -/
  source : ℕ
  /-- The object of the caller. -/
  obj : ℕ
  /-- `pid` -/
  pid : Pid
  /-- `mArgs` -/
  mArgs : PlayerArgs
  deriving Repr, DecidableEq

/-- To `SCENE_MGR`. -/
inductive MgrMsg
  /-- `enter_player` -/
  | enterPlayer (req : EnterRequest)
  /-- What the call of `new_game` returns. -/
  | newGame (gameId : GameId)
  /-- `game_over`, called by a game of `SCENEn`. -/
  | gameOver (n : ℕ) (gameId : GameId)
  deriving Repr, DecidableEq

/-- To a scene. -/
inductive SceneMsg
  /-- `new_game` -/
  | newGame (gameId : GameId)
  /-- `enter_player` -/
  | enterPlayer (gameId : GameId) (pid : Pid) (mArgs : PlayerArgs)
  /-- `leave_player` -/
  | leavePlayer (gameId : GameId) (pid : Pid)
  /-- `sync_ctrl` -/
  | syncCtrl (gameId : GameId) (pid : Pid) (ctrlData : Option CtrlInfo)
  /-- `sync_data` with `{rtt = val}` -/
  | syncData (gameId : GameId) (pid : Pid) (val : ℤ)
  /-- `c2gs_rtt_data` -/
  | c2gsRttData (gameId : GameId) (pid : Pid)
  /-- What the call of `game_over` returns. -/
  | gameOver (gameId : GameId)
  deriving Repr, DecidableEq

/-- The letters a service handles. -/
abbrev Msg : Addr → Type
  | .gamegate => GateMsg
  | .gamelogin => LoginMsg
  | .agent _ => AgentMsg
  | .sceneMgr => MgrMsg
  | .scene _ => SceneMsg
  | .broadcast _ => BcMsg
  | .socket _ => ServerMsg

/-- What a handler draws for a new player: `random_name` and `random_color`. -/
structure Profile where
  /-- The name, one of `first_names` and one of `last_names`. -/
  name : Bytes
  /-- Red. -/
  r : ℕ
  /-- Green. -/
  g : ℕ
  /-- Blue. -/
  b : ℕ
  /-- The range of the draws. -/
  range : ∀ v ∈ [r, g, b], 1 ≤ v ∧ v ≤ 254

/-- The colour of a profile. -/
def Profile.color (p : Profile) : Color := ⟨some p.r, some p.g, some p.b⟩

/-- What a handler reads from outside. -/
structure Inputs where
  /-- The clocks. -/
  clk : Clock
  /-- The draws of `UpackData`. -/
  profile : Profile
  /-- The draws of `FWPlayer:init`. -/
  spawn : Spawn
  /-- The draw of `FighterWar:init`. -/
  rndSeed : ℕ
  /-- Its range. -/
  rndSeed_mem : 1 ≤ rndSeed ∧ rndSeed ≤ 10000

end FrameSync
