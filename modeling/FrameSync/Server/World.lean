import FrameSync.Server.Agent
import FrameSync.Server.Gate
import FrameSync.Server.Scene
import FrameSync.Server.SceneMgr

/-! # The server

All services together. Each handler runs to its end, or to its `skynet_call`, before its service
takes the next letter; letters arrive in the order in which they were sent. Timers may fire at any
time, and the clocks show any time. -/

namespace FrameSync

/-- The state of a service. -/
abbrev State : Addr → Type
  | .gamegate => Gate
  | .gamelogin => Unit
  | .agent _ => Agent
  | .sceneMgr => SceneMgr
  | .scene _ => Scene
  | .broadcast _ => FdMap
  | .socket _ => Unit

/-- What a service does without a letter. -/
abbrev Act : Addr → Type
  | .gamegate => GateAct
  | .agent _ => AgentAct
  | .scene _ => SceneAct
  | .gamelogin | .sceneMgr | .broadcast _ | .socket _ => Empty

/-- The state of the server and the letters under way. -/
abbrev World := Config State Msg

namespace World

/-- `GAMEGATE` -/
abbrev gate (w : World) : Gate := w.state .gamegate

/-- `AGENTn` -/
abbrev agent (w : World) (n : ℕ) : Agent := w.state (.agent n)

/-- `SCENE_MGR` -/
abbrev sceneMgr (w : World) : SceneMgr := w.state .sceneMgr

/-- The game `gameId`, in its scene. -/
abbrev game [ServerConfig] (w : World) (gameId : GameId) : Option Game :=
  (w.state (.scene (getSceneService gameId)) : Scene) gameId

end World

/-- What happens next on the server. -/
abbrev WorldMove := Move Inputs Act

variable [Wire] [ServerConfig]

/-- A broadcast service handles a request: it changes `fd_map` or writes to sockets. -/
def FdMap.receive (fdMap : FdMap) (req : BcMsg) : Outcome FdMap (Letter Msg) :=
  .done (fdMap.update req) ((fdMap.writes req).map fun w => ⟨.socket w.1, w.2⟩)

/-- The services. The client's end of a connection reads what was written to it. -/
def server : Behaviour Inputs State Msg Act where
  receive
    | .gamegate, _, s, m => Gate.receive s m
    | .gamelogin, i, _, .upackData fd msg => upackData i.profile fd msg
    | .agent n, i, s, m => Agent.receive s n i.clk m
    | .sceneMgr, _, s, m => SceneMgr.receive s m
    | .scene _, i, s, m => Scene.receive s i m
    | .broadcast _, _, s, m => FdMap.receive s m
    | .socket _, _, s, _ => .done s []
  act
    | .gamegate, i, s, x => Gate.act s i.clk.sec x
    | .agent _, i, s, x => Agent.act s i.clk x
    | .scene n, i, s, x => Scene.act s n i.clk x

section Server

variable (i : Inputs)

@[simp] theorem server_receive_gamegate (s : Gate) (m : GateMsg) :
    server.receive .gamegate i s m = s.receive m := rfl

@[simp] theorem server_receive_agent (n : ℕ) (s : Agent) (m : AgentMsg) :
    server.receive (.agent n) i s m = s.receive n i.clk m := rfl

@[simp] theorem server_receive_sceneMgr (s : SceneMgr) (m : MgrMsg) :
    server.receive .sceneMgr i s m = s.receive m := rfl

@[simp] theorem server_receive_scene (n : ℕ) (s : Scene) (m : SceneMsg) :
    server.receive (.scene n) i s m = Scene.receive s i m := rfl

@[simp] theorem server_act_gamegate (s : Gate) (x : GateAct) :
    server.act .gamegate i s x = s.act i.clk.sec x := rfl

@[simp] theorem server_act_agent (n : ℕ) (s : Agent) (x : AgentAct) :
    server.act (.agent n) i s x = s.act i.clk x := rfl

@[simp] theorem server_act_scene (n : ℕ) (s : Scene) (x : SceneAct) :
    server.act (.scene n) i s x = Scene.act s n i.clk x := rfl

end Server

/-- The server before any connection. -/
def World.init : World where
  state
    | .gamegate => Gate.init
    | .gamelogin => ()
    | .agent _ => Agent.init
    | .sceneMgr => SceneMgr.init
    | .scene _ => Scene.init
    | .broadcast _ => fun _ => none
    | .socket _ => ()
  mail _ := []

/-- The runs of the server. -/
abbrev ServerRun (tr : List (World × WorldMove)) (w : World) : Prop := server.Runs World.init tr w

end FrameSync
