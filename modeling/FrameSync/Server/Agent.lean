import FrameSync.Server.Letters

/-! # The agents

`player.lua`, `agent/command.lua` and `netcmd.lua`. An agent keeps one `Player` object for each pid in
`playerlist`. An object that was replaced or quit is still there: a call of `enterwar` may come back
to it, and its timer goes on. -/

namespace FrameSync

open Sproto

/-- `Player` -/
structure Player where
  /-- `m_ID` -/
  id : Pid
  /-- `m_Name` -/
  name : Bytes
  /-- `m_FD` -/
  fd : Fd
  /-- `m_Color` -/
  color : Color
  /-- `m_PingSession` -/
  pingSession : ℤ
  /-- `m_LastPingSession` -/
  lastPingSession : ℤ
  /-- `m_PingTime` -/
  pingTime : ℕ
  /-- `m_lRTTValues`, session and value. -/
  rttValues : List (ℤ × ℤ)
  /-- `m_RTT` -/
  rtt : ℤ
  /-- `m_OldRTT` -/
  oldRTT : ℤ
  /-- `m_GameID` and `m_SceneAgent`, unset until `enterwar` returns. -/
  war : Option (GameId × ℕ)
  deriving Repr, DecidableEq

namespace Player

/-- `Player:init` -/
def init (id : Pid) (mArgs : LoginArgs) (now : ℕ) : Player where
  id := id
  name := mArgs.name
  fd := mArgs.fd
  color := mArgs.color
  pingSession := 0
  lastPingSession := 0
  pingTime := now
  rttValues := []
  rtt := 0
  oldRTT := 0
  war := none

/-- `Player:PackData` -/
def packData (p : Player) : PlayerArgs := ⟨p.name, p.id, p.fd, p.color⟩

/-- The value of the present session goes to the end of `m_lRTTValues`, in the place of an earlier
one of the same session. -/
def putRtt (p : Player) (now : ℕ) : List (ℤ × ℤ) :=
  match p.rttValues.getLast? with
  | some last =>
      if last.1 = p.pingSession then
        p.rttValues.dropLast ++ [(p.pingSession, (now : ℤ) - p.pingTime)]
      else p.rttValues ++ [(p.pingSession, (now : ℤ) - p.pingTime)]
  | none => [(p.pingSession, (now : ℤ) - p.pingTime)]

/-- At most five values are kept. -/
def keepFive (values : List (ℤ × ℤ)) : List (ℤ × ℤ) :=
  if 5 < values.length then values.tail else values

/-- The new value of `m_RTT`, of at most five values. The mean is a double, and its floor the exact one for
every sum between `-2^51` and `2^51`: the mean is an integer, or a fifth below the next one, and there the
doubles are a quarter apart at most. -/
def avgRtt (values : List (ℤ × ℤ)) : ℤ := (values.map Prod.snd).sum / values.length

/-- `m_lRTTValues` and `m_RTT` after a measurement. -/
def measure (p : Player) (now : ℕ) : Player :=
  { p with
    rttValues := keepFive (p.putRtt now)
    rtt := avgRtt (keepFive (p.putRtt now)) }

/-- The end of `calc_rtt`: a change of five or more is sent to the game, and raises while there is
none. -/
def reportRtt (p : Player) : Outcome Player (Letter Msg) :=
  if 5 ≤ (p.rtt - p.oldRTT).natAbs then
    match p.war with
    | some (gameId, scene) =>
        .done { p with oldRTT := p.rtt } [⟨.scene scene, .syncData gameId p.id p.rtt⟩]
    | none => .raise { p with oldRTT := p.rtt }
  else .done p []

/-- `Player:calc_rtt` -/
def calcRtt (p : Player) (now : ℕ) : Outcome Player (Letter Msg) := (p.measure now).reportRtt

/-- A `gs2c_ping` through the public broadcast service. -/
def sendPing [Wire] (clk : Clock) (isResp : Bool) (p : Player) : Outcome Player (Letter Msg) :=
  if Wire.packs (.gs2cPing p.pingSession.toNat clk.now isResp) clk.sec then
    .done p [⟨.broadcast 0, .sendToPlayer p.id (.gs2cPing p.pingSession.toNat clk.now isResp)⟩]
  else .raise p

/-- `Player:client_ping` -/
def clientPing [Wire] (p : Player) (session : Option ℤ) (clk : Clock) : Outcome Player (Letter Msg) :=
  if session ≠ some p.pingSession then .done p []
  else if p.lastPingSession = p.pingSession then .done p []
  else ({ p with lastPingSession := p.pingSession }.calcRtt clk.now).andThen (sendPing clk true)

/-- `Player:check_gs_ping` -/
def checkGsPing [Wire] (p : Player) (clk : Clock) : Outcome Player (Letter Msg) :=
  if p.pingSession = p.lastPingSession then
    sendPing clk false { p with pingSession := p.pingSession + 1, pingTime := clk.now }
  else (p.calcRtt clk.now).andThen (sendPing clk false)

/-- `Player:leavewar` -/
def leavewar (p : Player) : List (Letter Msg) :=
  p.war.toList.map fun w => ⟨.scene w.2, .leavePlayer w.1 p.id⟩

/-- `Player:sync_ctrl` -/
def syncCtrl (p : Player) (ctrlData : Option CtrlInfo) : List (Letter Msg) :=
  p.war.toList.map fun w => ⟨.scene w.2, .syncCtrl w.1 p.id ctrlData⟩

/-- The branch of `Analysis` on `c2gs_rtt_data`, which raises before there is a game. -/
def syncRttData (p : Player) : Outcome Player (Letter Msg) :=
  match p.war with
  | some (gameId, scene) => .done p [⟨.scene scene, .c2gsRttData gameId p.id⟩]
  | none => .raise p

/-- `NetCmd.Analysis` for the player the packet is about. -/
def analysis [Wire] (p : Player) (clk : Clock) : ClientMsg → Outcome Player (Letter Msg)
  | .c2gsPing session => p.clientPing session clk
  | .c2gsCtrlData ctrlData => .done p (p.syncCtrl ctrlData)
  | .c2gsRttData .. => p.syncRttData
  | .c2gsLogin _ | .other => .done p []

/-! ### What a packet leaves alone -/

/-- The pid, the socket and the game are the same. -/
structure Keeps (p p' : Player) : Prop where
  /-- `m_ID` -/
  id : p'.id = p.id
  /-- `m_FD` -/
  fd : p'.fd = p.fd
  /-- `m_GameID` and `m_SceneAgent` -/
  war : p'.war = p.war

theorem Keeps.refl (p : Player) : Keeps p p := ⟨rfl, rfl, rfl⟩

theorem Keeps.trans {p p' p'' : Player} (h : Keeps p p') (h' : Keeps p' p'') : Keeps p p'' :=
  ⟨h'.id.trans h.id, h'.fd.trans h.fd, h'.war.trans h.war⟩

/-- Two handlers in sequence that keep the player. -/
theorem Keeps.andThen {p : Player} {r : Outcome Player (Letter Msg)}
    {k : Player → Outcome Player (Letter Msg)} (h : Keeps p r.state)
    (hk : ∀ p', Keeps p' (k p').state) : Keeps p (r.andThen k).state := by
  rw [Outcome.andThen]
  split
  · exact h
  · exact h.trans (hk r.state)

theorem keeps_calcRtt (p : Player) (now : ℕ) : Keeps p (p.calcRtt now).state := by
  rw [calcRtt, reportRtt]
  split
  · split
    · exact ⟨rfl, rfl, rfl⟩
    · exact ⟨rfl, rfl, rfl⟩
  · exact ⟨rfl, rfl, rfl⟩

variable [Wire]

theorem keeps_sendPing (clk : Clock) (isResp : Bool) (p : Player) :
    Keeps p (sendPing clk isResp p).state := by
  rw [sendPing]
  split
  · exact Keeps.refl p
  · exact Keeps.refl p

theorem keeps_clientPing (p : Player) (session : Option ℤ) (clk : Clock) :
    Keeps p (p.clientPing session clk).state := by
  rw [clientPing]
  split
  · exact Keeps.refl p
  · split
    · exact Keeps.refl p
    · have hfirst : Keeps p { p with lastPingSession := p.pingSession } := ⟨rfl, rfl, rfl⟩
      exact (hfirst.trans (keeps_calcRtt _ _)).andThen (keeps_sendPing clk true)

theorem keeps_checkGsPing (p : Player) (clk : Clock) : Keeps p (p.checkGsPing clk).state := by
  rw [checkGsPing]
  split
  · have hfirst : Keeps p { p with pingSession := p.pingSession + 1, pingTime := clk.now } :=
      ⟨rfl, rfl, rfl⟩
    exact hfirst.trans (keeps_sendPing clk false _)
  · exact (keeps_calcRtt p clk.now).andThen (keeps_sendPing clk false)

theorem keeps_analysis (p : Player) (clk : Clock) (msg : ClientMsg) :
    Keeps p (p.analysis clk msg).state := by
  cases msg with
  | c2gsPing session => exact keeps_clientPing p session clk
  | c2gsRttData _ _ _ _ =>
      rw [analysis, syncRttData]
      split
      · exact Keeps.refl p
      · exact Keeps.refl p
  | c2gsLogin _ | c2gsCtrlData _ | other => exact Keeps.refl p

end Player

/-- The state of an agent. -/
structure Agent where
  /-- All `Player` objects made so far. -/
  objs : List Player
  /-- `playerlist`, by the position of the object. -/
  playerlist : Pid → Option ℕ
  /-- The object under a pid is one of that pid. -/
  id_eq : ∀ pid obj, playerlist pid = some obj → ∃ p, objs[obj]? = some p ∧ p.id = pid

/-- The timers of the players. -/
inductive AgentAct
  /-- The timer `ServerPing` of an object. -/
  | serverPing (obj : ℕ)
  deriving Repr, DecidableEq

namespace Agent

/-- An agent without players. -/
def init : Agent := ⟨[], fun _ => none, fun _ _ h => nomatch h⟩

/-- `env.get_player`: the position of the object and the object. -/
def getPlayer (s : Agent) (pid : Pid) : Option (ℕ × Player) :=
  (s.playerlist pid).bind fun obj => s.objs[obj]?.map fun p => (obj, p)

/-- `NewPlayer` and `Env.set_player`. -/
def setPlayer (s : Agent) (pid : Pid) (mArgs : LoginArgs) (now : ℕ) : Agent where
  objs := s.objs ++ [Player.init pid mArgs now]
  playerlist := Function.update s.playerlist pid (some s.objs.length)
  id_eq := by
    intro q obj h
    by_cases hq : q = pid
    · subst hq
      rw [Function.update_self] at h
      obtain rfl := Option.some.inj h
      exact ⟨Player.init q mArgs now, by simp, rfl⟩
    · rw [Function.update_of_ne hq] at h
      obtain ⟨p, hp, hid⟩ := s.id_eq q obj h
      have hlt : obj < s.objs.length := (List.getElem?_eq_some_iff.mp hp).1
      exact ⟨p, by rw [List.getElem?_append_left hlt]; exact hp, hid⟩

/-- `Env.del_player` -/
def delPlayer (s : Agent) (pid : Pid) : Agent where
  objs := s.objs
  playerlist := Function.update s.playerlist pid none
  id_eq := by
    intro q obj h
    by_cases hq : q = pid
    · subst hq
      rw [Function.update_self] at h
      cases h
    · rw [Function.update_of_ne hq] at h
      exact s.id_eq q obj h

/-- An object changes, but not its pid. -/
def setObj (s : Agent) (obj : ℕ) (f : Player → Player) (h : ∀ p, (f p).id = p.id) : Agent where
  objs := s.objs.modify obj f
  playerlist := s.playerlist
  id_eq := by
    intro q o ho
    obtain ⟨p, hp, hid⟩ := s.id_eq q o ho
    by_cases heq : obj = o
    · subst heq
      exact ⟨f p, by simp [hp], (h p).trans hid⟩
    · exact ⟨p, by simp [heq, hp], hid⟩

variable [Wire] [ServerConfig]

/-- `BCApi.register_fd` -/
def registerFd (uuid : Pid) (fd : Fd) : List (Letter Msg) :=
  (List.range (ServerConfig.sceneBcCnt + 1)).map fun b => ⟨.broadcast b, .registerFd uuid fd⟩

/-- `BCApi.unregister_fd` -/
def unregisterFd (uuid : Pid) : List (Letter Msg) :=
  (List.range (ServerConfig.sceneBcCnt + 1)).map fun b => ⟨.broadcast b, .unregisterFd uuid⟩

/-- `command.start` of agent `n`: `login`, and `enterwar` up to its call. -/
def start (s : Agent) (n : ℕ) (pid : Pid) (mArgs : LoginArgs) (now : ℕ) :
    Outcome Agent (Letter Msg) :=
  .done (s.setPlayer pid mArgs now)
    (registerFd pid mArgs.fd ++
      [⟨.sceneMgr, .enterPlayer ⟨n, s.objs.length, pid, (Player.init pid mArgs now).packData⟩⟩])

/-- `command.kick` -/
def kick (s : Agent) (pid : Pid) : Outcome Agent (Letter Msg) :=
  match s.getPlayer pid with
  | some (_, p) => .done (s.delPlayer pid) (p.leavewar ++ unregisterFd pid)
  | none => .done s []

/-- `command.Unpack` -/
def unpack (s : Agent) (pid : Pid) (msg : ClientMsg) (clk : Clock) : Outcome Agent (Letter Msg) :=
  match s.getPlayer pid with
  | some (obj, p) =>
      (p.analysis clk msg).mapState fun _ =>
        s.setObj obj (fun p => (p.analysis clk msg).state) fun p => (p.keeps_analysis clk msg).id
  | none => .done s []

/-- The end of `enterwar`, for the object that called. -/
def entered (s : Agent) (obj : ℕ) (gameId : GameId) (scene : ℕ) : Agent :=
  s.setObj obj (fun p => { p with war := some (gameId, scene) }) fun _ => rfl

/-- The timer `ServerPing` of an object. -/
def serverPing (s : Agent) (obj : ℕ) (clk : Clock) : Outcome Agent (Letter Msg) :=
  match s.objs[obj]? with
  | some p =>
      (p.checkGsPing clk).mapState fun _ =>
        s.setObj obj (fun p => (p.checkGsPing clk).state) fun p => (p.keeps_checkGsPing clk).id
  | none => .done s []

/-- Handling a letter. -/
def receive (s : Agent) (n : ℕ) (clk : Clock) : AgentMsg → Outcome Agent (Letter Msg)
  | .start pid mArgs => s.start n pid mArgs clk.now
  | .kick pid => s.kick pid
  | .unpack pid msg => s.unpack pid msg clk
  | .entered obj gameId scene => .done (s.entered obj gameId scene) []

/-- Acting on a timer. -/
def act (s : Agent) (clk : Clock) : AgentAct → Outcome Agent (Letter Msg)
  | .serverPing obj => s.serverPing obj clk

end Agent

end FrameSync
