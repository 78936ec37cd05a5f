import FrameSync.Broadcast.Command
import FrameSync.Foundations.Table
import FrameSync.Scene.FrameMgr

/-! # A game

`fighter_war.lua`: the players of a game, its frame manager and what it sends. The table
`m_Players` is an association list with one entry for each key; Lua leaves the order in which
`pairs` visits it open, and nothing here depends on the order chosen. A handler that raises leaves
what it did so far. -/

namespace FrameSync

open Sproto

/-- `mArgs` of `add_player`: what `Player:PackData` packs. -/
structure PlayerArgs where
  /-- `mArgs.name` -/
  name : Bytes
  /-- `mArgs.pid` -/
  pid : Pid
  /-- `mArgs.fd` -/
  fd : Fd
  /-- `mArgs.color` -/
  color : Color
  deriving Repr, DecidableEq

/-- What `FWPlayer:init` draws: `math.random(1,800)` and `math.random(550,600)`. -/
structure Spawn where
  /-- The horizontal draw. -/
  x : ℕ
  /-- The vertical draw. -/
  z : ℕ
  /-- The range of the horizontal draw. -/
  hx : 1 ≤ x ∧ x ≤ 800
  /-- The range of the vertical draw. -/
  hz : 550 ≤ z ∧ z ≤ 600
  deriving Repr, DecidableEq

/-- The corner of the area, for runs with given draws. -/
def Spawn.corner : Spawn := ⟨1, 550, by decide, by decide⟩

/-- `FWPlayer` -/
structure FWPlayer where
  /-- `m_Name` -/
  name : Bytes
  /-- `m_Pid` -/
  pid : Pid
  /-- `m_Fd` -/
  fd : Fd
  /-- `m_Color` -/
  color : Color
  /-- `m_Pos` -/
  pos : Pos
  /-- `m_RTT` -/
  rtt : ℤ
  /-- `m_MaxRTT` -/
  maxRtt : ℤ
  /-- `m_MinRTT` -/
  minRtt : ℤ
  /-- `m_AvgRTT` -/
  avgRtt : ℤ
  /-- `m_SumRTT` -/
  sumRtt : ℤ
  /-- `m_RTTStartCS` -/
  rttStartCS : ℕ
  /-- `m_RTTLastCS`, unset before the first sample. -/
  rttLastCS : Option ℕ
  deriving Repr, DecidableEq

/-- `FWPlayer:init` -/
def FWPlayer.init (args : PlayerArgs) (spawn : Spawn) (now : ℕ) : FWPlayer where
  name := args.name
  pid := args.pid
  fd := args.fd
  color := args.color
  pos := { x := some spawn.x, z := some spawn.z }
  rtt := 0
  maxRtt := -1
  minRtt := 10000
  avgRtt := 0
  sumRtt := 0
  rttStartCS := now
  rttLastCS := none

/-- `FWPlayer:sync_data("rtt", val)` at time `ti`. -/
def FWPlayer.syncData (p : FWPlayer) (val : ℤ) (ti : ℕ) : FWPlayer :=
  let dt : ℤ := ti - (p.rttLastCS.getD p.rttStartCS : ℕ)
  let sumRtt := p.sumRtt + dt * p.rtt
  let dtAll : ℤ := ti - (p.rttStartCS : ℕ)
  { p with
    rttLastCS := some ti
    sumRtt := sumRtt
    rtt := val
    maxRtt := if p.maxRtt < val then val else p.maxRtt
    minRtt := if val < p.minRtt then val else p.minRtt
    avgRtt := if 0 < dtAll then sumRtt / dtAll else p.avgRtt }

/-- The `gs2c_rtt_data` message with a player's statistics. -/
def FWPlayer.rttData (p : FWPlayer) : ServerMsg := .gs2cRttData p.avgRtt p.minRtt p.maxRtt p.rtt

/-- `m_Players`: the players by pid. -/
abbrev Players := AList fun _ : Pid => FWPlayer

/-- `FighterWar` -/
structure FighterWar where
  /-- `m_GameID` -/
  gameID : ℕ
  /-- `m_Players` -/
  players : Players
  /-- `m_FrameMgr` -/
  frameMgr : FrameMgr
  /-- `m_RndSeed` -/
  rndSeed : ℕ
  /-- `m_FSMInitTime`, set by the first `add_player`. -/
  fsmInitTime : Option ℕ

namespace FighterWar

variable [Wire]

/-- `FighterWar:init`, with the drawn seed. -/
def init (gameID rndSeed : ℕ) : FighterWar := ⟨gameID, ∅, FrameMgr.init, rndSeed, none⟩

/-- `FighterWar:Send2Player` -/
def send2Player (g : FighterWar) (pid : Pid) (m : ServerMsg) (sec : ℕ) : Outcome FighterWar BcMsg :=
  Net.sendToPlayer g pid m sec

/-- `FighterWar:BC2Players`. No caller passes `except_tbl`. -/
def bc2Players (g : FighterWar) (m : ServerMsg) (sec : ℕ) : Outcome FighterWar BcMsg :=
  Net.sendToList g g.players.keys m sec

/-- `iPiece` of `add_player` -/
def iPiece : ℕ := 500

/-- The loop of `add_player` over the frame cache: the first list is what is left of it, `pkglist`
the chunk being filled and `i` the position of the next frame in it. The last, shorter chunk goes
out after the loop. -/
def sendFrameCache (pid : Pid) (sec : ℕ) : List FrameInfo → List FrameInfo → ℕ → FighterWar →
    Outcome FighterWar BcMsg
  | [], pkglist, _, g =>
      if 0 < pkglist.length then g.send2Player pid (.gs2cFrameCacheData pkglist) sec else .done g []
  | f :: frames, pkglist, i, g =>
      if iPiece ≤ i then
        (g.send2Player pid (.gs2cFrameCacheData (pkglist ++ [f])) sec).andThen
          (sendFrameCache pid sec frames [] (0 + 1))
      else sendFrameCache pid sec frames (pkglist ++ [f]) (i + 1) g

/-- The `ACTION_ENTER` entry that `add_player` pushes. -/
def enterEntry (pid : Pid) (p : FWPlayer) : CtrlInfo where
  pid := some pid
  action := some actionEnter
  enterInfo := some { name := some p.name, color := some p.color, pos := some p.pos }

/-- The `ACTION_LEAVE` entry that `del_player` pushes. -/
def leaveEntry (pid : Pid) : CtrlInfo where
  pid := some pid
  action := some actionLeave

/-- `add_player` up to its first message: the clock of the state machine is started and the player
is in the table. -/
def seat (g : FighterWar) (pid : Pid) (args : PlayerArgs) (spawn : Spawn) (now : ℕ) : FighterWar :=
  { g with
    fsmInitTime := some (g.fsmInitTime.getD now)
    players := g.players.insert pid (FWPlayer.init args spawn now) }

/-- The `gs2c_loginsuc` that `add_player` sends. -/
def loginsuc (g : FighterWar) (now : ℕ) : ServerMsg :=
  .gs2cLoginsuc g.gameID g.rndSeed now g.frameMgr.frameCache.length (g.fsmInitTime.getD now)

/-- `m_FrameMgr:push_frame` -/
def pushFrame (g : FighterWar) (ctrlData : Option CtrlInfo) : FighterWar :=
  { g with frameMgr := g.frameMgr.pushFrame ctrlData }

/-- The end of `add_player`: push the entry. -/
def pushEntry (entry : CtrlInfo) (g : FighterWar) : Outcome FighterWar BcMsg :=
  .done (g.pushFrame (some entry)) []

/-- `add_player` from the chunk loop on. -/
def welcomeCache (pid : Pid) (entry : CtrlInfo) (sec : ℕ) (g : FighterWar) :
    Outcome FighterWar BcMsg :=
  (sendFrameCache pid sec g.frameMgr.frameCache [] 1 g).andThen (pushEntry entry)

/-- `add_player` from its first message on, with the entry it pushes at the end. -/
def welcome (pid : Pid) (entry : CtrlInfo) (clk : Clock) (g : FighterWar) :
    Outcome FighterWar BcMsg :=
  (g.send2Player pid (g.loginsuc clk.now) clk.sec).andThen (welcomeCache pid entry clk.sec)

/-- `FighterWar:add_player` -/
def addPlayer (g : FighterWar) (pid : Pid) (args : PlayerArgs) (spawn : Spawn) (clk : Clock) :
    Outcome FighterWar BcMsg :=
  (g.seat pid args spawn clk.now).welcome pid
    (enterEntry pid (FWPlayer.init args spawn clk.now)) clk

/-- `FighterWar:del_player` -/
def delPlayer (g : FighterWar) (pid : Pid) : FighterWar :=
  match g.players.lookup pid with
  | some _ => { g with players := g.players.erase pid }.pushFrame (some (leaveEntry pid))
  | none => g

/-- `FighterWar:sync_ctrl`, `ctrlData` being `param.ctrl_data`. -/
def syncCtrl (g : FighterWar) (pid : Pid) (ctrlData : Option CtrlInfo) : FighterWar :=
  match g.players.lookup pid with
  | some _ => g.pushFrame ctrlData
  | none => g

/-- The end of `frame_skip`: store the frame, clear the queue, count on. -/
def storeFrame (now : ℕ) (g : FighterWar) : Outcome FighterWar BcMsg :=
  .done { g with frameMgr := g.frameMgr.frameSkip now false } []

/-- `frame_skip` of the game's frame manager: broadcast the frame, and only if that returned store
it. -/
def frameSkip (g : FighterWar) (clk : Clock) : Outcome FighterWar BcMsg :=
  (g.bc2Players (.gs2cFrameData (g.frameMgr.param clk.now)) clk.sec).andThen (storeFrame clk.now)

/-- `command.sync_data` with the one table `{rtt = val}` that is ever sent. -/
def syncData (g : FighterWar) (pid : Pid) (val : ℤ) (now : ℕ) : FighterWar :=
  match g.players.lookup pid with
  | some p => { g with players := g.players.replace pid (p.syncData val now) }
  | none => g

/-- `FWPlayer:gs2c_rtt_data` of the player under `pid`: bring the statistics up to date with the
present value and send them. -/
def gs2cRttData (pid : Pid) (clk : Clock) (g : FighterWar) : Outcome FighterWar BcMsg :=
  match g.players.lookup pid with
  | none => .done g []
  | some p =>
      if p.rttLastCS = none then .done g []
      else
        send2Player { g with players := g.players.replace pid (p.syncData p.rtt clk.now) } p.pid
          (p.syncData p.rtt clk.now).rttData clk.sec

/-- `FighterWar:sync_rtt` -/
def syncRtt (g : FighterWar) (clk : Clock) : Outcome FighterWar BcMsg :=
  g.players.keys.foldl (fun r pid => r.andThen (gs2cRttData pid clk)) (.done g [])

/-- A call on a game. -/
inductive Event
  /-- `add_player(pid, mArgs)` and the position it draws. -/
  | addPlayer (pid : Pid) (args : PlayerArgs) (spawn : Spawn)
  /-- `del_player(pid)` -/
  | delPlayer (pid : Pid)
  /-- `sync_ctrl(pid, {ctrl_data = ..})` -/
  | syncCtrl (pid : Pid) (ctrlData : Option CtrlInfo)
  /-- The `FrameSkip` timer. -/
  | frameSkip
  /-- `sync_data(pid, {rtt = val})` -/
  | syncData (pid : Pid) (val : ℤ)
  /-- The `SyncRtt` timer. -/
  | syncRtt
  deriving Repr, DecidableEq

/-- One call, at the time `clk`. -/
def step (g : FighterWar) (clk : Clock) : Event → Outcome FighterWar BcMsg
  | .addPlayer pid args spawn => g.addPlayer pid args spawn clk
  | .delPlayer pid => .done (g.delPlayer pid) []
  | .syncCtrl pid ctrlData => .done (g.syncCtrl pid ctrlData) []
  | .frameSkip => g.frameSkip clk
  | .syncData pid val => .done (g.syncData pid val clk.now) []
  | .syncRtt => g.syncRtt clk

/-- A sequence of calls. A call that raises ends there; the game goes on with the next. -/
def run (g : FighterWar) : List (Clock × Event) → Outcome FighterWar BcMsg
  | [] => .done g []
  | (clk, ev) :: evs =>
      ⟨(run (g.step clk ev).state evs).state,
        (g.step clk ev).sent ++ (run (g.step clk ev).state evs).sent,
        (g.step clk ev).raised || (run (g.step clk ev).state evs).raised⟩

/-! ## What a call leaves alone -/

@[simp] theorem send2Player_state (g : FighterWar) (pid : Pid) (m : ServerMsg) (sec : ℕ) :
    (g.send2Player pid m sec).state = g := Net.sendToPlayer_state g pid m sec

/-- The one message `Send2Player` may send. -/
theorem mem_send2Player_sent {g : FighterWar} {pid : Pid} {m : ServerMsg} {sec : ℕ} {req : BcMsg}
    (h : req ∈ (g.send2Player pid m sec).sent) : req = .sendToPlayer pid m := by
  rw [send2Player, Net.sendToPlayer_sent] at h
  split at h
  · exact List.mem_singleton.mp h
  · cases h

/-- The chunk loop changes nothing in the game. -/
@[simp] theorem sendFrameCache_state (pid : Pid) (sec : ℕ) (frames pkglist : List FrameInfo) (i : ℕ)
    (g : FighterWar) : (sendFrameCache pid sec frames pkglist i g).state = g := by
  induction frames generalizing pkglist i with
  | nil => unfold sendFrameCache; split <;> simp
  | cons f frames ih =>
      unfold sendFrameCache
      split
      · rw [Outcome.andThen]
        split
        · exact send2Player_state g pid _ sec
        · simp only [send2Player_state]; exact ih [] 1
      · exact ih _ _

/-- What the RTT calls do to a game: no frame, no player and no player's socket changes, and only
RTT messages are sent. -/
structure Quiet (g : FighterWar) (r : Outcome FighterWar BcMsg) : Prop where
  /-- The frame manager. -/
  frameMgr : r.state.frameMgr = g.frameMgr
  /-- The game id. -/
  gameID : r.state.gameID = g.gameID
  /-- The keys of the player table. -/
  keys : r.state.players.keys = g.players.keys
  /-- The sockets of the players. -/
  fd : ∀ pid, (r.state.players.lookup pid).map FWPlayer.fd = (g.players.lookup pid).map FWPlayer.fd
  /-- The messages. -/
  sent : ∀ m ∈ r.sent, ∃ pid a b c d, m = .sendToPlayer pid (.gs2cRttData a b c d)

omit [Wire] in
theorem Quiet.refl (g : FighterWar) : Quiet g (.done g []) :=
  ⟨rfl, rfl, rfl, fun _ => rfl, by simp⟩

omit [Wire] in
/-- Two quiet calls in sequence are quiet. -/
theorem Quiet.andThen {g : FighterWar} {r : Outcome FighterWar BcMsg}
    {k : FighterWar → Outcome FighterWar BcMsg} (h : Quiet g r) (hk : Quiet r.state (k r.state)) :
    Quiet g (r.andThen k) := by
  rw [Outcome.andThen]
  split
  · exact h
  · refine ⟨hk.frameMgr.trans h.frameMgr, hk.gameID.trans h.gameID, hk.keys.trans h.keys,
      fun pid => (hk.fd pid).trans (h.fd pid), fun m hm => ?_⟩
    rcases List.mem_append.mp hm with hm | hm
    · exact h.sent m hm
    · exact hk.sent m hm

omit [Wire] in
/-- Replacing a player by one with the same socket changes no socket. -/
theorem lookup_replace_fd {ps : Players} {pid : Pid} {p p' : FWPlayer} (hp : ps.lookup pid = some p)
    (hfd : p'.fd = p.fd) (q : Pid) :
    ((ps.replace pid p').lookup q).map FWPlayer.fd = (ps.lookup q).map FWPlayer.fd := by
  rw [AList.lookup_replace_eq]
  split
  · rename_i h
    rw [h, hp, Option.map_some, Option.map_some, Option.map_some, hfd]
  · rfl

omit [Wire] in
theorem quiet_syncData (g : FighterWar) (pid : Pid) (val : ℤ) (now : ℕ) :
    Quiet g (.done (g.syncData pid val now) []) := by
  unfold syncData
  split
  · rename_i p hp
    exact ⟨rfl, rfl, AList.keys_replace .., lookup_replace_fd hp rfl, by simp⟩
  · exact Quiet.refl g

theorem quiet_gs2cRttData (pid : Pid) (clk : Clock) (g : FighterWar) :
    Quiet g (gs2cRttData pid clk g) := by
  unfold gs2cRttData
  split
  · exact Quiet.refl g
  · rename_i p hp
    split
    · exact Quiet.refl g
    · refine ⟨?_, ?_, ?_, fun q => ?_, fun m hm => ?_⟩
      · simp only [send2Player_state]
      · simp only [send2Player_state]
      · simp only [send2Player_state, AList.keys_replace]
      · have hfd : (p.syncData p.rtt clk.now).fd = p.fd := rfl
        simp only [send2Player_state, lookup_replace_fd hp hfd]
      · exact ⟨_, _, _, _, _, mem_send2Player_sent hm⟩

theorem quiet_syncRtt (g : FighterWar) (clk : Clock) : Quiet g (g.syncRtt clk) := by
  suffices h : ∀ (pids : List Pid) (r : Outcome FighterWar BcMsg), Quiet g r →
      Quiet g (pids.foldl (fun r pid => r.andThen (gs2cRttData pid clk)) r) from
    h _ _ (Quiet.refl g)
  intro pids
  induction pids with
  | nil => exact fun r hr => hr
  | cons pid pids ih => exact fun r hr => ih _ (hr.andThen (quiet_gs2cRttData pid clk r.state))

end FighterWar

end FrameSync
