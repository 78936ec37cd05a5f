import FrameSync.Foundations.Outcome
import FrameSync.Wire.Protocol
import Mathlib.Logic.Function.Basic

/-! # The broadcast services and the senders of `net.lua`

`broadcast/command.lua` and `net.lua`. A broadcast service maps player ids to sockets and writes
what it is sent to the socket found there. `Net.sendToPlayer` and `Net.sendToList` encode first and
raise when the message is too long to frame; the services then carry the message unchanged, so the
model carries it decoded. -/

namespace FrameSync

/-- A socket id. -/
abbrev Fd := ℕ

/-- The two clocks a handler reads: `Skynet.now()` in hundredths of a second and `os.time()` in
seconds. A handler reads them once. -/
structure Clock where
  /-- `Skynet.now()`, also `GetCSecond()`. -/
  now : ℕ
  /-- `os.time()`, also `GetSecond()`. -/
  sec : ℕ
  deriving Repr, DecidableEq

/-- What a broadcast service is asked to do. -/
inductive BcMsg
  /-- `register_fd(uuid, fd)` -/
  | registerFd (uuid : Pid) (fd : Fd)
  /-- `unregister_fd(uuid)` -/
  | unregisterFd (uuid : Pid)
  /-- `send_to_player(uuid, data)` -/
  | sendToPlayer (uuid : Pid) (data : ServerMsg)
  /-- `send_to_list(uuid_list, data)` -/
  | sendToList (uuidList : List Pid) (data : ServerMsg)
  deriving Repr, DecidableEq

/-- The request writes to sockets and leaves `fd_map` alone. -/
def BcMsg.isSend : BcMsg → Bool
  | .sendToPlayer .. | .sendToList .. => true
  | .registerFd .. | .unregisterFd _ => false

/-- `fd_map` of one broadcast service. -/
abbrev FdMap := Pid → Option Fd

namespace FdMap

/-- The map after a request. -/
def update (fdMap : FdMap) : BcMsg → FdMap
  | .registerFd uuid fd => Function.update fdMap uuid (some fd)
  | .unregisterFd uuid => Function.update fdMap uuid none
  | .sendToPlayer .. | .sendToList .. => fdMap

/-- The calls of `Socketdriver.send` that a request makes. -/
def writes (fdMap : FdMap) : BcMsg → List (Fd × ServerMsg)
  | .registerFd .. | .unregisterFd _ => []
  | .sendToPlayer uuid data => (fdMap uuid).toList.map fun fd => (fd, data)
  | .sendToList uuidList data => (uuidList.filterMap fdMap).map fun fd => (fd, data)

end FdMap

namespace Net

variable [Wire] {σ : Type*}

/-- `send_to_player` -/
def sendToPlayer (s : σ) (uuid : Pid) (m : ServerMsg) (sec : ℕ) : Outcome σ BcMsg :=
  if Wire.packs m sec then .done s [.sendToPlayer uuid m] else .raise s

/-- `send_to_list` -/
def sendToList (s : σ) (uuidList : List Pid) (m : ServerMsg) (sec : ℕ) : Outcome σ BcMsg :=
  if Wire.packs m sec then .done s [.sendToList uuidList m] else .raise s

@[simp] theorem sendToPlayer_state (s : σ) (uuid : Pid) (m : ServerMsg) (sec : ℕ) :
    (sendToPlayer s uuid m sec).state = s := by
  unfold sendToPlayer; split <;> rfl

@[simp] theorem sendToList_state (s : σ) (uuidList : List Pid) (m : ServerMsg) (sec : ℕ) :
    (sendToList s uuidList m sec).state = s := by
  unfold sendToList; split <;> rfl

/-- `send_to_player` raises exactly when the message does not pack. -/
@[simp] theorem sendToPlayer_raised (s : σ) (uuid : Pid) (m : ServerMsg) (sec : ℕ) :
    (sendToPlayer s uuid m sec).raised = false ↔ Wire.packs m sec = true := by
  unfold sendToPlayer; split <;> simp_all

/-- `send_to_list` raises exactly when the message does not pack. -/
@[simp] theorem sendToList_raised (s : σ) (uuidList : List Pid) (m : ServerMsg) (sec : ℕ) :
    (sendToList s uuidList m sec).raised = false ↔ Wire.packs m sec = true := by
  unfold sendToList; split <;> simp_all

theorem sendToPlayer_sent (s : σ) (uuid : Pid) (m : ServerMsg) (sec : ℕ) :
    (sendToPlayer s uuid m sec).sent = if Wire.packs m sec then [.sendToPlayer uuid m] else [] := by
  unfold sendToPlayer; split <;> rfl

theorem sendToList_sent (s : σ) (uuidList : List Pid) (m : ServerMsg) (sec : ℕ) :
    (sendToList s uuidList m sec).sent = if Wire.packs m sec then [.sendToList uuidList m] else [] := by
  unfold sendToList; split <;> rfl

end Net

/-- The game data that a request addresses to `pid`. -/
def BcMsg.gameDataTo (pid : Pid) : BcMsg → List ServerMsg
  | .sendToPlayer uuid m => if uuid = pid ∧ m.isGameData then [m] else []
  | .sendToList uuidList m =>
      if m.isGameData then (uuidList.filter (· = pid)).map fun _ => m else []
  | .registerFd .. | .unregisterFd _ => []

/-- The game data that a sequence of requests addresses to `pid`. -/
def gameDataTo (pid : Pid) (reqs : List BcMsg) : List ServerMsg := reqs.flatMap (·.gameDataTo pid)

@[simp] theorem gameDataTo_nil (pid : Pid) : gameDataTo pid [] = [] := rfl

@[simp] theorem gameDataTo_append (pid : Pid) (reqs reqs' : List BcMsg) :
    gameDataTo pid (reqs ++ reqs') = gameDataTo pid reqs ++ gameDataTo pid reqs' := by
  simp [gameDataTo]

@[simp] theorem gameDataTo_cons (pid : Pid) (req : BcMsg) (reqs : List BcMsg) :
    gameDataTo pid (req :: reqs) = req.gameDataTo pid ++ gameDataTo pid reqs := rfl

end FrameSync
