import FrameSync.Server.Letters

/-! # The gate and the login service

`connection.lua` and `gamegate.lua`, and `gamelogincmd.lua`. The gate keeps the connections by
socket. A packet of a connection that has not logged in goes to `GAMELOGIN`, which draws a name and a
colour and answers with `loginsuc`; a packet of one that has goes to the agent, with the pid the
connection is logged in as. -/

namespace FrameSync

/-- `Connection` -/
structure Connection where
  /-- `m_StartTime` -/
  startTime : ℕ
  /-- `m_Agent` and `m_Pid`, set by `loginsuc`. -/
  login : Option (ℕ × Pid)
  deriving Repr, DecidableEq

/-- The state of `GAMEGATE`. -/
structure Gate where
  /-- `conlist` -/
  conlist : Fd → Option Connection
  /-- The next socket id; the socket server never gives one out twice. -/
  nextFd : Fd
  /-- A socket id that was not given out has no connection. -/
  unused : ∀ fd, nextFd ≤ fd → conlist fd = none

/-- What the sockets report, and the timer of the gate. -/
inductive GateAct
  /-- A client connects. -/
  | open
  /-- A packet arrives. -/
  | data (fd : Fd) (msg : ClientMsg)
  /-- A connection is closed. -/
  | close (fd : Fd)
  /-- A connection fails. -/
  | error (fd : Fd)
  /-- The timer `CheckConnections`. -/
  | checkConnections
  deriving Repr, DecidableEq

namespace Gate

/-- The gate before any connection. -/
def init : Gate := ⟨fun _ => none, 1, fun _ _ => rfl⟩

/-- `NewConnection` for the next socket, at the time `now` in seconds. -/
def newConnection (g : Gate) (now : ℕ) : Gate where
  conlist := Function.update g.conlist g.nextFd (some ⟨now, none⟩)
  nextFd := g.nextFd + 1
  unused := by
    intro fd hfd
    rw [Function.update_of_ne (Nat.ne_of_gt (Nat.lt_of_succ_le hfd))]
    exact g.unused fd (Nat.le_of_succ_le hfd)

/-- `Connection:loginsuc` of the connection of a socket. -/
def setLogin (g : Gate) (fd : Fd) (agent : ℕ) (pid : Pid) : Gate where
  conlist := Function.update g.conlist fd
    ((g.conlist fd).map fun conn => { conn with login := some (agent, pid) })
  nextFd := g.nextFd
  unused := by
    intro fd' hfd'
    by_cases h : fd' = fd
    · subst h
      rw [Function.update_self, g.unused fd' hfd']
      rfl
    · rw [Function.update_of_ne h]
      exact g.unused fd' hfd'

/-- Connections go. -/
def keepIf (g : Gate) (keep : Fd → Connection → Bool) : Gate where
  conlist := fun fd => (g.conlist fd).filter (keep fd)
  nextFd := g.nextFd
  unused := fun fd hfd => by rw [g.unused fd hfd]; rfl

/-- The `kick` of a connection that logged in. -/
def kick (conn : Connection) : List (Letter Msg) :=
  conn.login.toList.map fun l => ⟨.agent l.1, .kick l.2⟩

/-- `DelConnection` -/
def delConnection (g : Gate) (fd : Fd) : Outcome Gate (Letter Msg) :=
  match g.conlist fd with
  | some conn => .done (g.keepIf fun fd' _ => fd' ≠ fd) (kick conn)
  | none => .done g []

/-- `CheckConnections`: connections that do not log in for five minutes go. -/
def checkConnections (g : Gate) (now : ℕ) : Gate :=
  g.keepIf fun _ conn => conn.login.isSome || now ≤ conn.startTime + 5 * 60

/-- The connection of a socket is there and has not logged in. -/
def mayLogin (g : Gate) (fd : Fd) : Bool := (g.conlist fd).any fun conn => conn.login.isNone

/-- `CMD.loginsuc` -/
def loginsuc (g : Gate) (fd : Fd) (mArgs : LoginArgs) : Outcome Gate (Letter Msg) :=
  if g.mayLogin fd then
    .done (g.setLogin fd mArgs.agent mArgs.pid) [⟨.agent mArgs.agent, .start mArgs.pid mArgs⟩]
  else .done g []

/-- `dispatch_msg` -/
def dispatchMsg (g : Gate) (fd : Fd) (msg : ClientMsg) : List (Letter Msg) :=
  match g.conlist fd with
  | none => []
  | some ⟨_, some (agent, pid)⟩ => [⟨.agent agent, .unpack pid msg⟩]
  | some ⟨_, none⟩ => [⟨.gamelogin, .upackData fd msg⟩]

/-- Handling a letter. -/
def receive (g : Gate) : GateMsg → Outcome Gate (Letter Msg)
  | .loginsuc fd mArgs => g.loginsuc fd mArgs

/-- What the sockets report. -/
def act (g : Gate) (now : ℕ) : GateAct → Outcome Gate (Letter Msg)
  | .open => .done (g.newConnection now) []
  | .data fd msg => .done g (g.dispatchMsg fd msg)
  | .close fd | .error fd => g.delConnection fd
  | .checkConnections => .done (g.checkConnections now) []

/-! ### The logins -/

/-- The agent and the pid that the connection of a socket is logged in with. -/
def loggedIn (g : Gate) (fd : Fd) : Option (ℕ × Pid) := (g.conlist fd).bind Connection.login

theorem loggedIn_of_unused {g : Gate} {fd : Fd} (h : g.nextFd ≤ fd) : g.loggedIn fd = none := by
  rw [loggedIn, g.unused fd h]
  rfl

theorem loggedIn_of_mayLogin {g : Gate} {fd : Fd} (h : g.mayLogin fd = true) :
    g.loggedIn fd = none := by
  rw [mayLogin, Option.any_eq_true] at h
  obtain ⟨conn, hconn, hlogin⟩ := h
  rw [loggedIn, hconn]
  exact Option.isNone_iff_eq_none.mp hlogin

@[simp] theorem loggedIn_newConnection (g : Gate) (now : ℕ) (fd : Fd) :
    (g.newConnection now).loggedIn fd = g.loggedIn fd := by
  by_cases h : fd = g.nextFd
  · rw [loggedIn_of_unused h.ge, loggedIn, newConnection, h]
    simp
  · rw [loggedIn, loggedIn, newConnection]
    simp only [Function.update_of_ne h]

theorem loggedIn_setLogin {g : Gate} {fd : Fd} (h : g.mayLogin fd = true) (agent : ℕ) (pid : Pid)
    (fd' : Fd) : (g.setLogin fd agent pid).loggedIn fd'
      = if fd' = fd then some (agent, pid) else g.loggedIn fd' := by
  rw [mayLogin, Option.any_eq_true] at h
  obtain ⟨conn, hconn, -⟩ := h
  by_cases hfd : fd' = fd
  · subst hfd
    rw [if_pos rfl, loggedIn, setLogin]
    simp [hconn]
  · rw [if_neg hfd, loggedIn, loggedIn, setLogin]
    simp only [Function.update_of_ne hfd]

theorem loggedIn_keepIf (g : Gate) (keep : Fd → Connection → Bool) (fd : Fd) :
    (g.keepIf keep).loggedIn fd = ((g.conlist fd).filter (keep fd)).bind Connection.login := rfl

@[simp] theorem loggedIn_checkConnections (g : Gate) (now : ℕ) (fd : Fd) :
    (g.checkConnections now).loggedIn fd = g.loggedIn fd := by
  rw [checkConnections, loggedIn_keepIf, loggedIn]
  cases g.conlist fd with
  | none => rfl
  | some conn =>
      obtain ⟨startTime, login⟩ := conn
      -- only a connection without a login may go
      cases login with
      | none =>
          rw [Option.filter]
          split
          · rfl
          · rfl
      | some l => rfl

theorem loggedIn_delConnection (g : Gate) (fd fd' : Fd) :
    (g.delConnection fd).state.loggedIn fd' = if fd' = fd then none else g.loggedIn fd' := by
  rw [delConnection]
  split
  · rw [Outcome.done_state, loggedIn_keepIf]
    by_cases h : fd' = fd
    · subst h
      rw [if_pos rfl]
      cases g.conlist fd' with
      | none => rfl
      | some conn => simp [Option.filter]
    · rw [if_neg h, loggedIn]
      cases g.conlist fd' with
      | none => rfl
      | some conn => simp [Option.filter, h]
  · rename_i hnone
    split
    · rename_i h
      rw [Outcome.done_state, loggedIn, h, hnone]
      rfl
    · rfl

/-- Closing a connection sends a `kick` for the pid it is logged in with. -/
theorem sent_delConnection (g : Gate) (fd : Fd) : (g.delConnection fd).sent
    = (g.loggedIn fd).toList.map fun l => ⟨.agent l.1, .kick l.2⟩ := by
  rw [delConnection, loggedIn]
  split
  · rename_i conn hconn
    rw [hconn]
    rfl
  · rename_i hnone
    rw [hnone]
    rfl

end Gate

/-- `command.UpackData` of `GAMELOGIN`. A login without a pid raises in `get_user_agent`. -/
def upackData [ServerConfig] (profile : Profile) (fd : Fd) : ClientMsg → Outcome Unit (Letter Msg)
  | .c2gsLogin (some pid) =>
      .done () [⟨.gamegate, .loginsuc fd ⟨pid, getUserAgent pid, profile.name, profile.color, fd⟩⟩]
  | .c2gsLogin none => .raise ()
  | .c2gsPing _ | .c2gsCtrlData _ | .c2gsRttData .. | .other => .done () []

end FrameSync
