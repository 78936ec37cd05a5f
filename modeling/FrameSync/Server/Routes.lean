import FrameSync.Server.World

/-! # Who writes to whom

Each service writes to few others (`writes_receive`, `writes_act`). So a log of letters grows only
when one of the writers of its address moves. -/

namespace FrameSync

open Behaviour

/-- The first service may send letters to the second. -/
def Writes : Addr → Addr → Bool
  | .gamegate, .gamelogin | .gamegate, .agent _ => true
  | .gamelogin, .gamegate => true
  | .agent _, .broadcast _ | .agent _, .sceneMgr | .agent _, .scene _ => true
  | .sceneMgr, .scene _ | .sceneMgr, .agent _ => true
  | .scene _, .broadcast _ | .scene _, .sceneMgr => true
  | .broadcast _, .socket _ => true
  | _, _ => false

/-! ## The services one by one -/

theorem Gate.writes_delConnection {g : Gate} {fd : Fd} {l : Letter Msg}
    (h : l ∈ (g.delConnection fd).sent) : Writes .gamegate l.1 := by
  rw [delConnection] at h
  split at h
  · obtain ⟨x, -, rfl⟩ := List.mem_map.mp h
    rfl
  · cases h

theorem Gate.writes_dispatchMsg {g : Gate} {fd : Fd} {msg : ClientMsg} {l : Letter Msg}
    (h : l ∈ g.dispatchMsg fd msg) : Writes .gamegate l.1 := by
  rw [dispatchMsg] at h
  split at h
  · cases h
  · rw [List.mem_singleton.mp h]; rfl
  · rw [List.mem_singleton.mp h]; rfl

theorem Gate.writes_loginsuc {g : Gate} {fd : Fd} {mArgs : LoginArgs} {l : Letter Msg}
    (h : l ∈ (g.loginsuc fd mArgs).sent) : Writes .gamegate l.1 := by
  rw [loginsuc] at h
  split at h
  · rw [List.mem_singleton.mp h]; rfl
  · cases h

theorem SceneMgr.writes_join {proxy : Proxy} {req : EnterRequest} {l : Letter Msg}
    (h : l ∈ join proxy req) : Writes .sceneMgr l.1 := by
  rcases List.mem_cons.mp h with rfl | h
  · rfl
  · rw [List.mem_singleton.mp h]; rfl

namespace Player

/-- The letters about a player that move no player and push nothing: pings, through the public
broadcast service, and RTT data for its game. -/
inductive Says (p : Player) : Letter Msg → Prop
  /-- `gs2c_ping` -/
  | ping (session now : ℕ) (isResp : Bool) :
      Says p ⟨.broadcast 0, .sendToPlayer p.id (.gs2cPing session now isResp)⟩
  /-- `sync_data` -/
  | syncData {gameId : GameId} {scene : ℕ} (h : p.war = some (gameId, scene)) (val : ℤ) :
      Says p ⟨.scene scene, .syncData gameId p.id val⟩
  /-- `c2gs_rtt_data` -/
  | rttData {gameId : GameId} {scene : ℕ} (h : p.war = some (gameId, scene)) :
      Says p ⟨.scene scene, .c2gsRttData gameId p.id⟩

/-- A player with the same pid and game has the same to say. -/
theorem Says.of_keeps {p p' : Player} {l : Letter Msg} (h : Says p' l) (hk : Keeps p p') :
    Says p l := by
  cases h with
  | ping session now isResp => exact hk.id ▸ .ping session now isResp
  | syncData hwar val => exact hk.id ▸ .syncData (hk.war ▸ hwar) val
  | rttData hwar => exact hk.id ▸ .rttData (hk.war ▸ hwar)

/-- A handler of a player that sends such letters only. -/
def Quiet (p : Player) (r : Outcome Player (Letter Msg)) : Prop := ∀ l ∈ r.sent, Says p l

theorem quiet_nil (p p' : Player) : Quiet p (.done p' []) := fun _ h => absurd h List.not_mem_nil

theorem Quiet.andThen {p : Player} {r : Outcome Player (Letter Msg)}
    {k : Player → Outcome Player (Letter Msg)} (h : Quiet p r) (hk : Keeps p r.state)
    (h' : ∀ p', Quiet p' (k p')) : Quiet p (r.andThen k) := by
  rw [Outcome.andThen]
  split
  · exact h
  · intro l hl
    rcases List.mem_append.mp hl with hl | hl
    · exact h l hl
    · exact (h' r.state l hl).of_keeps hk

theorem quiet_calcRtt (p : Player) (now : ℕ) : Quiet p (p.calcRtt now) := by
  rw [calcRtt, reportRtt]
  split
  · split
    · rename_i gameId scene hwar
      intro l hl
      rw [List.mem_singleton.mp hl]
      exact .syncData (show p.war = some (gameId, scene) from hwar) _
    · exact fun _ h => absurd h List.not_mem_nil
  · exact quiet_nil _ _

variable [Wire]

theorem quiet_sendPing (clk : Clock) (isResp : Bool) (p : Player) :
    Quiet p (sendPing clk isResp p) := by
  rw [sendPing]
  split
  · intro l hl
    rw [List.mem_singleton.mp hl]
    exact .ping _ _ _
  · exact fun _ h => absurd h List.not_mem_nil

theorem quiet_checkGsPing (p : Player) (clk : Clock) : Quiet p (p.checkGsPing clk) := by
  rw [checkGsPing]
  split
  · intro l hl
    exact (quiet_sendPing clk false _ l hl).of_keeps ⟨rfl, rfl, rfl⟩
  · exact (quiet_calcRtt p clk.now).andThen (keeps_calcRtt p clk.now) (quiet_sendPing clk false)

theorem quiet_clientPing (p : Player) (session : Option ℤ) (clk : Clock) :
    Quiet p (p.clientPing session clk) := by
  rw [clientPing]
  split
  · exact quiet_nil _ _
  · split
    · exact quiet_nil _ _
    · have hfirst : Keeps p { p with lastPingSession := p.pingSession } := ⟨rfl, rfl, rfl⟩
      refine Quiet.andThen (fun l hl => ?_) (hfirst.trans (keeps_calcRtt _ _)) (quiet_sendPing clk true)
      exact (quiet_calcRtt _ clk.now l hl).of_keeps hfirst

/-- What a packet makes a player send: input goes to its game, unchanged. -/
theorem sent_analysis (p : Player) (clk : Clock) (msg : ClientMsg) :
    ∀ l ∈ (p.analysis clk msg).sent, Says p l ∨ ∃ ctrlData gameId scene,
      msg = .c2gsCtrlData ctrlData ∧ p.war = some (gameId, scene) ∧
        l = ⟨.scene scene, .syncCtrl gameId p.id ctrlData⟩ := by
  intro l hl
  cases msg with
  | c2gsPing session => exact Or.inl (quiet_clientPing p session clk l hl)
  | c2gsCtrlData ctrlData =>
      obtain ⟨x, hx, rfl⟩ := List.mem_map.mp hl
      exact Or.inr ⟨ctrlData, x.1, x.2, rfl, Option.mem_toList.mp hx, rfl⟩
  | c2gsRttData _ _ _ _ =>
      rw [analysis, syncRttData] at hl
      split at hl
      · rename_i gameId scene hwar
        rw [List.mem_singleton.mp hl]
        exact Or.inl (.rttData hwar)
      · cases hl
  | c2gsLogin _ | other => cases hl

/-- The letters of a handler of a player go to the public broadcast service and to scenes. -/
def Modest (r : Outcome Player (Letter Msg)) : Prop :=
  ∀ l ∈ r.sent, l.1 = .broadcast 0 ∨ ∃ n, l.1 = .scene n

omit [Wire] in
/-- The letters of a handler of a player, as letters of the agent. -/
theorem Modest.writes {r : Outcome Player (Letter Msg)} (h : Modest r) (n : ℕ)
    {l : Letter Msg} (hl : l ∈ r.sent) : Writes (.agent n) l.1 := by
  rcases h l hl with h | ⟨k, h⟩
  · rw [h]; rfl
  · rw [h]; rfl

omit [Wire] in
theorem Quiet.modest {p : Player} {r : Outcome Player (Letter Msg)} (h : Quiet p r) : Modest r := by
  intro l hl
  cases h l hl with
  | ping => exact Or.inl rfl
  | syncData => exact Or.inr ⟨_, rfl⟩
  | rttData => exact Or.inr ⟨_, rfl⟩

theorem modest_checkGsPing (p : Player) (clk : Clock) : Modest (p.checkGsPing clk) :=
  (quiet_checkGsPing p clk).modest

theorem modest_analysis (p : Player) (clk : Clock) (msg : ClientMsg) :
    Modest (p.analysis clk msg) := by
  intro l hl
  rcases sent_analysis p clk msg l hl with h | ⟨_, _, scene, -, -, rfl⟩
  · cases h with
    | ping => exact Or.inl rfl
    | syncData => exact Or.inr ⟨_, rfl⟩
    | rttData => exact Or.inr ⟨_, rfl⟩
  · exact Or.inr ⟨scene, rfl⟩

end Player

variable [ServerConfig]

theorem Agent.writes_start {s : Agent} {n now : ℕ} {pid : Pid} {mArgs : LoginArgs} {l : Letter Msg}
    (h : l ∈ (s.start n pid mArgs now).sent) : Writes (.agent n) l.1 := by
  rcases List.mem_append.mp h with h | h
  · obtain ⟨b, -, rfl⟩ := List.mem_map.mp h
    rfl
  · rw [List.mem_singleton.mp h]; rfl

theorem Agent.writes_kick {s : Agent} {pid : Pid} {l : Letter Msg} (n : ℕ)
    (h : l ∈ (s.kick pid).sent) : Writes (.agent n) l.1 := by
  rw [kick] at h
  split at h
  · rcases List.mem_append.mp h with h | h
    · obtain ⟨w, -, rfl⟩ := List.mem_map.mp h
      rfl
    · obtain ⟨b, -, rfl⟩ := List.mem_map.mp h
      rfl
  · cases h

theorem SceneMgr.writes_receive {m : SceneMgr} {msg : MgrMsg} {l : Letter Msg}
    (h : l ∈ (m.receive msg).sent) : Writes .sceneMgr l.1 := by
  cases msg with
  | enterPlayer req =>
      rw [receive, enterPlayer] at h
      split at h
      · exact writes_join h
      · rw [List.mem_singleton.mp h]; rfl
  | newGame gameId =>
      rw [receive, newGame] at h
      split at h
      · exact writes_join h
      · cases h
  | gameOver n gameId => rw [List.mem_singleton.mp h]; rfl

variable [Wire]

theorem Scene.writes_call {s : Scene} {gameId : GameId} {clk : Clock} {ev : FighterWar.Event}
    {l : Letter Msg} (n : ℕ) (h : l ∈ (s.call gameId clk ev).sent) : Writes (.scene n) l.1 := by
  rw [call] at h
  split at h
  · obtain ⟨req, -, rfl⟩ := List.mem_map.mp h
    rfl
  · cases h

/-! ## All of them -/

/-- **Who writes when it handles a letter.** -/
theorem writes_receive (a : Addr) (i : Inputs) (s : State a) (m : Msg a) :
    ∀ l ∈ (server.receive a i s m).sent, Writes a l.1 := by
  intro l h
  cases a with
  | gamegate => cases m with | loginsuc fd mArgs => exact Gate.writes_loginsuc h
  | gamelogin =>
      obtain ⟨fd, msg⟩ := m
      cases msg with
      | c2gsLogin pid =>
          cases pid with
          | none => cases h
          | some pid => rw [List.mem_singleton.mp h]; rfl
      | c2gsPing _ | c2gsCtrlData _ | c2gsRttData _ _ _ _ | other => cases h
  | agent n =>
      cases m with
      | start pid mArgs => exact Agent.writes_start h
      | kick pid => exact Agent.writes_kick n h
      | unpack pid msg =>
          change l ∈ (Agent.unpack s pid msg i.clk).sent at h
          rw [Agent.unpack] at h
          split at h
          · exact (Player.modest_analysis _ i.clk msg).writes n h
          · cases h
      | entered obj gameId scene => cases h
  | sceneMgr => exact SceneMgr.writes_receive h
  | scene n =>
      cases m with
      | newGame gameId => rw [List.mem_singleton.mp h]; rfl
      | c2gsRttData gameId pid =>
          change l ∈ (Scene.c2gsRttData s gameId pid).sent at h
          rw [Scene.c2gsRttData] at h
          split at h
          · cases h
          · cases h
      | gameOver gameId => cases h
      | enterPlayer _ _ _ | leavePlayer _ _ | syncCtrl _ _ _ | syncData _ _ _ =>
          exact Scene.writes_call n h
  | broadcast n =>
      obtain ⟨w, -, rfl⟩ := List.mem_map.mp h
      rfl
  | socket fd => cases h

/-- **Who writes when it acts on its own.** -/
theorem writes_act (a : Addr) (i : Inputs) (s : State a) (x : Act a) :
    ∀ l ∈ (server.act a i s x).sent, Writes a l.1 := by
  intro l h
  cases a with
  | gamegate =>
      cases x with
      | «open» => cases h
      | data fd msg => exact Gate.writes_dispatchMsg h
      | close fd | error fd => exact Gate.writes_delConnection h
      | checkConnections => cases h
  | agent n =>
      cases x with
      | serverPing obj =>
          change l ∈ (Agent.serverPing s obj i.clk).sent at h
          rw [Agent.serverPing] at h
          split at h
          · exact (Player.modest_checkGsPing _ i.clk).writes n h
          · cases h
  | scene n =>
      cases x with
      | frameSkip gameId | syncRtt gameId => exact Scene.writes_call n h
      | checkOver gameId =>
          change l ∈ Scene.checkOver s n gameId at h
          rw [Scene.checkOver] at h
          split at h
          · split at h
            · rw [List.mem_singleton.mp h]; rfl
            · cases h
          · cases h
  | gamelogin | sceneMgr | broadcast _ | socket _ => cases x

/-- A service that does not write to `b` leaves the log of `b` alone. -/
theorem lettersTo_receive {a b : Addr} (h : Writes a b = false) (i : Inputs) (s : State a) (m : Msg a) :
    lettersTo b (server.receive a i s m).sent = [] := by
  refine lettersTo_eq_nil fun l hl heq => ?_
  have := writes_receive a i s m l hl
  rw [heq, h] at this
  cases this

/-- The same for a service that acts on its own. -/
theorem lettersTo_act {a b : Addr} (h : Writes a b = false) (i : Inputs) (s : State a) (x : Act a) :
    lettersTo b (server.act a i s x).sent = [] := by
  refine lettersTo_eq_nil fun l hl heq => ?_
  have := writes_act a i s x l hl
  rw [heq, h] at this
  cases this

/-- What a service that does not write to `b` has sent there: nothing. -/
theorem sentBy_eq_nil {a b : Addr} (h : Writes a b = false) (tr : List (World × WorldMove)) :
    server.sentBy a b tr = [] := by
  refine List.flatMap_eq_nil_iff.mpr fun x _ => ?_
  obtain ⟨w, e⟩ := x
  dsimp only
  rw [emittedBy]
  split
  · rename_i haddr
    cases e with
    | deliver a' i =>
        obtain rfl : a' = a := haddr
        rw [emitted]
        split
        · rfl
        · exact lettersTo_receive h i _ _
    | act a' x i =>
        obtain rfl : a' = a := haddr
        exact lettersTo_act h i _ x
  · rfl

end FrameSync
