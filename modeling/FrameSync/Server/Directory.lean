import FrameSync.Scene.Emission
import FrameSync.Server.Sessions

/-! # The directory of players

A pid belongs to one agent, `getUserAgent pid`: the gate addresses no other (`routed`). The agents
keep the broadcast services informed: what the requests sent to one of them make of an empty `fd_map`
is, at every moment, the sockets of the players (`fdMap_sent`). So the maps agree with the agents
whenever no registration is under way (`fd_maps_agree`). -/

namespace FrameSync

open Behaviour

/-! ## The agent of a pid -/

section Routed

variable [ServerConfig]

/-- The letter is for an agent that has to do with its pid. -/
def AgentMsg.Routed (n : ℕ) : AgentMsg → Prop
  | .start pid mArgs => getUserAgent pid = n ∧ mArgs.pid = pid
  | .kick pid | .unpack pid _ => getUserAgent pid = n
  | .entered .. => True

/-- The connections are logged in with the agents of their pids. -/
def Gate.Routed (g : Gate) : Prop := ∀ fd n pid, g.loggedIn fd = some (n, pid) → getUserAgent pid = n

omit [ServerConfig] in
/-- What the gate writes to an agent when it handles a letter: the start of a session that logs in. -/
theorem Gate.writes_of_receive {g : Gate} {gm : GateMsg} {n : ℕ} {m : Msg (.agent n)}
    (h : m ∈ lettersTo (.agent n) (g.receive gm).sent) : ∃ fd mArgs, gm = .loginsuc fd mArgs ∧
      g.mayLogin fd = true ∧ mArgs.agent = n ∧ m = .start mArgs.pid mArgs := by
  obtain ⟨fd, mArgs⟩ := gm
  rw [Gate.receive, Gate.loginsuc, mem_lettersTo] at h
  split at h
  · rename_i hmay
    obtain ⟨heq, hm⟩ := Sigma.mk.inj (List.mem_singleton.mp h)
    obtain rfl := Addr.agent.inj heq
    exact ⟨fd, mArgs, rfl, hmay, rfl, eq_of_heq hm⟩
  · cases h

omit [ServerConfig] in
/-- What the gate writes to an agent by itself: the packets of a session, and its end. -/
theorem Gate.writes_of_act {g : Gate} {now n : ℕ} {x : GateAct} {m : Msg (.agent n)}
    (h : m ∈ lettersTo (.agent n) (g.act now x).sent) :
    (∃ fd msg pid, x = .data fd msg ∧ g.loggedIn fd = some (n, pid) ∧ m = .unpack pid msg) ∨
      ∃ fd pid, g.loggedIn fd = some (n, pid) ∧ m = .kick pid := by
  rw [mem_lettersTo] at h
  cases x with
  | «open» | checkConnections => cases h
  | data fd msg =>
      rw [Gate.act, Outcome.done_sent, Gate.dispatchMsg] at h
      split at h
      · cases h
      · rename_i agent pid hconn
        obtain ⟨heq, hm⟩ := Sigma.mk.inj (List.mem_singleton.mp h)
        obtain rfl := Addr.agent.inj heq
        exact Or.inl ⟨fd, msg, pid, rfl, by rw [Gate.loggedIn, hconn]; rfl, eq_of_heq hm⟩
      · -- a connection that is not logged in writes to the login service
        cases List.mem_singleton.mp h
  | close fd | error fd =>
      rw [Gate.act, Gate.sent_delConnection] at h
      obtain ⟨l, hl, heq⟩ := List.mem_map.mp h
      obtain ⟨hn, hm⟩ := Sigma.mk.inj heq
      obtain rfl := Addr.agent.inj hn
      exact Or.inr ⟨fd, l.2, Option.mem_toList.mp hl, (eq_of_heq hm).symm⟩

/-- So what it writes by itself has to do with the agent. -/
theorem Gate.Routed.act {g : Gate} (h : g.Routed) {now n : ℕ} {x : GateAct} {m : Msg (.agent n)}
    (hm : m ∈ lettersTo (.agent n) (g.act now x).sent) : AgentMsg.Routed n m := by
  rcases Gate.writes_of_act hm with ⟨fd, msg, pid, -, hlogin, rfl⟩ | ⟨fd, pid, hlogin, rfl⟩
  · exact h fd n pid hlogin
  · exact h fd n pid hlogin

variable [Wire] {tr : List (World × WorldMove)} {w : World}

/-- **The gate addresses the agent of a pid.** -/
theorem routed (h : ServerRun tr w) :
    w.gate.Routed ∧ ∀ n, ∀ m ∈ server.sent (.agent n) tr, m.Routed n := by
  refine invariant (P := fun tr (w : World) =>
    w.gate.Routed ∧ ∀ n, ∀ m ∈ server.sent (.agent n) tr, m.Routed n) ?_ ?_ ?_ h
  · refine ⟨fun fd n pid hlogin => ?_, fun n m hm => ?_⟩
    · simp [Gate.loggedIn, World.init, Gate.init] at hlogin
    · cases hm
  · intro tr (w : World) a i m rest hrun hw hmail
    obtain ⟨hgate, hlog⟩ := hw
    -- what was sent before is as it was
    have keep : (∀ n, ∀ m' ∈ lettersTo (.agent n) (server.receive a i (w.state a) m).sent, m'.Routed n) →
        ∀ n, ∀ m' ∈ server.sent (.agent n) (tr ++ [(w, .deliver a i)]), m'.Routed n := by
      intro hnew n m' hm'
      rw [server.sent_deliver _ hmail] at hm'
      exact (List.mem_append.mp hm').elim (hlog n m') (hnew n m')
    cases a with
    | gamegate =>
        obtain ⟨fd₀, mArgs⟩ := m
        -- the login service has named this agent itself
        have hsent : .loginsuc fd₀ mArgs ∈ server.sent .gamegate tr := by
          rw [← handled_append hrun, hmail]
          exact List.mem_append_right _ List.mem_cons_self
        obtain ⟨-, hagent⟩ := loginsuc_sent hsent
        rw [World.gate, Config.commit_state_same, server_receive_gamegate]
        refine ⟨?_, keep fun n m' hm' => ?_⟩
        · rw [Gate.receive, Gate.loginsuc]
          split
          · rename_i hmay
            intro fd n pid hlogin
            rw [Outcome.done_state, Gate.loggedIn_setLogin hmay] at hlogin
            split at hlogin
            · -- the socket that logs in now
              obtain ⟨rfl, rfl⟩ := Prod.mk.inj (Option.some.inj hlogin)
              exact hagent.symm
            · exact hgate fd n pid hlogin
          · exact hgate
        · obtain ⟨fd, mArgs', heq, -, rfl, rfl⟩ := Gate.writes_of_receive hm'
          obtain ⟨-, rfl⟩ := GateMsg.loginsuc.inj heq
          exact ⟨hagent.symm, rfl⟩
    | sceneMgr =>
        refine ⟨hgate, keep fun n m' hm' => ?_⟩
        -- the scene manager answers objects, not pids
        obtain ⟨obj, gameId, scene, rfl⟩ := sceneMgr_writes_entered hm'
        trivial
    | gamelogin | agent k | scene k | broadcast k | socket k =>
        refine ⟨hgate, keep fun n m' hm' => ?_⟩
        rw [lettersTo_receive rfl] at hm'
        cases hm'
  · intro tr (w : World) a x i hrun hw
    obtain ⟨hgate, hlog⟩ := hw
    have keep : (∀ n, ∀ m' ∈ lettersTo (.agent n) (server.act a i (w.state a) x).sent, m'.Routed n) →
        ∀ n, ∀ m' ∈ server.sent (.agent n) (tr ++ [(w, .act a x i)]), m'.Routed n := by
      intro hnew n m' hm'
      rw [server.sent_act] at hm'
      exact (List.mem_append.mp hm').elim (hlog n m') (hnew n m')
    cases a with
    | gamegate =>
        refine ⟨?_, keep fun n m' hm' => hgate.act hm'⟩
        rw [World.gate, Config.commit_state_same]
        intro fd n pid hlogin
        cases x with
        | data fd₀ msg => exact hgate fd n pid hlogin
        | «open» | checkConnections =>
            refine hgate fd n pid ?_
            simpa [Gate.act] using hlogin
        | close fd₀ | error fd₀ =>
            -- the socket that is taken out is not logged in any more
            have hlogin' := (Gate.loggedIn_delConnection w.gate fd₀ fd).symm.trans hlogin
            split at hlogin'
            · cases hlogin'
            · exact hgate fd n pid hlogin'
    | agent k | scene k =>
        refine ⟨hgate, keep fun n m' hm' => ?_⟩
        rw [lettersTo_act rfl] at hm'
        cases hm'
    | gamelogin | sceneMgr | broadcast k | socket k => cases x

/-- What an agent handles has to do with it. -/
theorem routed_mail (h : ServerRun tr w) {n : ℕ} {m : AgentMsg} {rest : List AgentMsg}
    (hmail : w.mail (.agent n) = m :: rest) : m.Routed n := by
  refine (routed h).2 n m ?_
  rw [← handled_append h, hmail]
  exact List.mem_append_right _ List.mem_cons_self

/-- An agent has players of its own pids only. -/
theorem getUserAgent_of_current (h : ServerRun tr w) {n : ℕ} {pid : Pid} {fd : Fd}
    (hcur : (w.agent n).current pid = some fd) : getUserAgent pid = n := by
  rw [current_eq h] at hcur
  obtain ⟨mArgs, hmem, -⟩ := start_of_session hcur
  exact ((routed h).2 n _ ((handled_first h _).subset hmem)).1

end Routed

/-! ## The maps of the broadcast services -/

namespace FdMap

/-- What some requests make of an empty `fd_map`. -/
def after (reqs : List BcMsg) : FdMap := reqs.foldl update fun _ => none

@[simp] theorem after_nil : after [] = fun _ => none := rfl

theorem after_append (reqs reqs' : List BcMsg) : after (reqs ++ reqs') = reqs'.foldl update (after reqs) :=
  List.foldl_append

/-- Writing to sockets changes no map. -/
theorem after_append_sends {reqs reqs' : List BcMsg} (h : ∀ req ∈ reqs', req.isSend = true) :
    after (reqs ++ reqs') = after reqs := by
  rw [after_append]
  generalize after reqs = fdMap
  induction reqs' with
  | nil => rfl
  | cons req reqs' ih =>
      have hreq : fdMap.update req = fdMap := by
        have hsend := h req List.mem_cons_self
        cases req with
        | sendToPlayer | sendToList => rfl
        | registerFd | unregisterFd => cases hsend
      rw [List.foldl_cons, hreq]
      exact ih fun req' hreq' => h req' (List.mem_cons_of_mem _ hreq')

end FdMap

/-- One letter to each of the first `k` broadcast services. -/
theorem lettersTo_broadcasts (b k : ℕ) (req : BcMsg) :
    lettersTo (.broadcast b) ((List.range k).map fun b => (⟨.broadcast b, req⟩ : Letter Msg))
      = if b < k then [req] else [] := by
  induction k with
  | zero => rfl
  | succ k ih =>
      rw [List.range_succ, List.map_append, lettersTo_append, ih, List.map_singleton]
      by_cases hk : k = b
      · subst hk
        rw [lettersTo_cons_same, if_neg (Nat.lt_irrefl _), if_pos (Nat.lt_succ_self _)]
        rfl
      · rw [lettersTo_cons_ne (by simpa using hk), lettersTo_nil, List.append_nil]
        exact if_congr (by omega) rfl rfl

section Maps

variable [Wire] [ServerConfig]

omit [Wire] [ServerConfig] in
/-- The letters of a packet or a timer to a broadcast service are pings. -/
theorem Player.Says.isSend {p : Player} {b : ℕ} {req : BcMsg} (h : Says p ⟨.broadcast b, req⟩) :
    req.isSend = true := by
  cases h
  rfl

omit [ServerConfig] in
theorem Agent.unpack_sends {s : Agent} {pid : Pid} {msg : ClientMsg} {clk : Clock} {b : ℕ} :
    ∀ req ∈ lettersTo (.broadcast b) (s.unpack pid msg clk).sent, req.isSend = true := by
  intro req hreq
  rw [mem_lettersTo, unpack] at hreq
  split at hreq
  · rename_i obj p hp
    rcases p.sent_analysis clk msg _ hreq with h | ⟨_, _, _, -, -, heq⟩
    · exact h.isSend
    · cases heq
  · cases hreq

/-- What an agent that handles a letter makes of an `fd_map`. -/
theorem Agent.after_receive {s : Agent} {n : ℕ} {clk : Clock} {m : AgentMsg} {b : ℕ}
    (hb : b ≤ ServerConfig.sceneBcCnt) (reqs : List BcMsg) {pid : Pid}
    (hnone : m = .kick pid → s.getPlayer pid = none → FdMap.after reqs pid = none) :
    FdMap.after (reqs ++ lettersTo (.broadcast b) (s.receive n clk m).sent) pid
      = AgentMsg.track pid (FdMap.after reqs pid) m := by
  have hlt : b < ServerConfig.sceneBcCnt + 1 := Nat.lt_succ_of_le hb
  cases m with
  | start q mArgs =>
      -- `register_fd` sets the entry of the player, if it is this one
      show FdMap.after (reqs ++ lettersTo (.broadcast b) (registerFd q mArgs.fd ++ [_])) pid = _
      rw [lettersTo_append, registerFd, lettersTo_broadcasts, if_pos hlt,
        lettersTo_cons_ne (by simp), lettersTo_nil, List.append_nil, FdMap.after_append]
      show Function.update (FdMap.after reqs) q (some mArgs.fd) pid = _
      rw [Function.update_apply, AgentMsg.track]
      exact if_congr eq_comm rfl rfl
  | kick q =>
      show FdMap.after (reqs ++ lettersTo (.broadcast b) (s.kick q).sent) pid = _
      rw [kick]
      split
      · rename_i obj p hp
        -- leaving the scene tells the broadcast service nothing
        have hleave : lettersTo (.broadcast b) p.leavewar = [] := by
          refine lettersTo_eq_nil fun l hl => ?_
          obtain ⟨x, -, rfl⟩ := List.mem_map.mp hl
          simp
        rw [Outcome.done_sent, lettersTo_append, hleave, List.nil_append, unregisterFd,
          lettersTo_broadcasts, if_pos hlt, FdMap.after_append]
        show Function.update (FdMap.after reqs) q none pid = _
        rw [Function.update_apply, AgentMsg.track]
        exact if_congr eq_comm rfl rfl
      · rename_i hq
        rw [Outcome.done_sent, lettersTo_nil, List.append_nil, AgentMsg.track]
        split
        · -- a player that is not there has no entry either
          rename_i heq
          subst heq
          exact hnone rfl hq
        · rfl
  | unpack q msg =>
      rw [FdMap.after_append_sends]
      · rfl
      · exact Agent.unpack_sends
  | entered obj gameId scene =>
      show FdMap.after (reqs ++ []) pid = _
      rw [List.append_nil]
      rfl

omit [ServerConfig] in
theorem Agent.serverPing_sends {s : Agent} {obj : ℕ} {clk : Clock} {b : ℕ} :
    ∀ req ∈ lettersTo (.broadcast b) (s.serverPing obj clk).sent, req.isSend = true := by
  intro req hreq
  rw [mem_lettersTo, serverPing] at hreq
  split at hreq
  · rename_i p hp
    exact (p.quiet_checkGsPing clk _ hreq).isSend
  · cases hreq

theorem Scene.call_sends {s : Scene} {gameId : GameId} {clk : Clock} {ev : FighterWar.Event} {b : ℕ} :
    ∀ req ∈ lettersTo (.broadcast b) (s.call gameId clk ev).sent, req.isSend = true := by
  intro req hreq
  rw [mem_lettersTo, call] at hreq
  split at hreq
  · obtain ⟨req', hreq', heq⟩ := List.mem_map.mp hreq
    cases heq
    exact FighterWar.isSend_of_mem_step hreq'
  · cases hreq

theorem Scene.receive_sends {s : Scene} {i : Inputs} {m : SceneMsg} {b : ℕ} :
    ∀ req ∈ lettersTo (.broadcast b) (s.receive i m).sent, req.isSend = true := by
  intro req hreq
  cases m with
  | newGame gameId => cases List.mem_singleton.mp (mem_lettersTo.mp hreq)
  | c2gsRttData gameId pid =>
      rw [mem_lettersTo, receive, c2gsRttData] at hreq
      split at hreq
      · cases hreq
      · cases hreq
  | gameOver gameId => cases hreq
  | enterPlayer | leavePlayer | syncCtrl | syncData => exact call_sends req hreq

theorem Scene.act_sends {s : Scene} {n : ℕ} {clk : Clock} {x : SceneAct} {b : ℕ} :
    ∀ req ∈ lettersTo (.broadcast b) (s.act n clk x).sent, req.isSend = true := by
  intro req hreq
  cases x with
  | frameSkip gameId | syncRtt gameId => exact call_sends req hreq
  | checkOver gameId =>
      rw [mem_lettersTo, act, Outcome.done_sent, checkOver] at hreq
      split at hreq
      · split at hreq
        · cases List.mem_singleton.mp hreq
        · cases hreq
      · cases hreq

variable {tr : List (World × WorldMove)} {w : World}

/-- A broadcast service has made of its map what it was asked to. -/
theorem fdMap_eq (h : ServerRun tr w) (b : ℕ) :
    w.state (.broadcast b) = FdMap.after (handled (.broadcast b) tr) :=
  state_eq_foldl (a := Addr.broadcast b) (fun s : FdMap => s) FdMap.update (fun _ _ _ => rfl)
    (fun _ _ x => nomatch x) h

/-- **The requests to a broadcast service tell the sockets of the players.** -/
theorem fdMap_sent (h : ServerRun tr w) {b : ℕ} (hb : b ≤ ServerConfig.sceneBcCnt) (pid : Pid) :
    FdMap.after (server.sent (.broadcast b) tr) pid = (w.agent (getUserAgent pid)).current pid := by
  refine invariant (P := fun tr (w : World) => FdMap.after (server.sent (.broadcast b) tr) pid
    = (w.agent (getUserAgent pid)).current pid) ?_ ?_ ?_ h
  · rfl
  · intro tr (w : World) a i m rest hrun hw hmail
    rw [server.sent_deliver _ hmail]
    cases a with
    | agent n =>
        by_cases hn : getUserAgent pid = n
        · subst hn
          rw [World.agent, Config.commit_state_same, server_receive_agent, Agent.current_receive,
            Agent.after_receive hb, hw]
          intro _ hnone
          rw [hw, Agent.current, hnone]
          rfl
        · -- the letter is about the pid of another agent
          have hrouted := routed_mail hrun hmail
          rw [World.agent, Config.commit_state_ne _ _ _ _ (by simpa using hn), server_receive_agent,
            Agent.after_receive hb, hw]
          · cases m with
            | start q mArgs =>
                have hq : q ≠ pid := fun heq => hn (heq ▸ hrouted.1)
                exact if_neg hq
            | kick q =>
                have hq : q ≠ pid := fun heq => hn (heq ▸ hrouted)
                exact if_neg hq
            | unpack | entered => rfl
          · rintro rfl
            exact absurd hrouted hn
    | scene n =>
        rw [server_receive_scene, FdMap.after_append_sends Scene.receive_sends]
        exact hw
    | gamegate | gamelogin | sceneMgr | broadcast n | socket fd =>
        rw [lettersTo_receive rfl, List.append_nil]
        exact hw
  · intro tr (w : World) a x i hrun hw
    rw [server.sent_act]
    cases a with
    | agent n =>
        obtain ⟨obj⟩ := x
        rw [server_act_agent, Agent.act, FdMap.after_append_sends Agent.serverPing_sends, hw]
        by_cases hn : getUserAgent pid = n
        · subst hn
          rw [World.agent, World.agent, Config.commit_state_same]
          exact (Agent.current_act _ _ _ _).symm
        · rw [World.agent, World.agent, Config.commit_state_ne _ _ _ _ (by simpa using hn)]
    | scene n =>
        rw [server_act_scene, FdMap.after_append_sends Scene.act_sends]
        exact hw
    | gamegate =>
        rw [lettersTo_act rfl, List.append_nil]
        exact hw
    | gamelogin | sceneMgr | broadcast n | socket fd => cases x

/-- **The maps agree with the agents.** When no registration is under way, every broadcast service
maps the pids of the players, and no others, each to the socket of its player; and no pid has a
player at two agents, since it has one only at its own. -/
theorem fd_maps_agree (h : ServerRun tr w)
    (hquiet : ∀ b ≤ ServerConfig.sceneBcCnt, ∀ req ∈ w.mail (.broadcast b), req.isSend = true) :
    (∀ b ≤ ServerConfig.sceneBcCnt, ∀ pid fd, (w.state (.broadcast b) : FdMap) pid = some fd ↔
      ∃ obj p, (w.agent (getUserAgent pid)).getPlayer pid = some (obj, p) ∧ p.fd = fd) ∧
    (∀ n pid x, (w.agent n).getPlayer pid = some x → n = getUserAgent pid) := by
  refine ⟨fun b hb pid fd => ?_, fun n pid x hx => ?_⟩
  · have hsent := fdMap_sent h hb pid
    rw [← handled_append h, FdMap.after_append_sends (hquiet b hb), ← fdMap_eq h] at hsent
    rw [hsent, Agent.current, Option.map_eq_some_iff]
    constructor
    · rintro ⟨⟨obj, p⟩, hp, hfd⟩
      exact ⟨obj, p, hp, hfd⟩
    · rintro ⟨obj, p, hp, hfd⟩
      exact ⟨(obj, p), hp, hfd⟩
  · refine (@getUserAgent_of_current _ _ _ _ h n pid x.2.fd ?_).symm
    rw [Agent.current, hx]
    rfl

end Maps

section Login

attribute [local instance] sprotoWire gameConfig

/-- One player connects and enters a game; the broadcast services handle what they were sent. -/
def oneLogin : List WorldMove := [report .open] ++ logIn 1 2 ++ firstEnter 2 ++ broadcasts 1

/-- Every broadcast service knows the socket of the player. -/
theorem fd_maps_agree_login :
    ∃ w : World, runFrom server.step World.init oneLogin = some w ∧
      ∀ b ≤ 2, (w.state (.broadcast b) : FdMap) 2 = some 1 := by
  have hrun : (runFrom server.step World.init oneLogin).any (fun (w : World) =>
      (List.range 3).all (fun b => (w.mail (.broadcast b)).all BcMsg.isSend) &&
        ((w.agent 2).getPlayer 2).any (fun x => x.2.fd = 1)) = true := by decide +kernel
  obtain ⟨w, hw, hstate⟩ := Option.any_eq_true _ _ |>.mp hrun
  simp only [Bool.and_eq_true, List.all_eq_true, List.mem_range, Option.any_eq_true,
    decide_eq_true_eq] at hstate
  obtain ⟨hquiet, ⟨obj, p⟩, hp, hfd⟩ := hstate
  refine ⟨w, hw, fun b hb => ?_⟩
  exact ((fd_maps_agree (run_of_runFrom hw) fun b hb => hquiet b (Nat.lt_succ_of_le hb)).1 b hb 2 1).mpr
    ⟨obj, p, hp, hfd⟩

end Login

end FrameSync
