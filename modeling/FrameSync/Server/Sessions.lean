import FrameSync.Server.Routes

/-! # Sessions

The player an agent holds for a pid is settled by the letters `start` and `kick` it has handled
(`current_eq`). The gate sends `start` when a connection logs in and `kick` when one that did is
closed; neither says which connection is meant. So the players match the connections as long as no
connection logs in with a pid that another one is logged in with (`sessions_match`), and otherwise
the close of one connection ends the session of the other (`close_ends_other`). -/

namespace FrameSync

open Behaviour

/-! ## The player of a pid -/

namespace Agent

/-- The socket of the player of `pid`. -/
def current (s : Agent) (pid : Pid) : Option Fd := (s.getPlayer pid).map fun x => x.2.fd

theorem getPlayer_eq_some {s : Agent} {pid : Pid} {obj : ℕ} {p : Player} :
    s.getPlayer pid = some (obj, p) ↔ s.playerlist pid = some obj ∧ s.objs[obj]? = some p := by
  simp only [getPlayer, Option.bind_eq_some_iff, Option.map_eq_some_iff, Prod.mk.injEq]
  constructor
  · rintro ⟨o, ho, p', hp', rfl, rfl⟩
    exact ⟨ho, hp'⟩
  · rintro ⟨ho, hp⟩
    exact ⟨obj, ho, p, hp, rfl, rfl⟩

/-- The player of a pid has that pid. -/
theorem id_getPlayer {s : Agent} {pid : Pid} {obj : ℕ} {p : Player}
    (h : s.getPlayer pid = some (obj, p)) : p.id = pid := by
  obtain ⟨hobj, hp⟩ := getPlayer_eq_some.mp h
  obtain ⟨p', hp', hid⟩ := s.id_eq pid obj hobj
  rw [hp] at hp'
  exact Option.some.inj hp' ▸ hid

theorem getPlayer_setPlayer (s : Agent) (pid q : Pid) (mArgs : LoginArgs) (now : ℕ) :
    (s.setPlayer pid mArgs now).getPlayer q
      = if q = pid then some (s.objs.length, Player.init pid mArgs now) else s.getPlayer q := by
  by_cases hq : q = pid
  · subst hq
    rw [if_pos rfl, getPlayer_eq_some]
    exact ⟨Function.update_self .., by simp [setPlayer]⟩
  · rw [if_neg hq, getPlayer, getPlayer, setPlayer]
    simp only [Function.update_of_ne hq]
    cases ho : s.playerlist q with
    | none => rfl
    | some obj =>
        obtain ⟨p, hp, -⟩ := s.id_eq q obj ho
        have hlt : obj < s.objs.length := (List.getElem?_eq_some_iff.mp hp).1
        rw [Option.bind_some, Option.bind_some, List.getElem?_append_left hlt]

theorem getPlayer_delPlayer (s : Agent) (pid q : Pid) :
    (s.delPlayer pid).getPlayer q = if q = pid then none else s.getPlayer q := by
  by_cases hq : q = pid
  · subst hq
    rw [if_pos rfl, getPlayer, delPlayer]
    simp
  · rw [if_neg hq, getPlayer, getPlayer, delPlayer]
    simp only [Function.update_of_ne hq]

theorem getPlayer_setObj (s : Agent) (obj : ℕ) (f : Player → Player) (h : ∀ p, (f p).id = p.id)
    (q : Pid) : (s.setObj obj f h).getPlayer q
      = (s.getPlayer q).map fun x => if x.1 = obj then (x.1, f x.2) else x := by
  rw [getPlayer, getPlayer, setObj]
  cases ho : s.playerlist q with
  | none => rfl
  | some o =>
      obtain ⟨p, hp, -⟩ := s.id_eq q o ho
      by_cases heq : obj = o
      · subst heq
        simp [hp]
      · simp [hp, heq, Ne.symm heq]

/-- A change of an object that keeps its socket keeps the sockets. -/
theorem current_setObj (s : Agent) (obj : ℕ) (f : Player → Player) (h : ∀ p, (f p).id = p.id)
    (hfd : ∀ p, (f p).fd = p.fd) (q : Pid) : (s.setObj obj f h).current q = s.current q := by
  rw [current, getPlayer_setObj, current, Option.map_map]
  refine congrFun (congrArg Option.map (funext fun x => ?_)) _
  by_cases hx : x.1 = obj
  · simp [hx, hfd]
  · simp [hx]

theorem current_setPlayer (s : Agent) (pid q : Pid) (mArgs : LoginArgs) (now : ℕ) :
    (s.setPlayer pid mArgs now).current q = if q = pid then some mArgs.fd else s.current q := by
  rw [current, getPlayer_setPlayer]
  split
  · rfl
  · rfl

theorem current_delPlayer (s : Agent) (pid q : Pid) :
    (s.delPlayer pid).current q = if q = pid then none else s.current q := by
  rw [current, getPlayer_delPlayer]
  split
  · rfl
  · rfl

end Agent

/-- What a letter to an agent does to the session of `pid`: `start` opens the one of a socket, `kick`
ends whichever there is. -/
def AgentMsg.track (pid : Pid) (session : Option Fd) : AgentMsg → Option Fd
  | .start q mArgs => if q = pid then some mArgs.fd else session
  | .kick q => if q = pid then none else session
  | .unpack .. | .entered .. => session

/-- The session of `pid` after an agent has handled some letters. -/
def session (pid : Pid) (ms : List AgentMsg) : Option Fd := ms.foldl (AgentMsg.track pid) none

@[simp] theorem session_nil (pid : Pid) : session pid [] = none := rfl

@[simp] theorem session_snoc (pid : Pid) (ms : List AgentMsg) (m : AgentMsg) :
    session pid (ms ++ [m]) = AgentMsg.track pid (session pid ms) m := by
  simp [session]

/-- An open session was opened by a `start`. -/
theorem start_of_session {pid : Pid} {ms : List AgentMsg} {fd : Fd}
    (h : session pid ms = some fd) : ∃ mArgs : LoginArgs, .start pid mArgs ∈ ms ∧ mArgs.fd = fd := by
  induction ms using List.reverseRecOn with
  | nil => cases h
  | append_singleton ms m ih =>
      have earlier : session pid ms = some fd →
          ∃ mArgs : LoginArgs, .start pid mArgs ∈ ms ++ [m] ∧ mArgs.fd = fd := fun h' =>
        (ih h').imp fun mArgs hm => ⟨List.mem_append_left _ hm.1, hm.2⟩
      rw [session_snoc] at h
      cases m with
      | start q mArgs =>
          rw [AgentMsg.track] at h
          split at h
          · rename_i hq
            subst hq
            exact ⟨mArgs, List.mem_append_right _ (List.mem_singleton_self _), Option.some.inj h⟩
          · exact earlier h
      | kick q =>
          rw [AgentMsg.track] at h
          split at h
          · cases h
          · exact earlier h
      | unpack | entered => exact earlier h

section Current

variable [Wire] [ServerConfig]

/-- What handling a letter does to the player of a pid. -/
theorem Agent.current_receive (s : Agent) (n : ℕ) (clk : Clock) (m : AgentMsg) (pid : Pid) :
    (s.receive n clk m).state.current pid = AgentMsg.track pid (s.current pid) m := by
  cases m with
  | start q mArgs =>
      refine (s.current_setPlayer q pid mArgs clk.now).trans ?_
      simp only [AgentMsg.track, eq_comm]
  | kick q =>
      show (s.kick q).state.current pid = _
      rw [kick]
      split
      · refine (s.current_delPlayer q pid).trans ?_
        simp only [AgentMsg.track, eq_comm]
      · -- A `kick` that finds no player does nothing, and there is none to track either.
        rename_i hnone
        show s.current pid = if q = pid then none else s.current pid
        split
        · rename_i hq
          rw [← hq, current, hnone]
          rfl
        · rfl
  | unpack q msg =>
      show (s.unpack q msg clk).state.current pid = _
      rw [unpack]
      split
      · exact s.current_setObj _ _ (fun p => (p.keeps_analysis clk msg).id)
          (fun p => (p.keeps_analysis clk msg).fd) pid
      · rfl
  | entered obj gameId scene =>
      exact s.current_setObj obj (fun p => { p with war := some (gameId, scene) }) (fun _ => rfl)
        (fun _ => rfl) pid

omit [ServerConfig] in
/-- No timer changes the player of a pid. -/
theorem Agent.current_act (s : Agent) (clk : Clock) (x : AgentAct) (pid : Pid) :
    (s.act clk x).state.current pid = s.current pid := by
  cases x with
  | serverPing obj =>
      show (s.serverPing obj clk).state.current pid = _
      rw [serverPing]
      split
      · exact s.current_setObj _ _ (fun p => (p.keeps_checkGsPing clk).id)
          (fun p => (p.keeps_checkGsPing clk).fd) pid
      · rfl

variable {tr : List (World × WorldMove)} {w : World}

/-- **The player of a pid is the session of the letters handled.** -/
theorem current_eq (h : ServerRun tr w) (n : ℕ) (pid : Pid) :
    (w.agent n).current pid = session pid (handled (.agent n) tr) :=
  state_eq_foldl (a := Addr.agent n) (fun s : Agent => s.current pid) (AgentMsg.track pid)
    (fun i s m => s.current_receive n i.clk m pid) (fun i s x => s.current_act i.clk x pid) h

/-- What was handled at a service is the first part of what was sent to it. -/
theorem handled_first (h : ServerRun tr w) (a : Addr) : handled a tr <+: server.sent a tr :=
  handled_prefix_sent h rfl

theorem handled_append (h : ServerRun tr w) (a : Addr) :
    handled a tr ++ w.mail a = server.sent a tr := handled_append_mail h rfl

/-- The letter that is handled next was sent. -/
theorem handled_next (h : ServerRun tr w) {a : Addr} {i : Inputs} {m : Msg a} {rest : List (Msg a)}
    (hmail : w.mail a = m :: rest) :
    handled a (tr ++ [(w, .deliver a i)]) <+: server.sent a tr := handled_deliver_prefix h rfl hmail

end Current

/-! ## The connections of the gate -/

/-- The connection that a move logs in, and what `loginsuc` says about it. -/
def loginOf (w : World) : WorldMove → Option (Fd × LoginArgs)
  | .deliver .gamegate _ =>
      match w.mail .gamegate with
      | .loginsuc fd mArgs :: _ => if w.gate.mayLogin fd then some (fd, mArgs) else none
      | [] => none
  | _ => none

/-- If the move logs a connection in as `pid`, no other connection is logged in as `pid`. -/
def FreeLogin (pid : Pid) (w : World) (e : WorldMove) : Prop :=
  ∀ fd mArgs, loginOf w e = some (fd, mArgs) → mArgs.pid = pid →
    ∀ fd' agent, w.gate.loggedIn fd' ≠ some (agent, pid)

/-- No connection is logged in as the pid the move logs in as. -/
def loginIsFree (w : World) (e : WorldMove) : Bool :=
  (loginOf w e).all fun l =>
    (List.range w.gate.nextFd).all fun fd => (w.gate.loggedIn fd).all fun other => other.2 ≠ l.2.pid

theorem freeLogin_iff {w : World} {e : WorldMove} :
    (∀ pid, FreeLogin pid w e) ↔ loginIsFree w e = true := by
  simp only [FreeLogin, loginIsFree, Option.all_eq_true, List.all_eq_true, List.mem_range,
    decide_eq_true_eq]
  constructor
  · rintro h ⟨fd, mArgs⟩ hlogin fd' - ⟨agent, pid⟩ hother rfl
    exact h _ fd mArgs hlogin rfl fd' agent hother
  · rintro h _ fd mArgs hlogin rfl fd' agent hother
    by_cases hfd : fd' < w.gate.nextFd
    · exact h (fd, mArgs) hlogin fd' hfd _ hother rfl
    · rw [Gate.loggedIn_of_unused (Nat.le_of_not_lt hfd)] at hother
      cases hother

instance (w : World) (e : WorldMove) : Decidable (∀ pid, FreeLogin pid w e) :=
  decidable_of_iff _ freeLogin_iff.symm

section Logins

variable [Wire] [ServerConfig] {tr : List (World × WorldMove)} {w : World}

/-- The letters of the gate say which socket and agent they are about. -/
theorem loginsuc_sent {fd : Fd} {mArgs : LoginArgs}
    (h : .loginsuc fd mArgs ∈ server.sent .gamegate tr) :
    mArgs.fd = fd ∧ mArgs.agent = getUserAgent mArgs.pid := by
  refine server.forall_sent (b := Addr.gamegate) (Q := fun m => ∀ fd mArgs, m = .loginsuc fd mArgs →
    mArgs.fd = fd ∧ mArgs.agent = getUserAgent mArgs.pid) ?_ ?_ _ h fd mArgs rfl
  · intro a i s m m' hm'
    cases a with
    | gamelogin =>
        obtain ⟨fd, msg⟩ := m
        rw [mem_lettersTo] at hm'
        cases msg with
        | c2gsLogin pid =>
            cases pid with
            | none => cases hm'
            | some pid =>
                have heq := eq_of_heq (Sigma.mk.inj (List.mem_singleton.mp hm')).2
                rintro fd' mArgs rfl
                obtain ⟨rfl, rfl⟩ := GateMsg.loginsuc.inj heq
                exact ⟨rfl, rfl⟩
        | c2gsPing _ | c2gsCtrlData _ | c2gsRttData _ _ _ _ | other => cases hm'
    | gamegate | agent _ | sceneMgr | scene _ | broadcast _ | socket _ =>
        rw [lettersTo_receive rfl] at hm'
        cases hm'
  · intro a i s x m' hm'
    rw [lettersTo_act (by cases a <;> first | rfl | cases x)] at hm'
    cases hm'

omit [Wire] in
/-- What the scene manager writes to an agent is an answer to `enterwar`. -/
theorem sceneMgr_writes_entered {n : ℕ} {s : SceneMgr} {m : MgrMsg} {m' : AgentMsg}
    (h : m' ∈ lettersTo (.agent n) (s.receive m).sent) : ∃ obj gameId scene, m' = .entered obj gameId scene := by
  have hjoin : ∀ proxy req, m' ∈ lettersTo (.agent n) (SceneMgr.join proxy req) →
      ∃ obj gameId scene, m' = .entered obj gameId scene := by
    intro proxy req hm
    rw [mem_lettersTo] at hm
    rcases List.mem_cons.mp hm with hm | hm
    · cases hm
    · obtain ⟨-, hm⟩ := Sigma.mk.inj (List.mem_singleton.mp hm)
      exact ⟨_, _, _, eq_of_heq hm⟩
  cases m with
  | enterPlayer req =>
      rw [SceneMgr.receive, SceneMgr.enterPlayer] at h
      split at h
      · exact hjoin _ _ h
      · rw [mem_lettersTo] at h
        cases List.mem_singleton.mp h
  | newGame gameId =>
      rw [SceneMgr.receive, SceneMgr.newGame] at h
      split at h
      · exact hjoin _ _ h
      · cases h
  | gameOver k gameId =>
      rw [mem_lettersTo] at h
      cases List.mem_singleton.mp h

omit [Wire] [ServerConfig] in
/-- Such answers settle no session. -/
theorem session_append_entered {pid : Pid} {ms ms' : List AgentMsg}
    (h : ∀ m ∈ ms', ∃ obj gameId scene, m = .entered obj gameId scene) :
    session pid (ms ++ ms') = session pid ms := by
  rw [session, List.foldl_append, ← session]
  generalize session pid ms = cur
  induction ms' with
  | nil => rfl
  | cons m ms' ih =>
      obtain ⟨obj, gameId, scene, rfl⟩ := h m List.mem_cons_self
      exact ih fun m hm => h m (List.mem_cons_of_mem _ hm)

end Logins

/-- A letter for agent `k`, as far as the session of `pid` at agent `n` goes. -/
theorem session_append_letter {pid : Pid} {n k : ℕ} {ms : List AgentMsg} {m : AgentMsg} :
    session pid (ms ++ lettersTo (.agent n) [(⟨.agent k, m⟩ : Letter Msg)])
      = if k = n then AgentMsg.track pid (session pid ms) m else session pid ms := by
  by_cases h : k = n
  · subst h
    rw [lettersTo_cons_same, lettersTo_nil, session_snoc, if_pos rfl]
  · rw [lettersTo_cons_ne (by simpa using h), lettersTo_nil, List.append_nil, if_neg h]

/-- The sessions of `pid` that the letters `ms` leave open at the agents are those of the connections
that are logged in as `pid`. -/
def Matched (pid : Pid) (ms : ℕ → List AgentMsg) (g : Gate) : Prop :=
  ∀ n fd, session pid (ms n) = some fd ↔ g.loggedIn fd = some (n, pid)

namespace Matched

variable {pid : Pid} {ms : ℕ → List AgentMsg} {g : Gate}

/-- A login keeps the match, if it is the only one with its pid. -/
theorem login (h : Matched pid ms g) {fd₀ : Fd} {mArgs : LoginArgs} (hmay : g.mayLogin fd₀ = true)
    (hfd₀ : mArgs.fd = fd₀) (hfree : mArgs.pid = pid → ∀ fd agent, g.loggedIn fd ≠ some (agent, pid)) :
    Matched pid
      (fun n => ms n ++ lettersTo (.agent n)
        [(⟨.agent mArgs.agent, .start mArgs.pid mArgs⟩ : Letter Msg)])
      (g.setLogin fd₀ mArgs.agent mArgs.pid) := by
  intro n fd
  show session pid (ms n ++ _) = _ ↔ _
  rw [session_append_letter, AgentMsg.track, Gate.loggedIn_setLogin hmay]
  by_cases hpid : mArgs.pid = pid
  · -- no session of `pid` is open anywhere
    have hnone : session pid (ms n) = none := by
      by_contra hsome
      obtain ⟨fd', hfd'⟩ := Option.ne_none_iff_exists'.mp hsome
      exact hfree hpid fd' n ((h n fd').mp hfd')
    rw [if_pos hpid, hnone, hfd₀, hpid]
    have hout := hfree hpid fd n
    by_cases hn : mArgs.agent = n
    · by_cases hfd : fd = fd₀
      · simp [hn, hfd]
      · simp [hn, hfd, Ne.symm hfd, hout]
    · by_cases hfd : fd = fd₀
      · simp [hn, hfd]
      · simp [hn, hfd, hout]
  · rw [if_neg hpid, ite_self, h n fd]
    by_cases hfd : fd = fd₀
    · rw [if_pos hfd, hfd, Gate.loggedIn_of_mayLogin hmay]
      simp [hpid]
    · rw [if_neg hfd]

/-- Closing a connection keeps the match. -/
theorem close (h : Matched pid ms g) (fd₀ : Fd) :
    Matched pid (fun n => ms n ++ lettersTo (.agent n) (g.delConnection fd₀).sent)
      (g.delConnection fd₀).state := by
  intro n fd
  show session pid (ms n ++ _) = _ ↔ _
  rw [Gate.sent_delConnection, Gate.loggedIn_delConnection]
  cases hl : g.loggedIn fd₀ with
  | none =>
      rw [Option.toList_none, List.map_nil, lettersTo_nil, List.append_nil, h n fd]
      by_cases hfd : fd = fd₀
      · rw [if_pos hfd, hfd, hl]
      · rw [if_neg hfd]
  | some l =>
      obtain ⟨k, q⟩ := l
      rw [Option.toList_some, List.map_cons, List.map_nil, session_append_letter, AgentMsg.track]
      by_cases hkq : k = n ∧ q = pid
      · obtain ⟨rfl, rfl⟩ := hkq
        rw [if_pos rfl, if_pos rfl]
        -- the session that ends is the one of this connection, so no other one is logged in
        have hold := (h k fd₀).mpr hl
        refine iff_of_false (by simp) ?_
        split
        · simp
        · rename_i hfd
          intro hfd'
          exact hfd (Option.some.inj (((h k fd).mpr hfd').symm.trans hold))
      · have hkeep : (if k = n then (if q = pid then none else session pid (ms n))
            else session pid (ms n)) = session pid (ms n) := by
          split
          · split
            · rename_i hk hq
              exact absurd ⟨hk, hq⟩ hkq
            · rfl
          · rfl
        rw [hkeep, h n fd]
        by_cases hfd : fd = fd₀
        · rw [if_pos hfd, hfd, hl]
          refine iff_of_false (fun heq => hkq ?_) (by simp)
          simpa using heq
        · rw [if_neg hfd]

/-- A packet settles no session. -/
theorem data (h : Matched pid ms g) (fd₀ : Fd) (msg : ClientMsg) :
    Matched pid (fun n => ms n ++ lettersTo (.agent n) (g.dispatchMsg fd₀ msg)) g := by
  intro n fd
  show session pid (ms n ++ _) = _ ↔ _
  rw [← h n fd, Gate.dispatchMsg]
  split
  · rw [lettersTo_nil, List.append_nil]
  · rw [session_append_letter]
    split
    · rfl
    · rfl
  · rw [lettersTo_cons_ne (by simp), lettersTo_nil, List.append_nil]

/-- Only the letters and the logins matter. -/
theorem congr (h : Matched pid ms g) {ms' : ℕ → List AgentMsg} {g' : Gate}
    (hms : ∀ n, session pid (ms' n) = session pid (ms n)) (hg : ∀ fd, g'.loggedIn fd = g.loggedIn fd) :
    Matched pid ms' g' := by
  intro n fd
  rw [hms, hg]
  exact h n fd

end Matched

section Match

variable [Wire] [ServerConfig] {tr : List (World × WorldMove)} {w : World}

/-- **Sessions and connections.** When no connection logs in as `pid` while another one is logged in
as `pid`, the letters sent to the agents leave open exactly the sessions of the connections that are
logged in as `pid`. -/
theorem matched_run {pid : Pid} (h : ServerRun tr w) (hfree : ∀ x ∈ tr, FreeLogin pid x.1 x.2) :
    Matched pid (fun n => server.sent (.agent n) tr) w.gate := by
  refine invariant_of_moves (C := FreeLogin pid)
    (P := fun tr (w : World) => Matched pid (fun n => server.sent (.agent n) tr) w.gate)
    ?_ ?_ ?_ h hfree
  · intro n fd
    exact iff_of_false (by simp) (by simp [Gate.loggedIn, World.init, Gate.init])
  · intro tr (w : World) a i m rest hrun hw hC hmail
    simp only [server.sent_deliver _ hmail]
    cases a with
    | gamegate =>
        obtain ⟨fd₀, mArgs⟩ := m
        rw [World.gate, Config.commit_state_same, server_receive_gamegate, Gate.receive, Gate.loginsuc]
        -- The gate alone opens and ends sessions; it writes `start` only for a connection that may
        -- log in.
        by_cases hmay : w.gate.mayLogin fd₀ = true
        · have hlogin : loginOf w (.deliver .gamegate i) = some (fd₀, mArgs) := by
            rw [loginOf, hmail]
            exact if_pos hmay
          have hsent : .loginsuc fd₀ mArgs ∈ server.sent .gamegate tr := by
            rw [← handled_append hrun, hmail]
            exact List.mem_append_right _ List.mem_cons_self
          rw [if_pos hmay]
          exact Matched.login hw hmay (loginsuc_sent hsent).1 (hC fd₀ mArgs hlogin)
        · rw [if_neg hmay]
          exact Matched.congr hw (fun n => by simp) fun _ => rfl
    | sceneMgr =>
        exact Matched.congr hw (fun n => session_append_entered fun m' hm' => sceneMgr_writes_entered hm')
          fun _ => rfl
    | gamelogin | agent k | scene k | broadcast k | socket k =>
        exact Matched.congr hw (fun n => by rw [lettersTo_receive rfl, List.append_nil]) fun _ => rfl
  · intro tr (w : World) a x i hrun hw hC
    simp only [server.sent_act]
    cases a with
    | gamegate =>
        rw [World.gate, Config.commit_state_same, server_act_gamegate]
        cases x with
        | «open» => exact Matched.congr hw (fun n => by simp [Gate.act]) fun fd => by simp [Gate.act]
        | data fd₀ msg => exact Matched.data hw fd₀ msg
        | close fd₀ | error fd₀ => exact Matched.close hw fd₀
        | checkConnections => exact Matched.congr hw (fun n => by simp [Gate.act]) fun fd => by simp [Gate.act]
    | agent k | scene k =>
        exact Matched.congr hw (fun n => by rw [lettersTo_act rfl, List.append_nil]) fun _ => rfl
    | gamelogin | sceneMgr | broadcast k | socket k => cases x

/-- **The players are those of the connections.** When no connection logs in with a pid that another
connection is logged in with, then whenever agent `n` has handled all its letters, a connection is
logged in as `pid` at agent `n` if and only if agent `n` holds a player `pid` with its socket. -/
theorem sessions_match (h : ServerRun tr w) (hfree : ∀ x ∈ tr, ∀ pid, FreeLogin pid x.1 x.2)
    {n : ℕ} (hdrained : w.mail (.agent n) = []) (fd : Fd) (pid : Pid) :
    w.gate.loggedIn fd = some (n, pid) ↔
      ∃ obj p, (w.agent n).getPlayer pid = some (obj, p) ∧ p.fd = fd := by
  have hlogs := handled_append h (.agent n)
  rw [hdrained, List.append_nil] at hlogs
  have hmatch : session pid (server.sent (.agent n) tr) = some fd ↔ _ :=
    matched_run h (fun x hx => hfree x hx pid) n fd
  rw [← hmatch, ← hlogs, ← current_eq h, Agent.current, Option.map_eq_some_iff]
  constructor
  · rintro ⟨⟨obj, p⟩, hp, hfd⟩
    exact ⟨obj, p, hp, hfd⟩
  · rintro ⟨obj, p, hp, hfd⟩
    exact ⟨(obj, p), hp, hfd⟩

end Match

/-! ## Two connections of one player -/

section Reconnect

/-- Two services of each kind, as in `config/game.lua`. -/
@[reducible] def gameConfig : ServerConfig := ⟨2, 2, 2, by decide⟩

attribute [local instance] sprotoWire gameConfig

/-- The services of the configuration. -/
def services : List Addr :=
  [.gamegate, .gamelogin, .agent 1, .agent 2, .sceneMgr, .scene 1, .scene 2, .broadcast 0,
   .broadcast 1, .broadcast 2]

/-- Readings at the time `t`. -/
def readings (t : ℕ) : Inputs :=
  ⟨⟨t, t⟩, ⟨[97], 1, 2, 3, by decide⟩, Spawn.corner, 7, by decide⟩

/-- A service handles its next letter. -/
def next (a : Addr) : WorldMove := .deliver a (readings 0)

/-- The gate is told of something. -/
def report (x : GateAct) : WorldMove := .act .gamegate x (readings 0)

/-- The connection of `fd` logs in as `pid`, up to the letter to its agent. -/
def logIn (fd : Fd) (pid : Pid) : List WorldMove :=
  [report (.data fd (.c2gsLogin (some pid))), next .gamelogin, next .gamegate]

/-- From the letter to the agent to the answer of `SCENE_MGR`, for the first player of the first
game. -/
def firstEnter (n : ℕ) : List WorldMove :=
  [next (.agent n), next .sceneMgr, next (.scene 1), next .sceneMgr, next (.scene 1), next (.agent n)]

/-- The broadcast services handle `k` requests each. -/
def broadcasts (k : ℕ) : List WorldMove :=
  [.broadcast 0, .broadcast 1, .broadcast 2].flatMap fun a => List.replicate k (next a)

/-- The timer `FrameSkip` of the first game fires. -/
def tickFirst : WorldMove := .act (.scene 1) (.frameSkip 1) (readings 0)

/-- Player 2 is in a game and connects a second time; then the first connection is closed. -/
def reconnect : List WorldMove :=
  [report .open] ++ logIn 1 2 ++ firstEnter 2 ++ [report .open] ++ logIn 2 2 ++
    [next (.agent 2), next .sceneMgr, next (.agent 2), next (.scene 1), report (.close 1),
     next (.agent 2), next (.scene 1)] ++ broadcasts 3 ++ [next (.broadcast 1), next (.broadcast 1)]

/-- **The close of the old connection ends the session of the new one.** All letters are handled, the
second connection is logged in as player 2, and its agent has no player 2. -/
theorem close_ends_other :
    ∃ w : World, runFrom server.step World.init reconnect = some w ∧
      (∀ a ∈ services, w.mail a = []) ∧
      w.gate.loggedIn 2 = some (2, 2) ∧ (w.agent 2).getPlayer 2 = none := by
  have hrun : (runFrom server.step World.init reconnect).any (fun (w : World) =>
      services.all (fun a => (w.mail a).isEmpty) && w.gate.loggedIn 2 = some (2, 2) &&
        ((w.agent 2).getPlayer 2).isNone) = true := by decide +kernel
  obtain ⟨w, hw, hstate⟩ := Option.any_eq_true _ _ |>.mp hrun
  simp only [Bool.and_eq_true, List.all_eq_true, List.isEmpty_iff, decide_eq_true_eq,
    Option.isNone_iff_eq_none] at hstate
  exact ⟨w, hw, hstate.1.1, hstate.1.2, hstate.2⟩

/-- Player 2 connects, and connects again after the close of the first connection. -/
def reconnectLater : List WorldMove :=
  [report .open] ++ logIn 1 2 ++ firstEnter 2 ++ [report (.close 1), report .open] ++ logIn 2 2 ++
    [next (.agent 2), next (.agent 2), next .sceneMgr, next (.agent 2)]

/-- The second connection has its player. -/
theorem sessions_match_later :
    ∃ w : World, runFrom server.step World.init reconnectLater = some w ∧
      ∃ obj p, (w.agent 2).getPlayer 2 = some (obj, p) ∧ p.fd = 2 := by
  have hrun : (runFrom server.step World.init reconnectLater).any (fun (w : World) =>
      (w.mail (.agent 2)).isEmpty && w.gate.loggedIn 2 = some (2, 2)) = true := by decide +kernel
  obtain ⟨w, hw, hstate⟩ := Option.any_eq_true _ _ |>.mp hrun
  simp only [Bool.and_eq_true, List.isEmpty_iff, decide_eq_true_eq] at hstate
  have hfree : ∀ x ∈ traceFrom server.step World.init reconnectLater, ∀ pid, FreeLogin pid x.1 x.2 := by
    decide +kernel
  exact ⟨w, hw, (sessions_match (run_of_runFrom hw) hfree hstate.1 2 2).mp hstate.2⟩

end Reconnect

end FrameSync
