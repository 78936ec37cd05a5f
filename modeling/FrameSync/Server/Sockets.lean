import FrameSync.Server.GateProtocol
import FrameSync.Server.Stays

/-! # What is written to a socket

A socket belongs to one session: no two objects of agents have the same (`born_unique`). So what a
broadcast service writes to it is what its requests address to one player while the map shows the
socket (`socket_log`), and since the map follows the agents, whether a request reaches the socket is
settled when the request is sent (`delivered_call`). -/

namespace FrameSync

open Behaviour

/-! ## The socket of a player in a map -/

namespace FdMap

/-- What some requests write to the socket `fd`, from a map on. -/
def writtenTo (fd : Fd) : FdMap → List BcMsg → List ServerMsg
  | _, [] => []
  | fdMap, req :: reqs =>
      ((fdMap.writes req).filter fun x => x.1 = fd).map Prod.snd ++ writtenTo fd (fdMap.update req) reqs

/-- The game data that some requests address to `pid` while the map shows `fd` for it. -/
def dataFor (pid : Pid) (fd : Fd) : FdMap → List BcMsg → List ServerMsg
  | _, [] => []
  | fdMap, req :: reqs =>
      (if fdMap pid = some fd then req.gameDataTo pid else []) ++ dataFor pid fd (fdMap.update req) reqs

theorem writtenTo_append (fd : Fd) (fdMap : FdMap) (reqs reqs' : List BcMsg) :
    writtenTo fd fdMap (reqs ++ reqs')
      = writtenTo fd fdMap reqs ++ writtenTo fd (reqs.foldl update fdMap) reqs' := by
  induction reqs generalizing fdMap with
  | nil => rfl
  | cons req reqs ih => rw [List.cons_append, writtenTo, writtenTo, ih, List.append_assoc]; rfl

theorem dataFor_append (pid : Pid) (fd : Fd) (fdMap : FdMap) (reqs reqs' : List BcMsg) :
    dataFor pid fd fdMap (reqs ++ reqs')
      = dataFor pid fd fdMap reqs ++ dataFor pid fd (reqs.foldl update fdMap) reqs' := by
  induction reqs generalizing fdMap with
  | nil => rfl
  | cons req reqs ih => rw [List.cons_append, dataFor, dataFor, ih, List.append_assoc]; rfl

/-- Requests without game data for `pid`. -/
theorem dataFor_eq_nil {pid : Pid} {reqs : List BcMsg} (h : ∀ req ∈ reqs, req.gameDataTo pid = [])
    (fd : Fd) (fdMap : FdMap) : dataFor pid fd fdMap reqs = [] := by
  induction reqs generalizing fdMap with
  | nil => rfl
  | cons req reqs ih =>
      rw [dataFor, ih fun req' hreq' => h req' (List.mem_cons_of_mem _ hreq'),
        h req List.mem_cons_self, ite_self]
      rfl

/-- Requests that leave the map alone reach the socket or not. -/
theorem dataFor_sends {reqs : List BcMsg} (h : ∀ req ∈ reqs, req.isSend = true) (pid : Pid) (fd : Fd)
    (fdMap : FdMap) : dataFor pid fd fdMap reqs
      = if fdMap pid = some fd then FrameSync.gameDataTo pid reqs else [] := by
  induction reqs with
  | nil => exact (ite_self _).symm
  | cons req reqs ih =>
      have hreq : fdMap.update req = fdMap := by
        have hsend := h req List.mem_cons_self
        cases req with
        | sendToPlayer | sendToList => rfl
        | registerFd | unregisterFd => cases hsend
      rw [dataFor, hreq, ih fun req' hreq' => h req' (List.mem_cons_of_mem _ hreq'), gameDataTo_cons]
      split
      · rfl
      · rfl

/-- One request, when the map shows the socket for `pid` only. -/
theorem data_writes {fdMap : FdMap} {pid : Pid} {fd : Fd} (h : ∀ q, fdMap q = some fd → q = pid)
    (req : BcMsg) : (((fdMap.writes req).filter fun x => x.1 = fd).map Prod.snd).filter
        ServerMsg.isGameData = if fdMap pid = some fd then req.gameDataTo pid else [] := by
  cases req with
  | registerFd | unregisterFd => exact (ite_self _).symm
  | sendToPlayer q m =>
      -- only an entry for `pid` shows the socket
      by_cases hq : q = pid
      · subst hq
        cases hfd : fdMap q with
        | none => simp [writes, hfd]
        | some fd' =>
            by_cases heq : fd' = fd
            · simp [writes, hfd, heq, BcMsg.gameDataTo, List.filter_singleton, Bool.cond_eq_ite]
            · simp [writes, hfd, heq]
      · have hne : fdMap q ≠ some fd := fun hfd => hq (h q hfd)
        rw [FighterWar.gameDataTo_sendToPlayer_ne hq, ite_self, writes]
        cases hfd : fdMap q with
        | none => rfl
        | some fd' =>
            have hfd' : fd' ≠ fd := fun heq => hne (heq ▸ hfd)
            simp [hfd']
  | sendToList qs m =>
      -- each time that `pid` is in the list, the message is written once
      have hlist : (((qs.filterMap fdMap).map fun fd' => (fd', m)).filter fun x => x.1 = fd).map Prod.snd
          = if fdMap pid = some fd then (qs.filter (· = pid)).map fun _ => m else [] := by
        induction qs with
        | nil => exact (ite_self _).symm
        | cons q qs ih =>
            by_cases hq : fdMap q = some fd
            · obtain rfl := h q hq
              rw [if_pos hq] at ih ⊢
              rw [List.filterMap_cons_some hq, List.map_cons, List.filter_cons_of_pos (by simp),
                List.map_cons, ih, List.filter_cons_of_pos (by simp), List.map_cons]
            · -- another player's socket is another one
              have hskip : ((((q :: qs).filterMap fdMap).map fun fd' => (fd', m)).filter
                  fun x => x.1 = fd) = (((qs.filterMap fdMap).map fun fd' => (fd', m)).filter
                    fun x => x.1 = fd) := by
                cases hfd : fdMap q with
                | none => rw [List.filterMap_cons_none hfd]
                | some fd' =>
                    have hne : fd' ≠ fd := fun heq => hq (heq ▸ hfd)
                    rw [List.filterMap_cons_some hfd, List.map_cons,
                      List.filter_cons_of_neg (by simpa using hne)]
              rw [hskip, ih]
              by_cases hqp : q = pid
              · rw [if_neg (hqp ▸ hq), if_neg (hqp ▸ hq)]
              · rw [List.filter_cons_of_neg (by simpa using hqp)]
      rw [writes, hlist, BcMsg.gameDataTo]
      by_cases hfd : fdMap pid = some fd
      · rw [if_pos hfd, if_pos hfd]
        cases hm : m.isGameData with
        | true =>
            rw [if_pos rfl]
            exact List.filter_eq_self.mpr fun m' hm' => by
              obtain ⟨_, -, rfl⟩ := List.mem_map.mp hm'
              exact hm
        | false =>
            rw [if_neg Bool.false_ne_true, List.filter_eq_nil_iff]
            intro m' hm'
            obtain ⟨_, -, rfl⟩ := List.mem_map.mp hm'
            simp [hm]
      · rw [if_neg hfd, if_neg hfd]
        rfl

/-- **What is written to a socket** that the map shows for `pid` only. -/
theorem data_writtenTo {pid : Pid} {fd : Fd} {reqs : List BcMsg}
    (hreqs : ∀ q, .registerFd q fd ∈ reqs → q = pid) {fdMap : FdMap}
    (h : ∀ q, fdMap q = some fd → q = pid) :
    (writtenTo fd fdMap reqs).filter ServerMsg.isGameData = dataFor pid fd fdMap reqs := by
  induction reqs generalizing fdMap with
  | nil => rfl
  | cons req reqs ih =>
      rw [writtenTo, dataFor, List.filter_append, data_writes h req,
        ih (fun q hq => hreqs q (List.mem_cons_of_mem _ hq)) fun q hq => ?_]
      cases req with
      | registerFd q' fd' =>
          rw [update, Function.update_apply] at hq
          split at hq
          · rename_i heq
            obtain rfl := Option.some.inj hq
            exact hreqs q (heq ▸ List.mem_cons_self)
          · exact h q hq
      | unregisterFd q' =>
          rw [update, Function.update_apply] at hq
          split at hq
          · cases hq
          · exact h q hq
      | sendToPlayer | sendToList => exact h q hq

end FdMap

/-! ## The sessions of a socket -/

/-- A connection that may not log in never may again. -/
theorem Gate.mayLogin_act {g : Gate} {fd : Fd} (hused : fd < g.nextFd) (h : g.mayLogin fd = false)
    (now : ℕ) (x : GateAct) :
    fd < (g.act now x).state.nextFd ∧ (g.act now x).state.mayLogin fd = false := by
  have hkeep : ∀ keep, (g.keepIf keep).mayLogin fd = false := by
    intro keep
    rw [mayLogin, Option.any_eq_false]
    intro conn hconn
    have hold := (Option.filter_eq_some_iff.mp hconn).1
    rw [mayLogin, hold] at h
    simpa using h
  cases x with
  | «open» =>
      refine ⟨Nat.lt_succ_of_lt hused, ?_⟩
      show Option.any _ (Function.update g.conlist g.nextFd _ fd) = false
      rw [Function.update_of_ne (Nat.ne_of_lt hused)]
      exact h
  | data => exact ⟨hused, h⟩
  | close fd' | error fd' =>
      refine ⟨(nextFd_delConnection g fd').symm ▸ hused, ?_⟩
      rw [act, delConnection]
      split
      · exact hkeep _
      · exact h
  | checkConnections => exact ⟨hused, hkeep _⟩

/-- Neither does the login of another one let it. -/
theorem Gate.mayLogin_setLogin (g : Gate) (fd fd' : Fd) (agent : ℕ) (pid : Pid) :
    (g.setLogin fd agent pid).mayLogin fd' = (g.mayLogin fd' && decide (fd' ≠ fd)) := by
  by_cases hfd : fd' = fd
  · subst hfd
    show Option.any _ (Function.update g.conlist fd' _ fd') = _
    rw [Function.update_self]
    cases g.conlist fd' with
    | none => simp
    | some conn => simp
  · show Option.any _ (Function.update g.conlist fd _ fd') = _
    rw [Function.update_of_ne hfd]
    simp [mayLogin, hfd]

/-- The socket of the session that a letter starts. -/
def AgentMsg.startFd : AgentMsg → Option Fd
  | .start _ mArgs => some mArgs.fd
  | .kick _ | .unpack .. | .entered .. => none

section Born

variable [Wire] [ServerConfig] {tr : List (World × WorldMove)} {w : World}

/-- What `loginsuc` said about the connections that logged in. -/
def logins (tr : List (World × WorldMove)) : List LoginArgs :=
  tr.flatMap fun x => (loginOf x.1 x.2).toList.map Prod.snd

omit [Wire] [ServerConfig] in
theorem logins_snoc (e : WorldMove) :
    logins (tr ++ [(w, e)]) = logins tr ++ (loginOf w e).toList.map Prod.snd := by
  simp [logins]

/-- **A socket logs in once.** -/
theorem nodup_logins (h : ServerRun tr w) : ((logins tr).map LoginArgs.fd).Nodup ∧
    ∀ mArgs ∈ logins tr, mArgs.fd < w.gate.nextFd ∧ w.gate.mayLogin mArgs.fd = false := by
  refine invariant (P := fun tr (w : World) => ((logins tr).map LoginArgs.fd).Nodup ∧
    ∀ mArgs ∈ logins tr, mArgs.fd < w.gate.nextFd ∧ w.gate.mayLogin mArgs.fd = false) ?_ ?_ ?_ h
  · exact ⟨List.nodup_nil, fun _ hm => absurd hm List.not_mem_nil⟩
  · intro tr (w : World) a i m rest hrun hw hmail
    obtain ⟨hnodup, hused⟩ := hw
    rw [logins_snoc]
    by_cases ha : a = .gamegate
    · subst ha
      obtain ⟨fd, mArgs⟩ := m
      -- the login service answers for the socket it was asked about
      have hfd : mArgs.fd = fd := (loginsuc_sent (mem_sent_of_mail hrun hmail)).1
      have hlogin : loginOf w (.deliver .gamegate i)
          = if w.gate.mayLogin fd then some (fd, mArgs) else none := by rw [loginOf, hmail]
      rw [World.gate, Config.commit_state_same, server_receive_gamegate, Gate.receive, Gate.loginsuc,
        hlogin]
      by_cases hmay : w.gate.mayLogin fd = true
      · rw [if_pos hmay, if_pos hmay]
        -- a socket that may log in is open, and one that has logged in may not
        have hlt : fd < w.gate.nextFd := by
          obtain ⟨conn, hconn, -⟩ := Option.any_eq_true _ _ |>.mp hmay
          exact Gate.lt_nextFd_of_conlist hconn
        refine ⟨?_, fun mArgs' hmem => ?_⟩
        · rw [List.map_append, List.nodup_append]
          refine ⟨hnodup, List.nodup_singleton _, fun fd' hfd' fd'' hfd'' heq => ?_⟩
          obtain ⟨mArgs', hmem, rfl⟩ := List.mem_map.mp hfd'
          have hnot := (hused mArgs' hmem).2
          rw [heq, List.mem_singleton.mp hfd'', hfd] at hnot
          exact Bool.false_ne_true (hnot.symm.trans hmay)
        · rw [Outcome.done_state, Gate.mayLogin_setLogin]
          rcases List.mem_append.mp hmem with hmem | hmem
          · exact ⟨(hused mArgs' hmem).1, by rw [(hused mArgs' hmem).2]; rfl⟩
          · rw [List.mem_singleton.mp hmem]
            exact ⟨hfd ▸ hlt, by simp [hfd]⟩
      · rw [if_neg hmay, if_neg hmay]
        simpa using ⟨hnodup, hused⟩
    · have hnone : loginOf w (.deliver a i) = none := by
        cases a with
        | gamegate => exact absurd rfl ha
        | gamelogin | agent | sceneMgr | scene | broadcast | socket => rfl
      rw [hnone, World.gate, Config.commit_state_ne _ _ _ _ (Ne.symm ha)]
      simpa using ⟨hnodup, hused⟩
  · intro tr (w : World) a x i hrun hw
    obtain ⟨hnodup, hused⟩ := hw
    have hnone : loginOf w (.act a x i) = none := rfl
    rw [logins_snoc, hnone, Option.toList_none, List.map_nil, List.append_nil]
    refine ⟨hnodup, fun mArgs hmem => ?_⟩
    by_cases ha : a = .gamegate
    · subst ha
      rw [World.gate, Config.commit_state_same, server_act_gamegate]
      -- nor does the gate let it log in again later
      exact Gate.mayLogin_act (hused mArgs hmem).1 (hused mArgs hmem).2 _ x
    · rw [World.gate, Config.commit_state_ne _ _ _ _ (Ne.symm ha)]
      exact hused mArgs hmem

/-- **The gate starts a session for each login**, at the agent of its pid. -/
theorem starts_sent (h : ServerRun tr w) (n : ℕ) :
    (server.sent (.agent n) tr).filterMap AgentMsg.startFd
      = ((logins tr).filter fun mArgs => mArgs.agent = n).map LoginArgs.fd := by
  refine invariant (P := fun tr (_ : World) => (server.sent (.agent n) tr).filterMap AgentMsg.startFd
    = ((logins tr).filter fun mArgs => mArgs.agent = n).map LoginArgs.fd) rfl ?_ ?_ h
  · intro tr (w : World) a i m rest hrun hw hmail
    rw [server.sent_deliver _ hmail, logins_snoc, List.filterMap_append, List.filter_append,
      List.map_append, hw]
    refine congrArg (_ ++ ·) ?_
    cases a with
    | gamegate =>
        -- the gate starts the session of a login that it lets through
        obtain ⟨fd, mArgs⟩ := m
        have hlogin : loginOf w (.deliver .gamegate i)
            = if w.gate.mayLogin fd then some (fd, mArgs) else none := by rw [loginOf, hmail]
        rw [hlogin, server_receive_gamegate, Gate.receive, Gate.loginsuc]
        by_cases hmay : w.gate.mayLogin fd = true
        · rw [if_pos hmay, if_pos hmay]
          by_cases hn : mArgs.agent = n
          · subst hn
            rw [Outcome.done_sent, lettersTo_cons_same, lettersTo_nil]
            simp [AgentMsg.startFd]
          · rw [Outcome.done_sent, lettersTo_cons_ne (by simpa using hn), lettersTo_nil]
            simp [hn]
        · rw [if_neg hmay, if_neg hmay]
          rfl
    | sceneMgr =>
        refine List.filterMap_eq_nil_iff.mpr fun m' hm' => ?_
        -- the scene manager starts no session
        obtain ⟨obj, gameId, scene, rfl⟩ := sceneMgr_writes_entered hm'
        rfl
    | gamelogin | agent k | scene k | broadcast k | socket k =>
        rw [lettersTo_receive rfl]
        rfl
  · intro tr (w : World) a x i hrun hw
    have hnone : loginOf w (.act a x i) = none := rfl
    rw [server.sent_act, logins_snoc, hnone, List.filterMap_append, hw, Option.toList_none, List.map_nil,
      List.append_nil]
    refine (congrArg (_ ++ ·) ?_).trans (List.append_nil _)
    cases a with
    | gamegate =>
        refine List.filterMap_eq_nil_iff.mpr fun m' hm' => ?_
        rcases Gate.writes_of_act hm' with ⟨_, _, _, -, -, rfl⟩ | ⟨_, _, -, rfl⟩
        · rfl
        · rfl
    | agent k | scene k =>
        rw [lettersTo_act rfl]
        rfl
    | gamelogin | sceneMgr | broadcast k | socket k => cases x

/-- The objects of an agent have the sockets of the sessions that it has started. -/
theorem born_fds (h : ServerRun tr w) (n : ℕ) :
    (w.agent n).born.map Prod.snd = (handled (.agent n) tr).filterMap AgentMsg.startFd := by
  refine invariant (P := fun tr (w : World) =>
    (w.agent n).born.map Prod.snd = (handled (.agent n) tr).filterMap AgentMsg.startFd) rfl ?_ ?_ h
  · intro tr (w : World) a i m rest hrun hw hmail
    by_cases ha : a = .agent n
    · subst ha
      rw [World.agent, Config.commit_state_same, server_receive_agent, Agent.born_receive,
        handled_deliver hmail, List.filterMap_append, ← hw]
      cases m with
      | start pid mArgs => exact List.map_append
      | kick | unpack | entered => exact (List.append_nil _).symm
    · rw [World.agent, Config.commit_state_ne _ _ _ _ (Ne.symm ha), handled_deliver_ne ha]
      exact hw
  · intro tr (w : World) a x i hrun hw
    rw [handled_act]
    by_cases ha : a = .agent n
    · subst ha
      rw [World.agent, Config.commit_state_same, server_act_agent, Agent.born_act]
      exact hw
    · rw [World.agent, Config.commit_state_ne _ _ _ _ (Ne.symm ha)]
      exact hw

/-- **A socket belongs to one object.** -/
theorem born_unique (h : ServerRun tr w) {n n' obj obj' : ℕ} {pid pid' : Pid} {fd : Fd}
    (hobj : (w.agent n).born[obj]? = some (pid, fd))
    (hobj' : (w.agent n').born[obj']? = some (pid', fd)) : n = n' ∧ obj = obj' ∧ pid = pid' := by
  have hfirst : ∀ k, (w.agent k).born.map Prod.snd
      <+: ((logins tr).filter fun mArgs => mArgs.agent = k).map LoginArgs.fd := by
    intro k
    rw [born_fds h, ← starts_sent h]
    obtain ⟨ms, hms⟩ := handled_first h (.agent k)
    exact ⟨ms.filterMap AgentMsg.startFd, by rw [← hms, List.filterMap_append]⟩
  have hlogin : ∀ {k o : ℕ} {q : Pid}, (w.agent k).born[o]? = some (q, fd) →
      ∃ mArgs ∈ logins tr, mArgs.agent = k ∧ mArgs.fd = fd := by
    intro k o q ho
    have hmem : fd ∈ (w.agent k).born.map Prod.snd := by
      exact List.mem_map.mpr ⟨(q, fd), List.mem_of_getElem? ho, rfl⟩
    obtain ⟨mArgs, hmArgs, hfd⟩ := List.mem_map.mp ((hfirst k).subset hmem)
    obtain ⟨hmem, hk⟩ := List.mem_filter.mp hmArgs
    exact ⟨mArgs, hmem, of_decide_eq_true hk, hfd⟩
  obtain ⟨mArgs, hmem, rfl, rfl⟩ := hlogin hobj
  obtain ⟨mArgs', hmem', rfl, hfd⟩ := hlogin hobj'
  obtain rfl := List.inj_on_of_nodup_map (nodup_logins h).1 hmem' hmem hfd
  -- both objects are of one agent, whose objects have different sockets
  have hnodup : ((w.agent mArgs'.agent).born.map Prod.snd).Nodup :=
    (((nodup_logins h).1.sublist (List.filter_sublist.map _))).sublist (hfirst _).sublist
  have hlt : obj < ((w.agent mArgs'.agent).born.map Prod.snd).length := by
    rw [List.length_map]
    exact (List.getElem?_eq_some_iff.mp hobj).1
  have heq : obj = obj' := by
    refine (List.getElem?_inj hlt hnodup).mp ?_
    rw [List.getElem?_map, List.getElem?_map, hobj, hobj']
    rfl
  subst heq
  exact ⟨rfl, rfl, (Prod.mk.inj (Option.some.inj (hobj.symm.trans hobj'))).1⟩

omit [Wire] [ServerConfig] in
/-- The socket of the player of a pid is the one of its object. -/
theorem born_of_current {s : Agent} {pid : Pid} {fd : Fd} (h : s.current pid = some fd) :
    ∃ obj, s.playerlist pid = some obj ∧ s.born[obj]? = some (pid, fd) := by
  obtain ⟨⟨obj, p⟩, hp, rfl⟩ := Option.map_eq_some_iff.mp h
  obtain ⟨hobj, hobjs⟩ := Agent.getPlayer_eq_some.mp hp
  exact ⟨obj, hobj, by rw [Agent.born_getElem? hobjs, Agent.id_getPlayer hp]⟩

/-- A letter to an agent takes no object away. -/
theorem Agent.born_prefix (s : Agent) (n : ℕ) (clk : Clock) (m : AgentMsg) :
    s.born <+: (s.receive n clk m).state.born := by
  rw [born_receive]
  cases m with
  | start pid mArgs => exact List.prefix_append _ _
  | kick | unpack | entered => exact List.prefix_rfl

/-- What a letter makes an agent tell a broadcast service. -/
theorem Agent.broadcast_of_receive {s : Agent} {n : ℕ} {clk : Clock} {m : AgentMsg} {b : ℕ}
    {req : Msg (.broadcast b)} (h : req ∈ lettersTo (.broadcast b) (s.receive n clk m).sent) :
    (∃ pid mArgs, m = .start pid mArgs ∧ req = .registerFd pid mArgs.fd) ∨
      (∃ pid, m = .kick pid ∧ req = .unregisterFd pid) ∨
      ∃ pid msg, m = .unpack pid msg ∧ req ∈ lettersTo (.broadcast b) (s.unpack pid msg clk).sent := by
  cases m with
  | start q mArgs =>
      left
      change req ∈ lettersTo (.broadcast b) (registerFd q mArgs.fd ++ [_]) at h
      rw [mem_lettersTo] at h
      rcases List.mem_append.mp h with h | h
      · obtain ⟨b', -, heq⟩ := List.mem_map.mp h
        cases heq
        exact ⟨q, mArgs, rfl, rfl⟩
      · cases List.mem_singleton.mp h
  | kick q =>
      right
      left
      change req ∈ lettersTo (.broadcast b) (s.kick q).sent at h
      rw [mem_lettersTo, kick] at h
      split at h
      · rcases List.mem_append.mp h with h | h
        · -- leaving the scene goes to the scene
          obtain ⟨x, -, heq⟩ := List.mem_map.mp h
          cases heq
        · obtain ⟨b', -, heq⟩ := List.mem_map.mp h
          cases heq
          exact ⟨q, rfl, rfl⟩
      · cases h
  | unpack q msg => exact Or.inr (Or.inr ⟨q, msg, rfl, h⟩)
  | entered => cases h

/-- No event takes an object away. -/
theorem born_deliver {w : World} {a : Addr} {i : Inputs} {m : Msg a} {rest : List (Msg a)}
    {n obj : ℕ} {x : Pid × Fd} (h : (w.agent n).born[obj]? = some x) :
    (World.agent (w.commit a rest (server.receive a i (w.state a) m)) n).born[obj]? = some x := by
  by_cases ha : a = .agent n
  · subst ha
    rw [World.agent, Config.commit_state_same, server_receive_agent]
    obtain ⟨more, hmore⟩ := Agent.born_prefix (w.agent n) n i.clk m
    rw [← hmore, List.getElem?_append_left (List.getElem?_eq_some_iff.mp h).1]
    exact h
  · rw [World.agent, Config.commit_state_ne _ _ _ _ (Ne.symm ha)]
    exact h

theorem born_act {w : World} {a : Addr} {i : Inputs} {x : Act a} {n obj : ℕ} {y : Pid × Fd}
    (h : (w.agent n).born[obj]? = some y) :
    (World.agent (w.commit a (w.mail a) (server.act a i (w.state a) x)) n).born[obj]? = some y := by
  by_cases ha : a = .agent n
  · subst ha
    rw [World.agent, Config.commit_state_same, server_act_agent, Agent.born_act]
    exact h
  · rw [World.agent, Config.commit_state_ne _ _ _ _ (Ne.symm ha)]
    exact h

/-- The sockets that the maps were told of are those of objects. -/
theorem born_of_register (h : ServerRun tr w) {b : ℕ} {pid : Pid} {fd : Fd}
    (hm : .registerFd pid fd ∈ server.sent (.broadcast b) tr) :
    ∃ n obj : ℕ, (w.agent n).born[obj]? = some (pid, fd) := by
  revert hm
  refine invariant (P := fun tr (w : World) => .registerFd pid fd ∈ server.sent (.broadcast b) tr →
    ∃ n obj : ℕ, (w.agent n).born[obj]? = some (pid, fd)) ?_ ?_ ?_ h
  · intro hm
    cases hm
  · intro tr (w : World) a i m rest hrun hw hmail hm
    rw [server.sent_deliver _ hmail] at hm
    rcases List.mem_append.mp hm with hm | hm
    · obtain ⟨n, obj, hobj⟩ := hw hm
      exact ⟨n, obj, born_deliver hobj⟩
    · cases a with
      | agent n =>
          rw [server_receive_agent] at hm
          rcases Agent.broadcast_of_receive hm with ⟨q, mArgs, rfl, heq⟩ | ⟨q, -, heq⟩ |
            ⟨q, msg, -, hm⟩
          · -- the object that is made has the next number
            cases heq
            refine ⟨n, (w.agent n).born.length, ?_⟩
            rw [World.agent, Config.commit_state_same, server_receive_agent, Agent.born_receive]
            exact List.getElem?_concat_length
          · cases heq
          · cases Agent.unpack_sends _ hm
      | scene k => cases Scene.receive_sends _ hm
      | gamegate | gamelogin | sceneMgr | broadcast k | socket k =>
          rw [lettersTo_receive rfl] at hm
          cases hm
  · intro tr (w : World) a x i hrun hw hm
    rw [server.sent_act] at hm
    rcases List.mem_append.mp hm with hm | hm
    · obtain ⟨n, obj, hobj⟩ := hw hm
      exact ⟨n, obj, born_act hobj⟩
    · cases a with
      | agent n =>
          obtain ⟨obj⟩ := x
          cases Agent.serverPing_sends _ hm
      | scene k => cases Scene.act_sends _ hm
      | gamegate =>
          rw [lettersTo_act rfl] at hm
          cases hm
      | gamelogin | sceneMgr | broadcast k | socket k => cases x

end Born

/-! ## The log of a socket -/

section Log

variable [Wire] [ServerConfig] {tr : List (World × WorldMove)} {w : World}

/-- A broadcast service has written what its requests made it write. -/
theorem broadcast_served (h : ServerRun tr w) (b : ℕ) : w.state (.broadcast b)
      = (Outcome.after FdMap.receive (fun _ => none) (handled (.broadcast b) tr)).state ∧
    ∀ a, server.sentBy (.broadcast b) a tr
      = lettersTo a (Outcome.after FdMap.receive (fun _ => none) (handled (.broadcast b) tr)).sent :=
  server.served_eq (fun _ _ _ => rfl) h

omit [Wire] [ServerConfig] in
theorem FdMap.after_receive_state (reqs : List BcMsg) :
    (Outcome.after FdMap.receive (fun _ => none) reqs).state = FdMap.after reqs := by
  induction reqs using List.reverseRecOn with
  | nil => rfl
  | append_singleton reqs req ih => rw [Outcome.after_snoc_state, ih, after_append]; rfl

omit [Wire] [ServerConfig] in
/-- What goes to one socket. -/
theorem FdMap.lettersTo_socket (reqs : List BcMsg) (fd : Fd) :
    lettersTo (.socket fd) (Outcome.after FdMap.receive (fun _ => none) reqs).sent
      = writtenTo fd (fun _ => none) reqs := by
  have hone : ∀ xs : List (Fd × ServerMsg),
      lettersTo (Addr.socket fd) (xs.map fun x => (⟨.socket x.1, x.2⟩ : Letter Msg))
        = (xs.filter fun x => x.1 = fd).map Prod.snd := by
    intro xs
    induction xs with
    | nil => rfl
    | cons x xs ih =>
        obtain ⟨fd', m⟩ := x
        by_cases hfd : fd' = fd
        · subst hfd
          rw [List.map_cons, lettersTo_cons_same, ih, List.filter_cons_of_pos (by simp), List.map_cons]
        · rw [List.map_cons, lettersTo_cons_ne (by simpa using hfd), ih,
            List.filter_cons_of_neg (by simpa using hfd)]
  induction reqs using List.reverseRecOn with
  | nil => rfl
  | append_singleton reqs req ih =>
      rw [Outcome.after_snoc_sent, lettersTo_append, ih, writtenTo_append, after_receive_state]
      refine congrArg (_ ++ ·) ?_
      show lettersTo (Addr.socket fd) (((after reqs).writes req).map _) = _ ++ []
      rw [hone, List.append_nil]
      rfl

/-- The game data that a broadcast service was asked to send to `pid` while the map shows `fd`. -/
def delivered (b : ℕ) (pid : Pid) (fd : Fd) (tr : List (World × WorldMove)) : List ServerMsg :=
  FdMap.dataFor pid fd (fun _ => none) (server.sent (.broadcast b) tr)

/-- **The log of a socket.** The game data that a broadcast service wrote to the socket of a player is
what it was asked to send to the player, as far as it has come; and it is all of it when no request
waits. -/
theorem socket_log (h : ServerRun tr w) {pid : Pid} {fd : Fd}
    (hpid : ∀ (q : Pid) (n obj : ℕ), (w.agent n).born[obj]? = some (q, fd) → q = pid) (b : ℕ) :
    ((server.sentBy (.broadcast b) (.socket fd) tr).filter ServerMsg.isGameData
      <+: delivered b pid fd tr) ∧
    (w.mail (.broadcast b) = [] → (server.sentBy (.broadcast b) (.socket fd) tr).filter
      ServerMsg.isGameData = delivered b pid fd tr) := by
  have hreqs : ∀ q, .registerFd q fd ∈ handled (.broadcast b) tr → q = pid := by
    intro q hq
    obtain ⟨n, obj, hobj⟩ := born_of_register h ((handled_first h _).subset hq)
    exact hpid q n obj hobj
  rw [(broadcast_served h b).2, FdMap.lettersTo_socket, FdMap.data_writtenTo hreqs (by simp), delivered,
    ← handled_append h, FdMap.dataFor_append]
  refine ⟨List.prefix_append _ _, fun hmail => ?_⟩
  rw [hmail]
  exact (List.append_nil _).symm

/-! ### What a move adds -/

omit [Wire] [ServerConfig] in
/-- Pings carry no game data. -/
theorem Player.Says.silent {p : Player} {b : ℕ} {req : BcMsg} (hs : Says p ⟨.broadcast b, req⟩)
    (pid : Pid) : req.gameDataTo pid = [] := by
  cases hs
  exact if_neg fun hboth => Bool.false_ne_true hboth.2

/-- An agent that handles a letter sends no game data. -/
theorem Agent.receive_silent (s : Agent) (n : ℕ) (clk : Clock) (m : AgentMsg) (b : ℕ) (pid : Pid) :
    ∀ req ∈ lettersTo (.broadcast b) (s.receive n clk m).sent, req.gameDataTo pid = [] := by
  intro req hreq
  rcases Agent.broadcast_of_receive hreq with ⟨q, mArgs, -, rfl⟩ | ⟨q, -, rfl⟩ | ⟨q, msg, -, hreq⟩
  · rfl
  · rfl
  · rw [mem_lettersTo, unpack] at hreq
    split at hreq
    · rename_i obj p hp
      rcases p.sent_analysis clk msg _ hreq with hsays | ⟨_, _, _, -, -, heq⟩
      · exact hsays.silent pid
      · cases heq
    · cases hreq

omit [ServerConfig] in
/-- Its timers send none. -/
theorem Agent.act_silent (s : Agent) (clk : Clock) (x : AgentAct) (b : ℕ) (pid : Pid) :
    ∀ req ∈ lettersTo (.broadcast b) (s.act clk x).sent, req.gameDataTo pid = [] := by
  intro req hreq
  obtain ⟨obj⟩ := x
  change req ∈ lettersTo (.broadcast b) (s.serverPing obj clk).sent at hreq
  rw [mem_lettersTo, serverPing] at hreq
  split at hreq
  · rename_i p hp
    exact (p.quiet_checkGsPing clk _ hreq).silent pid
  · cases hreq

/-- The requests of a call on a game go to its broadcast service. -/
theorem Scene.call_broadcast (s : Scene) (gameId : GameId) (clk : Clock) (ev : FighterWar.Event) (b : ℕ) :
    lettersTo (.broadcast b) (s.call gameId clk ev).sent
      = if getSceneBroadcast gameId = b then
          (s gameId).elim [] fun game => (game.war.step clk ev).sent
        else [] := by
  rw [call]
  cases s gameId with
  | none => exact (ite_self _).symm
  | some game =>
      show lettersTo (.broadcast b) (toBroadcast gameId (game.war.step clk ev).sent) = _
      rw [toBroadcast]
      split
      · rename_i hb
        subst hb
        exact lettersTo_map_same _ _
      · rename_i hb
        refine lettersTo_eq_nil fun l hl => ?_
        obtain ⟨req, -, rfl⟩ := List.mem_map.mp hl
        simpa using hb

/-- A move that sends no game data for `pid`. -/
theorem delivered_silent {b : ℕ} {pid : Pid} {fd : Fd} {e : WorldMove}
    (h : ∀ req ∈ lettersTo (.broadcast b) (server.emitted w e), req.gameDataTo pid = []) :
    delivered b pid fd (tr ++ [(w, e)]) = delivered b pid fd tr := by
  rw [delivered, server.sent_snoc, FdMap.dataFor_append, FdMap.dataFor_eq_nil h, List.append_nil,
    ← delivered]

/-- **A call on a game reaches the socket of the player.** What it sends to `pid` is delivered to `fd` if
the agent's player of `pid` has this socket. -/
theorem delivered_call (h : ServerRun tr w) {e : WorldMove} {k : ℕ} {g : GameId} {clk : Clock}
    {ev : FighterWar.Event}
    (he : ∀ b, lettersTo (.broadcast b) (server.emitted w e)
      = lettersTo (.broadcast b) (Scene.call (w.state (.scene k)) g clk ev).sent)
    (b : ℕ) (pid : Pid) (fd : Fd) :
    delivered b pid fd (tr ++ [(w, e)]) = delivered b pid fd tr ++
      if getSceneBroadcast g = b ∧ (w.agent (getUserAgent pid)).current pid = some fd then
        gameDataTo pid (((w.state (.scene k) : Scene) g).elim [] fun game => (game.war.step clk ev).sent)
      else [] := by
  have hsends : ∀ req ∈ lettersTo (.broadcast b) (server.emitted w e), req.isSend = true := by
    rw [he]
    exact Scene.call_sends
  rw [delivered, server.sent_snoc, FdMap.dataFor_append, FdMap.dataFor_sends hsends, ← delivered, he,
    Scene.call_broadcast]
  refine congrArg (_ ++ ·) ?_
  by_cases hb : getSceneBroadcast g = b
  · subst hb
    have hmap := fdMap_sent h (getSceneBroadcast_le g) pid
    rw [FdMap.after] at hmap
    rw [hmap, if_pos rfl]
    exact if_congr (and_iff_right rfl).symm rfl rfl
  · rw [if_neg hb, gameDataTo_nil, ite_self]
    exact (if_neg fun hboth => hb hboth.1).symm

end Log

end FrameSync
