import FrameSync.Server.Directory
import FrameSync.Server.Matchmaking

/-! # Places and players

What the scene manager and the agents know of one another over a run. Every `Player` object asks for one
place (`requests_born`), every place is one that an object asked for (`object_of_seat`), and an object knows
its game only from the answer for its place (`isSeat_of_warOf`). Within a game the places are in the order
of the requests (`seats_sublist`), so the player an agent holds has the last place of its pid there. -/

namespace FrameSync

open Behaviour

/-! ## The scene manager in a run -/

section Seated

variable [Wire] [ServerConfig] {tr : List (World × WorldMove)} {w : World}

/-- The scene manager is what its letters make of it, and has sent what they make it send. -/
theorem sceneMgr_served (h : ServerRun tr w) :
    w.sceneMgr = (SceneMgr.served (handled .sceneMgr tr)).state ∧
      ∀ b, server.sentBy .sceneMgr b tr =
        lettersTo b (SceneMgr.served (handled .sceneMgr tr)).sent :=
  server.served_eq (fun _ _ _ => rfl) h

/-- The places handed out in a run. -/
def seated (tr : List (World × WorldMove)) : List Seat := SceneMgr.placed (handled .sceneMgr tr)

/-- The scene manager handles a letter. -/
theorem seated_deliver (h : ServerRun tr w) {i : Inputs} {m : MgrMsg} {rest : List MgrMsg}
    (hmail : w.mail .sceneMgr = m :: rest) :
    seated (tr ++ [(w, .deliver .sceneMgr i)]) = seated tr ++ w.sceneMgr.seats m := by
  rw [seated, handled_deliver hmail, SceneMgr.placed_snoc, ← (sceneMgr_served h).1]
  rfl

omit [Wire] in
theorem seated_deliver_ne {a : Addr} {i : Inputs} (ha : a ≠ .sceneMgr) :
    seated (tr ++ [(w, .deliver a i)]) = seated tr := by
  rw [seated, handled_deliver_ne ha, ← seated]

omit [Wire] in
@[simp] theorem seated_act {a : Addr} {x : Act a} {i : Inputs} :
    seated (tr ++ [(w, .act a x i)]) = seated tr := by
  rw [seated, handled_act, ← seated]

/-- The scene manager of a run is sound. -/
theorem sound_run (h : ServerRun tr w) : SceneMgr.Sound (handled .sceneMgr tr) w.sceneMgr
    (SceneMgr.served (handled .sceneMgr tr)).sent (seated tr) :=
  (sceneMgr_served h).1 ▸ SceneMgr.sound _

omit [Wire] in
/-- What the scene manager sends for the places of a letter: an `enter_player` and an answer each. -/
theorem SceneMgr.sent_seats (ms : List MgrMsg) (msg : MgrMsg) :
    ((served ms).state.receive msg).sent.filter isEnter
        = ((served ms).state.seats msg).map Seat.enter ∧
      ((served ms).state.receive msg).sent.filter isAnswer
        = ((served ms).state.seats msg).map Seat.answer := by
  have h := sound ms
  have h' := sound (ms ++ [msg])
  constructor
  · have henters := h'.enters
    rw [served_snoc_sent, placed_snoc, List.filter_append, List.map_append, h.enters] at henters
    exact List.append_cancel_left henters
  · have hanswers := h'.answers
    rw [served_snoc_sent, placed_snoc, List.filter_append, List.map_append, h.answers] at hanswers
    exact List.append_cancel_left hanswers

/-- The answers are the letters of the scene manager to the agents. -/
theorem mem_answers (h : ServerRun tr w) {msg : MgrMsg} {n : ℕ} {m : AgentMsg}
    (hm : m ∈ lettersTo (.agent n) (w.sceneMgr.receive msg).sent) :
    ∃ x ∈ w.sceneMgr.seats msg, x.req.source = n ∧
      m = .entered x.req.obj x.gameId (getSceneService x.gameId) := by
  obtain ⟨obj, gameId, scene, rfl⟩ := sceneMgr_writes_entered hm
  rw [mem_lettersTo, (sceneMgr_served h).1] at hm
  have hanswer : (⟨.agent n, .entered obj gameId scene⟩ : Letter Msg) ∈
      ((SceneMgr.served (handled .sceneMgr tr)).state.receive msg).sent.filter isAnswer :=
    List.mem_filter.mpr ⟨hm, rfl⟩
  rw [(SceneMgr.sent_seats _ msg).2, ← (sceneMgr_served h).1] at hanswer
  obtain ⟨x, hx, heq⟩ := List.mem_map.mp hanswer
  obtain ⟨haddr, hmsg⟩ := Sigma.mk.inj heq
  obtain rfl := Addr.agent.inj haddr
  exact ⟨x, hx, rfl, (eq_of_heq hmsg).symm⟩

end Seated

/-! ## The objects of an agent -/

namespace Agent

/-- The pids and the sockets of the objects, which they have from the start. -/
def born (s : Agent) : List (Pid × Fd) := s.objs.map fun p => (p.id, p.fd)

theorem born_setObj (s : Agent) (obj : ℕ) (f : Player → Player) (h : ∀ p, (f p).id = p.id)
    (hfd : ∀ p, (f p).fd = p.fd) : (s.setObj obj f h).born = s.born := by
  refine List.ext_getElem? fun o => ?_
  rw [born, born, setObj, List.getElem?_map, List.getElem?_map, List.getElem?_modify]
  by_cases heq : obj = o
  · cases hp : s.objs[o]? with
    | none => rfl
    | some p => simp [heq, h p, hfd p]
  · simp [heq]

theorem born_getElem? {s : Agent} {obj : ℕ} {p : Player} (h : s.objs[obj]? = some p) :
    s.born[obj]? = some (p.id, p.fd) := by
  rw [born, List.getElem?_map, h]
  rfl

theorem length_born (s : Agent) : s.born.length = s.objs.length := List.length_map ..

variable [Wire] [ServerConfig]

/-- Only `start` makes an object. -/
theorem born_receive (s : Agent) (n : ℕ) (clk : Clock) (m : AgentMsg) :
    (s.receive n clk m).state.born =
      match m with
      | .start pid mArgs => s.born ++ [(pid, mArgs.fd)]
      | .kick _ | .unpack .. | .entered .. => s.born := by
  cases m with
  | start pid mArgs => exact List.map_append
  | kick pid =>
      show (s.kick pid).state.born = s.born
      rw [kick]
      split
      · rfl
      · rfl
  | unpack pid msg =>
      show (s.unpack pid msg clk).state.born = s.born
      rw [unpack]
      split
      · exact s.born_setObj _ _ (fun p => (p.keeps_analysis clk msg).id)
          fun p => (p.keeps_analysis clk msg).fd
      · rfl
  | entered obj gameId scene =>
      exact s.born_setObj obj (fun p => { p with war := some (gameId, scene) }) (fun _ => rfl) fun _ => rfl

omit [ServerConfig] in
theorem born_act (s : Agent) (clk : Clock) (x : AgentAct) : (s.act clk x).state.born = s.born := by
  cases x with
  | serverPing obj =>
      show (s.serverPing obj clk).state.born = s.born
      rw [serverPing]
      split
      · exact s.born_setObj _ _ (fun p => (p.keeps_checkGsPing clk).id)
          fun p => (p.keeps_checkGsPing clk).fd
      · rfl

/-- What an agent that handles a letter writes to the scene manager: each new object asks for a place. -/
theorem lettersTo_sceneMgr (s : Agent) (n : ℕ) (clk : Clock) (m : AgentMsg) :
    lettersTo .sceneMgr (s.receive n clk m).sent =
      match m with
      | .start pid mArgs =>
          [.enterPlayer ⟨n, s.objs.length, pid, (Player.init pid mArgs clk.now).packData⟩]
      | .kick _ | .unpack .. | .entered .. => [] := by
  cases m with
  | start pid mArgs =>
      show lettersTo .sceneMgr (registerFd pid mArgs.fd ++ [_]) = _
      rw [lettersTo_append, lettersTo_cons_same, lettersTo_nil, lettersTo_eq_nil, List.nil_append]
      intro l hl
      obtain ⟨b, -, rfl⟩ := List.mem_map.mp hl
      simp
  | kick pid =>
      refine lettersTo_eq_nil fun l hl => ?_
      change l ∈ (s.kick pid).sent at hl
      rw [kick] at hl
      split at hl
      · rcases List.mem_append.mp hl with hl | hl
        · obtain ⟨x, -, rfl⟩ := List.mem_map.mp hl
          simp
        · obtain ⟨b, -, rfl⟩ := List.mem_map.mp hl
          simp
      · cases hl
  | unpack pid msg =>
      refine lettersTo_eq_nil fun l hl => ?_
      change l ∈ (s.unpack pid msg clk).sent at hl
      rw [unpack] at hl
      split at hl
      · rename_i obj p hp
        rcases p.modest_analysis clk msg l hl with hl | ⟨k, hl⟩
        · simp [hl]
        · simp [hl]
      · cases hl
  | entered obj gameId scene => rfl

omit [ServerConfig] in
theorem lettersTo_sceneMgr_act (s : Agent) (clk : Clock) (x : AgentAct) :
    lettersTo .sceneMgr (s.act clk x).sent = [] := by
  refine lettersTo_eq_nil fun l hl => ?_
  obtain ⟨obj⟩ := x
  change l ∈ (s.serverPing obj clk).sent at hl
  rw [serverPing] at hl
  split at hl
  · rename_i p hp
    rcases p.modest_checkGsPing clk l hl with hl | ⟨k, hl⟩
    · simp [hl]
    · simp [hl]
  · cases hl

end Agent

section Requests

variable [Wire] [ServerConfig] {tr : List (World × WorldMove)} {w : World}

theorem Scene.call_sceneMgr {s : Scene} {gameId : GameId} {clk : Clock} {ev : FighterWar.Event} :
    lettersTo .sceneMgr (s.call gameId clk ev).sent = [] := by
  refine lettersTo_eq_nil fun l hl => ?_
  rw [call] at hl
  split at hl
  · obtain ⟨req, -, rfl⟩ := List.mem_map.mp hl
    simp
  · cases hl

/-- What a scene that handles a letter writes to the scene manager: a game it has made. -/
theorem Scene.lettersTo_sceneMgr (s : Scene) (i : Inputs) (m : SceneMsg) :
    lettersTo .sceneMgr (s.receive i m).sent =
      match m with
      | .newGame gameId => [.newGame gameId]
      | .enterPlayer .. | .leavePlayer .. | .syncCtrl .. | .syncData .. | .c2gsRttData ..
      | .gameOver _ => [] := by
  cases m with
  | newGame gameId => rfl
  | c2gsRttData gameId pid =>
      show lettersTo .sceneMgr (s.c2gsRttData gameId pid).sent = []
      rw [c2gsRttData]
      split
      · rfl
      · rfl
  | gameOver gameId => rfl
  | enterPlayer | leavePlayer | syncCtrl | syncData => exact call_sceneMgr

/-- What a scene that acts on a timer writes to the scene manager: a game that is over. -/
theorem Scene.lettersTo_sceneMgr_act (s : Scene) (n : ℕ) (clk : Clock) (x : SceneAct) :
    ∀ m ∈ lettersTo .sceneMgr (s.act n clk x).sent, ∃ gameId, x = .checkOver gameId ∧
      m = .gameOver n gameId := by
  intro m hm
  cases x with
  | frameSkip gameId | syncRtt gameId =>
      rw [act, call_sceneMgr] at hm
      cases hm
  | checkOver gameId =>
      rw [mem_lettersTo, act, Outcome.done_sent, checkOver] at hm
      split at hm
      · split at hm
        · exact ⟨gameId, rfl, eq_of_heq (Sigma.mk.inj (List.mem_singleton.mp hm)).2⟩
        · cases hm
      · cases hm

/-- The calls of `enter_player` of agent `n`. -/
def requestsOf (n : ℕ) (tr : List (World × WorldMove)) : List EnterRequest :=
  ((server.sent .sceneMgr tr).filterMap MgrMsg.request).filter fun req => req.source = n

/-- **Each object of an agent asks for one place**, in order, with its pid and its socket. -/
theorem requests_born (h : ServerRun tr w) (n : ℕ) :
    (requestsOf n tr).map (fun req => (req.pid, req.mArgs.fd)) = (w.agent n).born ∧
      (requestsOf n tr).map EnterRequest.obj = List.range (w.agent n).born.length := by
  refine invariant (P := fun tr (w : World) =>
    (requestsOf n tr).map (fun req => (req.pid, req.mArgs.fd)) = (w.agent n).born ∧
      (requestsOf n tr).map EnterRequest.obj = List.range (w.agent n).born.length) ?_ ?_ ?_ h
  · exact ⟨rfl, rfl⟩
  · intro tr (w : World) a i m rest hrun hw hmail
    -- the new requests are those among the letters to the scene manager
    have hgrow : requestsOf n (tr ++ [(w, .deliver a i)]) = requestsOf n tr
        ++ ((lettersTo .sceneMgr (server.receive a i (w.state a) m).sent).filterMap
          MgrMsg.request).filter fun req => req.source = n := by
      rw [requestsOf, server.sent_deliver _ hmail, List.filterMap_append, List.filter_append, ← requestsOf]
    cases a with
    | agent k =>
        rw [server_receive_agent, Agent.lettersTo_sceneMgr] at hgrow
        by_cases hk : n = k
        · subst hk
          rw [World.agent, Config.commit_state_same, server_receive_agent, Agent.born_receive, hgrow]
          cases m with
          | start pid mArgs =>
              -- an object that is made asks for a place at once, under its own number
              have hone : ([MgrMsg.enterPlayer ⟨n, (w.agent n).objs.length, pid,
                  (Player.init pid mArgs i.clk.now).packData⟩].filterMap MgrMsg.request).filter
                  (fun req => req.source = n) = [⟨n, (w.agent n).objs.length, pid,
                    (Player.init pid mArgs i.clk.now).packData⟩] := by
                simp [MgrMsg.request]
              rw [hone, List.map_append, List.map_append, hw.1, hw.2, List.length_append,
                List.length_singleton, List.range_succ, Agent.length_born]
              exact ⟨rfl, rfl⟩
          | kick | unpack | entered =>
              simp only [List.filterMap_nil, List.filter_nil, List.append_nil]
              exact hw
        · rw [World.agent, Config.commit_state_ne _ _ _ _ (by simpa using hk), hgrow]
          cases m with
          | start pid mArgs =>
              simp only [List.filterMap_cons, MgrMsg.request, List.filterMap_nil]
              -- an object of another agent
              rw [List.filter_cons_of_neg (by simpa using Ne.symm hk), List.filter_nil, List.append_nil]
              exact hw
          | kick | unpack | entered =>
              simp only [List.filterMap_nil, List.filter_nil, List.append_nil]
              exact hw
    | scene k =>
        rw [server_receive_scene, Scene.lettersTo_sceneMgr] at hgrow
        rw [hgrow]
        cases m with
        | newGame | enterPlayer | leavePlayer | syncCtrl | syncData | c2gsRttData | gameOver =>
            simp only [List.filterMap_cons, MgrMsg.request, List.filterMap_nil, List.filter_nil,
              List.append_nil]
            exact hw
    | gamegate | gamelogin | sceneMgr | broadcast k | socket k =>
        rw [hgrow, lettersTo_receive rfl, List.filterMap_nil, List.filter_nil, List.append_nil]
        exact hw
  · intro tr (w : World) a x i hrun hw
    -- by themselves the services ask for no place
    have hgrow : requestsOf n (tr ++ [(w, .act a x i)]) = requestsOf n tr := by
      rw [requestsOf, server.sent_act, List.filterMap_append, List.filter_append, ← requestsOf]
      have hnone : (lettersTo .sceneMgr (server.act a i (w.state a) x).sent).filterMap MgrMsg.request
          = [] := by
        cases a with
        | agent k => rw [server_act_agent, Agent.lettersTo_sceneMgr_act, List.filterMap_nil]
        | scene k =>
            rw [List.filterMap_eq_nil_iff]
            intro m hm
            obtain ⟨gameId, -, rfl⟩ := Scene.lettersTo_sceneMgr_act _ _ _ _ m hm
            rfl
        | gamegate => rw [lettersTo_act rfl, List.filterMap_nil]
        | gamelogin | sceneMgr | broadcast k | socket k => cases x
      rw [hnone, List.filter_nil, List.append_nil]
    rw [hgrow]
    cases a with
    | agent k =>
        by_cases hk : n = k
        · subst hk
          rw [World.agent, Config.commit_state_same, server_act_agent, Agent.born_act]
          exact hw
        · rw [World.agent, Config.commit_state_ne _ _ _ _ (by simpa using hk)]
          exact hw
    | gamegate | scene k => exact hw
    | gamelogin | sceneMgr | broadcast k | socket k => cases x

end Requests

/-! ## The order of the places -/

/-- A list with no two entries of one key, if there are none among the entries of one first part. -/
theorem nodup_map_pair {α β γ : Type} [DecidableEq β] {f : α → β} {g : α → γ} {l : List α}
    (h : ∀ b, ((l.filter fun a => f a = b).map g).Nodup) : (l.map fun a => (f a, g a)).Nodup := by
  induction l with
  | nil => exact List.nodup_nil
  | cons a l ih =>
      rw [List.map_cons, List.nodup_cons]
      constructor
      · intro hmem
        obtain ⟨a', ha', heq⟩ := List.mem_map.mp hmem
        obtain ⟨hf, hg⟩ := Prod.mk.inj heq
        have hdup := h (f a)
        rw [List.filter_cons_of_pos (by simp), List.map_cons, List.nodup_cons] at hdup
        exact hdup.1 (List.mem_map.mpr ⟨a', List.mem_filter.mpr ⟨ha', by simpa using hf⟩, hg⟩)
      · refine ih fun b => ?_
        exact (List.Sublist.map g ((List.sublist_cons_self a l).filter _)).nodup (h b)

/-- **Within a game the places are in the order of the requests.** The request a game was made for
comes before those of everyone who joined it. -/
theorem SceneMgr.seats_sublist [ServerConfig] (ms : List MgrMsg) (g : GameId) :
    (((placed ms).filter fun x => x.gameId = g).map Seat.req).Sublist
      (ms.filterMap MgrMsg.request) := by
  induction ms using List.reverseRecOn with
  | nil => exact List.Sublist.slnil
  | append_singleton ms msg ih =>
      rw [placed_snoc, List.filter_append, List.map_append, List.filterMap_append]
      cases msg with
      | enterPlayer req =>
          refine ih.append ?_
          rw [seats]
          cases (served ms).state.sceneProxyList with
          | nil => exact List.nil_sublist _
          | cons proxy proxies =>
              have hone : ([⟨req, proxy.gameId⟩] : List Seat).map Seat.req
                  = [MgrMsg.enterPlayer req].filterMap MgrMsg.request := rfl
              rw [← hone]
              exact List.Sublist.map _ List.filter_sublist
      | newGame gameId =>
          rw [seats]
          cases hfind : (served ms).state.creating.find? fun c => c.gameId = gameId with
          | none => exact ih.append (List.nil_sublist _)
          | some c =>
              have hc : c ∈ (served ms).state.creating := List.mem_of_find?_eq_some hfind
              obtain rfl : c.gameId = gameId := by simpa using List.find?_some hfind
              by_cases hg : c.gameId = g
              · -- the game has no places yet
                subst hg
                have hnone : (placed ms).filter (fun x => x.gameId = c.gameId) = [] :=
                  List.filter_eq_nil_iff.mpr (List.countP_eq_zero.mp ((sound ms).fresh c hc))
                have hreq : c.req ∈ ms.filterMap MgrMsg.request :=
                  (sound ms).requests.subset (List.mem_append_right _ (List.mem_map_of_mem hc))
                have hone : List.filter (fun x : Seat => x.gameId = c.gameId) [⟨c.req, c.gameId⟩]
                    = [⟨c.req, c.gameId⟩] := by simp
                show (_ ++ (List.filter (fun x : Seat => x.gameId = c.gameId) [⟨c.req, c.gameId⟩]).map
                  Seat.req).Sublist _
                rw [hnone, hone]
                exact List.singleton_sublist.mpr (List.mem_append_left _ hreq)
              · have hnone : List.filter (fun x : Seat => x.gameId = g) [⟨c.req, c.gameId⟩] = [] := by
                  simp [hg]
                show (_ ++ (List.filter (fun x : Seat => x.gameId = g) [⟨c.req, c.gameId⟩]).map
                  Seat.req).Sublist _
                rw [hnone]
                exact ih.append (List.nil_sublist _)
      | gameOver n gameId => exact ih.append (List.nil_sublist _)

section Places

variable [Wire] [ServerConfig] {tr : List (World × WorldMove)} {w : World}

/-- The calls that the scene manager has handled are among those that were made. -/
theorem handled_requests (h : ServerRun tr w) : ((handled .sceneMgr tr).filterMap MgrMsg.request).Sublist
    ((server.sent .sceneMgr tr).filterMap MgrMsg.request) :=
  (handled_first h .sceneMgr).sublist.filterMap _

/-- A place was asked for. -/
theorem request_of_seat (h : ServerRun tr w) {x : Seat} (hx : x ∈ seated tr) :
    x.req ∈ requestsOf x.req.source tr := by
  have hmem := (sound_run h).requests.subset
    (List.mem_append_left _ (List.mem_map_of_mem (f := Seat.req) hx))
  exact List.mem_filter.mpr ⟨(handled_requests h).subset hmem, by simp⟩

/-- The object that asked for a place. -/
theorem object_of_seat (h : ServerRun tr w) {x : Seat} (hx : x ∈ seated tr) :
    ∃ p, (w.agent x.req.source).objs[x.req.obj]? = some p ∧ p.id = x.req.pid ∧
      p.fd = x.req.mArgs.fd := by
  obtain ⟨hborn, hobj⟩ := requests_born h x.req.source
  obtain ⟨k, hk⟩ := List.mem_iff_getElem?.mp (request_of_seat h hx)
  have hrange := congrArg (fun l => l[k]?) hobj
  have hpid := congrArg (fun l => l[k]?) hborn
  simp only [List.getElem?_map, hk, Option.map_some] at hrange hpid
  have hk' : k = x.req.obj := (List.getElem?_eq_some_iff.mp hrange.symm).2 ▸ by simp
  rw [hk', Agent.born, List.getElem?_map] at hpid
  obtain ⟨p, hp, heq⟩ := Option.map_eq_some_iff.mp hpid.symm
  exact ⟨p, hp, congrArg Prod.fst heq, congrArg Prod.snd heq⟩

/-- **Each object has at most one place.** -/
theorem nodup_seated (h : ServerRun tr w) :
    ((seated tr).map fun x => (x.req.source, x.req.obj)).Nodup := by
  have hsent : (((server.sent .sceneMgr tr).filterMap MgrMsg.request).map
      fun req => (req.source, req.obj)).Nodup := by
    refine nodup_map_pair fun n => ?_
    show ((requestsOf n tr).map EnterRequest.obj).Nodup
    rw [(requests_born h n).2]
    exact List.nodup_range
  have hhandled := ((handled_requests h).map fun req => (req.source, req.obj)).nodup hsent
  rw [← ((sound_run h).requests.map _).nodup_iff, List.map_append, List.map_map] at hhandled
  exact (List.nodup_append.mp hhandled).1

/-- The places that agent `n` asked for in a game are in the order of its objects. -/
theorem sorted_seated (h : ServerRun tr w) (g : GameId) (n : ℕ) :
    (((seated tr).filter fun x => x.gameId = g).filter fun x => x.req.source = n).Pairwise
      fun x y => x.req.obj < y.req.obj := by
  have hsub : ((((seated tr).filter fun x => x.gameId = g).filter
      fun x => x.req.source = n).map fun x => x.req.obj).Sublist
      ((requestsOf n tr).map EnterRequest.obj) := by
    have hreqs := (SceneMgr.seats_sublist (handled .sceneMgr tr) g).trans (handled_requests h)
    have hfilter := (hreqs.filter fun req => req.source = n).map EnterRequest.obj
    rw [List.filter_map, List.map_map] at hfilter
    exact hfilter
  have hlt : (requestsOf n tr).map EnterRequest.obj |>.Pairwise (· < ·) := by
    rw [(requests_born h n).2]
    exact List.pairwise_lt_range
  exact List.pairwise_map.mp (hlt.sublist hsub)

end Places

/-! ## The games of the objects -/

namespace Agent

/-- The game and the scene that an object was told. -/
def warOf (s : Agent) (obj : ℕ) : Option (GameId × ℕ) := s.objs[obj]?.bind Player.war

theorem warOf_setObj (s : Agent) (obj obj' : ℕ) (f : Player → Player) (h : ∀ p, (f p).id = p.id)
    (hwar : ∀ p, (f p).war = p.war) : (s.setObj obj f h).warOf obj' = s.warOf obj' := by
  rw [warOf, warOf, setObj, List.getElem?_modify]
  by_cases heq : obj = obj'
  · cases hp : s.objs[obj']? with
    | none => rfl
    | some p => simp [heq, hwar p]
  · simp [heq]

/-- The player of a pid, if there is one, is told a game or not. -/
theorem warOf_getPlayer {s : Agent} {pid : Pid} {obj : ℕ} {p : Player}
    (h : s.getPlayer pid = some (obj, p)) : s.warOf obj = p.war := by
  rw [warOf, (getPlayer_eq_some.mp h).2]
  rfl

variable [Wire] [ServerConfig]

/-- Only the answer of the scene manager tells an object its game. -/
theorem warOf_receive (s : Agent) (n : ℕ) (clk : Clock) (m : AgentMsg) (obj : ℕ) :
    (s.receive n clk m).state.warOf obj =
      match m with
      | .entered obj' gameId scene =>
          if obj' = obj ∧ obj < s.objs.length then some (gameId, scene) else s.warOf obj
      | .start .. | .kick _ | .unpack .. => s.warOf obj := by
  cases m with
  | start pid mArgs =>
      show ((s.objs ++ [Player.init pid mArgs clk.now])[obj]?).bind Player.war = _
      -- a new object knows no game yet
      rcases Nat.lt_trichotomy obj s.objs.length with hlt | rfl | hgt
      · rw [List.getElem?_append_left hlt]
        rfl
      · simp [warOf, Player.init]
      · rw [warOf, List.getElem?_eq_none (by simp; omega), List.getElem?_eq_none (by omega)]
  | kick pid =>
      show (s.kick pid).state.warOf obj = s.warOf obj
      rw [kick]
      split
      · rfl
      · rfl
  | unpack pid msg =>
      show (s.unpack pid msg clk).state.warOf obj = s.warOf obj
      rw [unpack]
      split
      · exact s.warOf_setObj _ _ _ (fun p => (p.keeps_analysis clk msg).id)
          fun p => (p.keeps_analysis clk msg).war
      · rfl
  | entered obj' gameId scene =>
      show ((s.objs.modify obj' fun p => { p with war := some (gameId, scene) })[obj]?).bind _ = _
      -- the answer is kept by the object it names, if there is one
      rw [List.getElem?_modify]
      by_cases heq : obj' = obj
      · subst heq
        by_cases hlt : obj' < s.objs.length
        · simp [hlt]
        · simp [warOf, hlt]
      · simp [warOf, heq]

omit [ServerConfig] in
theorem warOf_act (s : Agent) (clk : Clock) (x : AgentAct) (obj : ℕ) :
    (s.act clk x).state.warOf obj = s.warOf obj := by
  obtain ⟨o⟩ := x
  show (s.serverPing o clk).state.warOf obj = _
  rw [serverPing]
  split
  · exact s.warOf_setObj _ _ _ (fun p => (p.keeps_checkGsPing clk).id)
      fun p => (p.keeps_checkGsPing clk).war
  · rfl

/-- The objects in `playerlist`. -/
theorem playerlist_receive (s : Agent) (n : ℕ) (clk : Clock) (m : AgentMsg) (q : Pid) :
    (s.receive n clk m).state.playerlist q =
      match m with
      | .start pid _ => if q = pid then some s.objs.length else s.playerlist q
      | .kick pid => if q = pid then none else s.playerlist q
      | .unpack .. | .entered .. => s.playerlist q := by
  cases m with
  | start pid mArgs => exact Function.update_apply ..
  | kick pid =>
      show (s.kick pid).state.playerlist q = if q = pid then none else s.playerlist q
      rw [kick]
      split
      · exact Function.update_apply ..
      · rename_i hnone
        split
        · rename_i hq
          subst hq
          -- an entry without an object cannot be
          rw [Outcome.done_state, ← Option.not_isSome_iff_eq_none]
          intro hsome
          obtain ⟨obj, hobj⟩ := Option.isSome_iff_exists.mp hsome
          obtain ⟨p, hp, -⟩ := s.id_eq q obj hobj
          rw [getPlayer_eq_some.mpr ⟨hobj, hp⟩] at hnone
          cases hnone
        · rfl
  | unpack pid msg =>
      show (s.unpack pid msg clk).state.playerlist q = s.playerlist q
      rw [unpack]
      split
      · rfl
      · rfl
  | entered obj gameId scene => rfl

omit [ServerConfig] in
theorem playerlist_act (s : Agent) (clk : Clock) (x : AgentAct) (q : Pid) :
    (s.act clk x).state.playerlist q = s.playerlist q := by
  obtain ⟨o⟩ := x
  show (s.serverPing o clk).state.playerlist q = _
  rw [serverPing]
  split
  · rfl
  · rfl

end Agent

section Wars

variable [Wire] [ServerConfig] {tr : List (World × WorldMove)} {w : World}

omit [Wire] in
/-- The places of a run are places of its continuations. -/
theorem seated_subset_snoc (e : WorldMove) : seated tr ⊆ seated (tr ++ [(w, e)]) := by
  intro x hx
  rw [seated, handled_snoc]
  generalize took Addr.sceneMgr w e = ms
  induction ms using List.reverseRecOn with
  | nil =>
      rw [List.append_nil]
      exact hx
  | append_singleton ms m ih =>
      rw [← List.append_assoc, SceneMgr.placed_snoc]
      exact List.mem_append_left _ ih

/-- The place of an object. -/
def IsSeat (tr : List (World × WorldMove)) (n obj : ℕ) (gameId : GameId) : Prop :=
  ∃ x ∈ seated tr, x.req.source = n ∧ x.req.obj = obj ∧ x.gameId = gameId

omit [Wire] in
theorem IsSeat.snoc {n obj : ℕ} {gameId : GameId} (hx : IsSeat tr n obj gameId) (e : WorldMove) :
    IsSeat (tr ++ [(w, e)]) n obj gameId := by
  obtain ⟨x, hmem, hx⟩ := hx
  exact ⟨x, seated_subset_snoc e hmem, hx⟩

/-- **An answer is about the place of its object.** -/
theorem isSeat_of_entered (h : ServerRun tr w) {n obj : ℕ} {gameId : GameId} {scene : ℕ}
    (hm : .entered obj gameId scene ∈ server.sent (.agent n) tr) :
    IsSeat tr n obj gameId ∧ scene = getSceneService gameId := by
  revert obj gameId scene
  refine invariant (P := fun tr (_ : World) => ∀ {obj : ℕ} {gameId : GameId} {scene : ℕ},
    .entered obj gameId scene ∈ server.sent (.agent n) tr →
      IsSeat tr n obj gameId ∧ scene = getSceneService gameId) ?_ ?_ ?_ h
  · intro obj gameId scene hm
    cases hm
  · intro tr (w : World) a i m rest hrun hw hmail obj gameId scene hm
    rw [server.sent_deliver _ hmail] at hm
    rcases List.mem_append.mp hm with hm | hm
    · exact ⟨(hw hm).1.snoc _, (hw hm).2⟩
    · cases a with
      | sceneMgr =>
          -- the scene manager answers with the place it has just given
          obtain ⟨x, hx, hsource, heq⟩ := mem_answers hrun hm
          obtain ⟨rfl, rfl, rfl⟩ := AgentMsg.entered.inj heq
          refine ⟨⟨x, ?_, hsource, rfl, rfl⟩, rfl⟩
          rw [seated_deliver hrun hmail]
          exact List.mem_append_right _ hx
      | gamegate =>
          obtain ⟨_, _, -, -, -, heq⟩ := Gate.writes_of_receive hm
          cases heq
      | gamelogin | agent k | scene k | broadcast k | socket k =>
          rw [lettersTo_receive rfl] at hm
          cases hm
  · intro tr (w : World) a x i hrun hw obj gameId scene hm
    rw [server.sent_act] at hm
    rcases List.mem_append.mp hm with hm | hm
    · exact ⟨(hw hm).1.snoc _, (hw hm).2⟩
    · cases a with
      | gamegate =>
          rcases Gate.writes_of_act hm with ⟨_, _, _, -, -, heq⟩ | ⟨_, _, -, heq⟩
          · cases heq
          · cases heq
      | agent k | scene k =>
          rw [lettersTo_act rfl] at hm
          cases hm
      | gamelogin | sceneMgr | broadcast k | socket k => cases x

/-- An object knows the game that it was told. -/
theorem entered_of_warOf (h : ServerRun tr w) {n obj : ℕ} {gameId : GameId} {scene : ℕ}
    (hwar : (w.agent n).warOf obj = some (gameId, scene)) :
    .entered obj gameId scene ∈ handled (.agent n) tr := by
  revert gameId scene
  refine invariant (P := fun tr (w : World) => ∀ {gameId : GameId} {scene : ℕ},
    (w.agent n).warOf obj = some (gameId, scene) → .entered obj gameId scene ∈ handled (.agent n) tr)
    ?_ ?_ ?_ h
  · intro gameId scene hwar
    cases hwar
  · intro tr (w : World) a i m rest hrun hw hmail gameId scene hwar
    by_cases ha : a = .agent n
    · subst ha
      rw [World.agent, Config.commit_state_same, server_receive_agent, Agent.warOf_receive] at hwar
      rw [handled_deliver hmail]
      cases m with
      | entered obj' g s =>
          dsimp only at hwar
          split at hwar
          · rename_i hobj
            -- it is told now
            obtain ⟨rfl, rfl⟩ := Prod.mk.inj (Option.some.inj hwar)
            rw [hobj.1]
            exact List.mem_append_right _ (List.mem_singleton_self _)
          · exact List.mem_append_left _ (hw hwar)
      | start | kick | unpack => exact List.mem_append_left _ (hw hwar)
    · rw [World.agent, Config.commit_state_ne _ _ _ _ (Ne.symm ha)] at hwar
      rw [handled_deliver_ne ha]
      exact hw hwar
  · intro tr (w : World) a x i hrun hw gameId scene hwar
    rw [handled_act]
    by_cases ha : a = .agent n
    · subst ha
      rw [World.agent, Config.commit_state_same, server_act_agent, Agent.warOf_act] at hwar
      exact hw hwar
    · rw [World.agent, Config.commit_state_ne _ _ _ _ (Ne.symm ha)] at hwar
      exact hw hwar

/-- **An object knows the game of its place.** -/
theorem isSeat_of_warOf (h : ServerRun tr w) {n obj : ℕ} {gameId : GameId} {scene : ℕ}
    (hwar : (w.agent n).warOf obj = some (gameId, scene)) :
    IsSeat tr n obj gameId ∧ scene = getSceneService gameId :=
  isSeat_of_entered h ((handled_first h _).subset (entered_of_warOf h hwar))

/-- The object of a place is there. -/
theorem lt_length_of_isSeat (h : ServerRun tr w) {n obj : ℕ} {gameId : GameId}
    (hx : IsSeat tr n obj gameId) : obj < (w.agent n).objs.length := by
  obtain ⟨x, hmem, rfl, rfl, -⟩ := hx
  obtain ⟨p, hp, -⟩ := object_of_seat h hmem
  exact (List.getElem?_eq_some_iff.mp hp).1

/-- An object has one place. -/
theorem IsSeat.unique (h : ServerRun tr w) {n obj : ℕ} {g g' : GameId} (hx : IsSeat tr n obj g)
    (hx' : IsSeat tr n obj g') : g = g' := by
  obtain ⟨x, hmem, rfl, rfl, rfl⟩ := hx
  obtain ⟨y, hmem', hsource, hobj, rfl⟩ := hx'
  have heq := List.inj_on_of_nodup_map (nodup_seated h) hmem hmem'
    (Prod.ext hsource.symm hobj.symm)
  rw [heq]

/-- An object that was told its game knows it from then on. -/
theorem warOf_of_entered (h : ServerRun tr w) {n obj : ℕ} {gameId : GameId} {scene : ℕ}
    (hm : .entered obj gameId scene ∈ handled (.agent n) tr) :
    (w.agent n).warOf obj = some (gameId, scene) := by
  revert gameId scene
  refine invariant (P := fun tr (w : World) => ∀ {gameId : GameId} {scene : ℕ},
    .entered obj gameId scene ∈ handled (.agent n) tr →
      (w.agent n).warOf obj = some (gameId, scene)) ?_ ?_ ?_ h
  · intro gameId scene hm
    cases hm
  · intro tr (w : World) a i m rest hrun hw hmail gameId scene hm
    by_cases ha : a = .agent n
    · subst ha
      rw [World.agent, Config.commit_state_same, server_receive_agent, Agent.warOf_receive]
      have hlog := (@handled_next _ _ tr w hrun (.agent n) i m rest hmail).subset
      obtain ⟨hseat, hscene⟩ := isSeat_of_entered hrun (hlog hm)
      cases m with
      | entered obj' g s =>
          dsimp only
          split
          · rename_i hobj
            -- both answers are about the one place of the object
            obtain ⟨hseat', hscene'⟩ := isSeat_of_entered hrun (hlog (by
              rw [handled_deliver hmail]
              exact List.mem_append_right _ (List.mem_singleton_self _)))
            rw [hobj.1] at hseat'
            rw [hscene, hscene', hseat.unique hrun hseat']
          · rename_i hobj
            rw [handled_deliver hmail] at hm
            rcases List.mem_append.mp hm with hm | hm
            · exact hw hm
            · obtain ⟨rfl, rfl, rfl⟩ := AgentMsg.entered.inj (List.mem_singleton.mp hm)
              exact absurd ⟨rfl, lt_length_of_isSeat hrun hseat⟩ hobj
      | start | kick | unpack =>
          rw [handled_deliver hmail] at hm
          rcases List.mem_append.mp hm with hm | hm
          · exact hw hm
          · cases List.mem_singleton.mp hm
    · rw [World.agent, Config.commit_state_ne _ _ _ _ (Ne.symm ha)]
      rw [handled_deliver_ne ha] at hm
      exact hw hm
  · intro tr (w : World) a x i hrun hw gameId scene hm
    rw [handled_act] at hm
    by_cases ha : a = .agent n
    · subst ha
      rw [World.agent, Config.commit_state_same, server_act_agent, Agent.warOf_act]
      exact hw hm
    · rw [World.agent, Config.commit_state_ne _ _ _ _ (Ne.symm ha)]
      exact hw hm

/-- **The player of a pid is its latest object.** -/
theorem latest_playerlist (h : ServerRun tr w) {n : ℕ} {pid : Pid} (obj : ℕ)
    (hobj : (w.agent n).playerlist pid = some obj) (obj' : ℕ) (fd : Fd)
    (hborn : (w.agent n).born[obj']? = some (pid, fd)) : obj' ≤ obj := by
  revert obj obj' fd
  refine invariant (P := fun _ (w : World) => ∀ obj, (w.agent n).playerlist pid = some obj →
    ∀ obj' fd, (w.agent n).born[obj']? = some (pid, fd) → obj' ≤ obj) ?_ ?_ ?_ h
  · intro obj hobj
    cases hobj
  · intro tr (w : World) a i m rest hrun hw hmail
    by_cases ha : a = .agent n
    · subst ha
      rw [World.agent, Config.commit_state_same, server_receive_agent]
      intro obj hobj obj' fd hborn
      rw [Agent.playerlist_receive] at hobj
      rw [Agent.born_receive] at hborn
      cases m with
      | start q mArgs =>
          dsimp only at hobj hborn
          have hlt := (List.getElem?_eq_some_iff.mp hborn).1
          rw [List.length_append, List.length_singleton, Agent.length_born] at hlt
          split at hobj
          · -- the object that is made is the latest of all
            obtain rfl := Option.some.inj hobj
            exact Nat.le_of_lt_succ hlt
          · rename_i hq
            rcases Nat.lt_or_eq_of_le (Nat.le_of_lt_succ hlt) with hlt | rfl
            · rw [List.getElem?_append_left (by rwa [Agent.length_born])] at hborn
              exact hw obj hobj obj' fd hborn
            · rw [← Agent.length_born, List.getElem?_append_right le_rfl] at hborn
              -- the new object is of another pid
              simp only [Nat.sub_self, List.getElem?_cons_zero, Option.some.injEq,
                Prod.mk.injEq] at hborn
              exact absurd hborn.1.symm hq
      | kick q =>
          dsimp only at hobj
          split at hobj
          · cases hobj
          · exact hw obj hobj obj' fd hborn
      | unpack | entered => exact hw obj hobj obj' fd hborn
    · rw [World.agent, Config.commit_state_ne _ _ _ _ (Ne.symm ha)]
      exact hw
  · intro tr (w : World) a x i hrun hw
    by_cases ha : a = .agent n
    · subst ha
      rw [World.agent, Config.commit_state_same, server_act_agent]
      intro obj hobj obj' fd hborn
      rw [Agent.playerlist_act] at hobj
      rw [Agent.born_act] at hborn
      exact hw obj hobj obj' fd hborn
    · rw [World.agent, Config.commit_state_ne _ _ _ _ (Ne.symm ha)]
      exact hw

end Wars

end FrameSync
