import FrameSync.Server.Seats

/-! # The calls that push

Three calls of a scene push an entry of a player: `enter_player`, `leave_player` and `sync_ctrl`. The
scene manager sends the first for each place it hands out, and for nothing else (`enters_sent`); an
agent sends the others for the player that a letter is about (`Agent.pushes_receive`). -/

namespace FrameSync

open Behaviour

/-- The calls of a scene that push an entry of a player. -/
def SceneMsg.pushes : SceneMsg → Bool
  | .enterPlayer .. | .leavePlayer .. | .syncCtrl .. => true
  | .newGame _ | .syncData .. | .c2gsRttData .. | .gameOver _ => false

/-- The letter is an `enter_player`. -/
def SceneMsg.isEnter : SceneMsg → Bool
  | .enterPlayer .. => true
  | .newGame _ | .leavePlayer .. | .syncCtrl .. | .syncData .. | .c2gsRttData .. | .gameOver _ => false

/-- The call puts a player into the game `gameId`. -/
def SceneMsg.enters (gameId : GameId) : SceneMsg → Bool
  | .enterPlayer g _ _ => g = gameId
  | .newGame _ | .leavePlayer .. | .syncCtrl .. | .syncData .. | .c2gsRttData .. | .gameOver _ => false

/-- The `enter_player` for a place. -/
def Seat.enterMsg (x : Seat) : SceneMsg := .enterPlayer x.gameId x.req.pid x.req.mArgs

namespace Agent

/-- The letters an agent sends to scenes that push an entry: the input and the leave of the player the
letter is about. -/
def pushes (s : Agent) : AgentMsg → List (Letter Msg)
  | .kick pid => (s.getPlayer pid).toList.flatMap fun x => x.2.leavewar
  | .unpack pid (.c2gsCtrlData ctrlData) =>
      (s.getPlayer pid).toList.flatMap fun x => x.2.syncCtrl ctrlData
  | .unpack .. | .start .. | .entered .. => []

variable [Wire]

omit [Wire] in
/-- A letter that a player says pushes nothing. -/
theorem not_pushes_of_saying {p : Player} {k : ℕ} {m : SceneMsg} (h : Player.Says p ⟨.scene k, m⟩) :
    m.pushes = false := by
  cases h with
  | syncData | rttData => rfl

/-- What a packet makes a player push. -/
theorem pushes_analysis (p : Player) (clk : Clock) (msg : ClientMsg) (k : ℕ) :
    (lettersTo (.scene k) (p.analysis clk msg).sent).filter SceneMsg.pushes =
      match msg with
      | .c2gsCtrlData ctrlData => lettersTo (.scene k) (p.syncCtrl ctrlData)
      | .c2gsLogin _ | .c2gsPing _ | .c2gsRttData .. | .other => [] := by
  have hquiet : (∀ l ∈ (p.analysis clk msg).sent, Player.Says p l) →
      (lettersTo (.scene k) (p.analysis clk msg).sent).filter SceneMsg.pushes = [] := by
    intro h
    rw [List.filter_eq_nil_iff]
    intro m hm
    rw [not_pushes_of_saying (h _ (mem_lettersTo.mp hm))]
    exact Bool.false_ne_true
  cases msg with
  | c2gsCtrlData ctrlData =>
      refine List.filter_eq_self.mpr fun m hm => ?_
      obtain ⟨x, -, heq⟩ := List.mem_map.mp (mem_lettersTo.mp hm)
      obtain ⟨-, heq⟩ := Sigma.mk.inj heq
      rw [← eq_of_heq heq]
      rfl
  | c2gsPing session => exact hquiet (p.quiet_clientPing session clk)
  | c2gsRttData a b c d =>
      refine hquiet fun l hl => ?_
      rcases p.sent_analysis clk _ l hl with hl | ⟨_, _, _, heq, -⟩
      · exact hl
      · cases heq
  | c2gsLogin _ | other => rfl

variable [ServerConfig]

/-- **What an agent that handles a letter makes the scenes push.** -/
theorem pushes_receive (s : Agent) (n : ℕ) (clk : Clock) (m : AgentMsg) (k : ℕ) :
    (lettersTo (.scene k) (s.receive n clk m).sent).filter SceneMsg.pushes
      = lettersTo (.scene k) (s.pushes m) := by
  cases m with
  | start pid mArgs =>
      show (lettersTo (.scene k) (registerFd pid mArgs.fd ++ [_])).filter SceneMsg.pushes = []
      rw [lettersTo_eq_nil, List.filter_nil]
      intro l hl
      rcases List.mem_append.mp hl with hl | hl
      · obtain ⟨b, -, rfl⟩ := List.mem_map.mp hl
        simp
      · rw [List.mem_singleton.mp hl]
        simp
  | kick pid =>
      show (lettersTo (.scene k) (s.kick pid).sent).filter SceneMsg.pushes = _
      rw [kick, pushes]
      cases hp : s.getPlayer pid with
      | none => rfl
      | some x =>
          -- What goes to the broadcasters is none of the scenes' letters.
          have hnone : lettersTo (.scene k) (unregisterFd pid) = [] := by
            refine lettersTo_eq_nil fun l hl => ?_
            obtain ⟨b, -, rfl⟩ := List.mem_map.mp hl
            simp
          show (lettersTo (.scene k) (x.2.leavewar ++ unregisterFd pid)).filter SceneMsg.pushes = _
          rw [lettersTo_append, hnone, List.append_nil, Option.toList_some, List.flatMap_singleton]
          refine List.filter_eq_self.mpr fun m hm => ?_
          obtain ⟨y, -, heq⟩ := List.mem_map.mp (mem_lettersTo.mp hm)
          obtain ⟨-, heq⟩ := Sigma.mk.inj heq
          rw [← eq_of_heq heq]
          rfl
  | unpack pid msg =>
      show (lettersTo (.scene k) (s.unpack pid msg clk).sent).filter SceneMsg.pushes = _
      rw [unpack]
      cases hp : s.getPlayer pid with
      | none =>
          cases msg with
          | c2gsCtrlData | c2gsPing | c2gsRttData | c2gsLogin | other => simp [pushes, hp]
      | some x =>
          show (lettersTo (.scene k) (x.2.analysis clk msg).sent).filter SceneMsg.pushes = _
          rw [pushes_analysis]
          cases msg with
          | c2gsCtrlData ctrlData => simp [pushes, hp]
          | c2gsPing | c2gsRttData | c2gsLogin | other => rfl
  | entered obj gameId scene => rfl

omit [ServerConfig] in
/-- A timer of an agent makes no scene push anything. -/
theorem pushes_act (s : Agent) (clk : Clock) (x : AgentAct) (k : ℕ) :
    (lettersTo (.scene k) (s.act clk x).sent).filter SceneMsg.pushes = [] := by
  obtain ⟨obj⟩ := x
  rw [List.filter_eq_nil_iff]
  intro m hm
  rw [mem_lettersTo] at hm
  change ⟨.scene k, m⟩ ∈ (s.serverPing obj clk).sent at hm
  rw [serverPing] at hm
  split at hm
  · rename_i p hp
    rw [not_pushes_of_saying (p.quiet_checkGsPing clk _ hm)]
    exact Bool.false_ne_true
  · cases hm

end Agent

/-! ## What the scene manager sends to the scenes -/

/-- The calls of a scene that only the scene manager makes, and its answers. -/
def SceneMsg.ofMgr : SceneMsg → Bool
  | .newGame _ | .enterPlayer .. | .gameOver _ => true
  | .leavePlayer .. | .syncCtrl .. | .syncData .. | .c2gsRttData .. => false

/-- The call makes a game. -/
def SceneMsg.isNewGame : SceneMsg → Bool
  | .newGame _ => true
  | .enterPlayer .. | .leavePlayer .. | .syncCtrl .. | .syncData .. | .c2gsRttData .. | .gameOver _ =>
      false

/-- The letter asks a scene to make a game. -/
def isNewGame : Letter Msg → Bool
  | ⟨.scene _, .newGame _⟩ => true
  | _ => false

section OfMgr

variable [Wire]

theorem Player.not_ofMgr {p : Player} {clk : Clock} {msg : ClientMsg} {k : ℕ} {m : SceneMsg}
    (h : ⟨.scene k, m⟩ ∈ (p.analysis clk msg).sent) : m.ofMgr = false := by
  rcases p.sent_analysis clk msg _ h with h | ⟨_, _, _, -, -, heq⟩
  · cases h with
    | syncData | rttData => rfl
  · rw [eq_of_heq (Sigma.mk.inj heq).2]
    rfl

variable [ServerConfig]

theorem Agent.not_ofMgr {s : Agent} {n : ℕ} {clk : Clock} {m : AgentMsg} {k : ℕ} {m' : SceneMsg}
    (h : m' ∈ lettersTo (.scene k) (s.receive n clk m).sent) : m'.ofMgr = false := by
  rw [mem_lettersTo] at h
  cases m with
  | start pid mArgs =>
      rcases List.mem_append.mp h with h | h
      · obtain ⟨b, -, heq⟩ := List.mem_map.mp h
        cases heq
      · cases List.mem_singleton.mp h
  | kick pid =>
      change ⟨.scene k, m'⟩ ∈ (s.kick pid).sent at h
      rw [kick] at h
      split at h
      · rcases List.mem_append.mp h with h | h
        · obtain ⟨x, -, heq⟩ := List.mem_map.mp h
          rw [← eq_of_heq (Sigma.mk.inj heq).2]
          rfl
        · obtain ⟨b, -, heq⟩ := List.mem_map.mp h
          cases heq
      · cases h
  | unpack pid msg =>
      change ⟨.scene k, m'⟩ ∈ (s.unpack pid msg clk).sent at h
      rw [unpack] at h
      split at h
      · exact Player.not_ofMgr h
      · cases h
  | entered obj gameId scene => cases h

omit [ServerConfig] in
theorem Agent.not_ofMgr_act {s : Agent} {clk : Clock} {x : AgentAct} {k : ℕ} {m' : SceneMsg}
    (h : m' ∈ lettersTo (.scene k) (s.act clk x).sent) : m'.ofMgr = false := by
  obtain ⟨obj⟩ := x
  rw [mem_lettersTo] at h
  change ⟨.scene k, m'⟩ ∈ (s.serverPing obj clk).sent at h
  rw [serverPing] at h
  split at h
  · rename_i p hp
    cases p.quiet_checkGsPing clk _ h with
    | syncData => rfl
    | rttData => rfl
  · cases h

omit [Wire] in
theorem SceneMgr.ofMgr_receive {m : SceneMgr} {msg : MgrMsg} {k : ℕ} {m' : SceneMsg}
    (h : m' ∈ lettersTo (.scene k) (m.receive msg).sent) : m'.ofMgr = true := by
  have hjoin : ∀ proxy req, (⟨.scene k, m'⟩ : Letter Msg) ∈ join proxy req → m'.ofMgr = true := by
    intro proxy req hm
    rcases List.mem_cons.mp hm with hm | hm
    · rw [eq_of_heq (Sigma.mk.inj hm).2]
      rfl
    · cases List.mem_singleton.mp hm
  rw [mem_lettersTo] at h
  cases msg with
  | enterPlayer req =>
      rw [receive, enterPlayer] at h
      split at h
      · exact hjoin _ _ h
      · rw [eq_of_heq (Sigma.mk.inj (List.mem_singleton.mp h)).2]
        rfl
  | newGame gameId =>
      rw [receive, newGame] at h
      split at h
      · exact hjoin _ _ h
      · cases h
  | gameOver n gameId =>
      rw [eq_of_heq (Sigma.mk.inj (List.mem_singleton.mp h)).2]
      rfl

variable {tr : List (World × WorldMove)} {w : World}

/-- **What the scene manager has sent to a scene.** -/
theorem ofMgr_sent (h : ServerRun tr w) (n : ℕ) : (server.sent (.scene n) tr).filter SceneMsg.ofMgr
    = lettersTo (.scene n) (SceneMgr.served (handled .sceneMgr tr)).sent := by
  refine (server.filter_sent (a := Addr.sceneMgr) (b := Addr.scene n) ?_ ?_ tr).trans ?_
  · intro a i s m ha m' hm'
    cases a with
    | agent k => exact Agent.not_ofMgr hm'
    | sceneMgr => exact absurd rfl ha
    | gamegate | gamelogin | scene k | broadcast k | socket k =>
        rw [lettersTo_receive rfl] at hm'
        cases hm'
  · intro a i s x ha m' hm'
    cases a with
    | agent k => exact Agent.not_ofMgr_act hm'
    | gamegate | scene k =>
        rw [lettersTo_act rfl] at hm'
        cases hm'
    | gamelogin | sceneMgr | broadcast k | socket k => cases x
  · rw [(sceneMgr_served h).2]
    refine List.filter_eq_self.mpr fun m hm => ?_
    have hall : ∀ ms, ∀ m ∈ lettersTo (.scene n) (SceneMgr.served ms).sent, m.ofMgr = true := by
      intro ms
      induction ms using List.reverseRecOn with
      | nil => exact fun m hm => nomatch hm
      | append_singleton ms msg ih =>
          intro m hm
          rw [SceneMgr.served_snoc_sent, lettersTo_append] at hm
          exact (List.mem_append.mp hm).elim (ih m) SceneMgr.ofMgr_receive
    exact hall _ m hm

omit [Wire] in
/-- The letters for the places, scene by scene. -/
theorem lettersTo_enter (n : ℕ) (xs : List Seat) : lettersTo (.scene n) (xs.map Seat.enter)
    = (xs.filter fun x => getSceneService x.gameId = n).map Seat.enterMsg := by
  induction xs with
  | nil => rfl
  | cons x xs ih =>
      rw [List.map_cons, Seat.enter, List.filter_cons]
      by_cases hx : getSceneService x.gameId = n
      · subst hx
        rw [lettersTo_cons_same, if_pos (by simp), List.map_cons, ih]
        rfl
      · rw [lettersTo_cons_ne (by simpa using hx), if_neg (by simpa using hx), ih]

/-- **One `enter_player` for each place**, and no other. -/
theorem enters_sent (h : ServerRun tr w) (n : ℕ) :
    (server.sent (.scene n) tr).filter SceneMsg.isEnter
      = ((seated tr).filter fun x => getSceneService x.gameId = n).map Seat.enterMsg := by
  have hfilter : ∀ ls : List (Letter Msg), (lettersTo (.scene n) ls).filter SceneMsg.isEnter
      = lettersTo (.scene n) (ls.filter isEnter) :=
    @filter_lettersTo _ Msg _ (.scene n) SceneMsg.isEnter isEnter fun m => by cases m <;> rfl
  have hkind : (fun m => SceneMsg.isEnter m && SceneMsg.ofMgr m) = SceneMsg.isEnter :=
    funext fun m => by cases m <;> rfl
  have hsent := congrArg (List.filter SceneMsg.isEnter) (ofMgr_sent h n)
  rw [List.filter_filter, hkind, hfilter, (SceneMgr.sound _).enters, lettersTo_enter] at hsent
  exact hsent

omit [Wire] in
/-- The games are asked for by number, each in its scene. -/
theorem SceneMgr.newGames_sent (ms : List MgrMsg) : (served ms).sent.filter isNewGame
    = (List.range' 1 (served ms).state.lastGameId).map
      fun g => ⟨.scene (getSceneService g), .newGame g⟩ := by
  induction ms using List.reverseRecOn with
  | nil => rfl
  | append_singleton ms msg ih =>
      rw [served_snoc_sent, served_snoc_state, List.filter_append, ih]
      have hjoin : ∀ proxy req, (join proxy req).filter isNewGame = [] := fun _ _ => rfl
      cases msg with
      | enterPlayer req =>
          rw [receive, enterPlayer]
          split
          · rw [Outcome.done_sent, hjoin, List.append_nil]
            rfl
          · rw [newProxy, Outcome.done_sent, Outcome.done_state, List.range'_concat, List.map_append,
              Nat.one_mul, Nat.add_comm 1]
            rfl
      | newGame gameId =>
          rw [receive, newGame]
          split
          · rw [Outcome.done_sent, hjoin, List.append_nil]
            rfl
          · rw [Outcome.done_sent, Outcome.done_state, List.filter_nil, List.append_nil]
      | gameOver n gameId => exact List.append_nil _

/-- **Each game is asked for once**, in its scene. -/
theorem newGames_sent (h : ServerRun tr w) (n : ℕ) :
    (server.sent (.scene n) tr).filter SceneMsg.isNewGame
      = ((List.range' 1 w.sceneMgr.lastGameId).filter fun g => getSceneService g = n).map
        .newGame := by
  have hfilter : ∀ ls : List (Letter Msg), (lettersTo (.scene n) ls).filter SceneMsg.isNewGame
      = lettersTo (.scene n) (ls.filter isNewGame) :=
    @filter_lettersTo _ Msg _ (.scene n) SceneMsg.isNewGame isNewGame fun m => by cases m <;> rfl
  have hkind : (fun m => SceneMsg.isNewGame m && SceneMsg.ofMgr m) = SceneMsg.isNewGame :=
    funext fun m => by cases m <;> rfl
  have hsent := congrArg (List.filter SceneMsg.isNewGame) (ofMgr_sent h n)
  rw [List.filter_filter, hkind, hfilter, SceneMgr.newGames_sent, ← (sceneMgr_served h).1] at hsent
  rw [hsent]
  generalize List.range' 1 w.sceneMgr.lastGameId = gs
  induction gs with
  | nil => rfl
  | cons g gs ih =>
      rw [List.map_cons, List.filter_cons]
      by_cases hg : getSceneService g = n
      · subst hg
        rw [lettersTo_cons_same, if_pos (by simp), List.map_cons, ih]
      · rw [lettersTo_cons_ne (by simpa using hg), if_neg (by simpa using hg), ih]

/-- A game that was asked for has a number. -/
theorem mem_newGame_sent (h : ServerRun tr w) {k : ℕ} {gameId : GameId}
    (hm : .newGame gameId ∈ server.sent (.scene k) tr) :
    1 ≤ gameId ∧ gameId ≤ w.sceneMgr.lastGameId ∧ getSceneService gameId = k := by
  have hfilter : .newGame gameId ∈ (server.sent (.scene k) tr).filter SceneMsg.isNewGame :=
    List.mem_filter.mpr ⟨hm, rfl⟩
  rw [newGames_sent h] at hfilter
  obtain ⟨g, hg, heq⟩ := List.mem_map.mp hfilter
  obtain rfl := SceneMsg.newGame.inj heq
  obtain ⟨hrange, hscene⟩ := List.mem_filter.mp hg
  obtain ⟨hpos, hle⟩ := List.mem_range'_1.mp hrange
  exact ⟨hpos, Nat.lt_one_add_iff.mp hle, by simpa using hscene⟩

end OfMgr

end FrameSync
