import FrameSync.Server.Games

/-! # Games that are over

A game that is empty when `CheckOver` fires is reported over. After the answer nobody enters it, in
every run (`no_enter_after_gameOver`). But the look into the game and the removal from the list of open
games are a call apart: a player who is on the way to the game when the timer fires, or who is sent to
it while the report waits, is in a game that is over (`enters_over_game`). These two are all that can go
wrong (`nobody_enters_finished`). -/

namespace FrameSync

open Behaviour

section Finished

variable [Wire] [ServerConfig] {tr : List (World × WorldMove)} {w : World}

/-- A scene reports a game over that it has and that is empty. -/
theorem Scene.game_of_reported {s : Scene} {n : ℕ} {clk : Clock} {x : SceneAct} {n' : ℕ} {g : GameId}
    (hm : .gameOver n' g ∈ lettersTo .sceneMgr (s.act n clk x).sent) : x = .checkOver g ∧ n' = n ∧
      ∃ game, s g = some game ∧ game.checkOver = true ∧ game.war.players.keys = [] := by
  obtain ⟨gameId, rfl, heq⟩ := Scene.lettersTo_sceneMgr_act s n clk x _ hm
  obtain ⟨rfl, rfl⟩ := MgrMsg.gameOver.inj heq
  rw [mem_lettersTo, act, Outcome.done_sent, checkOver] at hm
  split at hm
  · rename_i game hgame
    split at hm
    · rename_i hover
      exact ⟨rfl, rfl, game, hgame, hover⟩
    · cases hm
  · cases hm

/-- A place is sent to its scene. -/
theorem seat_of_enters (h : ServerRun tr w) {msg : MgrMsg} {k : ℕ} {g : GameId} {m : SceneMsg}
    (hm : m ∈ lettersTo (.scene k) (w.sceneMgr.receive msg).sent) (henters : m.enters g = true) :
    ∃ x ∈ w.sceneMgr.seats msg, x.gameId = g := by
  cases m with
  | enterPlayer gameId pid mArgs =>
      obtain rfl := of_decide_eq_true henters
      rw [mem_lettersTo, (sceneMgr_served h).1] at hm
      have hmem := List.mem_filter.mpr ⟨hm, (rfl : isEnter ⟨.scene k, .enterPlayer gameId pid mArgs⟩ = true)⟩
      rw [(SceneMgr.sent_seats _ msg).1, ← (sceneMgr_served h).1] at hmem
      obtain ⟨x, hx, heq⟩ := List.mem_map.mp hmem
      obtain ⟨haddr, hmsg⟩ := Sigma.mk.inj heq
      obtain rfl := Addr.scene.inj haddr
      exact ⟨x, hx, (SceneMsg.enterPlayer.inj (eq_of_heq hmsg)).1⟩
  | newGame | leavePlayer | syncCtrl | syncData | c2gsRttData | gameOver => cases henters

omit [Wire] [ServerConfig] in
/-- Nobody but the scene manager sends an `enter_player`. -/
theorem not_enters_of_not_ofMgr {m : SceneMsg} (h : m.ofMgr = false) (g : GameId) :
    m.enters g = false := by
  cases m with
  | newGame | enterPlayer | gameOver => cases h
  | leavePlayer | syncCtrl | syncData | c2gsRttData => rfl

/-! ## Reports and answers -/

/-- The reports so far are of games that are there, by their scenes. -/
theorem game_of_gameOver (h : ServerRun tr w) {n : ℕ} {g : GameId}
    (hm : .gameOver n g ∈ server.sent .sceneMgr tr) :
    n = getSceneService g ∧ .newGame g ∈ handled (.scene (getSceneService g)) tr := by
  revert n g
  refine invariant (P := fun tr (_ : World) => ∀ {n : ℕ} {g : GameId},
    .gameOver n g ∈ server.sent .sceneMgr tr →
      n = getSceneService g ∧ .newGame g ∈ handled (.scene (getSceneService g)) tr) ?_ ?_ ?_ h
  · intro n g hm
    cases hm
  · intro tr (w : World) a i m rest hrun hw hmail n g hm
    -- what was handled before stays handled
    have keep : .gameOver n g ∈ server.sent .sceneMgr tr → n = getSceneService g ∧
        .newGame g ∈ handled (.scene (getSceneService g)) (tr ++ [(w, .deliver a i)]) := by
      intro hm
      rw [handled_snoc]
      exact ⟨(hw hm).1, List.mem_append_left _ (hw hm).2⟩
    rw [server.sent_deliver _ hmail] at hm
    rcases List.mem_append.mp hm with hm | hm
    · exact keep hm
    · cases a with
      | agent k =>
          rw [server_receive_agent, Agent.lettersTo_sceneMgr] at hm
          cases m with
          | start => cases List.mem_singleton.mp hm
          | kick | unpack | entered => cases hm
      | scene k =>
          rw [server_receive_scene, Scene.lettersTo_sceneMgr] at hm
          cases m with
          | newGame gameId => cases List.mem_singleton.mp hm
          | enterPlayer | leavePlayer | syncCtrl | syncData | c2gsRttData | gameOver => cases hm
      | gamegate | gamelogin | sceneMgr | broadcast k | socket k =>
          rw [lettersTo_receive rfl] at hm
          cases hm
  · intro tr (w : World) a x i hrun hw n g hm
    rw [server.sent_act] at hm
    rw [handled_act]
    rcases List.mem_append.mp hm with hm | hm
    · exact hw hm
    · cases a with
      | agent k =>
          rw [server_act_agent, Agent.lettersTo_sceneMgr_act] at hm
          cases hm
      | scene k =>
          -- a scene reports a game that it has, so it was told to make it
          obtain ⟨-, rfl, game, hgame, -⟩ := Scene.game_of_reported hm
          have hmem := (game_isSome_iff hrun n g).mp (by rw [hgame]; rfl)
          have hsent := (handled_first hrun _).subset hmem
          obtain ⟨-, -, rfl⟩ := mem_newGame_sent hrun hsent
          exact ⟨rfl, hmem⟩
      | gamegate =>
          rw [lettersTo_act rfl] at hm
          cases hm
      | gamelogin | sceneMgr | broadcast k | socket k => cases x

/-- A scene that made a game has said so. -/
theorem newGame_told (h : ServerRun tr w) {k : ℕ} {g : GameId} (hm : .newGame g ∈ handled (.scene k) tr) :
    .newGame g ∈ server.sent .sceneMgr tr := by
  revert k g
  refine invariant (P := fun tr (_ : World) => ∀ {k : ℕ} {g : GameId},
    .newGame g ∈ handled (.scene k) tr → .newGame g ∈ server.sent .sceneMgr tr) ?_ ?_ ?_ h
  · intro k g hm
    cases hm
  · intro tr (w : World) a i m rest hrun hw hmail k g hm
    rw [server.sent_deliver _ hmail]
    by_cases ha : a = .scene k
    · subst ha
      rw [handled_deliver hmail] at hm
      rcases List.mem_append.mp hm with hm | hm
      · exact List.mem_append_left _ (hw hm)
      · obtain rfl := List.mem_singleton.mp hm
        rw [server_receive_scene, Scene.lettersTo_sceneMgr]
        exact List.mem_append_right _ (List.mem_singleton_self _)
    · rw [handled_deliver_ne ha] at hm
      exact List.mem_append_left _ (hw hm)
  · intro tr (w : World) a x i hrun hw k g hm
    rw [handled_act] at hm
    rw [server.sent_act]
    exact List.mem_append_left _ (hw hm)

/-- A game is reported over after it was said to be there. -/
theorem gameOver_after_newGame (h : ServerRun tr w) : (server.sent .sceneMgr tr).Pairwise
    fun m m' => ∀ n g, m = .gameOver n g → m' ≠ .newGame g := by
  refine invariant (P := fun tr (_ : World) => (server.sent .sceneMgr tr).Pairwise
    fun m m' => ∀ n g, m = .gameOver n g → m' ≠ .newGame g) List.Pairwise.nil ?_ ?_ h
  · intro tr (w : World) a i m rest hrun hw hmail
    rw [server.sent_deliver _ hmail]
    cases a with
    | agent k =>
        rw [server_receive_agent, Agent.lettersTo_sceneMgr]
        cases m with
        | start pid mArgs =>
            refine List.pairwise_append.mpr ⟨hw, List.pairwise_singleton _ _, ?_⟩
            rintro m - m' hm' n g - rfl
            cases List.mem_singleton.mp hm'
        | kick | unpack | entered => rwa [List.append_nil]
    | scene k =>
        rw [server_receive_scene, Scene.lettersTo_sceneMgr]
        cases m with
        | newGame gameId =>
            refine List.pairwise_append.mpr ⟨hw, List.pairwise_singleton _ _, ?_⟩
            rintro m hm m' hm' n g rfl rfl
            obtain rfl := MgrMsg.newGame.inj (List.mem_singleton.mp hm')
            -- the game was not there before this call
            have hmade := (game_isSome_iff hrun _ _).mpr (game_of_gameOver hrun hm).2
            obtain ⟨rfl, hnone⟩ := newGame_fresh hrun hmail
            change ((w.state (.scene (getSceneService g)) : Scene) g) = none at hnone
            rw [hnone] at hmade
            cases hmade
        | enterPlayer | leavePlayer | syncCtrl | syncData | c2gsRttData | gameOver =>
            rwa [List.append_nil]
    | gamegate | gamelogin | sceneMgr | broadcast k | socket k =>
        rwa [lettersTo_receive rfl, List.append_nil]
  · intro tr (w : World) a x i hrun hw
    rw [server.sent_act]
    have hnew : ∀ m' ∈ lettersTo .sceneMgr (server.act a i (w.state a) x).sent, ∀ g, m' ≠ .newGame g := by
      rintro m' hm' g rfl
      cases a with
      | agent k =>
          rw [server_act_agent, Agent.lettersTo_sceneMgr_act] at hm'
          cases hm'
      | scene k =>
          obtain ⟨gameId, -, heq⟩ := Scene.lettersTo_sceneMgr_act _ _ _ _ _ hm'
          cases heq
      | gamegate =>
          rw [lettersTo_act rfl] at hm'
          cases hm'
      | gamelogin | sceneMgr | broadcast k | socket k => cases x
    refine List.pairwise_append.mpr ⟨hw, ?_, fun m _ m' hm' n g _ => hnew m' hm' g⟩
    exact List.pairwise_of_forall_mem_list fun m _ m' hm' n g _ => hnew m' hm' g

/-- A game that is reported over next was said to be there before. -/
theorem newGame_handled (h : ServerRun tr w) {n : ℕ} {g : GameId} {rest : List MgrMsg}
    (hmail : w.mail .sceneMgr = .gameOver n g :: rest) : .newGame g ∈ handled .sceneMgr tr := by
  have hover := mem_sent_of_mail h hmail
  have hsent := newGame_told h (game_of_gameOver h hover).2
  have hlog := handled_append h .sceneMgr
  have horder := gameOver_after_newGame h
  rw [← hlog, hmail] at hsent horder
  rcases List.mem_append.mp hsent with hmem | hmem
  · exact hmem
  · rcases List.mem_cons.mp hmem with heq | hmem
    · cases heq
    · have htail := (List.pairwise_cons.mp (List.pairwise_append.mp horder).2.1).1
      exact absurd rfl (htail _ hmem n g rfl)

omit [Wire] in
/-- A game that is there is not being made. -/
theorem SceneMgr.notMem_creating_newGame {m : SceneMgr} {g : GameId}
    (hnodup : (m.creating.map Creating.gameId).Nodup) :
    g ∉ (m.receive (.newGame g)).state.creating.map Creating.gameId := by
  rw [receive, newGame]
  cases hfind : m.creating.find? fun c => c.gameId = g with
  | none =>
      intro hmem
      obtain ⟨c, hc, heq⟩ := List.mem_map.mp hmem
      exact List.find?_eq_none.mp hfind c hc (by simpa using heq)
  | some c =>
      have hc : c ∈ m.creating := List.mem_of_find?_eq_some hfind
      obtain rfl : c.gameId = g := by simpa using List.find?_some hfind
      have hperm := ((List.perm_cons_erase hc).map Creating.gameId).nodup_iff.mp hnodup
      exact (List.nodup_cons.mp hperm).1

omit [Wire] in
/-- The scene manager answers a report of the game. -/
theorem SceneMgr.gameOver_of_answer {m : SceneMgr} {msg : MgrMsg} {k : ℕ} {g : GameId}
    (hm : .gameOver g ∈ lettersTo (.scene k) (m.receive msg).sent) : msg = .gameOver k g := by
  have hjoin : ∀ proxy req, (⟨.scene k, .gameOver g⟩ : Letter Msg) ∉ join proxy req := by
    intro proxy req hmem
    rcases List.mem_cons.mp hmem with heq | hmem
    · cases heq
    · cases List.mem_singleton.mp hmem
  rw [mem_lettersTo] at hm
  cases msg with
  | enterPlayer req =>
      rw [receive, enterPlayer] at hm
      split at hm
      · exact absurd hm (hjoin _ _)
      · cases List.mem_singleton.mp hm
  | newGame gameId =>
      rw [receive, newGame] at hm
      split at hm
      · exact absurd hm (hjoin _ _)
      · cases hm
  | gameOver n gameId =>
      obtain ⟨haddr, hmsg⟩ := Sigma.mk.inj (List.mem_singleton.mp hm)
      obtain rfl := Addr.scene.inj haddr
      rw [SceneMsg.gameOver.inj (eq_of_heq hmsg)]

/-- A game that was said to be there is not being made. -/
theorem not_creating (h : ServerRun tr w) {g : GameId} (hm : .newGame g ∈ handled .sceneMgr tr) :
    g ≤ w.sceneMgr.lastGameId ∧ g ∉ w.sceneMgr.creating.map Creating.gameId := by
  revert g
  refine invariant (P := fun tr (w : World) => ∀ {g : GameId}, .newGame g ∈ handled .sceneMgr tr →
    g ≤ w.sceneMgr.lastGameId ∧ g ∉ w.sceneMgr.creating.map Creating.gameId) ?_ ?_ ?_ h
  · intro g hm
    cases hm
  · intro tr (w : World) a i m rest hrun hw hmail g hm
    by_cases ha : a = .sceneMgr
    · subst ha
      rw [handled_deliver hmail] at hm
      rw [World.sceneMgr, Config.commit_state_same, server_receive_sceneMgr]
      rcases List.mem_append.mp hm with hm | hm
      · -- a game that was made gets no number that is asked for later
        obtain ⟨hle, hnot⟩ := hw hm
        exact ⟨hle.trans SceneMgr.lastGameId_le_receive,
          fun hmem => hnot (SceneMgr.mem_creating_of_receive hle hmem)⟩
      · -- the call that waited for it goes on now
        obtain rfl := List.mem_singleton.mp hm
        have hanswer := newGame_answered hrun (mem_sent_of_mail hrun hmail)
        have hle := (mem_newGame_sent hrun ((handled_first hrun _).subset hanswer)).2.1
        refine ⟨hle.trans SceneMgr.lastGameId_le_receive, ?_⟩
        exact SceneMgr.notMem_creating_newGame (List.nodup_append.mp (sound_run hrun).nodup).2.1
    · rw [handled_deliver_ne ha] at hm
      rw [World.sceneMgr, Config.commit_state_ne _ _ _ _ (Ne.symm ha)]
      exact hw hm
  · intro tr (w : World) a x i hrun hw g hm
    rw [handled_act] at hm
    have ha : a ≠ .sceneMgr := by
      rintro rfl
      cases x
    rw [World.sceneMgr, Config.commit_state_ne _ _ _ _ (Ne.symm ha)]
    exact hw hm

/-- A game whose report was answered is retired. -/
theorem retired_of_gameOver (h : ServerRun tr w) {k : ℕ} {g : GameId}
    (hm : .gameOver g ∈ server.sent (.scene k) tr) : w.sceneMgr.Retired g := by
  revert k g
  refine invariant (P := fun tr (w : World) => ∀ {k : ℕ} {g : GameId},
    .gameOver g ∈ server.sent (.scene k) tr → w.sceneMgr.Retired g) ?_ ?_ ?_ h
  · intro k g hm
    cases hm
  · intro tr (w : World) a i m rest hrun hw hmail k g hm
    rw [server.sent_deliver _ hmail] at hm
    by_cases ha : a = .sceneMgr
    · subst ha
      rw [World.sceneMgr, Config.commit_state_same, server_receive_sceneMgr]
      rcases List.mem_append.mp hm with hm | hm
      · exact (hw hm).receive m
      · -- the report that is answered now takes the game out of the list
        obtain rfl := SceneMgr.gameOver_of_answer hm
        obtain ⟨hle, hnot⟩ := not_creating hrun (newGame_handled hrun hmail)
        refine ⟨hle, fun hmem => ?_⟩
        rcases List.mem_append.mp hmem with hmem | hmem
        · have hnodup := (List.nodup_append.mp (sound_run hrun).nodup).1
          exact SceneMgr.notMem_delProxy hnodup hmem
        · exact hnot hmem
    · rw [World.sceneMgr, Config.commit_state_ne _ _ _ _ (Ne.symm ha)]
      rcases List.mem_append.mp hm with hm | hm
      · exact hw hm
      · cases a with
        | sceneMgr => exact absurd rfl ha
        | agent n => cases Agent.not_ofMgr hm
        | gamegate | gamelogin | scene n | broadcast n | socket n =>
            rw [lettersTo_receive rfl] at hm
            cases hm
  · intro tr (w : World) a x i hrun hw k g hm
    rw [server.sent_act] at hm
    cases a with
    | agent n =>
        rcases List.mem_append.mp hm with hm | hm
        · exact hw hm
        · cases Agent.not_ofMgr_act hm
    | gamegate | scene n =>
        rcases List.mem_append.mp hm with hm | hm
        · exact hw hm
        · rw [lettersTo_act rfl] at hm
          cases hm
    | gamelogin | sceneMgr | broadcast n | socket n => cases x

/-- **After the answer nobody is sent to the game.** -/
theorem no_enter_after_gameOver (h : ServerRun tr w) (k : ℕ) : (server.sent (.scene k) tr).Pairwise
    fun m m' => ∀ g, m = .gameOver g → m'.enters g = false := by
  refine invariant (P := fun tr (_ : World) => (server.sent (.scene k) tr).Pairwise
    fun m m' => ∀ g, m = .gameOver g → m'.enters g = false) List.Pairwise.nil ?_ ?_ h
  · intro tr (w : World) a i m rest hrun hw hmail
    rw [server.sent_deliver _ hmail]
    cases a with
    | sceneMgr =>
        -- the game would have to be open or being made to get a place
        have hacross : ∀ g, .gameOver g ∈ server.sent (.scene k) tr →
            ∀ m' ∈ lettersTo (.scene k) (w.sceneMgr.receive m).sent, m'.enters g = false := by
          intro g hg m' hm'
          by_contra henters
          obtain ⟨x, hx, rfl⟩ := seat_of_enters hrun hm' (by simpa using henters)
          exact (retired_of_gameOver hrun hg).notMem (SceneMgr.mem_ids_of_seats hx)
        refine List.pairwise_append.mpr ⟨hw, ?_, ?_⟩
        · refine List.pairwise_of_forall_mem_list fun m₁ hm₁ m₂ hm₂ g heq => ?_
          subst heq
          obtain rfl := SceneMgr.gameOver_of_answer hm₁
          by_contra henters
          obtain ⟨x, hx, -⟩ := seat_of_enters hrun hm₂ (by simpa using henters)
          cases hx
        · intro m₁ hm₁ m₂ hm₂ g heq
          subst heq
          exact hacross g hm₁ m₂ hm₂
    | agent n =>
        have hnew : ∀ m' ∈ lettersTo (.scene k) (server.receive (.agent n) i (w.state (.agent n)) m).sent,
            m'.ofMgr = false := fun m' hm' => Agent.not_ofMgr hm'
        refine List.pairwise_append.mpr ⟨hw, ?_, fun m₁ _ m₂ hm₂ g _ => ?_⟩
        · exact List.pairwise_of_forall_mem_list fun m₁ _ m₂ hm₂ g _ =>
            not_enters_of_not_ofMgr (hnew m₂ hm₂) g
        · exact not_enters_of_not_ofMgr (hnew m₂ hm₂) g
    | gamegate | gamelogin | scene n | broadcast n | socket n =>
        rwa [lettersTo_receive rfl, List.append_nil]
  · intro tr (w : World) a x i hrun hw
    rw [server.sent_act]
    cases a with
    | agent n =>
        have hnew : ∀ m' ∈ lettersTo (.scene k) (server.act (.agent n) i (w.state (.agent n)) x).sent,
            m'.ofMgr = false := fun m' hm' => Agent.not_ofMgr_act hm'
        refine List.pairwise_append.mpr ⟨hw, ?_, fun m₁ _ m₂ hm₂ g _ => ?_⟩
        · exact List.pairwise_of_forall_mem_list fun m₁ _ m₂ hm₂ g _ =>
            not_enters_of_not_ofMgr (hnew m₂ hm₂) g
        · exact not_enters_of_not_ofMgr (hnew m₂ hm₂) g
    | gamegate | scene n => rwa [lettersTo_act rfl, List.append_nil]
    | gamelogin | sceneMgr | broadcast n | socket n => cases x

/-! ## Games that are over and empty -/

/-- The letter reports the game `gameId` over. -/
def MgrMsg.reports (gameId : GameId) : MgrMsg → Bool
  | .gameOver _ g => g = gameId
  | .enterPlayer _ | .newGame _ => false

/-- Nobody is on the way to a game that is found empty, and nobody is sent to a game while its report
waits. -/
def timely (w : World) : WorldMove → Bool
  | .act (.scene k) (.checkOver gameId) _ =>
      ((w.state (.scene k) : Scene).checkOver k gameId).isEmpty ||
        (w.mail (.scene k)).all fun m => !m.enters gameId
  | .deliver .sceneMgr _ =>
      ((w.mail .sceneMgr).take 1).all fun m => (w.sceneMgr.seats m).all fun x =>
        (w.mail .sceneMgr).all fun r => !r.reports x.gameId
  | _ => true

/-- A game that is reported over has nobody in it, and nobody on the way. -/
def Deserted (tr : List (World × WorldMove)) (w : World) (gameId : GameId) : Prop :=
  (∀ pid, holder gameId pid (handled (.scene (getSceneService gameId)) tr) = none) ∧
    ∀ m ∈ w.mail (.scene (getSceneService gameId)), m.enters gameId = false

omit [Wire] in
/-- A game that nobody is on the way to stays as it is while nobody is sent to it. -/
theorem Deserted.deliver {g : GameId} (hd : Deserted tr w g) {a : Addr} {i : Inputs} {m : Msg a}
    {rest : List (Msg a)} (hmail : w.mail a = m :: rest) {o : Outcome (State a) (Letter Msg)}
    (hsent : ∀ m' ∈ lettersTo (.scene (getSceneService g)) o.sent, m'.enters g = false) :
    Deserted (tr ++ [(w, .deliver a i)]) (w.commit a rest o) g := by
  obtain ⟨hempty, hcoming⟩ := hd
  by_cases ha : a = .scene (getSceneService g)
  · subst ha
    rw [hmail] at hcoming
    constructor
    · intro pid
      rw [handled_deliver hmail, holder_snoc, hempty]
      have hm := hcoming m List.mem_cons_self
      cases m with
      | enterPlayer gameId q mArgs => exact if_neg fun heq => of_decide_eq_false hm heq.1
      | leavePlayer => exact ite_self _
      | newGame | syncCtrl | syncData | c2gsRttData | gameOver => rfl
    · intro m' hm'
      rw [Config.commit_mail_same] at hm'
      rcases List.mem_append.mp hm' with hm' | hm'
      · exact hcoming m' (List.mem_cons_of_mem _ hm')
      · exact hsent m' hm'
  · refine ⟨fun pid => by rw [handled_deliver_ne ha, hempty], fun m' hm' => ?_⟩
    rw [Config.commit_mail_ne _ _ _ _ (Ne.symm ha)] at hm'
    exact (List.mem_append.mp hm').elim (hcoming m') (hsent m')

omit [Wire] in
theorem Deserted.act {g : GameId} (hd : Deserted tr w g) {a : Addr} {i : Inputs} {x : Act a}
    {o : Outcome (State a) (Letter Msg)}
    (hsent : ∀ m' ∈ lettersTo (.scene (getSceneService g)) o.sent, m'.enters g = false) :
    Deserted (tr ++ [(w, .act a x i)]) (w.commit a (w.mail a) o) g := by
  refine ⟨fun pid => by rw [handled_act, hd.1], fun m' hm' => ?_⟩
  have hmem : m' ∈ w.mail (.scene (getSceneService g)) ++
      lettersTo (.scene (getSceneService g)) o.sent := by
    by_cases ha : a = .scene (getSceneService g)
    · subst ha
      rwa [Config.commit_mail_same] at hm'
    · rwa [Config.commit_mail_ne _ _ _ _ (Ne.symm ha)] at hm'
  exact (List.mem_append.mp hmem).elim (hd.2 m') (hsent m')

/-- While every step is timely, the games whose reports wait are deserted. -/
theorem deserted_of_waiting (h : ServerRun tr w) (htimely : ∀ x ∈ tr, timely x.1 x.2 = true) {n : ℕ}
    {g : GameId} (hm : .gameOver n g ∈ w.mail .sceneMgr) : Deserted tr w g := by
  revert n g
  refine invariant_of_moves (C := fun (w : World) e => timely w e = true)
    (P := fun tr (w : World) => ∀ {n : ℕ} {g : GameId}, .gameOver n g ∈ w.mail .sceneMgr →
      Deserted tr w g) ?_ ?_ ?_ h htimely
  · intro n g hm
    cases hm
  · intro tr (w : World) a i m rest hrun hw hC hmail n g hm
    cases a with
    | sceneMgr =>
        rw [Config.commit_mail_same, lettersTo_receive rfl, List.append_nil] at hm
        have hwaits : .gameOver n g ∈ w.mail .sceneMgr := by
          rw [hmail]
          exact List.mem_cons_of_mem _ hm
        refine (hw hwaits).deliver hmail fun m' hm' => ?_
        -- a place in the game would be handed out while its report waits
        by_contra henters
        obtain ⟨x, hx, rfl⟩ := seat_of_enters hrun hm' (by simpa using henters)
        simp only [timely, hmail, List.take_succ_cons, List.take_zero, List.all_cons, List.all_nil,
          Bool.and_true, Bool.and_eq_true, List.all_eq_true] at hC
        have hno := (hC x hx).2 (.gameOver n x.gameId) hm
        simp [MgrMsg.reports] at hno
    | agent k =>
        have hwaits : .gameOver n g ∈ w.mail .sceneMgr := by
          rw [Config.commit_mail_ne _ _ _ _ (by simp), server_receive_agent,
            Agent.lettersTo_sceneMgr] at hm
          refine (List.mem_append.mp hm).resolve_right fun hm => ?_
          cases m with
          | start => cases List.mem_singleton.mp hm
          | kick | unpack | entered => cases hm
        exact (hw hwaits).deliver hmail fun m' hm' => not_enters_of_not_ofMgr (Agent.not_ofMgr hm') g
    | scene k =>
        have hwaits : .gameOver n g ∈ w.mail .sceneMgr := by
          rw [Config.commit_mail_ne _ _ _ _ (by simp), server_receive_scene,
            Scene.lettersTo_sceneMgr] at hm
          refine (List.mem_append.mp hm).resolve_right fun hm => ?_
          cases m with
          | newGame => cases List.mem_singleton.mp hm
          | enterPlayer | leavePlayer | syncCtrl | syncData | c2gsRttData | gameOver => cases hm
        refine (hw hwaits).deliver hmail fun m' hm' => ?_
        rw [lettersTo_receive rfl] at hm'
        cases hm'
    | gamegate | gamelogin | broadcast k | socket k =>
        rw [Config.commit_mail_ne _ _ _ _ (by simp), lettersTo_receive rfl, List.append_nil] at hm
        refine (hw hm).deliver hmail fun m' hm' => ?_
        rw [lettersTo_receive rfl] at hm'
        cases hm'
  · intro tr (w : World) a x i hrun hw hC n g hm
    cases a with
    | agent k =>
        rw [Config.commit_mail_ne _ _ _ _ (by simp), server_act_agent, Agent.lettersTo_sceneMgr_act,
          List.append_nil] at hm
        exact (hw hm).act fun m' hm' => not_enters_of_not_ofMgr (Agent.not_ofMgr_act hm') g
    | scene k =>
        have hquiet : ∀ m' ∈ lettersTo (.scene (getSceneService g))
            (server.act (.scene k) i (w.state (.scene k)) x).sent, m'.enters g = false := by
          intro m' hm'
          rw [lettersTo_act rfl] at hm'
          cases hm'
        rw [Config.commit_mail_ne _ _ _ _ (by simp), server_act_scene] at hm
        rcases List.mem_append.mp hm with hm | hm
        · exact (hw hm).act hquiet
        · obtain ⟨rfl, rfl, game, hgame, hover, hplayers⟩ := Scene.game_of_reported hm
          have hmade := (game_isSome_iff hrun n g).mp (by rw [hgame]; rfl)
          obtain ⟨-, -, rfl⟩ := mem_newGame_sent hrun ((handled_first hrun _).subset hmade)
          refine Deserted.act ⟨fun pid => ?_, fun m' hm' => ?_⟩ hquiet
          · rw [← fdOf_eq hrun, Scene.fdOf, hgame, Option.bind_some, FighterWar.fdOf_eq_none]
            rw [AList.mem_keys, hplayers]
            exact List.not_mem_nil
          · simp only [timely, Scene.checkOver, hgame, hover, hplayers, and_self, if_true,
              List.isEmpty_cons, Bool.false_or, List.all_eq_true] at hC
            simpa using hC m' hm'
    | gamegate =>
        rw [Config.commit_mail_ne _ _ _ _ (by simp), lettersTo_act rfl, List.append_nil] at hm
        refine (hw hm).act fun m' hm' => ?_
        rw [lettersTo_act rfl] at hm'
        cases hm'
    | gamelogin | sceneMgr | broadcast k | socket k => cases x

/-- **Nobody enters a finished game**, while nobody is on the way to a game that is found empty and
nobody is sent to a game whose report waits. When the scene manager handles the report, the game has no
player and no `enter_player` for it is under way, and after the answer it handles none. -/
theorem nobody_enters_finished (h : ServerRun tr w) (htimely : ∀ x ∈ tr, timely x.1 x.2 = true)
    (g : GameId) :
    (∀ n rest, w.mail .sceneMgr = .gameOver n g :: rest →
      (∃ game, w.game g = some game ∧ game.war.players.keys = []) ∧
        ∀ m ∈ w.mail (.scene (getSceneService g)), m.enters g = false) ∧
    (∀ k ms ms', handled (.scene k) tr = ms ++ .gameOver g :: ms' → ∀ m ∈ ms', m.enters g = false) := by
  constructor
  · intro n rest hmail
    obtain ⟨hempty, hcoming⟩ := deserted_of_waiting h htimely (hmail ▸ List.mem_cons_self)
    refine ⟨?_, hcoming⟩
    have hmade := (game_isSome_iff h _ _).mpr (game_of_gameOver h (mem_sent_of_mail h hmail)).2
    obtain ⟨game, hgame⟩ := Option.isSome_iff_exists.mp hmade
    refine ⟨game, hgame, List.eq_nil_iff_forall_not_mem.mpr fun pid hpid => ?_⟩
    have hnone := hempty pid
    rw [← fdOf_eq h, Scene.fdOf, hgame, Option.bind_some, FighterWar.fdOf_eq_none] at hnone
    exact hnone (AList.mem_keys.mpr hpid)
  · intro k ms ms' hlog m hm
    have horder := (no_enter_after_gameOver h k).sublist (handled_first h (.scene k)).sublist
    rw [hlog] at horder
    exact (List.pairwise_cons.mp (List.pairwise_append.mp horder).2.1).1 m hm g rfl

end Finished

section Late

attribute [local instance] sprotoWire gameConfig

/-- The timer `CheckOver` of the first game fires. -/
def checkFirst : WorldMove := .act (.scene 1) (.checkOver 1) (readings 0)

/-- The only player leaves the first game. -/
def emptied : List WorldMove :=
  [report .open] ++ logIn 1 1 ++ firstEnter 1 ++ [report (.close 1), next (.agent 1), next (.scene 1)]

/-- A second player is on the way to the empty game when the timer fires. -/
def lateComer : List WorldMove :=
  emptied ++ [report .open] ++ logIn 2 2 ++ [next (.agent 2), next .sceneMgr, checkFirst]

/-- **A player enters a game that is over.** The report of the first game is next while an
`enter_player` for it is under way; once both are handled the game has a player and no `CheckOver`. -/
theorem enters_over_game :
    ∃ w : World, runFrom server.step World.init lateComer = some w ∧
      (∃ n rest, w.mail .sceneMgr = .gameOver n 1 :: rest) ∧
      (∃ m ∈ w.mail (.scene 1), m.enters 1 = true) ∧
      ∃ w' : World, runFrom server.step w [next .sceneMgr, next (.scene 1), next (.scene 1)] = some w' ∧
        w'.mail .sceneMgr = [] ∧ w'.mail (.scene 1) = [] ∧
        ∃ game, w'.game 1 = some game ∧ game.checkOver = false ∧ game.war.players.keys = [2] := by
  have hrun : (runFrom server.step World.init lateComer).any (fun (w : World) =>
      decide ((w.mail .sceneMgr).head? = some (.gameOver 1 1)) &&
      (w.mail (.scene 1)).any (SceneMsg.enters 1) &&
      (runFrom server.step w [next .sceneMgr, next (.scene 1), next (.scene 1)]).any
        (fun (w' : World) => (w'.mail .sceneMgr).isEmpty && (w'.mail (.scene 1)).isEmpty &&
          (w'.game 1).any fun game => !game.checkOver && game.war.players.keys = [2])) = true := by
    decide +kernel
  obtain ⟨w, hw, hstate⟩ := Option.any_eq_true _ _ |>.mp hrun
  simp only [Bool.and_eq_true, List.any_eq_true, Option.any_eq_true, List.isEmpty_iff,
    Bool.not_eq_true', decide_eq_true_eq] at hstate
  obtain ⟨⟨hover, henter⟩, w', hw', ⟨hmgr, hscene⟩, game, hgame, hcheck, hplayers⟩ := hstate
  obtain ⟨rest, hmail⟩ := List.head?_eq_some_iff.mp hover
  exact ⟨w, hw, ⟨1, rest, hmail⟩, henter, w', hw', hmgr, hscene, game, hgame, hcheck, hplayers⟩

/-- The first game is empty when it is reported over, if nobody is on the way. -/
theorem nobody_enters_finished_emptied :
    ∃ w : World, runFrom server.step World.init (emptied ++ [checkFirst]) = some w ∧
      ∃ game, w.game 1 = some game ∧ game.war.players.keys = [] := by
  have hrun : (runFrom server.step World.init (emptied ++ [checkFirst])).any (fun (w : World) =>
      decide (w.mail .sceneMgr = [.gameOver 1 1])) = true := by decide +kernel
  obtain ⟨w, hw, hmail⟩ := Option.any_eq_true _ _ |>.mp hrun
  have htimely : ∀ x ∈ traceFrom server.step World.init (emptied ++ [checkFirst]),
      timely x.1 x.2 = true := by decide +kernel
  exact ⟨w, hw, ((nobody_enters_finished (run_of_runFrom hw) htimely 1).1 1 []
    (of_decide_eq_true hmail)).1⟩

end Late

end FrameSync
