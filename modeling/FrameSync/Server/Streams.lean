import FrameSync.Server.Delivery
import FrameSync.Server.Sockets

/-! # The frame stream of a connection

What reaches a socket: the login answer of one game, its cache in chunks, and then its frames, from the
first that is not in the cache on. A request for a player goes to the socket that the agent has for the
pid when it is sent, while the game has the player of a session; the two are the same unless the agent
has started a new session that the game does not know yet. So the stream is whole as long as no game sends
to a session that is not its own (`frame_streams`). -/

namespace FrameSync

open Behaviour

/-! ## Streams -/

/-- The game data that a connection to the game `g` is to be sent while the game makes the frames
`frames`: the login answer with the length of the cache, the cache in chunks, and the other frames. -/
def IsStream (g : GameId) (frames : List FrameInfo) (stream : List ServerMsg) : Prop :=
  ∃ (rndSeed timestamp initTime : ℕ) (chunks : List (List FrameInfo)), chunks.flatten <+: frames ∧
    stream = .gs2cLoginsuc g rndSeed timestamp chunks.flatten.length initTime ::
      (chunks.map .gs2cFrameCacheData ++ (frames.drop chunks.flatten.length).map .gs2cFrameData)

/-- A stream goes on with the frames that the game makes. -/
theorem IsStream.append {g : GameId} {frames : List FrameInfo} {stream : List ServerMsg}
    (h : IsStream g frames stream) (new : List FrameInfo) :
    IsStream g (frames ++ new) (stream ++ new.map .gs2cFrameData) := by
  obtain ⟨rndSeed, timestamp, initTime, chunks, hchunks, rfl⟩ := h
  refine ⟨rndSeed, timestamp, initTime, chunks, hchunks.trans (List.prefix_append _ _), ?_⟩
  rw [List.drop_append_of_le_length hchunks.length_le, List.map_append, List.cons_append,
    List.append_assoc]

section Abstract

variable [ServerConfig]

/-- Where the stream of a socket stands: what the broadcast services were asked to send it, the frames
of the games, the games it has entered, and whether its session is the player. -/
structure Streaming (data : ℕ → List ServerMsg) (frames : GameId → List FrameInfo)
    (entered : GameId → Prop) (live : Prop) : Prop where
  /-- It has entered one game at most. -/
  unique : ∀ g g', entered g → entered g' → g = g'
  /-- It is sent data of the game that it has entered. -/
  source : ∀ b, data b ≠ [] → ∃ g, entered g ∧ getSceneBroadcast g = b
  /-- What it was sent is the first part of a stream of the game. -/
  part : ∀ g, entered g →
    ∃ stream, IsStream g (frames g) stream ∧ data (getSceneBroadcast g) <+: stream
  /-- It is all of it while the session is the player. -/
  whole : ∀ g, entered g → live → IsStream g (frames g) (data (getSceneBroadcast g))

namespace Streaming

variable {data : ℕ → List ServerMsg} {frames : GameId → List FrameInfo} {entered : GameId → Prop}
  {live : Prop}

/-- A session ends, or one that has entered no game begins. -/
theorem session (h : Streaming data frames entered live) {live' : Prop}
    (hlive : ∀ g, entered g → live' → live) : Streaming data frames entered live' :=
  ⟨h.unique, h.source, h.part, fun g hg hl => h.whole g hg (hlive g hg hl)⟩

/-- A game makes frames and sends them to the session, if this is its player. -/
theorem makeFrames (h : Streaming data frames entered live) (g : GameId) (new : List FrameInfo)
    {data' : ℕ → List ServerMsg} {frames' : GameId → List FrameInfo}
    (hframes : ∀ g', frames' g' = if g' = g then frames g ++ new else frames g')
    (hown : live ∧ entered g → data' (getSceneBroadcast g)
      = data (getSceneBroadcast g) ++ new.map .gs2cFrameData)
    (hother : ∀ b, ¬ (live ∧ entered g ∧ getSceneBroadcast g = b) → data' b = data b) :
    Streaming data' frames' entered live := by
  have hdata : ∀ g', entered g' → g' ≠ g →
      data' (getSceneBroadcast g') = data (getSceneBroadcast g') := by
    intro g' hg' hne
    exact hother _ fun hall => hne (h.unique g' g hg' hall.2.1)
  refine ⟨h.unique, fun b hb => ?_, fun g' hg' => ?_, fun g' hg' hlive => ?_⟩
  · by_cases hall : live ∧ entered g ∧ getSceneBroadcast g = b
    · exact ⟨g, hall.2⟩
    · exact h.source b (hother b hall ▸ hb)
  · obtain ⟨stream, hstream, hpart⟩ := h.part g' hg'
    by_cases hg : g' = g
    · subst hg
      rw [hframes, if_pos rfl]
      by_cases hlive : live
      · -- the session has the whole stream, and gets the new frames
        exact ⟨_, (h.whole g' hg' hlive).append new, hown ⟨hlive, hg'⟩ ▸ List.prefix_rfl⟩
      · refine ⟨_, hstream.append new, ?_⟩
        rw [hother _ fun hall => hlive hall.1]
        exact hpart.trans (List.prefix_append _ _)
    · rw [hframes, if_neg hg, hdata g' hg' hg]
      exact ⟨stream, hstream, hpart⟩
  · by_cases hg : g' = g
    · subst hg
      rw [hframes, if_pos rfl, hown ⟨hlive, hg'⟩]
      exact (h.whole g' hg' hlive).append new
    · rw [hframes, if_neg hg, hdata g' hg' hg]
      exact h.whole g' hg' hlive

/-- The session enters the game `g`, its first, and is welcomed if it is the player. -/
theorem enter (h : Streaming data frames entered live) (hfresh : ∀ g, ¬ entered g) {g : GameId}
    {data' : ℕ → List ServerMsg} {entered' : GameId → Prop} (hentered : ∀ g', entered' g' → g' = g)
    (hwelcome : live → IsStream g (frames g) (data' (getSceneBroadcast g)))
    (hother : ∀ b, ¬ (live ∧ getSceneBroadcast g = b) → data' b = data b)
    (hg : entered' g) : Streaming data' frames entered' live := by
  have hnone : ∀ b, data b = [] := fun b => by
    by_contra hb
    obtain ⟨g', hg', -⟩ := h.source b hb
    exact hfresh g' hg'
  refine ⟨fun g₁ g₂ h₁ h₂ => (hentered g₁ h₁).trans (hentered g₂ h₂).symm, fun b hb => ⟨g, hg, ?_⟩,
    fun g' hg' => ?_, fun g' hg' hlive => ?_⟩
  · by_contra hne
    rw [hother b fun hall => hne hall.2, hnone b] at hb
    exact hb rfl
  · obtain rfl := hentered g' hg'
    by_cases hlive : live
    · exact ⟨_, hwelcome hlive, List.prefix_rfl⟩
    · refine ⟨_, ⟨0, 0, 0, [], List.nil_prefix, rfl⟩, ?_⟩
      rw [hother _ fun hall => hlive hall.1, hnone]
      exact List.nil_prefix
  · obtain rfl := hentered g' hg'
    exact hwelcome hlive

end Streaming

end Abstract

/-! ## The game of a session -/

/-- The session of the socket `fd` has entered the game `g` as `pid`. -/
def Entered [ServerConfig] (pid : Pid) (fd : Fd) (tr : List (World × WorldMove)) (g : GameId) : Prop :=
  ∃ mArgs : PlayerArgs, mArgs.fd = fd ∧
    .enterPlayer g pid mArgs ∈ handled (.scene (getSceneService g)) tr

/-- The frames of a game. -/
def World.frames [ServerConfig] (w : World) (g : GameId) : List FrameInfo :=
  (w.game g).elim [] fun game => game.war.frameMgr.frameCacheQueue

section Sessions

variable [Wire] [ServerConfig] {tr : List (World × WorldMove)} {w : World}

/-- A place is the one of its socket. -/
theorem seat_unique (h : ServerRun tr w) {x y : Seat} (hx : x ∈ seated tr) (hy : y ∈ seated tr)
    (hfd : x.req.mArgs.fd = y.req.mArgs.fd) : x = y := by
  obtain ⟨p, hp, -, hpfd⟩ := object_of_seat h hx
  obtain ⟨q, hq, -, hqfd⟩ := object_of_seat h hy
  have hborn := Agent.born_getElem? hp
  rw [hpfd, hfd, ← hqfd] at hborn
  obtain ⟨hsource, hobj, -⟩ := born_unique h hborn (Agent.born_getElem? hq)
  exact List.inj_on_of_nodup_map (nodup_seated h) hx hy (Prod.ext hsource hobj)

/-- A session that has entered a game has an object. -/
theorem born_of_entered (h : ServerRun tr w) {pid : Pid} {fd : Fd} {g : GameId}
    (hg : Entered pid fd tr g) :
    ∃ obj : ℕ, (w.agent (getUserAgent pid)).born[obj]? = some (pid, fd) := by
  obtain ⟨mArgs, rfl, hm⟩ := hg
  obtain ⟨-, x, hx, -, rfl, rfl⟩ := seat_of_enter h ((handled_first h _).subset hm)
  obtain ⟨p, hp, hid, hfd⟩ := object_of_seat h hx
  have hborn := Agent.born_getElem? hp
  rw [hid, hfd, source_of_seat h hx] at hborn
  exact ⟨x.req.obj, hborn⟩

/-- **A session enters once.** -/
theorem enters_once (h : ServerRun tr w) {k : ℕ} {g : GameId} {pid : Pid} {mArgs : PlayerArgs}
    {rest : List SceneMsg} (hmail : w.mail (.scene k) = .enterPlayer g pid mArgs :: rest) (g' : GameId) :
    ¬ Entered pid mArgs.fd tr g' := by
  rintro ⟨mArgs', hfd, hm⟩
  obtain ⟨rfl, x, hx, rfl, rfl, rfl⟩ := seat_of_enter h (mem_sent_of_mail h hmail)
  obtain ⟨-, y, hy, rfl, hpid, rfl⟩ := seat_of_enter h ((handled_first h _).subset hm)
  obtain rfl := seat_unique h hy hx hfd
  -- the letter would be sent twice
  have hnodup : ((server.sent (.scene (getSceneService y.gameId)) tr).filter SceneMsg.isEnter).Nodup := by
    rw [enters_sent h]
    refine List.Nodup.map_on (fun x₁ hx₁ x₂ hx₂ heq => ?_) ?_
    · refine seat_unique h (List.mem_filter.mp hx₁).1 (List.mem_filter.mp hx₂).1 ?_
      rw [(SceneMsg.enterPlayer.inj heq).2.2]
    · exact (List.Nodup.of_map _ (nodup_seated h)).filter _
  rw [← handled_append h, List.filter_append, hmail] at hnodup
  refine (List.nodup_append.mp hnodup).2.2 y.enterMsg ?_ y.enterMsg ?_ rfl
  · exact List.mem_filter.mpr ⟨hm, rfl⟩
  · exact List.mem_filter.mpr ⟨List.mem_cons_self, rfl⟩

/-- A session that starts has not entered a game. -/
theorem starts_before_entering (h : ServerRun tr w) (i : Inputs) {n : ℕ} {pid : Pid} {mArgs : LoginArgs}
    {rest : List AgentMsg} (hmail : w.mail (.agent n) = .start pid mArgs :: rest) (g : GameId) :
    ¬ Entered pid mArgs.fd tr g := by
  intro hg
  obtain ⟨obj, hobj⟩ := born_of_entered h hg
  obtain rfl := (routed_mail h hmail).1
  have hlt := (List.getElem?_eq_some_iff.mp hobj).1
  obtain ⟨w', hnext, hnew⟩ : ∃ w' : World,
      ServerRun (tr ++ [(w, .deliver (.agent (getUserAgent pid)) i)]) w' ∧
      (w'.agent (getUserAgent pid)).born = (w.agent (getUserAgent pid)).born ++ [(pid, mArgs.fd)] := by
    refine ⟨_, runs_deliver h i hmail, ?_⟩
    rw [World.agent, Config.commit_state_same]
    exact Agent.born_receive _ _ _ _
  -- the new object would have the socket of an older one
  have hold : (w'.agent (getUserAgent pid)).born[obj]? = some (pid, mArgs.fd) := by
    rw [hnew, List.getElem?_append_left hlt]
    exact hobj
  have hlast : (w'.agent (getUserAgent pid)).born[(w.agent (getUserAgent pid)).born.length]?
      = some (pid, mArgs.fd) := by
    rw [hnew]
    exact List.getElem?_concat_length
  exact Nat.ne_of_lt hlt (born_unique hnext hold hlast).2.1

omit [Wire] [ServerConfig] in
/-- Who has a place was let in. -/
theorem enter_of_holder {g : GameId} {pid : Pid} {fd : Fd} {ms : List SceneMsg}
    (hholder : holder g pid ms = some fd) :
    ∃ mArgs : PlayerArgs, mArgs.fd = fd ∧ .enterPlayer g pid mArgs ∈ ms := by
  induction ms using List.reverseRecOn with
  | nil => cases hholder
  | append_singleton ms m ih =>
      have earlier : holder g pid ms = some fd → ∃ mArgs : PlayerArgs, mArgs.fd = fd ∧
          .enterPlayer g pid mArgs ∈ ms ++ [m] := fun hm =>
        (ih hm).imp fun mArgs hmArgs => ⟨hmArgs.1, List.mem_append_left _ hmArgs.2⟩
      rw [holder_snoc] at hholder
      cases m with
      | enterPlayer g' q mArgs =>
          rw [SceneMsg.hold] at hholder
          split at hholder
          · rename_i heq
            obtain ⟨rfl, rfl⟩ := heq
            exact ⟨mArgs, Option.some.inj hholder, List.mem_append_right _ (List.mem_singleton_self _)⟩
          · exact earlier hholder
      | leavePlayer g' q =>
          rw [SceneMsg.hold] at hholder
          split at hholder
          · cases hholder
          · exact earlier hholder
      | newGame | syncCtrl | syncData | c2gsRttData | gameOver => exact earlier hholder

/-- **The leave of a session comes when it is not the player any more.** -/
theorem current_ne_of_leave (h : ServerRun tr w) {g : GameId} {pid : Pid} {rest : List SceneMsg}
    (hmail : w.mail (.scene (getSceneService g)) = .leavePlayer g pid :: rest) {fd : Fd}
    (hholder : holder g pid (handled (.scene (getSceneService g)) tr) = some fd) :
    (w.agent (getUserAgent pid)).current pid ≠ some fd := by
  intro hcur
  have hlog := congrArg (List.filter (SceneMsg.about g pid)) (handled_append h (.scene (getSceneService g)))
  rw [hmail, sent_stays h, List.filter_append, List.filter_cons_of_pos (by simp [SceneMsg.about])] at hlog
  obtain ⟨x, hx, hplace, word, hword, hleave⟩ :=
    word_of_stays h (fun x hx => (mem_placesOf.mp hx).2) hlog.symm rfl
  rw [holder_filter, hholder] at hplace
  obtain ⟨hseated, -, hpid⟩ := mem_placesOf.mp hx
  -- the session of the leave is the one of `fd`
  obtain ⟨p, hp, hid, hfd⟩ := object_of_seat h hseated
  have hborn := Agent.born_getElem? hp
  rw [hid, hfd, ← Option.some.inj hplace, source_of_seat h hseated, hpid] at hborn
  obtain ⟨obj, hobj, hborn'⟩ := born_of_current hcur
  obtain ⟨-, rfl, -⟩ := born_unique h hborn hborn'
  rcases spoken_cases h pid x.req.obj with hspoken | ⟨-, hgone, -⟩
  · rw [hspoken] at hword
    obtain ⟨c, -, rfl⟩ := List.mem_map.mp hword
    cases hleave
  · exact hgone hobj

end Sessions

/-! ## Games that send to their own sessions -/

section Own

variable [Wire] [ServerConfig] {tr : List (World × WorldMove)} {w : World}

/-- If the pid of an `enter_player` has a player, it is the one of this session, and the game welcomes
it. -/
def SceneMsg.welcomesOwn (w : World) (raised : Bool) : SceneMsg → Bool
  | .enterPlayer _ pid mArgs =>
      ((w.agent (getUserAgent pid)).current pid).all fun fd => fd = mArgs.fd && !raised
  | .newGame _ | .leavePlayer .. | .syncCtrl .. | .syncData .. | .c2gsRttData .. | .gameOver _ => true

/-- If a player of a game has a player at its agent, it is the one of this session. -/
def FighterWar.showsOwn (w : World) (war : FighterWar) : Bool :=
  war.players.keys.all fun pid =>
    ((w.agent (getUserAgent pid)).current pid).all fun fd => war.fdOf pid = some fd

/-- A game that welcomes a player or makes a frame has, for each pid that it sends to, the session that
is the player of the pid, if there is one. -/
def sendsToOwn (w : World) : WorldMove → Bool
  | .deliver (.scene k) i => ((w.mail (.scene k)).take 1).all fun m =>
      m.welcomesOwn w (Scene.receive (w.state (.scene k)) i m).raised
  | .act (.scene k) (.frameSkip g) i => ((w.state (.scene k) : Scene) g).all fun game =>
      (game.war.frameSkip i.clk).raised || game.war.showsOwn w
  | _ => true

omit [Wire] in
/-- Only letters to its scene let a session in. -/
theorem entered_elsewhere {pid : Pid} {fd : Fd} {g : GameId} {a : Addr}
    (ha : a ≠ .scene (getSceneService g)) (i : Inputs) :
    Entered pid fd (tr ++ [(w, .deliver a i)]) g ↔ Entered pid fd tr g := by
  rw [Entered, handled_deliver_ne ha, ← Entered]

omit [Wire] in
/-- A service that acts on its own lets nobody in. -/
theorem entered_act {pid : Pid} {fd : Fd} {g : GameId} (a : Addr) (x : Act a) (i : Inputs) :
    Entered pid fd (tr ++ [(w, .act a x i)]) g ↔ Entered pid fd tr g := by
  rw [Entered, handled_act, ← Entered]

/-- A session that has entered a game does not become the player by a letter to an agent: one that starts
has entered no game. -/
theorem current_of_entered (h : ServerRun tr w) {n : ℕ} {m : AgentMsg} {rest : List AgentMsg}
    (hmail : w.mail (.agent n) = m :: rest) (i : Inputs) {pid : Pid} {fd : Fd} {g : GameId}
    (hg : Entered pid fd tr g)
    (hcur : (World.agent (w.commit (.agent n) rest (server.receive (.agent n) i (w.state (.agent n)) m))
      (getUserAgent pid)).current pid = some fd) :
    (w.agent (getUserAgent pid)).current pid = some fd := by
  by_cases hn : n = getUserAgent pid
  · subst hn
    rw [World.agent, Config.commit_state_same, server_receive_agent, Agent.current_receive] at hcur
    cases m with
    | start q mArgs =>
        rw [AgentMsg.track] at hcur
        split at hcur
        · rename_i hq
          subst hq
          obtain rfl := Option.some.inj hcur
          exact absurd hg (starts_before_entering h i hmail g)
        · exact hcur
    | kick q =>
        rw [AgentMsg.track] at hcur
        split at hcur
        · cases hcur
        · exact hcur
    | unpack | entered => exact hcur
  · rw [World.agent, Config.commit_state_ne _ _ _ _ (by simpa using Ne.symm hn)] at hcur
    exact hcur

/-- The scene of a game handles a letter: the session that is the player keeps its place. -/
theorem holder_deliver (h : ServerRun tr w) {g : GameId} {pid : Pid} {fd : Fd}
    (hprev : Entered pid fd tr g → holder g pid (handled (.scene (getSceneService g)) tr) = some fd)
    (hcur : (w.agent (getUserAgent pid)).current pid = some fd) {m : SceneMsg} {rest : List SceneMsg}
    (hmail : w.mail (.scene (getSceneService g)) = m :: rest) {i : Inputs}
    (hnow : sendsToOwn w (.deliver (.scene (getSceneService g)) i) = true)
    (hg : Entered pid fd (tr ++ [(w, .deliver (.scene (getSceneService g)) i)]) g) :
    holder g pid (handled (.scene (getSceneService g))
      (tr ++ [(w, .deliver (.scene (getSceneService g)) i)])) = some fd := by
  -- a letter that does not seat the player leaves the holder of before
  have earlier : (∀ mArgs, m ≠ .enterPlayer g pid mArgs) →
      holder g pid (handled (.scene (getSceneService g)) tr) = some fd := by
    intro hm
    obtain ⟨mArgs, hfd, hmem⟩ := hg
    rw [handled_deliver hmail] at hmem
    rcases List.mem_append.mp hmem with hmem | hmem
    · exact hprev ⟨mArgs, hfd, hmem⟩
    · exact absurd (List.mem_singleton.mp hmem).symm (hm mArgs)
  rw [handled_deliver hmail, holder_snoc]
  cases m with
  | enterPlayer g' q mArgs =>
      rw [SceneMsg.hold]
      split
      · rename_i heq
        obtain ⟨rfl, rfl⟩ := heq
        -- who is seated is the session, as games send to their own
        simp only [sendsToOwn, hmail, List.take_succ_cons, List.take_zero, List.all_cons, List.all_nil,
          Bool.and_true, SceneMsg.welcomesOwn, hcur, Option.all_some, Bool.and_eq_true,
          decide_eq_true_eq] at hnow
        rw [hnow.1]
      · rename_i hne
        exact earlier fun mArgs' heq => by
          obtain ⟨rfl, rfl, -⟩ := SceneMsg.enterPlayer.inj heq
          exact hne ⟨rfl, rfl⟩
  | leavePlayer g' q =>
      rw [SceneMsg.hold]
      split
      · rename_i heq
        obtain ⟨rfl, rfl⟩ := heq
        -- a session that is the player has not asked to leave
        exact absurd hcur (current_ne_of_leave h hmail (earlier (by simp)))
      · exact earlier (by simp)
  | newGame | syncCtrl | syncData | c2gsRttData | gameOver => exact earlier (by simp)

/-- **A session that is the player keeps its place**, while games send to their own sessions. -/
theorem holder_of_entered (h : ServerRun tr w) (hown : ∀ x ∈ tr, sendsToOwn x.1 x.2 = true) {g : GameId}
    {pid : Pid} {fd : Fd} (hg : Entered pid fd tr g)
    (hcur : (w.agent (getUserAgent pid)).current pid = some fd) :
    holder g pid (handled (.scene (getSceneService g)) tr) = some fd := by
  revert hg hcur
  refine invariant_of_moves (C := fun w e => sendsToOwn w e = true)
    (P := fun tr (w : World) => Entered pid fd tr g →
      (w.agent (getUserAgent pid)).current pid = some fd →
      holder g pid (handled (.scene (getSceneService g)) tr) = some fd) ?_ ?_ ?_ h hown
  · rintro ⟨mArgs, -, hm⟩
    cases hm
  · intro tr (w : World) a i m rest hrun hw hC hmail hg hcur
    -- only the scene of the game moves the holder, and only the agent of the pid the session
    by_cases ha : a = .scene (getSceneService g)
    · subst ha
      rw [World.agent, Config.commit_state_ne _ _ _ _ (by simp)] at hcur
      exact holder_deliver hrun (fun hg => hw hg hcur) hcur hmail hC hg
    · have hg' := (entered_elsewhere ha i).mp hg
      rw [handled_deliver_ne ha]
      by_cases ha' : a = .agent (getUserAgent pid)
      · subst ha'
        exact hw hg' (current_of_entered hrun hmail i hg' hcur)
      · rw [World.agent, Config.commit_state_ne _ _ _ _ (Ne.symm ha')] at hcur
        exact hw hg' hcur
  · intro tr (w : World) a x i hrun hw hC hg hcur
    have hg' := (entered_act a x i).mp hg
    rw [handled_act]
    by_cases ha : a = .agent (getUserAgent pid)
    · subst ha
      rw [World.agent, Config.commit_state_same, server_act_agent, Agent.current_act] at hcur
      exact hw hg' hcur
    · rw [World.agent, Config.commit_state_ne _ _ _ _ (Ne.symm ha)] at hcur
      exact hw hg' hcur

omit [ServerConfig] in
/-- A call that does not add `pid` makes no frame, or is a tick that returns. -/
theorem FighterWar.step_makes (war : FighterWar) (pid : Pid) (clk : Clock) (ev : Event)
    (hadd : ev.adds pid = false) : ∃ new, SendsFrames war pid (war.step clk ev) new ∧
      (new ≠ [] → ev = .frameSkip ∧ (war.frameSkip clk).raised = false) := by
  by_cases htick : ev = .frameSkip → (war.frameSkip clk).raised = true
  · exact ⟨[], step_silent war pid clk ev hadd htick, fun hne => absurd rfl hne⟩
  · obtain ⟨hev, hraised⟩ := Classical.not_imp.mp htick
    obtain ⟨new, hnew⟩ := step_frames war pid clk ev hadd
    exact ⟨new, hnew, fun _ => ⟨hev, Bool.eq_false_iff.mpr hraised⟩⟩

omit [Wire] in
/-- The frames of a game that is there. -/
theorem World.frames_of_game {g : GameId} {game : Game} (hgame : w.game g = some game) :
    w.frames g = game.war.frameMgr.frameCacheQueue := by
  rw [frames, hgame]
  rfl

/-- A call on a game of its scene. -/
theorem frames_of_call {k : ℕ} {g : GameId} {game : Game} {rest : List (Msg (.scene k))}
    {o : Outcome Scene (Letter Msg)} {clk : Clock} {ev : FighterWar.Event} (hk : k = getSceneService g)
    (hgame : w.game g = some game) (ho : o = Scene.call (w.state (.scene k)) g clk ev) (g' : GameId) :
    World.frames (w.commit (.scene k) rest o) g' = if g' = g then
      (game.war.step clk ev).state.frameMgr.frameCacheQueue else w.frames g' := by
  subst hk ho
  change (w.state (.scene (getSceneService g)) : Scene) g = some game at hgame
  rw [World.frames, World.game]
  by_cases hscene : getSceneService g' = getSceneService g
  · rw [hscene, Config.commit_state_same, Scene.call_state]
    by_cases hg : g' = g
    · subst hg
      rw [if_pos rfl, if_pos rfl, hgame]
      rfl
    · rw [if_neg hg, if_neg (Ne.symm hg), World.frames, World.game, hscene]
  · have hg : g' ≠ g := fun heq => hscene (by rw [heq])
    rw [Config.commit_state_ne _ _ _ _ (by simpa using hscene), if_neg hg, World.frames]

omit [Wire] in
/-- A move of a scene that is no call on one of its games keeps the frames. -/
theorem frames_of_silent {k : ℕ} {rest : List (Msg (.scene k))} {o : Outcome Scene (Letter Msg)}
    (ho : ∀ g : GameId, (o.state g).elim [] (fun game => game.war.frameMgr.frameCacheQueue)
      = ((w.state (.scene k) : Scene) g).elim [] fun game => game.war.frameMgr.frameCacheQueue)
    (g : GameId) : World.frames (w.commit (.scene k) rest o) g = w.frames g := by
  rw [World.frames, World.game, World.frames, World.game]
  by_cases hscene : getSceneService g = k
  · rw [hscene, Config.commit_state_same]
    exact ho g
  · rw [Config.commit_state_ne _ _ _ _ (by simpa using hscene)]

omit [Wire] in
/-- A session stands where it stood when nothing changes. -/
theorem Streaming.congr {data data' : ℕ → List ServerMsg} {frames frames' : GameId → List FrameInfo}
    {entered entered' : GameId → Prop} {live live' : Prop} (h : Streaming data frames entered live)
    (hdata : ∀ b, data' b = data b) (hframes : ∀ g, frames' g = frames g)
    (hentered : ∀ g, entered' g ↔ entered g) (hlive : live' ↔ live) :
    Streaming data' frames' entered' live' := by
  obtain rfl : data' = data := funext hdata
  obtain rfl : frames' = frames := funext hframes
  obtain rfl : entered' = entered := funext fun g => propext (hentered g)
  obtain rfl : live' = live := propext hlive
  exact h

/-- Where the stream of the session `fd` of a player stands after a run. -/
def Streams (pid : Pid) (fd : Fd) (tr : List (World × WorldMove)) (w : World) : Prop :=
  Streaming (fun b => delivered b pid fd tr) w.frames (Entered pid fd tr)
    ((w.agent (getUserAgent pid)).current pid = some fd)

/-- The letters settle who is in a game that is there. -/
theorem fdOf_game (h : ServerRun tr w) {g : GameId} {game : Game} (hgame : w.game g = some game)
    (pid : Pid) : game.war.fdOf pid = holder g pid (handled (.scene (getSceneService g)) tr) := by
  rw [← fdOf_eq h, Scene.fdOf]
  change (w.state (.scene (getSceneService g)) : Scene) g = some game at hgame
  rw [hgame]
  rfl

/-- A call on a game that does not add `pid`: the session of `fd` gets the frames of its game. -/
theorem streaming_frames (h : ServerRun tr w) (hown : ∀ x ∈ tr, sendsToOwn x.1 x.2 = true) {pid : Pid}
    {fd : Fd} (hprev : Streams pid fd tr w) {e : WorldMove} {g : GameId} {game : Game}
    {clk : Clock} {ev : FighterWar.Event} (hgame : w.game g = some game) (hadd : ev.adds pid = false)
    (he : ∀ b, lettersTo (.broadcast b) (server.emitted w e) = lettersTo (.broadcast b)
      (Scene.call (w.state (.scene (getSceneService g))) g clk ev).sent)
    (hshows : ev = .frameSkip → (game.war.frameSkip clk).raised = false → game.war.showsOwn w = true)
    {frames : GameId → List FrameInfo} (hframes : ∀ g', frames g' = if g' = g then
      (game.war.step clk ev).state.frameMgr.frameCacheQueue else w.frames g') :
    Streaming (fun b => delivered b pid fd (tr ++ [(w, e)])) frames (Entered pid fd tr)
      ((w.agent (getUserAgent pid)).current pid = some fd) := by
  obtain ⟨new, hnew, htick⟩ := game.war.step_makes pid clk ev hadd
  have hdata : ∀ b, delivered b pid fd (tr ++ [(w, e)]) = delivered b pid fd tr ++
      if getSceneBroadcast g = b ∧ (w.agent (getUserAgent pid)).current pid = some fd then
        if pid ∈ game.war.players then new.map .gs2cFrameData else []
      else [] := by
    intro b
    change (w.state (.scene (getSceneService g)) : Scene) g = some game at hgame
    rw [delivered_call h he, hgame, ← hnew.gameData]
    rfl
  refine hprev.makeFrames g new (fun g' => ?_) ?_ fun b hb => ?_
  · rw [hframes, hnew.cache, World.frames_of_game hgame]
  · rintro ⟨hlive, hg⟩
    -- the session has its place in the game
    have hfd := holder_of_entered h hown hg hlive
    rw [← fdOf_game h hgame] at hfd
    have hin : pid ∈ game.war.players := FighterWar.fdOf_isSome.mp (by rw [hfd]; rfl)
    rw [hdata, if_pos ⟨rfl, hlive⟩, if_pos hin]
  · rw [hdata]
    split
    · rename_i hboth
      split
      · rename_i hin
        by_cases hne : new = []
        · rw [hne]
          exact List.append_nil _
        · -- a tick sends to the sessions that the game has
          obtain ⟨hev, hraised⟩ := htick hne
          have hall := hshows hev hraised
          rw [FighterWar.showsOwn, List.all_eq_true] at hall
          have hfd := hall pid (AList.mem_keys.mp hin)
          rw [hboth.2, Option.all_some, decide_eq_true_eq, fdOf_game h hgame] at hfd
          exact absurd ⟨hboth.2, enter_of_holder hfd, hboth.1⟩ hb
      · exact List.append_nil _
    · exact List.append_nil _

omit [ServerConfig] in
/-- **The welcome of a player is a stream** of the game as it is then. -/
theorem FighterWar.isStream_addPlayer {war : FighterWar} {pid : Pid} {mArgs : PlayerArgs} {spawn : Spawn}
    {clk : Clock} (hok : (war.addPlayer pid mArgs spawn clk).raised = false) :
    IsStream war.gameID war.frameMgr.frameCacheQueue
      (gameDataTo pid (war.addPlayer pid mArgs spawn clk).sent) := by
  obtain ⟨chunks, hsent, hflat, -⟩ := welcome_sent hok
  refine ⟨war.rndSeed, clk.now, war.fsmInitTime.getD clk.now, chunks, ?_, ?_⟩
  · rw [hflat]
    exact List.prefix_rfl
  · have hlogin : (BcMsg.sendToPlayer pid ((war.seat pid mArgs spawn clk.now).loginsuc clk.now)).gameDataTo
        pid = [(war.seat pid mArgs spawn clk.now).loginsuc clk.now] := if_pos ⟨rfl, rfl⟩
    have hrest : war.frameMgr.frameCacheQueue.drop chunks.flatten.length = [] := by
      rw [hflat]
      exact List.drop_length
    rw [addPlayer, hsent, gameDataTo_cons, hlogin, gameDataTo_chunks, hrest, hflat, List.map_nil,
      List.append_nil]
    rfl

omit [ServerConfig] in
/-- Whoever comes, the frames stay. -/
theorem FighterWar.frameCacheQueue_addPlayer (war : FighterWar) (pid : Pid) (mArgs : PlayerArgs)
    (spawn : Spawn) (clk : Clock) : (war.addPlayer pid mArgs spawn clk).state.frameMgr.frameCacheQueue
      = war.frameMgr.frameCacheQueue := by
  rcases addPlayer_state_cases war pid mArgs spawn clk with hstate | hstate
  · rw [hstate]
    rfl
  · rw [hstate]
    rfl

omit [Wire] in
/-- A letter that does not let the session in. -/
theorem entered_deliver {i : Inputs} {k : ℕ} {m : SceneMsg} {rest : List SceneMsg}
    (hmail : w.mail (.scene k) = m :: rest) {pid : Pid} {fd : Fd}
    (hm : ∀ g mArgs, mArgs.fd = fd → m ≠ .enterPlayer g pid mArgs) (g : GameId) :
    Entered pid fd (tr ++ [(w, .deliver (.scene k) i)]) g ↔ Entered pid fd tr g := by
  by_cases hk : k = getSceneService g
  · subst hk
    rw [Entered, handled_deliver hmail, Entered]
    refine exists_congr fun mArgs => and_congr_right fun hfd => ?_
    rw [List.mem_append, List.mem_singleton]
    exact or_iff_left fun heq => hm g mArgs hfd heq.symm
  · exact entered_elsewhere (by simpa using hk) i

/-- A call on a game that does not add `pid`, or that adds it for another session. -/
theorem streaming_call (h : ServerRun tr w) (hown : ∀ x ∈ tr, sendsToOwn x.1 x.2 = true) {pid : Pid}
    {fd : Fd} (hprev : Streams pid fd tr w) {e : WorldMove} {k : ℕ} {g : GameId}
    {clk : Clock} {ev : FighterWar.Event} {rest : List (Msg (.scene k))} {o : Outcome Scene (Letter Msg)}
    (ho : o = Scene.call (w.state (.scene k)) g clk ev)
    (he : ∀ b, lettersTo (.broadcast b) (server.emitted w e) = lettersTo (.broadcast b) o.sent)
    (hadd : ev.adds pid = true → (w.agent (getUserAgent pid)).current pid ≠ some fd)
    (hshows : ∀ game, (w.state (.scene k) : Scene) g = some game → ev = .frameSkip →
      (game.war.frameSkip clk).raised = false → game.war.showsOwn w = true) :
    Streaming (fun b => delivered b pid fd (tr ++ [(w, e)])) (World.frames (w.commit (.scene k) rest o))
      (Entered pid fd tr) ((w.agent (getUserAgent pid)).current pid = some fd) := by
  cases hgame : (w.state (.scene k) : Scene) g with
  | none =>
      have hnone : o = .done (w.state (.scene k)) [] := by rw [ho, Scene.call, hgame]
      refine hprev.congr (fun b => delivered_silent ?_) (frames_of_silent fun g' => ?_) (fun _ => Iff.rfl)
        Iff.rfl
      · rw [he, hnone]
        exact fun req hreq => absurd hreq List.not_mem_nil
      · rw [hnone]
        rfl
  | some game =>
      obtain rfl := scene_of_game h hgame
      have hframes : ∀ g', World.frames (w.commit (.scene (getSceneService g)) rest o) g' = _ :=
        frames_of_call rfl hgame ho
      cases haddp : ev.adds pid with
      | false =>
          exact streaming_frames h hown hprev hgame haddp (fun b => by rw [he, ho]) (hshows game hgame)
            hframes
      | true =>
          -- another session comes: this one is not the player
          have hdead := hadd haddp
          refine hprev.makeFrames g [] (fun g' => ?_) (fun hlive => absurd hlive.1 hdead) fun b _ => ?_
          · rw [hframes]
            cases ev with
            | addPlayer q mArgs spawn =>
                rw [List.append_nil, World.frames_of_game hgame]
                exact if_congr Iff.rfl (FighterWar.frameCacheQueue_addPlayer _ _ _ _ _) rfl
            | delPlayer | syncCtrl | frameSkip | syncData | syncRtt => cases haddp
          · rw [delivered_call h (fun b => by rw [he, ho]), if_neg fun hboth => hdead hboth.2,
              List.append_nil]

/-- The session comes to a game, which welcomes it if it is the player. -/
theorem streaming_enter (h : ServerRun tr w) {pid : Pid} {mArgs : PlayerArgs}
    (hprev : Streams pid mArgs.fd tr w) {g : GameId} {i : Inputs} {rest : List SceneMsg}
    (hmail : w.mail (.scene (getSceneService g)) = .enterPlayer g pid mArgs :: rest)
    (hwelcomes : (w.agent (getUserAgent pid)).current pid = some mArgs.fd →
      (Scene.receive (w.state (.scene (getSceneService g))) i (.enterPlayer g pid mArgs)).raised = false) :
    Streams pid mArgs.fd (tr ++ [(w, .deliver (.scene (getSceneService g)) i)])
      (w.commit (.scene (getSceneService g)) rest (server.receive (.scene (getSceneService g)) i
        (w.state (.scene (getSceneService g))) (.enterPlayer g pid mArgs))) := by
  -- a connection enters once, and finds the game it was seated in
  have hfresh := enters_once h hmail
  obtain ⟨-, x, hx, rfl, -⟩ := seat_of_enter h (mem_sent_of_mail h hmail)
  obtain ⟨game, hgame⟩ := Option.isSome_iff_exists.mp (game_of_seat h hx)
  have hgame' : (w.state (.scene (getSceneService x.gameId)) : Scene) x.gameId = some game := hgame
  have hdata : ∀ b, delivered b pid mArgs.fd
        (tr ++ [(w, .deliver (.scene (getSceneService x.gameId)) i)]) = delivered b pid mArgs.fd tr ++
      if getSceneBroadcast x.gameId = b ∧
          (w.agent (getUserAgent pid)).current pid = some mArgs.fd then
        gameDataTo pid (game.war.addPlayer pid mArgs i.spawn i.clk).sent
      else [] := by
    intro b
    have he : ∀ b, lettersTo (.broadcast b)
        (server.emitted w (.deliver (.scene (getSceneService x.gameId)) i)) = lettersTo (.broadcast b)
          (Scene.call (w.state (.scene (getSceneService x.gameId))) x.gameId i.clk
            (.addPlayer pid mArgs i.spawn)).sent := by
      intro b
      rw [emitted, hmail]
      rfl
    rw [delivered_call h he, hgame']
    rfl
  -- welcoming a player makes no frame
  have hframes : ∀ g', World.frames (w.commit (.scene (getSceneService x.gameId)) rest (server.receive
      (.scene (getSceneService x.gameId)) i (w.state (.scene (getSceneService x.gameId)))
        (.enterPlayer x.gameId pid mArgs))) g' = w.frames g' := by
    intro g'
    have hcall : server.receive (.scene (getSceneService x.gameId)) i
        (w.state (.scene (getSceneService x.gameId))) (.enterPlayer x.gameId pid mArgs)
        = Scene.call (w.state (.scene (getSceneService x.gameId))) x.gameId i.clk
          (.addPlayer pid mArgs i.spawn) := rfl
    refine (frames_of_call rfl hgame hcall g').trans ?_
    split
    · rename_i hg
      rw [hg, World.frames_of_game hgame]
      exact FighterWar.frameCacheQueue_addPlayer _ _ _ _ _
    · rfl
  refine (hprev.enter hfresh (g := x.gameId) ?_ (fun hlive => ?_) (fun b hb => ?_) ?_).congr
    (fun _ => rfl) hframes (fun _ => Iff.rfl) Iff.rfl
  · -- the game it has entered is this one
    rintro g' ⟨mArgs', hfd, hm⟩
    by_cases hscene : getSceneService x.gameId = getSceneService g'
    · rw [← hscene, handled_deliver hmail] at hm
      rcases List.mem_append.mp hm with hm | hm
      · exact absurd ⟨mArgs', hfd, hscene ▸ hm⟩ (hfresh g')
      · exact (SceneMsg.enterPlayer.inj (List.mem_singleton.mp hm)).1
    · rw [handled_deliver_ne (by simpa using hscene)] at hm
      exact absurd ⟨mArgs', hfd, hm⟩ (hfresh g')
  · -- the welcome is the first that the connection is sent
    have hok : (game.war.addPlayer pid mArgs i.spawn i.clk).raised = false := by
      simpa [Scene.receive, Scene.call, hgame', FighterWar.step] using hwelcomes hlive
    have hnone : delivered (getSceneBroadcast x.gameId) pid mArgs.fd tr = [] := by
      by_contra hne
      obtain ⟨g', hg', -⟩ := hprev.source _ hne
      exact hfresh g' hg'
    rw [hdata, hnone, if_pos ⟨rfl, hlive⟩, List.nil_append, World.frames_of_game hgame,
      ← (game_numbered h hgame').1]
    exact FighterWar.isStream_addPlayer hok
  · rw [hdata, if_neg fun hboth => hb ⟨hboth.2, hboth.1⟩, List.append_nil]
  · exact ⟨mArgs, rfl, by
      rw [handled_deliver hmail]
      exact List.mem_append_right _ (List.mem_singleton_self _)⟩

/-! ### The kinds of moves -/

section Moves

variable {pid : Pid} {fd : Fd}

/-- What a broadcast service is asked for when a scene handles a letter. -/
theorem lettersTo_deliver_scene {k : ℕ} {m : SceneMsg} {rest : List SceneMsg}
    (hmail : w.mail (.scene k) = m :: rest) (i : Inputs) (b : ℕ) :
    lettersTo (.broadcast b) (server.emitted w (.deliver (.scene k) i))
      = lettersTo (.broadcast b) (Scene.receive (w.state (.scene k)) i m).sent := by
  rw [emitted, hmail]
  rfl

/-- A letter to a scene that is no call on a game. -/
theorem streams_silent (hprev : Streams pid fd tr w) {k : ℕ} {m : SceneMsg} {rest : List SceneMsg}
    (hmail : w.mail (.scene k) = m :: rest) {i : Inputs}
    (hsent : ∀ b, lettersTo (.broadcast b) (Scene.receive (w.state (.scene k)) i m).sent = [])
    (hstate : ∀ g : GameId, ((Scene.receive (w.state (.scene k)) i m).state g).elim []
        (fun game => game.war.frameMgr.frameCacheQueue)
      = ((w.state (.scene k) : Scene) g).elim [] fun game => game.war.frameMgr.frameCacheQueue)
    (hm : ∀ g mArgs, m ≠ .enterPlayer g pid mArgs) :
    Streams pid fd (tr ++ [(w, .deliver (.scene k) i)])
      (w.commit (.scene k) rest (server.receive (.scene k) i (w.state (.scene k)) m)) := by
  refine hprev.congr (fun b => delivered_silent ?_) (frames_of_silent hstate)
    (entered_deliver hmail fun g mArgs _ => hm g mArgs) Iff.rfl
  rw [lettersTo_deliver_scene hmail, hsent]
  exact fun req hreq => absurd hreq List.not_mem_nil

/-- A scene handles a letter. -/
theorem streams_scene (h : ServerRun tr w) (hown : ∀ x ∈ tr, sendsToOwn x.1 x.2 = true)
    (hprev : Streams pid fd tr w) {k : ℕ} {m : SceneMsg} {rest : List SceneMsg}
    (hmail : w.mail (.scene k) = m :: rest) {i : Inputs}
    (hnow : sendsToOwn w (.deliver (.scene k) i) = true) :
    Streams pid fd (tr ++ [(w, .deliver (.scene k) i)])
      (w.commit (.scene k) rest (server.receive (.scene k) i (w.state (.scene k)) m)) := by
  have he := lettersTo_deliver_scene hmail i
  cases m with
  | newGame g =>
      refine streams_silent hprev hmail (fun b => ?_) (fun g' => ?_) (by simp)
      · exact lettersTo_cons_ne (by simp) _ _
      · rw [Scene.receive_state]
        dsimp only
        split
        · rename_i hg
          subst hg
          -- there was no game before, and the new one has no frames
          obtain ⟨rfl, hfresh⟩ := newGame_fresh h hmail
          change (w.state (.scene (getSceneService g)) : Scene) g = none at hfresh
          rw [hfresh]
          rfl
        · rfl
  | gameOver g =>
      refine streams_silent hprev hmail (fun b => rfl) (fun g' => ?_) (by simp)
      rw [Scene.receive_state]
      dsimp only
      split
      · cases (w.state (.scene k) : Scene) g' with
        | none => rfl
        | some game => rfl
      · rfl
  | c2gsRttData g q =>
      refine streams_silent hprev hmail (fun b => ?_) (fun g' => by rw [Scene.receive_state]) (by simp)
      show lettersTo (.broadcast b) (Scene.c2gsRttData (w.state (.scene k)) g q).sent = []
      rw [Scene.c2gsRttData]
      split
      · rfl
      · rfl
  | leavePlayer g q | syncCtrl g q _ | syncData g q _ =>
      exact (streaming_call h hown hprev rfl he (by simp [FighterWar.Event.adds])
        fun game _ hev => by cases hev).congr (fun _ => rfl) (fun _ => rfl)
        (entered_deliver hmail (by simp)) Iff.rfl
  | enterPlayer g q mArgs =>
      have hwelcomes : ∀ fd', (w.agent (getUserAgent q)).current q = some fd' → fd' = mArgs.fd ∧
          (Scene.receive (w.state (.scene k)) i (.enterPlayer g q mArgs)).raised = false := by
        intro fd' hcur
        simpa [sendsToOwn, hmail, SceneMsg.welcomesOwn, hcur] using hnow
      by_cases hself : q = pid ∧ mArgs.fd = fd
      · obtain ⟨rfl, rfl⟩ := hself
        obtain ⟨rfl, -⟩ := seat_of_enter h (mem_sent_of_mail h hmail)
        exact streaming_enter h hprev hmail fun hcur => (hwelcomes _ hcur).2
      · -- somebody else comes, or another session of the player
        refine (streaming_call h hown hprev rfl he (fun hadds hcur => ?_)
          fun game _ hev => by cases hev).congr (fun _ => rfl) (fun _ => rfl)
          (entered_deliver hmail ?_) Iff.rfl
        · obtain rfl : q = pid := by simpa [FighterWar.Event.adds] using hadds
          exact hself ⟨rfl, (hwelcomes fd hcur).1.symm⟩
        · rintro g' mArgs' rfl heq
          obtain ⟨-, rfl, rfl⟩ := SceneMsg.enterPlayer.inj heq
          exact hself ⟨rfl, rfl⟩

/-- An agent handles a letter: a session ends, or one begins that has entered no game. -/
theorem streams_agent (h : ServerRun tr w) (hprev : Streams pid fd tr w) {n : ℕ} {m : AgentMsg}
    {rest : List AgentMsg} (hmail : w.mail (.agent n) = m :: rest) (i : Inputs) :
    Streams pid fd (tr ++ [(w, .deliver (.agent n) i)])
      (w.commit (.agent n) rest (server.receive (.agent n) i (w.state (.agent n)) m)) := by
  have hsame : Streaming (fun b => delivered b pid fd (tr ++ [(w, .deliver (.agent n) i)])) w.frames
      (Entered pid fd (tr ++ [(w, .deliver (.agent n) i)]))
      ((w.agent (getUserAgent pid)).current pid = some fd) := by
    refine hprev.congr (fun b => delivered_silent ?_) (fun g => rfl)
      (fun g => entered_elsewhere (by simp) i) Iff.rfl
    rw [emitted, hmail]
    exact Agent.receive_silent (w.agent n) n i.clk m b pid
  exact hsame.session fun g hg => current_of_entered h hmail i ((entered_elsewhere (by simp) i).mp hg)

/-- A scene acts on its own: a game makes a frame, measures its RTT or is over. -/
theorem streams_act_scene (h : ServerRun tr w) (hown : ∀ x ∈ tr, sendsToOwn x.1 x.2 = true)
    (hprev : Streams pid fd tr w) {k : ℕ} {x : Act (.scene k)} {i : Inputs}
    (hnow : sendsToOwn w (.act (.scene k) x i) = true) :
    Streams pid fd (tr ++ [(w, .act (.scene k) x i)])
      (w.commit (.scene k) (w.mail (.scene k)) (server.act (.scene k) i (w.state (.scene k)) x)) := by
  have hentered : ∀ g, Entered pid fd (tr ++ [(w, .act (.scene k) x i)]) g ↔ Entered pid fd tr g :=
    fun g => entered_act (.scene k) x i
  cases x with
  | frameSkip g =>
      refine (streaming_call h hown hprev (o := Scene.act (w.state (.scene k)) k i.clk
        (.frameSkip g)) rfl (fun b => rfl) (by simp [FighterWar.Event.adds])
        fun game hgame _ hraised => ?_).congr (fun _ => rfl) (fun _ => rfl) hentered Iff.rfl
      simpa [sendsToOwn, hgame, hraised] using hnow
  | syncRtt g =>
      exact (streaming_call h hown hprev (o := Scene.act (w.state (.scene k)) k i.clk
        (.syncRtt g)) rfl (fun b => rfl) (by simp [FighterWar.Event.adds])
        fun game _ hev => by cases hev).congr (fun _ => rfl) (fun _ => rfl) hentered Iff.rfl
  | checkOver g =>
      refine hprev.congr (fun b => delivered_silent ?_) (frames_of_silent fun g' => rfl) hentered
        Iff.rfl
      intro req hreq
      change req ∈ lettersTo (.broadcast b) (Scene.checkOver (w.state (.scene k)) k g) at hreq
      rw [mem_lettersTo, Scene.checkOver] at hreq
      split at hreq
      · split at hreq
        · cases List.mem_singleton.mp hreq
        · cases hreq
      · cases hreq

/-- A timer of an agent fires. -/
theorem streams_act_agent (hprev : Streams pid fd tr w) {n : ℕ} (x : Act (.agent n)) (i : Inputs) :
    Streams pid fd (tr ++ [(w, .act (.agent n) x i)])
      (w.commit (.agent n) (w.mail (.agent n)) (server.act (.agent n) i (w.state (.agent n)) x)) := by
  refine hprev.congr (fun b => ?_) (fun g => rfl) (fun g => entered_act (.agent n) x i) ?_
  · exact delivered_silent (Agent.act_silent (w.agent n) i.clk x b pid)
  · by_cases hn : n = getUserAgent pid
    · subst hn
      rw [World.agent, Config.commit_state_same, server_act_agent, Agent.current_act]
    · rw [World.agent, Config.commit_state_ne _ _ _ _ (by simpa using Ne.symm hn)]

end Moves

/-- **The stream of every session**, while games send to their own sessions. -/
theorem streaming_run (h : ServerRun tr w) (hown : ∀ x ∈ tr, sendsToOwn x.1 x.2 = true) (pid : Pid)
    (fd : Fd) : Streams pid fd tr w := by
  refine invariant_of_moves (C := fun w e => sendsToOwn w e = true)
    (P := fun tr (w : World) => (∀ x ∈ tr, sendsToOwn x.1 x.2 = true) → Streams pid fd tr w)
    ?_ ?_ ?_ h hown hown
  · refine fun _ => ⟨?_, ?_, ?_, ?_⟩
    · rintro g g' ⟨mArgs, -, hm⟩
      cases hm
    · intro b hb
      exact absurd rfl hb
    · rintro g ⟨mArgs, -, hm⟩
      cases hm
    · rintro g ⟨mArgs, -, hm⟩
      cases hm
  · intro tr (w : World) a i m rest hrun hw hC hmail hown
    have hown' : ∀ x ∈ tr, sendsToOwn x.1 x.2 = true := fun x hx => hown x (List.mem_append_left _ hx)
    have hprev := hw hown'
    cases a with
    | scene k => exact streams_scene hrun hown' hprev hmail hC
    | agent n => exact streams_agent hrun hprev hmail i
    | gamegate | gamelogin | sceneMgr | broadcast k | socket k =>
        refine hprev.congr (fun b => delivered_silent ?_) (fun g => rfl)
          (fun g => entered_elsewhere (by simp) i) Iff.rfl
        rw [emitted, hmail]
        dsimp only
        rw [lettersTo_receive rfl]
        exact fun req hreq => absurd hreq List.not_mem_nil
  · intro tr (w : World) a x i hrun hw hC hown
    have hown' : ∀ x ∈ tr, sendsToOwn x.1 x.2 = true := fun x hx => hown x (List.mem_append_left _ hx)
    have hprev := hw hown'
    cases a with
    | scene k => exact streams_act_scene hrun hown' hprev hC
    | agent n => exact streams_act_agent hprev x i
    | gamegate =>
        refine hprev.congr (fun b => delivered_silent ?_) (fun g => rfl)
          (fun g => entered_act .gamegate x i) Iff.rfl
        intro req hreq
        change req ∈ lettersTo (.broadcast b) (server.act .gamegate i (w.state .gamegate) x).sent at hreq
        rw [lettersTo_act rfl] at hreq
        cases hreq
    | gamelogin | sceneMgr | broadcast k | socket k => cases x

/-- All the game data of a socket is written by one broadcast service. -/
theorem data_of_service (h : ServerRun tr w) {pid : Pid} {fd : Fd}
    (hpid : ∀ (q : Pid) (n obj : ℕ), (w.agent n).born[obj]? = some (q, fd) → q = pid) {b : ℕ}
    (hother : ∀ b' ≠ b, delivered b' pid fd tr = []) :
    (server.sent (.socket fd) tr).filter ServerMsg.isGameData
      = (server.sentBy (.broadcast b) (.socket fd) tr).filter ServerMsg.isGameData := by
  refine server.filter_sent_of_run (b := Addr.socket fd) (p := ServerMsg.isGameData) fun a ha => ?_
  cases a with
  | broadcast b' =>
      have hb : b' ≠ b := fun heq => ha (heq ▸ rfl)
      have hpart := (socket_log h hpid b').1
      rw [hother b' hb] at hpart
      exact List.prefix_nil.mp hpart
  | gamegate | gamelogin | agent n | sceneMgr | scene k | socket k =>
      rw [sentBy_eq_nil rfl]
      rfl

/-- **The frame stream of a connection.** While games send to their own sessions, the game data written
to a socket is the first part of a stream of the one game that its session has entered: one login answer
with the length `n` of the cache, the frames 1 to `n` in chunks, and the frames from `n + 1` on; and it
is the whole stream while the session is the player and its broadcast service has handled its letters. -/
theorem frame_streams (h : ServerRun tr w) (hown : ∀ x ∈ tr, sendsToOwn x.1 x.2 = true) (fd : Fd) :
    ((server.sent (.socket fd) tr).filter ServerMsg.isGameData ≠ [] →
      ∃ pid g stream, Entered pid fd tr g ∧ IsStream g (w.frames g) stream ∧
        (server.sent (.socket fd) tr).filter ServerMsg.isGameData <+: stream) ∧
    (∀ pid g, Entered pid fd tr g → (w.agent (getUserAgent pid)).current pid = some fd →
      w.mail (.broadcast (getSceneBroadcast g)) = [] →
      IsStream g (w.frames g) ((server.sent (.socket fd) tr).filter ServerMsg.isGameData)) ∧
    ∀ g, (w.frames g).map FrameInfo.frameNumber = List.range' 1 (w.frames g).length := by
  have hpids : ∀ {n obj : ℕ} {pid : Pid}, (w.agent n).born[obj]? = some (pid, fd) →
      ∀ (q : Pid) (n' obj' : ℕ), (w.agent n').born[obj']? = some (q, fd) → q = pid :=
    fun hobj q n' obj' hobj' => (born_unique h hobj' hobj).2.2
  have hlog : ∀ pid g, Entered pid fd tr g → (server.sent (.socket fd) tr).filter ServerMsg.isGameData
      = (server.sentBy (.broadcast (getSceneBroadcast g)) (.socket fd) tr).filter
        ServerMsg.isGameData := by
    intro pid g hg
    obtain ⟨obj, hobj⟩ := born_of_entered h hg
    refine data_of_service h (hpids hobj) fun b hb => ?_
    by_contra hne
    obtain ⟨g', hg', rfl⟩ := (streaming_run h hown pid fd).source b hne
    exact hb (by rw [(streaming_run h hown pid fd).unique g' g hg' hg])
  refine ⟨fun hdata => ?_, fun pid g hg hcur hmail => ?_, fun g => ?_⟩
  · by_cases hentered : ∃ pid g, Entered pid fd tr g
    · obtain ⟨pid, g, hg⟩ := hentered
      obtain ⟨obj, hobj⟩ := born_of_entered h hg
      obtain ⟨stream, hstream, hpart⟩ := (streaming_run h hown pid fd).part g hg
      refine ⟨pid, g, stream, hg, hstream, ?_⟩
      rw [hlog pid g hg]
      exact (socket_log h (hpids hobj) _).1.trans hpart
    · -- a session that has entered no game is sent nothing
      have hnone : ∀ pid b, delivered b pid fd tr = [] := by
        intro pid b
        by_contra hne
        obtain ⟨g, hg, -⟩ := (streaming_run h hown pid fd).source b hne
        exact hentered ⟨pid, g, hg⟩
      obtain ⟨pid, hpid⟩ : ∃ pid, ∀ (q : Pid) (n obj : ℕ),
          (w.agent n).born[obj]? = some (q, fd) → q = pid := by
        by_cases hborn : ∃ (pid : Pid) (n obj : ℕ), (w.agent n).born[obj]? = some (pid, fd)
        · obtain ⟨pid, n, obj, hobj⟩ := hborn
          exact ⟨pid, hpids hobj⟩
        · exact ⟨0, fun q n obj hobj => absurd ⟨q, n, obj, hobj⟩ hborn⟩
      rw [data_of_service h hpid (b := 0) fun b _ => hnone pid b] at hdata
      have hpart := (socket_log h hpid 0).1
      rw [hnone] at hpart
      exact absurd (List.prefix_nil.mp hpart) hdata
  · obtain ⟨obj, hobj⟩ := born_of_entered h hg
    rw [hlog pid g hg, (socket_log h (hpids hobj) _).2 hmail]
    exact (streaming_run h hown pid fd).whole g hg hcur
  · rw [World.frames]
    cases hgame : w.game g with
    | none => rfl
    | some game => exact (game_numbered h hgame).2.frameNumber

end Own

section Crossing

attribute [local instance] sprotoWire gameConfig

/-- Player 1 is in the first game; its connection is closed and it logs in again. The first game makes
a frame while the `leave_player` of the old session waits. -/
def crossing : List WorldMove :=
  [report .open] ++ logIn 1 1 ++ firstEnter 1 ++ [report (.close 1), next (.agent 1), report .open] ++
    logIn 2 1 ++ [next (.agent 1), tickFirst] ++ List.replicate 5 (next (.broadcast 1))

/-- **A frame of the old game comes before the login answer.** No connection logged in while another one
was logged in as its pid, and every frame encodes; the first game data on the socket of the new
connection is a frame. -/
theorem frame_before_loginsuc :
    ∃ w : World, runFrom server.step World.init crossing = some w ∧
      (∀ x ∈ traceFrom server.step World.init crossing, ∀ pid, FreeLogin pid x.1 x.2) ∧
      (∀ x ∈ traceFrom server.step World.init crossing, framesEncode x.1 x.2 = true) ∧
      w.gate.loggedIn 2 = some (1, 1) ∧
      (∃ frame, (server.sent (.socket 2) (traceFrom server.step World.init crossing)).filter
        ServerMsg.isGameData = [.gs2cFrameData frame]) ∧
      ∀ g frames stream, IsStream g frames stream →
        ¬ (server.sent (.socket 2) (traceFrom server.step World.init crossing)).filter
          ServerMsg.isGameData <+: stream := by
  have hrun : (runFrom server.step World.init crossing).any (fun (w : World) =>
      w.gate.loggedIn 2 = some (1, 1)) = true := by decide +kernel
  obtain ⟨w, hw, hlogin⟩ := Option.any_eq_true _ _ |>.mp hrun
  have hdata : (server.sent (.socket 2) (traceFrom server.step World.init crossing)).filter
      ServerMsg.isGameData
        = [.gs2cFrameData ⟨1, [FighterWar.enterEntry 1 ⟨[97], 1, 1, ⟨some 1, some 2, some 3⟩,
          ⟨some 1, some 550⟩, 0, -1, 10000, 0, 0, 0, none⟩], 0⟩] := by decide +kernel
  refine ⟨w, hw, by decide +kernel, by decide +kernel, of_decide_eq_true hlogin, ⟨_, hdata⟩, ?_⟩
  rintro g frames stream ⟨_, _, _, _, -, rfl⟩ hpart
  rw [hdata] at hpart
  cases (List.cons_prefix_cons.mp hpart).1

/-- Player 1 logs in again when the game has handled the leave of its old session. -/
def inTurn : List WorldMove :=
  [report .open] ++ logIn 1 1 ++ firstEnter 1 ++ [tickFirst, report (.close 1), next (.agent 1),
    next (.scene 1), report .open] ++ logIn 2 1 ++ [next (.agent 1), next .sceneMgr, next (.scene 1),
    tickFirst] ++ List.replicate 8 (next (.broadcast 1))

/-- The new connection has the whole stream of the first game. -/
theorem frame_streams_inTurn :
    ∃ w : World, runFrom server.step World.init inTurn = some w ∧
      IsStream 1 (w.frames 1) ((server.sent (.socket 2)
        (traceFrom server.step World.init inTurn)).filter ServerMsg.isGameData) := by
  have hrun : (runFrom server.step World.init inTurn).any (fun (w : World) =>
      decide ((w.agent (getUserAgent 1)).current 1 = some 2) &&
        (w.mail (.broadcast (getSceneBroadcast 1))).isEmpty) = true := by decide +kernel
  obtain ⟨w, hw, hstate⟩ := Option.any_eq_true _ _ |>.mp hrun
  simp only [Bool.and_eq_true, decide_eq_true_eq, List.isEmpty_iff] at hstate
  have hown : ∀ x ∈ traceFrom server.step World.init inTurn, sendsToOwn x.1 x.2 = true := by
    decide +kernel
  have hentered : Entered 1 2 (traceFrom server.step World.init inTurn) 1 :=
    ⟨⟨[97], 1, 2, ⟨some 1, some 2, some 3⟩⟩, rfl, by decide +kernel⟩
  exact ⟨w, hw, (frame_streams (run_of_runFrom hw) hown 2).2.1 1 1 hentered hstate.1 hstate.2⟩

end Crossing

end FrameSync
