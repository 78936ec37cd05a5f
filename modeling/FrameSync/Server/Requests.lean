import FrameSync.Server.Seats

/-! # The requests of a logged-in client

What becomes of a request that the gate hands on: `Unpack` and `Analysis` at the agent, the method of the
`Player`, and the scene command for the letter that it sends. `handles_iff` says when all of that ends
without an error. Two requests may raise: `c2gs_rtt_data`, whose scene command reads a global that is
not set, and, while `enterwar` is pending, any that sends to the scene without asking whether it is
known. -/

namespace FrameSync

namespace Player

/-- The average with the round trip that is measured now is five hundredths or more away from the value
that was reported last. -/
def rttJump (p : Player) (now : ℕ) : Bool := 5 ≤ (avgRtt (keepFive (p.putRtt now)) - p.oldRTT).natAbs

/-- The request makes the agent send to a scene that is not known. -/
def sendsToNil (p : Player) (now : ℕ) : ClientMsg → Bool
  | .c2gsPing session =>
      p.war.isNone && session = some p.pingSession && p.lastPingSession ≠ p.pingSession && p.rttJump now
  | .c2gsRttData .. => p.war.isNone
  | .c2gsCtrlData _ | .c2gsLogin _ | .other => false

section Agent

variable [Wire]

omit [Wire] in
/-- `calc_rtt` raises exactly when it has something to report and no scene. -/
theorem raised_calcRtt (p : Player) (now : ℕ) :
    (p.calcRtt now).raised = (p.war.isNone && p.rttJump now) := by
  have hwar : (p.measure now).war = p.war := rfl
  have hjump : p.rttJump now = decide (5 ≤ ((p.measure now).rtt - (p.measure now).oldRTT).natAbs) := rfl
  rw [calcRtt, reportRtt, hjump, hwar]
  split
  · cases p.war with
    | none => simp [*]
    | some w => rfl
  · simp [*]

/-- **The agent raises** exactly when it sends to a scene that is not known. -/
theorem raised_analysis (hwire : ∀ session now isResp sec,
      Wire.packs (.gs2cPing session now isResp) sec = true) (p : Player) (clk : Clock)
    (msg : ClientMsg) : (p.analysis clk msg).raised = p.sendsToNil clk.now msg := by
  cases msg with
  | c2gsPing session =>
      have hping : ∀ q : Player, (sendPing clk true q).raised = false := by
        intro q
        rw [sendPing, if_pos (hwire ..)]
        rfl
      rw [analysis, clientPing, sendsToNil]
      by_cases hsession : session = some p.pingSession
      · by_cases hlast : p.lastPingSession = p.pingSession
        · simp [hsession, hlast]
        · rw [if_neg (not_not_intro hsession), if_neg hlast]
          have hcalc := raised_calcRtt { p with lastPingSession := p.pingSession } clk.now
          change _ = (p.war.isNone && p.rttJump clk.now) at hcalc
          simp only [hsession, hlast, ne_eq, not_false_eq_true, decide_true, Bool.and_true, ← hcalc]
          cases hraised : (calcRtt { p with lastPingSession := p.pingSession } clk.now).raised with
          | true => rw [Outcome.andThen_of_raised hraised, hraised]
          | false => exact Outcome.andThen_raised_eq_false.mpr ⟨hraised, hping _⟩
      · simp [hsession]
  | c2gsRttData _ _ _ _ =>
      rw [analysis, syncRttData, sendsToNil]
      cases p.war with
      | none => rfl
      | some w => rfl
  | c2gsCtrlData _ | c2gsLogin _ | other => rfl

/-- What a ping makes a player send to a scene. -/
theorem sync_of_clientPing {p : Player} {session : Option ℤ} {clk : Clock} {k : ℕ} {m : SceneMsg}
    (h : ⟨.scene k, m⟩ ∈ (p.clientPing session clk).sent) : ∃ g val, m = .syncData g p.id val := by
  have hcalc : ∀ q : Player, ⟨.scene k, m⟩ ∈ (q.calcRtt clk.now).sent →
      ∃ g val, m = .syncData g q.id val := by
    intro q hq
    cases quiet_calcRtt q clk.now _ hq with
    | syncData hwar val => exact ⟨_, val, rfl⟩
    | rttData hwar =>
        rw [calcRtt, reportRtt] at hq
        split at hq
        · split at hq
          · cases List.mem_singleton.mp hq
          · cases hq
        · cases hq
  rw [clientPing] at h
  split at h
  · cases h
  · split at h
    · cases h
    · rw [Outcome.andThen] at h
      split at h
      · exact hcalc { p with lastPingSession := p.pingSession } h
      · rcases List.mem_append.mp h with h | h
        · exact hcalc { p with lastPingSession := p.pingSession } h
        · rw [sendPing] at h
          split at h
          · cases List.mem_singleton.mp h
          · cases h

end Agent

end Player

section Handles

variable [Wire] [ServerConfig]

/-- The request makes the scene command read a global that is not set. -/
def World.readsNil (w : World) (p : Player) : ClientMsg → Bool
  | .c2gsRttData .. =>
      p.war.any fun x => (w.game x.1).any fun game => (game.war.players.lookup p.id).isSome
  | .c2gsPing _ | .c2gsCtrlData _ | .c2gsLogin _ | .other => false

/-- No error is raised when `AGENTn` handles the request in the world `w`, nor when a scene handles what
it is sent then in the world `w'`. -/
def World.Handles (w w' : World) (n : ℕ) (pid : Pid) (msg : ClientMsg) (clk : Clock) : Prop :=
  ((w.agent n).unpack pid msg clk).raised = false ∧
    ∀ k (m : SceneMsg), ⟨.scene k, m⟩ ∈ ((w.agent n).unpack pid msg clk).sent → ∀ i : Inputs,
      (Scene.receive (w'.state (.scene k)) i m).raised = false

/-- `command.sync_ctrl` and `command.sync_data` raise nothing. -/
theorem Scene.raised_call (s : Scene) (gameId : GameId) (clk : Clock) {ev : FighterWar.Event}
    (hev : ∀ war : FighterWar, (war.step clk ev).raised = false) :
    (s.call gameId clk ev).raised = false := by
  rw [Scene.call]
  split
  · exact hev _
  · rfl

omit [Wire] [ServerConfig] in
/-- `command.c2gs_rtt_data` raises exactly for a player who is there. -/
theorem Scene.raised_c2gsRttData (s : Scene) (gameId : GameId) (pid : Pid) :
    (s.c2gsRttData gameId pid).raised
      = (s gameId).any fun game => (game.war.players.lookup pid).isSome := by
  rw [Scene.c2gsRttData]
  cases s gameId with
  | none => rfl
  | some game =>
      rw [Option.bind_some, Option.any_some]
      cases game.war.players.lookup pid with
      | none => rfl
      | some p => rfl

end Handles

section Sproto

attribute [local instance] sprotoWire

variable [ServerConfig]

/-- **Handling a request.** In every run of the server that comes to `w`, where the agent handles a
request, and whatever the world `w'` is when a scene handles what it is sent then: no error is raised
exactly if the agent has no such player, or neither sends to a scene that is not known nor makes the
scene read what is not set. -/
theorem handles_iff {tr : List (World × WorldMove)} {w : World} (h : ServerRun tr w) (w' : World)
    (n : ℕ) (pid : Pid) {msg : ClientMsg} (hmsg : msg ≠ .other) (clk : Clock) :
    w.Handles w' n pid msg clk ↔
      ∀ obj p, (w.agent n).getPlayer pid = some (obj, p) →
        p.sendsToNil clk.now msg = false ∧ w'.readsNil p msg = false := by
  cases hplayer : (w.agent n).getPlayer pid with
  | none =>
      have hunpack : (w.agent n).unpack pid msg clk = .done (w.agent n) [] := by
        rw [Agent.unpack, hplayer]
      rw [World.Handles, hunpack]
      constructor
      · rintro - obj p hp
        cases hp
      · exact fun _ => ⟨rfl, fun k m hm => absurd hm List.not_mem_nil⟩
  | some x =>
      obtain ⟨obj, p⟩ := x
      have hraised : ((w.agent n).unpack pid msg clk).raised = p.sendsToNil clk.now msg := by
        rw [Agent.unpack, hplayer]
        exact p.raised_analysis packs_gs2cPing clk msg
      have hsent : ((w.agent n).unpack pid msg clk).sent = (p.analysis clk msg).sent := by
        rw [Agent.unpack, hplayer]
        rfl
      have hscene : (∀ k (m : SceneMsg), ⟨.scene k, m⟩ ∈ (p.analysis clk msg).sent → ∀ i : Inputs,
          (Scene.receive (w'.state (.scene k)) i m).raised = false) ↔ w'.readsNil p msg = false := by
        cases msg with
        | c2gsPing session =>
            refine ⟨fun _ => rfl, fun _ k m hm i => ?_⟩
            obtain ⟨g, val, rfl⟩ := Player.sync_of_clientPing hm
            exact Scene.raised_call _ g i.clk fun _ => rfl
        | c2gsCtrlData ctrlData =>
            refine ⟨fun _ => rfl, fun _ k m hm i => ?_⟩
            obtain ⟨x, -, heq⟩ := List.mem_map.mp hm
            cases heq
            exact Scene.raised_call _ x.1 i.clk fun _ => rfl
        | c2gsRttData _ _ _ _ =>
            cases hwar : p.war with
            | none =>
                rw [World.readsNil, hwar, Player.analysis, Player.syncRttData, hwar]
                exact ⟨fun _ => rfl, fun _ k m hm => absurd hm List.not_mem_nil⟩
            | some x =>
                obtain ⟨g, k⟩ := x
                -- the scene that the agent knows is the one that has the game
                have hk : k = getSceneService g :=
                  (isSeat_of_warOf h ((Agent.warOf_getPlayer hplayer).trans hwar)).2
                subst hk
                have hdata := Scene.raised_c2gsRttData (w'.state (.scene (getSceneService g))) g p.id
                rw [World.readsNil, hwar, Player.analysis, Player.syncRttData, hwar, Option.any_some,
                  World.game, ← hdata]
                constructor
                · exact fun hall => hall _ _ (List.mem_singleton_self _) (readings 0)
                · intro hdata k m hm i
                  cases List.mem_singleton.mp hm
                  exact hdata
        | c2gsLogin _ =>
            exact ⟨fun _ => rfl, fun _ k m hm => absurd hm List.not_mem_nil⟩
        | other => exact absurd rfl hmsg
      rw [World.Handles, hraised, hsent, hscene]
      constructor
      · intro hboth obj' p' hp'
        obtain ⟨-, rfl⟩ := Prod.mk.inj (Option.some.inj hp')
        exact hboth
      · exact fun hall => hall obj p rfl

end Sproto

section Asked

attribute [local instance] sprotoWire gameConfig

/-- A `c2gs_rtt_data` with all its fields. -/
def fullRttData : ClientMsg := .c2gsRttData (some 3) (some 2) (some 4) (some 3)

/-- Player 2 enters the first game and sends its statistics. -/
def sendStatistics : List WorldMove :=
  [report .open] ++ logIn 1 2 ++ firstEnter 2 ++ [report (.data 1 fullRttData)]

/-- **A request that raises**: the statistics of a player who is in its game. -/
theorem rtt_data_raises :
    ∃ w w' : World, runFrom server.step World.init sendStatistics = some w ∧
      runFrom server.step w [next (.agent 2)] = some w' ∧
      w.mail (.agent 2) = [.unpack 2 fullRttData] ∧ w'.mail (.scene 1) = [.c2gsRttData 1 2] ∧
      ¬ w.Handles w' 2 2 fullRttData (readings 0).clk := by
  have hrun : (runFrom server.step World.init sendStatistics).any (fun (w : World) =>
      (runFrom server.step w [next (.agent 2)]).any fun (w' : World) =>
        w.mail (.agent 2) = [.unpack 2 fullRttData] && w'.mail (.scene 1) = [.c2gsRttData 1 2] &&
          lettersTo (.scene 1) ((w.agent 2).unpack 2 fullRttData (readings 0).clk).sent
            = [.c2gsRttData 1 2] &&
          (Scene.receive (w'.state (.scene 1)) (readings 0) (.c2gsRttData 1 2)).raised) = true := by
    decide +kernel
  obtain ⟨w, hw, hnext⟩ := Option.any_eq_true _ _ |>.mp hrun
  obtain ⟨w', hw', hstate⟩ := Option.any_eq_true _ _ |>.mp hnext
  simp only [Bool.and_eq_true, decide_eq_true_eq] at hstate
  refine ⟨w, w', hw, hw', hstate.1.1.1, hstate.1.1.2, fun hhandles => ?_⟩
  have hsent : .c2gsRttData 1 2 ∈
      lettersTo (.scene 1) ((w.agent 2).unpack 2 fullRttData (readings 0).clk).sent := by
    rw [hstate.1.2]
    exact List.mem_singleton_self _
  have hfine := hhandles.2 1 _ (mem_lettersTo.mp hsent) (readings 0)
  rw [hstate.2] at hfine
  cases hfine

/-- Player 2 enters the first game and sends an entry. -/
def sendEntry : List WorldMove :=
  [report .open] ++ logIn 1 2 ++ firstEnter 2 ++ [report (.data 1 (.c2gsCtrlData none))]

/-- The entry of a player who is in its game is handled, also when it is not there. -/
theorem handles_entry :
    ∃ w w' : World, runFrom server.step World.init sendEntry = some w ∧
      runFrom server.step w [next (.agent 2)] = some w' ∧
      w.Handles w' 2 2 (.c2gsCtrlData none) (readings 0).clk := by
  have hrun : (runFrom server.step World.init sendEntry).any (fun (w : World) =>
      (runFrom server.step w [next (.agent 2)]).isSome) = true := by decide +kernel
  obtain ⟨w, hw, hnext⟩ := Option.any_eq_true _ _ |>.mp hrun
  obtain ⟨w', hw'⟩ := Option.isSome_iff_exists.mp hnext
  have hentry : ClientMsg.c2gsCtrlData none ≠ .other := by decide
  exact ⟨w, w', hw, hw', (handles_iff (run_of_runFrom hw) w' 2 2 hentry _).mpr fun _ _ _ =>
    ⟨rfl, rfl⟩⟩

end Asked

end FrameSync
