import FrameSync.Server.Delivery

/-! # Who wrote an entry

An entry of a frame is one that the game pushed for a player who came or left, or the content of a packet
that a client sent on a connection that was logged in (`frames_authored`). The gate, the agent and the
scene each know the player of a packet, but none of them compares it with the pid and the action inside:
a client may write any pid and any action into an entry (`entry_in_other_name`). -/

namespace FrameSync

open Behaviour

/-- A client sent the entry on a connection that was logged in as `pid`. -/
def sentAs (tr : List (World × WorldMove)) (pid : Pid) (entry : CtrlInfo) : Bool :=
  tr.any fun x =>
    match x.2 with
    | .act .gamegate (.data fd (.c2gsCtrlData (some c))) _ =>
        c = entry && (x.1.gate.loggedIn fd).any fun l => l.2 = pid
    | _ => false

section Authored

variable [Wire] [ServerConfig] {tr : List (World × WorldMove)} {w : World}

omit [Wire] [ServerConfig] in
theorem sentAs_snoc {pid : Pid} {entry : CtrlInfo} (h : sentAs tr pid entry = true) (e : WorldMove) :
    sentAs (tr ++ [(w, e)]) pid entry = true := by
  rw [sentAs, List.any_append]
  exact Bool.or_eq_true_iff.mpr (Or.inl h)

/-- The inputs that reach an agent were sent on connections of their pid. -/
theorem sentAs_of_unpack (h : ServerRun tr w) {n : ℕ} {pid : Pid} {entry : CtrlInfo}
    (hm : .unpack pid (.c2gsCtrlData (some entry)) ∈ server.sent (.agent n) tr) :
    sentAs tr pid entry = true := by
  revert hm
  refine invariant (P := fun tr (_ : World) =>
    .unpack pid (.c2gsCtrlData (some entry)) ∈ server.sent (.agent n) tr →
      sentAs tr pid entry = true) ?_ ?_ ?_ h
  · exact fun hm => absurd hm List.not_mem_nil
  · intro tr (w : World) a i m rest hrun hw hmail hm
    rw [server.sent_deliver _ hmail] at hm
    rcases List.mem_append.mp hm with hm | hm
    · exact sentAs_snoc (hw hm) _
    · cases a with
      | sceneMgr =>
          obtain ⟨_, _, _, heq⟩ := sceneMgr_writes_entered hm
          cases heq
      | gamegate =>
          obtain ⟨_, _, -, -, -, heq⟩ := Gate.writes_of_receive hm
          cases heq
      | gamelogin | agent k | scene k | broadcast k | socket k =>
          rw [lettersTo_receive rfl] at hm
          cases hm
  · intro tr (w : World) a x i hrun hw hm
    rw [server.sent_act] at hm
    rcases List.mem_append.mp hm with hm | hm
    · exact sentAs_snoc (hw hm) _
    · cases a with
      | gamegate =>
          rcases Gate.writes_of_act hm with ⟨fd, msg, q, rfl, hlogin, heq⟩ | ⟨fd, q, -, heq⟩
          · -- the connection it came on is logged in with the pid
            obtain ⟨rfl, rfl⟩ := AgentMsg.unpack.inj heq
            rw [sentAs, List.any_append]
            refine Bool.or_eq_true_iff.mpr (Or.inr ?_)
            simp [hlogin]
          · cases heq
      | agent k | scene k =>
          rw [lettersTo_act rfl] at hm
          cases hm
      | gamelogin | sceneMgr | broadcast k | socket k => cases x

/-- The inputs that reach a scene are those of players who sent them. -/
theorem sentAs_of_syncCtrl (h : ServerRun tr w) {k : ℕ} {g : GameId} {pid : Pid} {entry : CtrlInfo}
    (hm : .syncCtrl g pid (some entry) ∈ server.sent (.scene k) tr) : sentAs tr pid entry = true := by
  revert hm
  refine invariant (P := fun tr (_ : World) => .syncCtrl g pid (some entry) ∈ server.sent (.scene k) tr →
    sentAs tr pid entry = true) ?_ ?_ ?_ h
  · exact fun hm => absurd hm List.not_mem_nil
  · intro tr (w : World) a i m rest hrun hw hmail hm
    rw [server.sent_deliver _ hmail] at hm
    rcases List.mem_append.mp hm with hm | hm
    · exact sentAs_snoc (hw hm) _
    · cases a with
      | agent n =>
          have hpush : .syncCtrl g pid (some entry) ∈ lettersTo (.scene k) ((w.agent n).pushes m) := by
            rw [← Agent.pushes_receive _ n i.clk]
            exact List.mem_filter.mpr ⟨hm, rfl⟩
          rw [mem_lettersTo] at hpush
          cases m with
          | kick q =>
              obtain ⟨y, -, hy⟩ := List.mem_flatMap.mp hpush
              obtain ⟨z, -, heq⟩ := List.mem_map.mp hy
              cases heq
          | unpack q msg =>
              cases msg with
              | c2gsCtrlData c =>
                  obtain ⟨y, hq, hy⟩ := List.mem_flatMap.mp hpush
                  obtain ⟨z, -, heq⟩ := List.mem_map.mp hy
                  have hid := Agent.id_getPlayer (Option.mem_toList.mp hq)
                  obtain ⟨rfl, rfl⟩ : y.2.id = pid ∧ c = some entry := by
                    cases heq
                    exact ⟨rfl, rfl⟩
                  -- The agent writes the entry under the pid of its player, to whom the packet was
                  -- unpacked.
                  refine sentAs_snoc (sentAs_of_unpack hrun (n := n) ?_) _
                  rw [hid]
                  exact mem_sent_of_mail hrun hmail
              | c2gsLogin | c2gsPing | c2gsRttData | other => cases hpush
          | start | entered => cases hpush
      | sceneMgr => cases SceneMgr.ofMgr_receive hm
      | gamegate | gamelogin | scene n | broadcast n | socket n =>
          rw [lettersTo_receive rfl] at hm
          cases hm
  · intro tr (w : World) a x i hrun hw hm
    rw [server.sent_act] at hm
    rcases List.mem_append.mp hm with hm | hm
    · exact sentAs_snoc (hw hm) _
    · cases a with
      | agent n =>
          have hpush := List.mem_filter.mpr ⟨hm, (rfl : SceneMsg.pushes (.syncCtrl g pid (some entry)) = true)⟩
          rw [server_act_agent, Agent.pushes_act] at hpush
          cases hpush
      | gamegate | scene n =>
          rw [lettersTo_act rfl] at hm
          cases hm
      | gamelogin | sceneMgr | broadcast n | socket n => cases x

/-- A letter that pushed was handled by its scene, and is about the game. -/
theorem call_of_pushLog (h : ServerRun tr w) {g : GameId} {x : SceneMsg × CtrlInfo}
    (hx : x ∈ pushLog g tr) : x.1 ∈ handled (.scene (getSceneService g)) tr ∧
      ∃ i ev, x.1.call i = some (g, ev) := by
  revert x
  refine invariant (P := fun tr (_ : World) => ∀ {x : SceneMsg × CtrlInfo}, x ∈ pushLog g tr →
    x.1 ∈ handled (.scene (getSceneService g)) tr ∧ ∃ i ev, x.1.call i = some (g, ev)) ?_ ?_ ?_ h
  · intro x hx
    cases hx
  · intro tr (w : World) a i m rest hrun hw hmail x hx
    -- Only a letter to the scene of the game adds to the log.
    by_cases ha : a = .scene (getSceneService g)
    · subst ha
      rw [handled_deliver hmail]
      rw [pushLog, observed_deliver _ hmail, ← pushLog] at hx
      rcases List.mem_append.mp hx with hx | hx
      · exact ⟨List.mem_append_left _ (hw hx).1, (hw hx).2⟩
      · rw [(Scene.makes_of_pushedBy hx).1]
        refine ⟨List.mem_append_right _ (List.mem_singleton_self _), ?_⟩
        rw [Scene.pushedBy] at hx
        split at hx
        · rename_i gameId ev game hcall hgame
          split at hx
          · rename_i hg
            exact ⟨i, ev, hg ▸ hcall⟩
          · cases hx
        · cases hx
    · rw [handled_deliver_ne ha]
      rw [pushLog, observed_deliver_ne _ ha, ← pushLog] at hx
      exact hw hx
  · intro tr (w : World) a y i hrun hw x hx
    rw [handled_act]
    rw [pushLog, observed_act, ← pushLog] at hx
    exact hw hx

/-- Where an entry of the game `g` is from. -/
inductive Authored (tr : List (World × WorldMove)) (g : GameId) (entry : CtrlInfo) : Prop
  /-- `add_player(pid)` of the game pushed it. -/
  | enter (pid : Pid) (mArgs : PlayerArgs) (spawn : Spawn) (now : ℕ)
      (call : (.enterPlayer g pid mArgs, entry) ∈ pushLog g tr)
      (eq : entry = FighterWar.enterEntry pid (FWPlayer.init mArgs spawn now))
  /-- `del_player(pid)` of the game pushed it. -/
  | leave (pid : Pid) (call : (.leavePlayer g pid, entry) ∈ pushLog g tr)
      (eq : entry = FighterWar.leaveEntry pid)
  /-- It was sent on a connection logged in as a player of the game. -/
  | input (pid : Pid) (call : (.syncCtrl g pid (some entry), entry) ∈ pushLog g tr)
      (sent : sentAs tr pid entry = true)

/-- What was pushed has an author. -/
theorem authored_of_pushLog (h : ServerRun tr w) {g : GameId} {x : SceneMsg × CtrlInfo}
    (hx : x ∈ pushLog g tr) : Authored tr g x.2 := by
  obtain ⟨m, entry⟩ := x
  obtain ⟨hhandled, i, ev, hcall⟩ := call_of_pushLog h hx
  have hmakes := makes_of_pushLog h hx
  cases m with
  | enterPlayer g' pid mArgs =>
      obtain rfl := (Prod.mk.inj (Option.some.inj hcall)).1
      obtain ⟨spawn, now, heq⟩ := hmakes
      exact .enter pid mArgs spawn now hx heq
  | leavePlayer g' pid =>
      obtain rfl := (Prod.mk.inj (Option.some.inj hcall)).1
      exact .leave pid hx hmakes
  | syncCtrl g' pid ctrlData =>
      obtain rfl := (Prod.mk.inj (Option.some.inj hcall)).1
      obtain rfl : ctrlData = some entry := hmakes
      exact .input pid hx (sentAs_of_syncCtrl h ((handled_first h _).subset hhandled))
  | newGame | syncData | c2gsRttData | gameOver => cases hmakes

/-- **Every entry has an author.** The entries a game keeps, and those of the frame that its next tick
broadcasts, were pushed by `add_player` or `del_player` of the game, or were sent on connections that
were logged in as players of the game. -/
theorem frames_authored (h : ServerRun tr w) (g : GameId) :
    (∀ entry ∈ Scene.entries (w.state (.scene (getSceneService g))) g, Authored tr g entry) ∧
    ∀ i b pids frame, .sendToList pids (.gs2cFrameData frame) ∈ lettersTo (.broadcast b)
        (server.emitted w (.act (.scene (getSceneService g)) (.frameSkip g) i)) →
      ∀ entry ∈ frame.ctrlData, Authored tr g entry := by
  have hkept : ∀ entry ∈ Scene.entries (w.state (.scene (getSceneService g))) g,
      Authored tr g entry := by
    intro entry hentry
    rw [entries_eq h] at hentry
    obtain ⟨x, hx, rfl⟩ := List.mem_map.mp hentry
    exact authored_of_pushLog h hx
  refine ⟨hkept, fun i b pids frame hframe entry hentry => hkept entry ?_⟩
  rw [emitted, server_act_scene, mem_lettersTo, Scene.act, Scene.call] at hframe
  split at hframe
  · rename_i game hgame
    obtain ⟨req, hreq, heq⟩ := List.mem_map.mp hframe
    obtain rfl := eq_of_heq (Sigma.mk.inj heq).2
    have hsent := FighterWar.mem_frameSkip_sent hreq
    obtain ⟨-, hparam⟩ := BcMsg.sendToList.inj hsent
    rw [ServerMsg.gs2cFrameData.inj hparam] at hentry
    rw [Scene.entries, hgame]
    exact List.mem_append_right _ hentry
  · cases hframe

end Authored

section OtherName

attribute [local instance] sprotoWire gameConfig

/-- A move of player 2. -/
def otherMove : CtrlInfo := { pid := some 2, action := some actionMove }

/-- Player 1 is alone in the first game, and its client sends a move and a leave of player 2. -/
def otherName : List WorldMove :=
  [report .open] ++ logIn 1 1 ++ firstEnter 1 ++
    [report (.data 1 (.c2gsCtrlData (some otherMove))), next (.agent 1), next (.scene 1),
     report (.data 1 (.c2gsCtrlData (some (FighterWar.leaveEntry 2)))), next (.agent 1), next (.scene 1)]

/-- The frames that are broadcast in a move, by the service of the first game. -/
def framesSent (w : World) (e : WorldMove) : List FrameInfo :=
  (lettersTo (.broadcast (getSceneBroadcast 1)) (server.emitted w e)).filterMap fun req =>
    match req with
    | .sendToList _ (.gs2cFrameData frame) => some frame
    | _ => none

/-- **A client writes an entry in the name of another player.** The next frame of the first game has a
move of player 2, which nobody sent as player 2, and a leave of player 2, for which there was no
`leave_player`. -/
theorem entry_in_other_name :
    ∃ w : World, runFrom server.step World.init otherName = some w ∧
      ∃ frame ∈ framesSent w tickFirst,
        (∃ entry ∈ frame.ctrlData, entry.action = some actionMove ∧ entry.pid = some 2 ∧
          sentAs (traceFrom server.step World.init otherName) 2 entry = false) ∧
        FighterWar.leaveEntry 2 ∈ frame.ctrlData ∧
        .leavePlayer 1 2 ∉ handled (.scene 1) (traceFrom server.step World.init otherName) := by
  have hrun : (runFrom server.step World.init otherName).any (fun (w : World) =>
      (framesSent w tickFirst).any fun frame =>
        (frame.ctrlData.any fun entry => entry.action = some actionMove && entry.pid = some 2 &&
          !sentAs (traceFrom server.step World.init otherName) 2 entry) &&
        decide (FighterWar.leaveEntry 2 ∈ frame.ctrlData)) = true := by decide +kernel
  obtain ⟨w, hw, hframes⟩ := Option.any_eq_true _ _ |>.mp hrun
  simp only [List.any_eq_true, Bool.and_eq_true, decide_eq_true_eq, Bool.not_eq_true'] at hframes
  obtain ⟨frame, hframe, ⟨entry, hentry, ⟨haction, hpid⟩, hsent⟩, hleave⟩ := hframes
  exact ⟨w, hw, frame, hframe, ⟨entry, hentry, haction, hpid, hsent⟩, hleave, by decide +kernel⟩

/-- The entries that the game keeps have authors all the same. -/
theorem frames_authored_other :
    ∃ w : World, runFrom server.step World.init otherName = some w ∧
      ∀ entry ∈ Scene.entries (w.state (.scene (getSceneService 1))) 1,
        Authored (traceFrom server.step World.init otherName) 1 entry := by
  have hrun : (runFrom server.step World.init otherName).isSome = true := by decide +kernel
  obtain ⟨w, hw⟩ := Option.isSome_iff_exists.mp hrun
  exact ⟨w, hw, (frames_authored (run_of_runFrom hw) 1).1⟩

end OtherName

end FrameSync
