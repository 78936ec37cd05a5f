import FrameSync.Scene.FighterWar

/-! # What a game sends to a player

The frame-carrying messages a game addresses to a player, over any sequence of calls. Each call but
the player's own `add_player` sends exactly the frames it makes, and only to the players in the
table (`step_frames`); `add_player` sends the cache in chunks (`welcome_sent`). The emission
law `emission_law` assembles the two along a run. -/

namespace FrameSync.FighterWar

variable [Wire]

/-! ## The chunks of the frame cache -/

/-- **The chunk loop.** When nothing raises, the chunks are sent in order, none is empty, none is
longer than `iPiece`, and together they are what was to be sent. -/
theorem sendFrameCache_sent (pid : Pid) (sec : ℕ) (g : FighterWar) (frames pkglist : List FrameInfo)
    (i : ℕ) (hi : i = pkglist.length + 1) (hle : i ≤ iPiece)
    (hok : (sendFrameCache pid sec frames pkglist i g).raised = false) :
    ∃ chunks : List (List FrameInfo),
      (sendFrameCache pid sec frames pkglist i g).sent
        = chunks.map (fun c => .sendToPlayer pid (.gs2cFrameCacheData c)) ∧
      chunks.flatten = pkglist ++ frames ∧ ∀ c ∈ chunks, c ≠ [] ∧ c.length ≤ iPiece := by
  induction frames generalizing pkglist i with
  | nil =>
      rw [sendFrameCache] at hok ⊢
      by_cases hpkg : 0 < pkglist.length
      · rw [if_pos hpkg] at hok ⊢
        rw [send2Player, Net.sendToPlayer_raised] at hok
        refine ⟨[pkglist], ?_, by simp, ?_⟩
        · rw [send2Player, Net.sendToPlayer_sent, if_pos hok, List.map_singleton]
        · intro c hc
          obtain rfl := List.mem_singleton.mp hc
          exact ⟨List.ne_nil_of_length_pos hpkg, by omega⟩
      · rw [if_neg hpkg]
        obtain rfl : pkglist = [] := List.length_eq_zero_iff.mp (by omega)
        exact ⟨[], rfl, rfl, by simp⟩
  | cons f frames ih =>
      rw [sendFrameCache] at hok ⊢
      by_cases hfull : iPiece ≤ i
      · -- the chunk is full: it goes out and the next one starts empty
        rw [if_pos hfull] at hok ⊢
        obtain ⟨hsend, hrest⟩ := Outcome.andThen_raised_eq_false.mp hok
        rw [Outcome.andThen_of_not_raised hsend]
        rw [send2Player_state] at hrest ⊢
        obtain ⟨chunks, hsent, hflat, hlen⟩ := ih [] (0 + 1) rfl (by decide) hrest
        rw [send2Player, Net.sendToPlayer_raised] at hsend
        refine ⟨(pkglist ++ [f]) :: chunks, ?_, by simp [hflat], ?_⟩
        · simp only [hsent, send2Player, Net.sendToPlayer_sent, if_pos hsend, List.map_cons,
            List.singleton_append]
        · intro c hc
          rcases List.mem_cons.mp hc with rfl | hc
          · exact ⟨by simp, by simp only [List.length_append, List.length_singleton]; omega⟩
          · exact hlen c hc
      · rw [if_neg hfull] at hok ⊢
        obtain ⟨chunks, hsent, hflat, hlen⟩ :=
          ih (pkglist ++ [f]) (i + 1) (by simp [hi]) (by omega) hok
        exact ⟨chunks, hsent, by simp [hflat], hlen⟩

/-- Whether or not it raises, the chunk loop sends cached frames to `pid` only. -/
theorem mem_sendFrameCache_sent {pid : Pid} {sec : ℕ} {g : FighterWar} {frames pkglist : List FrameInfo}
    {i : ℕ} {req : BcMsg} (h : req ∈ (sendFrameCache pid sec frames pkglist i g).sent) :
    ∃ c, req = .sendToPlayer pid (.gs2cFrameCacheData c) := by
  induction frames generalizing pkglist i with
  | nil =>
      rw [sendFrameCache] at h
      split at h
      · exact ⟨_, mem_send2Player_sent h⟩
      · cases h
  | cons f frames ih =>
      rw [sendFrameCache] at h
      split at h
      · rw [Outcome.andThen] at h
        split at h
        · exact ⟨_, mem_send2Player_sent h⟩
        · rcases List.mem_append.mp h with h | h
          · exact ⟨_, mem_send2Player_sent h⟩
          · rw [send2Player_state] at h; exact ih h
      · exact ih h

/-! ## One call -/

omit [Wire] in
/-- The game data in a list of chunk messages to `pid`. -/
theorem gameDataTo_chunks (pid : Pid) (chunks : List (List FrameInfo)) :
    gameDataTo pid (chunks.map fun c => .sendToPlayer pid (.gs2cFrameCacheData c))
      = chunks.map .gs2cFrameCacheData := by
  induction chunks with
  | nil => rfl
  | cons c chunks ih =>
      rw [List.map_cons, gameDataTo_cons, ih]
      simp [BcMsg.gameDataTo, ServerMsg.isGameData]

section Welcome

variable {g : FighterWar} {pid : Pid} {entry : CtrlInfo} {clk : Clock}

/-- The three parts of `welcome`, when it does not raise. -/
theorem welcome_parts (hok : (welcome pid entry clk g).raised = false) :
    Wire.packs (g.loginsuc clk.now) clk.sec = true ∧
      (sendFrameCache pid clk.sec g.frameMgr.frameCache [] 1 g).raised = false := by
  rw [welcome] at hok
  obtain ⟨hlogin, hrest⟩ := Outcome.andThen_raised_eq_false.mp hok
  rw [send2Player_state, welcomeCache] at hrest
  rw [send2Player, Net.sendToPlayer_raised] at hlogin
  exact ⟨hlogin, (Outcome.andThen_raised_eq_false.mp hrest).1⟩

/-- The state `welcome` leaves when it does not raise. -/
theorem welcome_state (hok : (welcome pid entry clk g).raised = false) :
    (welcome pid entry clk g).state = g.pushFrame (some entry) := by
  obtain ⟨hlogin, hcache⟩ := welcome_parts hok
  have hsend : (g.send2Player pid (g.loginsuc clk.now) clk.sec).raised = false :=
    (Net.sendToPlayer_raised ..).mpr hlogin
  rw [welcome, Outcome.andThen_of_not_raised hsend]
  show (welcomeCache _ _ _ (send2Player _ _ _ _).state).state = _
  rw [send2Player_state, welcomeCache, Outcome.andThen_of_not_raised hcache]
  simp only [sendFrameCache_state, pushEntry, Outcome.done_state]

/-- What `welcome` sends when it does not raise: the login answer, then the cache in chunks. -/
theorem welcome_sent (hok : (welcome pid entry clk g).raised = false) :
    ∃ chunks : List (List FrameInfo),
      (welcome pid entry clk g).sent = .sendToPlayer pid (g.loginsuc clk.now)
        :: chunks.map (fun c => .sendToPlayer pid (.gs2cFrameCacheData c)) ∧
      chunks.flatten = g.frameMgr.frameCacheQueue ∧ ∀ c ∈ chunks, c ≠ [] ∧ c.length ≤ iPiece := by
  obtain ⟨hlogin, hcache⟩ := welcome_parts hok
  obtain ⟨chunks, hsent, hflat, hlen⟩ := sendFrameCache_sent pid clk.sec _ _ [] 1 rfl (by decide) hcache
  have hsend : (g.send2Player pid (g.loginsuc clk.now) clk.sec).raised = false :=
    (Net.sendToPlayer_raised ..).mpr hlogin
  refine ⟨chunks, ?_, hflat, hlen⟩
  rw [welcome, Outcome.andThen_of_not_raised hsend]
  show (send2Player _ _ _ _).sent ++ (welcomeCache _ _ _ (send2Player _ _ _ _).state).sent = _
  rw [send2Player_state, welcomeCache, Outcome.andThen_of_not_raised hcache]
  simp only [hsent, pushEntry, Outcome.done_sent, send2Player, Net.sendToPlayer_sent,
    if_pos hlogin, List.append_nil, List.singleton_append]

/-- Whether or not it raises, `welcome` sends to its player only. -/
theorem mem_welcome_sent {req : BcMsg} (h : req ∈ (welcome pid entry clk g).sent) :
    ∃ m, req = .sendToPlayer pid m := by
  rw [welcome, Outcome.andThen] at h
  split at h
  · exact ⟨_, mem_send2Player_sent h⟩
  · rcases List.mem_append.mp h with h | h
    · exact ⟨_, mem_send2Player_sent h⟩
    · rw [welcomeCache, Outcome.andThen] at h
      split at h
      · obtain ⟨c, rfl⟩ := mem_sendFrameCache_sent h
        exact ⟨_, rfl⟩
      · rw [pushEntry, Outcome.done_sent, List.append_nil] at h
        obtain ⟨c, rfl⟩ := mem_sendFrameCache_sent h
        exact ⟨_, rfl⟩

/-- Whether or not it raises, `welcome` changes nothing but the waiting entries. -/
theorem welcome_state_cases :
    (welcome pid entry clk g).state = g ∨
      (welcome pid entry clk g).state = g.pushFrame (some entry) := by
  rw [welcome, Outcome.andThen]
  split
  · exact Or.inl (send2Player_state ..)
  · rw [send2Player_state, welcomeCache, Outcome.andThen]
    split
    · exact Or.inl (sendFrameCache_state ..)
    · exact Or.inr (by simp only [sendFrameCache_state, pushEntry, Outcome.done_state])

end Welcome

/-- What `add_player` leaves, whether or not it raises: the player is in the table, and the entry
waits or not. -/
theorem addPlayer_state_cases (g : FighterWar) (pid : Pid) (args : PlayerArgs) (spawn : Spawn)
    (clk : Clock) :
    (g.addPlayer pid args spawn clk).state = g.seat pid args spawn clk.now ∨
      (g.addPlayer pid args spawn clk).state = (g.seat pid args spawn clk.now).pushFrame
        (some (enterEntry pid (FWPlayer.init args spawn clk.now))) := welcome_state_cases

/-- `ev` is an `add_player` of `pid`. -/
def Event.adds (pid : Pid) : Event → Bool
  | .addPlayer q _ _ => q = pid
  | _ => false

/-- `ev` is a `del_player` of `pid`. -/
def Event.dels (pid : Pid) : Event → Bool
  | .delPlayer q => q = pid
  | _ => false

/-- `ev` is a tick. -/
def Event.isTick : Event → Bool
  | .frameSkip => true
  | _ => false

/-- What a call does as far as the frames of `pid` are concerned: it appends frames to the cache,
sends exactly those to `pid` when `pid` is in the table, and nothing when it is not. -/
structure SendsFrames (g : FighterWar) (pid : Pid) (r : Outcome FighterWar BcMsg)
    (new : List FrameInfo) : Prop where
  /-- The frames the call makes. -/
  cache : r.state.frameMgr.frameCacheQueue = g.frameMgr.frameCacheQueue ++ new
  /-- The game data it addresses to `pid`. -/
  gameData : gameDataTo pid r.sent = if pid ∈ g.players then new.map .gs2cFrameData else []

omit [Wire] in
/-- A call that makes no frame and sends no game data to `pid`. -/
theorem SendsFrames.of_none {g : FighterWar} {pid : Pid} {r : Outcome FighterWar BcMsg}
    (hcache : r.state.frameMgr.frameCacheQueue = g.frameMgr.frameCacheQueue)
    (hsent : ∀ req ∈ r.sent, req.gameDataTo pid = []) : SendsFrames g pid r [] := by
  refine ⟨by rw [hcache, List.append_nil], ?_⟩
  rw [gameDataTo, List.flatMap_eq_nil_iff.mpr hsent]
  simp

omit [Wire] in
/-- A message to another player carries nothing for `pid`. -/
theorem gameDataTo_sendToPlayer_ne {pid q : Pid} (h : q ≠ pid) (m : ServerMsg) :
    (BcMsg.sendToPlayer q m).gameDataTo pid = [] := by simp [BcMsg.gameDataTo, h]

omit [Wire] in
/-- A broadcast reaches each player of the table once. -/
theorem gameDataTo_sendToList (g : FighterWar) (pid : Pid) (f : FrameInfo) :
    (BcMsg.sendToList g.players.keys (.gs2cFrameData f)).gameDataTo pid
      = if pid ∈ g.players then [.gs2cFrameData f] else [] := by
  have hcount : g.players.keys.count pid = if pid ∈ g.players then 1 else 0 := by
    rw [List.Nodup.count g.players.keys_nodup]
    exact if_congr AList.mem_keys.symm rfl rfl
  have hfilter : g.players.keys.filter (· = pid)
      = List.replicate (g.players.keys.count pid) pid := List.filter_eq pid
  simp only [BcMsg.gameDataTo, ServerMsg.isGameData, if_true, hfilter, hcount]
  split <;> rfl

/-- A tick that returns makes a frame and sends it to the players in the table. -/
theorem frameSkip_frames {g : FighterWar} {clk : Clock}
    (hok : Wire.packs (.gs2cFrameData (g.frameMgr.param clk.now)) clk.sec = true) (pid : Pid) :
    (g.frameSkip clk).raised = false ∧
      SendsFrames g pid (g.frameSkip clk) [g.frameMgr.param clk.now] := by
  have hsend : (g.bc2Players (.gs2cFrameData (g.frameMgr.param clk.now)) clk.sec).raised = false :=
    (Net.sendToList_raised ..).mpr hok
  rw [frameSkip, Outcome.andThen_of_not_raised hsend]
  refine ⟨rfl, ?_, ?_⟩
  · simp [bc2Players, storeFrame]
  · simp only [bc2Players, Net.sendToList_sent, if_pos hok, storeFrame, Outcome.done_sent,
      List.append_nil, gameDataTo_cons, gameDataTo_nil, gameDataTo_sendToList, List.map_cons,
      List.map_nil]

/-- A tick that raises makes and sends nothing. -/
theorem frameSkip_silent {g : FighterWar} {clk : Clock}
    (hok : ¬ Wire.packs (.gs2cFrameData (g.frameMgr.param clk.now)) clk.sec = true) (pid : Pid) :
    SendsFrames g pid (g.frameSkip clk) [] := by
  have hsend : (g.bc2Players (.gs2cFrameData (g.frameMgr.param clk.now)) clk.sec).raised = true := by
    rw [← Bool.not_eq_false, bc2Players, Net.sendToList_raised]; exact hok
  rw [frameSkip, Outcome.andThen_of_raised hsend]
  refine SendsFrames.of_none ?_ ?_
  · rw [bc2Players, Net.sendToList_state]
  · rw [bc2Players, Net.sendToList_sent, if_neg hok]
    simp

omit [Wire] in
/-- A quiet call makes no frame and sends no game data. -/
theorem Quiet.sendsFrames {g : FighterWar} {r : Outcome FighterWar BcMsg} (h : Quiet g r)
    (pid : Pid) : SendsFrames g pid r [] := by
  refine SendsFrames.of_none (by rw [h.frameMgr]) fun req hreq => ?_
  obtain ⟨q, a, b, c, d, rfl⟩ := h.sent req hreq
  simp [BcMsg.gameDataTo, ServerMsg.isGameData]

/-- **A call makes no frame and sends no game data to `pid`**, unless it is a tick that returns or
adds `pid`. -/
theorem step_silent (g : FighterWar) (pid : Pid) (clk : Clock) (ev : Event) (hadd : ev.adds pid = false)
    (htick : ev = .frameSkip → (g.frameSkip clk).raised = true) :
    SendsFrames g pid (g.step clk ev) [] := by
  cases ev with
  | addPlayer q args spawn =>
      have hne : q ≠ pid := by simpa [Event.adds] using hadd
      refine SendsFrames.of_none ?_ fun req hreq => ?_
      · rw [step]
        rcases addPlayer_state_cases g q args spawn clk with h | h
        · rw [h]; rfl
        · rw [h]; rfl
      · obtain ⟨m, rfl⟩ := mem_welcome_sent hreq
        exact gameDataTo_sendToPlayer_ne hne m
  | delPlayer q =>
      refine SendsFrames.of_none ?_ (by simp [step])
      rw [step, Outcome.done_state, delPlayer]
      split <;> rfl
  | syncCtrl q c =>
      refine SendsFrames.of_none ?_ (by simp [step])
      rw [step, Outcome.done_state, syncCtrl]
      split <;> rfl
  | frameSkip =>
      refine frameSkip_silent (fun hok => ?_) pid
      exact Bool.false_ne_true ((frameSkip_frames hok pid).1.symm.trans (htick rfl))
  | syncData q val => exact (quiet_syncData g q val clk.now).sendsFrames pid
  | syncRtt => exact (quiet_syncRtt g clk).sendsFrames pid

/-- **Every call but `add_player(pid)` sends to `pid` exactly the frames it makes**, and only when
`pid` is in the table. -/
theorem step_frames (g : FighterWar) (pid : Pid) (clk : Clock) (ev : Event)
    (hadd : ev.adds pid = false) : ∃ new, SendsFrames g pid (g.step clk ev) new := by
  by_cases htick : ev = .frameSkip → (g.frameSkip clk).raised = true
  · exact ⟨[], step_silent g pid clk ev hadd htick⟩
  · obtain ⟨rfl, -⟩ := Classical.not_imp.mp htick
    by_cases hok : Wire.packs (.gs2cFrameData (g.frameMgr.param clk.now)) clk.sec = true
    · exact ⟨_, (frameSkip_frames hok pid).2⟩
    · exact ⟨[], frameSkip_silent hok pid⟩

/-- **A tick that returns makes one frame**, and no other call makes any. -/
theorem length_frameCacheQueue_step {g : FighterWar} {clk : Clock} {ev : Event}
    (hok : (g.step clk ev).raised = false) :
    (g.step clk ev).state.frameMgr.frameCacheQueue.length
      = g.frameMgr.frameCacheQueue.length + if ev.isTick then 1 else 0 := by
  cases ev with
  | addPlayer pid args spawn =>
      rw [step]
      rcases addPlayer_state_cases g pid args spawn clk with h | h
      · rw [h]
        rfl
      · rw [h]
        rfl
  | frameSkip =>
      have hpacks : Wire.packs (.gs2cFrameData (g.frameMgr.param clk.now)) clk.sec = true := by
        rw [step, frameSkip] at hok
        exact (Net.sendToList_raised ..).mp (Outcome.andThen_raised_eq_false.mp hok).1
      rw [step, (frameSkip_frames hpacks 0).2.cache, List.length_append]
      rfl
  | delPlayer | syncCtrl | syncData | syncRtt =>
      rw [(step_silent g 0 clk _ rfl fun h => by cases h).cache, List.length_append]
      rfl

/-- A tick sends its one message to the players in the table, or nothing. -/
theorem mem_frameSkip_sent {g : FighterWar} {clk : Clock} {req : BcMsg}
    (h : req ∈ (g.frameSkip clk).sent) :
    req = .sendToList g.players.keys (.gs2cFrameData (g.frameMgr.param clk.now)) := by
  have hlist : ∀ req ∈ (g.bc2Players (.gs2cFrameData (g.frameMgr.param clk.now)) clk.sec).sent,
      req = .sendToList g.players.keys (.gs2cFrameData (g.frameMgr.param clk.now)) := by
    intro req hreq
    rw [bc2Players, Net.sendToList_sent] at hreq
    split at hreq
    · exact List.mem_singleton.mp hreq
    · cases hreq
  rw [frameSkip, Outcome.andThen] at h
  split at h
  · exact hlist req h
  · rw [storeFrame, Outcome.done_sent, List.append_nil] at h
    exact hlist req h

/-- A game asks its broadcast service to write to sockets, and for nothing else. -/
theorem isSend_of_mem_step {g : FighterWar} {clk : Clock} {ev : Event} {req : BcMsg}
    (h : req ∈ (g.step clk ev).sent) : req.isSend = true := by
  have hquiet : ∀ r, Quiet g r → req ∈ r.sent → req.isSend = true := by
    intro r hr hreq
    obtain ⟨_, _, _, _, _, rfl⟩ := hr.sent req hreq
    rfl
  cases ev with
  | addPlayer pid args spawn =>
      obtain ⟨m, rfl⟩ := mem_welcome_sent h
      rfl
  | delPlayer pid | syncCtrl pid c => cases h
  | frameSkip =>
      rw [mem_frameSkip_sent h]
      rfl
  | syncData pid val => exact hquiet _ (quiet_syncData g pid val clk.now) h
  | syncRtt => exact hquiet _ (quiet_syncRtt g clk) h

omit [Wire] in
/-- A quiet call keeps the table's keys. -/
theorem Quiet.mem_players {g : FighterWar} {r : Outcome FighterWar BcMsg} (h : Quiet g r)
    (pid : Pid) : pid ∈ r.state.players ↔ pid ∈ g.players := by
  rw [AList.mem_keys, AList.mem_keys, h.keys]

/-- The table after `add_player`, whether or not it raises. -/
theorem addPlayer_players (g : FighterWar) (pid : Pid) (args : PlayerArgs) (spawn : Spawn)
    (clk : Clock) : (g.addPlayer pid args spawn clk).state.players
      = g.players.insert pid (FWPlayer.init args spawn clk.now) := by
  rcases addPlayer_state_cases g pid args spawn clk with h | h
  · rw [h]; rfl
  · rw [h]; rfl

/-- When `add_player` raises, the player is in the table and nothing was pushed. -/
theorem addPlayer_of_raised {g : FighterWar} {pid : Pid} {args : PlayerArgs} {spawn : Spawn}
    {clk : Clock} (h : ¬ (g.addPlayer pid args spawn clk).raised = false) :
    pid ∈ (g.addPlayer pid args spawn clk).state.players ∧
      (g.addPlayer pid args spawn clk).state.frameMgr = g.frameMgr := by
  constructor
  · rw [addPlayer_players, AList.mem_insert]
    exact Or.inl rfl
  · rw [addPlayer, welcome, Outcome.andThen] at h ⊢
    split at h
    · rename_i hsend
      rw [if_pos hsend, send2Player_state]
      rfl
    · rename_i hsend
      rw [if_neg hsend]
      rw [send2Player_state, welcomeCache, Outcome.andThen] at h ⊢
      split at h
      · rename_i hloop
        rw [if_pos hloop, sendFrameCache_state]
        rfl
      · exact absurd rfl h

/-- The table after a tick. -/
theorem frameSkip_players (g : FighterWar) (clk : Clock) :
    (g.frameSkip clk).state.players = g.players := by
  rw [frameSkip, Outcome.andThen]
  split
  · rw [bc2Players, Net.sendToList_state]
  · rw [bc2Players, Net.sendToList_state]; rfl

/-- A call that neither adds nor deletes `pid` leaves it where it is. -/
theorem mem_players_step {g : FighterWar} {pid : Pid} {clk : Clock} {ev : Event}
    (hadd : ev.adds pid = false) (hdel : ev.dels pid = false) :
    pid ∈ (g.step clk ev).state.players ↔ pid ∈ g.players := by
  cases ev with
  | addPlayer q args spawn =>
      have hne : pid ≠ q := Ne.symm (by simpa [Event.adds] using hadd)
      rw [step, addPlayer_players, AList.mem_insert]
      simp [hne]
  | delPlayer q =>
      have hne : pid ≠ q := Ne.symm (by simpa [Event.dels] using hdel)
      rw [step, Outcome.done_state, delPlayer]
      split
      · rw [pushFrame, AList.mem_erase]; simp [hne]
      · rfl
  | syncCtrl q c =>
      rw [step, Outcome.done_state, syncCtrl]
      split <;> rfl
  | frameSkip => rw [step, frameSkip_players]
  | syncData q val => exact (quiet_syncData g q val clk.now).mem_players pid
  | syncRtt => exact (quiet_syncRtt g clk).mem_players pid

omit [Wire] in
/-- After `del_player(pid)` the table does not hold `pid`. -/
theorem notMem_delPlayer (g : FighterWar) (pid : Pid) : pid ∉ (g.delPlayer pid).players := by
  rw [delPlayer]
  split
  · rw [pushFrame, AList.mem_erase]; simp
  · rename_i h
    exact AList.lookup_eq_none.mp h

/-- Only `add_player(pid)` puts `pid` in the table. -/
theorem mem_players_of_step {g : FighterWar} {pid : Pid} {clk : Clock} {ev : Event}
    (hadd : ev.adds pid = false) (h : pid ∈ (g.step clk ev).state.players) : pid ∈ g.players := by
  by_cases hdel : ev.dels pid = false
  · exact (mem_players_step hadd hdel).mp h
  · cases ev with
    | delPlayer q =>
        obtain rfl : q = pid := by simpa [Event.dels] using hdel
        exact absurd h (notMem_delPlayer g q)
    | _ => simp [Event.dels] at hdel

/-! ## A run -/

/-- Calls that neither add nor delete `pid` send it every frame they make, if it is in the table. -/
theorem run_frames (g : FighterWar) (pid : Pid) (evs : List (Clock × Event))
    (hadd : ∀ e ∈ evs, e.2.adds pid = false) (hdel : ∀ e ∈ evs, e.2.dels pid = false) :
    ∃ new, SendsFrames g pid (g.run evs) new := by
  induction evs generalizing g with
  | nil => exact ⟨[], SendsFrames.of_none rfl (by simp [run])⟩
  | cons e evs ih =>
      obtain ⟨clk, ev⟩ := e
      have hadd' := hadd _ List.mem_cons_self
      have hdel' := hdel _ List.mem_cons_self
      obtain ⟨new, hnew⟩ := step_frames g pid clk ev hadd'
      obtain ⟨more, hmore⟩ := ih (g.step clk ev).state
        (fun e he => hadd e (List.mem_cons_of_mem _ he))
        (fun e he => hdel e (List.mem_cons_of_mem _ he))
      refine ⟨new ++ more, ?_, ?_⟩
      · rw [run, hmore.cache, hnew.cache, List.append_assoc]
      · rw [run, gameDataTo_append, hnew.gameData, hmore.gameData]
        simp only [mem_players_step hadd' hdel']
        split <;> simp

/-- Calls that do not add `pid` send it nothing while it is not in the table. -/
theorem run_silent (g : FighterWar) (pid : Pid) (evs : List (Clock × Event))
    (hadd : ∀ e ∈ evs, e.2.adds pid = false) (hpid : pid ∉ g.players) :
    gameDataTo pid (g.run evs).sent = [] := by
  induction evs generalizing g with
  | nil => rfl
  | cons e evs ih =>
      obtain ⟨clk, ev⟩ := e
      have hadd' := hadd _ List.mem_cons_self
      obtain ⟨new, hnew⟩ := step_frames g pid clk ev hadd'
      have hrest := ih (g.step clk ev).state (fun e he => hadd e (List.mem_cons_of_mem _ he))
        fun h => hpid (mem_players_of_step hadd' h)
      rw [run, gameDataTo_append, hrest, hnew.gameData, if_neg hpid, List.append_nil]

/-- A call keeps the frames numbered. -/
theorem numbered_step {g : FighterWar} (h : g.frameMgr.Numbered) (clk : Clock) (ev : Event) :
    (g.step clk ev).state.frameMgr.Numbered := by
  cases ev with
  | addPlayer pid args spawn =>
      rw [step]
      rcases addPlayer_state_cases g pid args spawn clk with hst | hst
      · rw [hst]
        exact h
      · rw [hst]
        exact h.step (.pushFrame _)
  | delPlayer pid =>
      rw [step, Outcome.done_state, delPlayer]
      split
      · exact h.step (.pushFrame _)
      · exact h
  | syncCtrl pid c =>
      rw [step, Outcome.done_state, syncCtrl]
      split
      · exact h.step (.pushFrame _)
      · exact h
  | frameSkip =>
      rw [step, frameSkip, Outcome.andThen]
      split
      · rw [bc2Players, Net.sendToList_state]
        exact h
      · rw [bc2Players, Net.sendToList_state]
        exact h.step (.frameSkip clk.now false)
  | syncData pid val => rw [step, (quiet_syncData g pid val clk.now).frameMgr]; exact h
  | syncRtt => rw [step, (quiet_syncRtt g clk).frameMgr]; exact h

/-- In every state of a game the frames are numbered from 1. -/
theorem numbered_run {g : FighterWar} (h : g.frameMgr.Numbered) (evs : List (Clock × Event)) :
    (g.run evs).state.frameMgr.Numbered := by
  induction evs generalizing g with
  | nil => exact h
  | cons e evs ih => exact ih (numbered_step h e.1 e.2)

/-- A run in two parts. -/
theorem run_append (g : FighterWar) (evs evs' : List (Clock × Event)) :
    g.run (evs ++ evs') = ⟨((g.run evs).state.run evs').state,
      (g.run evs).sent ++ ((g.run evs).state.run evs').sent,
      (g.run evs).raised || ((g.run evs).state.run evs').raised⟩ := by
  induction evs generalizing g with
  | nil => simp [run]
  | cons e evs ih =>
      obtain ⟨clk, ev⟩ := e
      simp only [List.cons_append, run, ih, List.append_assoc, Bool.or_assoc]

theorem run_append_state (g : FighterWar) (evs evs' : List (Clock × Event)) :
    (g.run (evs ++ evs')).state = ((g.run evs).state.run evs').state := by rw [run_append]

/-- Over calls that return, there are as many new frames as ticks. -/
theorem length_frameCacheQueue_run {g : FighterWar} {evs : List (Clock × Event)}
    (hok : (g.run evs).raised = false) : (g.run evs).state.frameMgr.frameCacheQueue.length
      = g.frameMgr.frameCacheQueue.length + evs.countP fun e => e.2.isTick := by
  induction evs generalizing g with
  | nil => rfl
  | cons e evs ih =>
      obtain ⟨clk, ev⟩ := e
      rw [run, Bool.or_eq_false_iff] at hok
      have hstep := length_frameCacheQueue_step hok.1
      have hrest := ih hok.2
      rw [run, hrest, hstep, List.countP_cons]
      exact (Nat.add_right_comm ..).trans (Nat.add_assoc ..)

/-- What a game sends to `pid` in an interval that an `add_player(pid)` opens. -/
structure Interval (g : FighterWar) (pid : Pid) (r : Outcome FighterWar BcMsg)
    (chunks : List (List FrameInfo)) (timestamp initTime : ℕ) : Prop where
  /-- The game data: the login answer announcing the frames made before the interval, those frames
  in chunks, then each frame made in the interval. -/
  gameData : gameDataTo pid r.sent
    = .gs2cLoginsuc g.gameID g.rndSeed timestamp g.frameMgr.frameCacheQueue.length initTime
      :: chunks.map .gs2cFrameCacheData
      ++ (r.state.frameMgr.frameCacheQueue.drop g.frameMgr.frameCacheQueue.length).map .gs2cFrameData
  /-- The chunks are the frames made before. -/
  flatten : chunks.flatten = g.frameMgr.frameCacheQueue
  /-- The frames made before stay where they are. -/
  before : r.state.frameMgr.frameCacheQueue.take g.frameMgr.frameCacheQueue.length
    = g.frameMgr.frameCacheQueue
  /-- No chunk is empty and none is longer than 500. -/
  chunk : ∀ c ∈ chunks, c ≠ [] ∧ c.length ≤ 500

/-- An interval opened by an `add_player(pid)` that does not raise. -/
theorem interval_of_addPlayer (g : FighterWar) (pid : Pid) (args : PlayerArgs) (spawn : Spawn)
    (clk : Clock) (mid : List (Clock × Event))
    (hok : (g.step clk (.addPlayer pid args spawn)).raised = false)
    (hadd : ∀ e ∈ mid, e.2.adds pid = false) (hdel : ∀ e ∈ mid, e.2.dels pid = false) :
    ∃ chunks timestamp initTime,
      Interval g pid (g.run ((clk, .addPlayer pid args spawn) :: mid)) chunks timestamp initTime := by
  have hstate := welcome_state hok
  obtain ⟨chunks, hsent, hflat, hlen⟩ := welcome_sent hok
  obtain ⟨new, hnew⟩ := run_frames (g.step clk (.addPlayer pid args spawn)).state pid mid hadd hdel
  have hin : pid ∈ (g.step clk (.addPlayer pid args spawn)).state.players := by
    rw [step, addPlayer_players, AList.mem_insert]
    exact Or.inl rfl
  have hcache : (g.step clk (.addPlayer pid args spawn)).state.frameMgr.frameCacheQueue
      = g.frameMgr.frameCacheQueue := by
    rw [step, addPlayer, hstate]; rfl
  refine ⟨chunks, clk.now, g.fsmInitTime.getD clk.now, ⟨?_, hflat, ?_, hlen⟩⟩
  · rw [run, gameDataTo_append, hnew.gameData, if_pos hin, hnew.cache, hcache,
      List.drop_append_of_le_length le_rfl, List.drop_length, List.nil_append, step, addPlayer, hsent,
      gameDataTo_cons, gameDataTo_chunks]
    simp [BcMsg.gameDataTo, ServerMsg.isGameData, loginsuc, seat, FrameMgr.frameCache]
  · rw [run, hnew.cache, hcache, List.take_append_of_le_length le_rfl, List.take_length]

/-- **Scene emission law.** Over every sequence of calls of a game in which nothing raises: in an
interval opened by an `add_player(pid)` and without a further `add_player(pid)` or
`del_player(pid)`, the game data addressed to `pid` is the login answer announcing the `n` frames
made so far, those frames in chunks of 1 to 500, then each frame made in the interval; before the
first `add_player(pid)`, and from a `del_player(pid)` to the next `add_player(pid)`, no game data is
addressed to `pid`, and the `del_player(pid)` itself sends nothing. The frames are numbered from 1 in
the order they are made, and each `frame_skip` makes one. -/
theorem emission_law (gameID rndSeed : ℕ) (pid : Pid) (evs : List (Clock × Event))
    (hok : ((init gameID rndSeed).run evs).raised = false) :
    (∀ pre mid post clk args spawn, evs = pre ++ (clk, .addPlayer pid args spawn) :: mid ++ post →
      (∀ e ∈ mid, e.2.adds pid = false) → (∀ e ∈ mid, e.2.dels pid = false) →
      ∃ chunks timestamp initTime, Interval ((init gameID rndSeed).run pre).state pid
        (((init gameID rndSeed).run pre).state.run ((clk, .addPlayer pid args spawn) :: mid))
        chunks timestamp initTime) ∧
    (∀ pre mid post, evs = pre ++ mid ++ post →
      (pre = [] ∨ ∃ before clk, pre = before ++ [(clk, .delPlayer pid)]) →
      (∀ e ∈ mid, e.2.adds pid = false) →
      gameDataTo pid (((init gameID rndSeed).run pre).state.run mid).sent = []) ∧
    (∀ pre post clk, evs = pre ++ (clk, .delPlayer pid) :: post →
      (((init gameID rndSeed).run pre).state.step clk (.delPlayer pid)).sent = []) ∧
    (∀ i f, ((init gameID rndSeed).run evs).state.frameMgr.frameCacheQueue[i]? = some f →
      f.frameNumber = i + 1) ∧
    (∀ pre post, evs = pre ++ post →
      ((init gameID rndSeed).run pre).state.frameMgr.frameCacheQueue.length
        = pre.countP fun e => e.2.isTick) := by
  refine ⟨fun pre mid post clk args spawn hevs hadd hdel => ?_, fun pre mid post hevs hpre hadd => ?_,
    fun pre post clk hevs => rfl, fun i f hf => (numbered_run FrameMgr.numbered_init evs).getElem? hf,
    fun pre post hevs => ?_⟩
  · refine interval_of_addPlayer _ pid args spawn clk mid ?_ hadd hdel
    rw [hevs, List.append_assoc, run_append, List.cons_append, run] at hok
    simp only [Bool.or_eq_false_iff] at hok
    exact hok.2.1
  · refine run_silent _ pid mid hadd ?_
    rcases hpre with rfl | ⟨before, clk, rfl⟩
    · simp [run, init]
    · rw [run_append]
      exact notMem_delPlayer _ pid
  · rw [hevs, run_append, Bool.or_eq_false_iff] at hok
    rw [length_frameCacheQueue_run hok.1]
    exact Nat.zero_add _

omit [Wire] in
/-- The law at a run that adds player 1, ticks, adds player 1 again and ticks twice. -/
theorem emission_law_readded :
    let add : Clock × Event := (⟨5, 1⟩, .addPlayer 1 ⟨[], 1, 9, {}⟩ Spawn.corner)
    let tick : Clock × Event := (⟨6, 1⟩, .frameSkip)
    (@run sprotoWire (init 1 7) [add, tick, add, tick, tick]).raised = false ∧
    ∃ chunks timestamp initTime,
      Interval (@run sprotoWire (init 1 7) [add, tick]).state 1
        (@run sprotoWire (@run sprotoWire (init 1 7) [add, tick]).state [add, tick, tick])
        chunks timestamp initTime := by
  let := sprotoWire
  refine ⟨by decide +kernel, ?_⟩
  exact (emission_law 1 7 1 _ (by decide +kernel)).1 [_, _] [_, _] [] _ _ _ rfl (by decide)
    (by decide)

end FrameSync.FighterWar
