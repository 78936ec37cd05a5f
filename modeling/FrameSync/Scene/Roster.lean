import FrameSync.Scene.Emission

/-! # The players and the entries of a game

What a call does to the two parts of a game that later calls look at: the sockets of the players in
the table (`fdOf_step`) and the entries pushed so far (`entries_step`). -/

namespace FrameSync.FighterWar

/-- The socket of a player in the table. -/
def fdOf (g : FighterWar) (pid : Pid) : Option Fd := (g.players.lookup pid).map FWPlayer.fd

/-- Having a socket is being in the table. -/
theorem fdOf_isSome {g : FighterWar} {pid : Pid} : (g.fdOf pid).isSome = true ↔ pid ∈ g.players := by
  rw [fdOf, Option.isSome_map, AList.lookup_isSome]

theorem fdOf_eq_none {g : FighterWar} {pid : Pid} : g.fdOf pid = none ↔ pid ∉ g.players := by
  rw [← fdOf_isSome, ← Option.not_isSome_iff_eq_none]

theorem fdOf_delPlayer (g : FighterWar) (q pid : Pid) :
    (g.delPlayer q).fdOf pid = if q = pid then none else g.fdOf pid := by
  by_cases hq : q = pid
  · subst hq
    rw [if_pos rfl]
    exact fdOf_eq_none.mpr (notMem_delPlayer g q)
  · rw [if_neg hq, delPlayer]
    split
    · rw [fdOf, fdOf, pushFrame, AList.lookup_erase_ne (Ne.symm hq)]
    · rfl

variable [Wire]

/-- **What a call does to the sockets of the players.** -/
theorem fdOf_step (g : FighterWar) (clk : Clock) (ev : Event) (pid : Pid) :
    (g.step clk ev).state.fdOf pid =
      match ev with
      | .addPlayer q args _ => if q = pid then some args.fd else g.fdOf pid
      | .delPlayer q => if q = pid then none else g.fdOf pid
      | .syncCtrl .. | .frameSkip | .syncData .. | .syncRtt => g.fdOf pid := by
  cases ev with
  | addPlayer q args spawn =>
      rw [step, fdOf, addPlayer_players]
      by_cases hq : q = pid
      · subst hq
        rw [AList.lookup_insert]
        simp [FWPlayer.init]
      · rw [AList.lookup_insert_ne (Ne.symm hq)]
        simp [hq, fdOf]
  | delPlayer q => exact fdOf_delPlayer g q pid
  | syncCtrl q c =>
      show (g.syncCtrl q c).fdOf pid = g.fdOf pid
      rw [syncCtrl]
      split
      · rfl
      · rfl
  | frameSkip => rw [step, fdOf, frameSkip_players]; rfl
  | syncData q val => exact (quiet_syncData g q val clk.now).fd pid
  | syncRtt => exact (quiet_syncRtt g clk).fd pid

/-- The entries that a call pushes. -/
def pushed (g : FighterWar) (clk : Clock) : Event → List CtrlInfo
  | .addPlayer pid args spawn =>
      if (g.addPlayer pid args spawn clk).raised then []
      else [enterEntry pid (FWPlayer.init args spawn clk.now)]
  | .delPlayer pid => if (g.fdOf pid).isSome then [leaveEntry pid] else []
  | .syncCtrl pid ctrlData => if (g.fdOf pid).isSome then ctrlData.toList else []
  | .frameSkip | .syncData .. | .syncRtt => []

/-- **A call appends what it pushes** to the entries in frames and in the queue. -/
theorem entries_step (g : FighterWar) (clk : Clock) (ev : Event) :
    (g.step clk ev).state.frameMgr.entries = g.frameMgr.entries ++ g.pushed clk ev := by
  cases ev with
  | addPlayer pid args spawn =>
      rw [step, pushed]
      cases hraised : (g.addPlayer pid args spawn clk).raised with
      | true =>
          -- An `addPlayer` that raises has pushed nothing.
          rw [if_pos rfl, List.append_nil, (addPlayer_of_raised (by simp [hraised])).2]
      | false =>
          rw [if_neg Bool.false_ne_true, addPlayer, welcome_state hraised]
          exact FrameMgr.entries_pushFrame _ _
  | delPlayer pid =>
      rw [step, Outcome.done_state, delPlayer, pushed, fdOf]
      cases g.players.lookup pid with
      | none => exact (List.append_nil _).symm
      | some p => exact FrameMgr.entries_pushFrame _ _
  | syncCtrl pid c =>
      rw [step, Outcome.done_state, syncCtrl, pushed, fdOf]
      cases g.players.lookup pid with
      | none => exact (List.append_nil _).symm
      | some p => exact FrameMgr.entries_pushFrame _ _
  | frameSkip =>
      rw [step, frameSkip, pushed, List.append_nil, Outcome.andThen]
      split
      · rw [bc2Players, Net.sendToList_state]
      · rw [bc2Players, Net.sendToList_state]
        exact FrameMgr.entries_frameSkip _ _ _
  | syncData pid val =>
      rw [step, (quiet_syncData g pid val clk.now).frameMgr, pushed, List.append_nil]
  | syncRtt => rw [step, (quiet_syncRtt g clk).frameMgr, pushed, List.append_nil]

/-- A call keeps the id of the game. -/
theorem gameID_step (g : FighterWar) (clk : Clock) (ev : Event) :
    (g.step clk ev).state.gameID = g.gameID := by
  cases ev with
  | addPlayer pid args spawn =>
      rcases addPlayer_state_cases g pid args spawn clk with h | h
      · rw [step, h]; rfl
      · rw [step, h]; rfl
  | delPlayer pid =>
      rw [step, Outcome.done_state, delPlayer]
      split
      · rfl
      · rfl
  | syncCtrl pid c =>
      rw [step, Outcome.done_state, syncCtrl]
      split
      · rfl
      · rfl
  | frameSkip =>
      rw [step, frameSkip, Outcome.andThen]
      split
      · rw [bc2Players, Net.sendToList_state]
      · rw [bc2Players, Net.sendToList_state]; rfl
  | syncData pid val => exact (quiet_syncData g pid val clk.now).gameID
  | syncRtt => exact (quiet_syncRtt g clk).gameID

/-! ## The entries tell who is in the table -/

/-- Whether `pid` is in a game after an entry. -/
def memberAfter (pid : Pid) (member : Bool) (ctrl : CtrlInfo) : Bool :=
  if ctrl.pid = some pid then
    if ctrl.action = some actionEnter then true
    else if ctrl.action = some actionLeave then false
    else member
  else member

/-- Whether `pid` is in a game, as the entries tell. -/
def memberBy (pid : Pid) (ctrls : List CtrlInfo) : Bool := ctrls.foldl (memberAfter pid) false

omit [Wire] in
theorem memberBy_append (pid : Pid) (l l' : List CtrlInfo) :
    memberBy pid (l ++ l') = l'.foldl (memberAfter pid) (memberBy pid l) := List.foldl_append

/-- A player sends no more than `ATTACK` and `MOVE` entries under its own pid. -/
def Event.Playing : Event → Prop
  | .syncCtrl pid ctrlData => ∀ ctrl ∈ ctrlData,
      ctrl.pid = some pid ∧ (ctrl.action = some actionAttack ∨ ctrl.action = some actionMove)
  | _ => True

omit [Wire] in
/-- Such an entry changes nothing. -/
theorem memberAfter_of_playing {pid q : Pid} {ctrl : CtrlInfo} (member : Bool)
    (h : ctrl.pid = some q ∧ (ctrl.action = some actionAttack ∨ ctrl.action = some actionMove)) :
    memberAfter pid member ctrl = member := by
  unfold memberAfter
  rcases h.2 with haction | haction
  · rw [haction]
    simp [actionAttack, actionEnter, actionLeave]
  · rw [haction]
    simp [actionMove, actionEnter, actionLeave]

/-- **Step lemma**: after a call that does not raise the entries still tell who is in the table. -/
theorem memberBy_step {g : FighterWar} {clk : Clock} {ev : Event} (hplaying : ev.Playing)
    (hok : (g.step clk ev).raised = false)
    (h : ∀ pid, memberBy pid g.frameMgr.entries = true ↔ pid ∈ g.players) (pid : Pid) :
    memberBy pid (g.step clk ev).state.frameMgr.entries = true ↔ pid ∈ (g.step clk ev).state.players := by
  have hmember := h pid
  rw [← fdOf_isSome] at hmember
  -- Both sides change by the one entry that the call pushes, if any.
  rw [← fdOf_isSome, fdOf_step, entries_step, memberBy_append]
  cases ev with
  | addPlayer q args spawn =>
      rw [pushed, if_neg (by rw [step] at hok; rw [hok]; exact Bool.false_ne_true)]
      show memberAfter pid _ (enterEntry q _) = true ↔ _
      simp only [memberAfter, enterEntry, Option.some.injEq]
      by_cases hq : q = pid
      · simp [hq]
      · simpa [hq] using hmember
  | delPlayer q =>
      rw [pushed]
      by_cases hq : q = pid
      · subst hq
        cases hfd : g.fdOf q with
        | none =>
            rw [hfd] at hmember
            simpa using hmember
        | some fd =>
            show memberAfter q _ (leaveEntry q) = true ↔ _
            simp [memberAfter, leaveEntry, actionLeave, actionEnter]
      · simp only [if_neg hq]
        split
        · show memberAfter pid _ (leaveEntry q) = true ↔ _
          simpa [memberAfter, leaveEntry, hq] using hmember
        · exact hmember
  | syncCtrl q ctrlData =>
      rw [pushed]
      cases ctrlData with
      | none => simpa using hmember
      | some ctrl =>
          split
          · show memberAfter pid _ ctrl = true ↔ _
            rw [memberAfter_of_playing _ (hplaying ctrl rfl)]
            exact hmember
          · exact hmember
  | frameSkip | syncData | syncRtt => exact hmember

/-- **The entries of a game tell who is in its table**, after any calls that did not raise. -/
theorem memberBy_run {g : FighterWar} {evs : List (Clock × Event)} (hplaying : ∀ e ∈ evs, e.2.Playing)
    (hok : (g.run evs).raised = false)
    (h : ∀ pid, memberBy pid g.frameMgr.entries = true ↔ pid ∈ g.players) (pid : Pid) :
    memberBy pid (g.run evs).state.frameMgr.entries = true ↔ pid ∈ (g.run evs).state.players := by
  induction evs generalizing g with
  | nil => exact h pid
  | cons e evs ih =>
      obtain ⟨clk, ev⟩ := e
      rw [run, Bool.or_eq_false_iff] at hok
      exact ih (fun e he => hplaying e (List.mem_cons_of_mem _ he)) hok.2
        (memberBy_step (hplaying _ List.mem_cons_self) hok.1 h)

/-- What holds of every entry that is pushed holds of every entry. -/
theorem forall_entries_run {I : CtrlInfo → Prop} {g : FighterWar} {evs : List (Clock × Event)}
    (hpush : ∀ g : FighterWar, ∀ e ∈ evs, ∀ ctrl ∈ g.pushed e.1 e.2, I ctrl)
    (h : ∀ ctrl ∈ g.frameMgr.entries, I ctrl) : ∀ ctrl ∈ (g.run evs).state.frameMgr.entries, I ctrl := by
  induction evs generalizing g with
  | nil => exact h
  | cons e evs ih =>
      obtain ⟨clk, ev⟩ := e
      refine ih (fun g e he => hpush g e (List.mem_cons_of_mem _ he)) fun ctrl hctrl => ?_
      rw [entries_step] at hctrl
      exact (List.mem_append.mp hctrl).elim (h ctrl) (hpush g (clk, ev) List.mem_cons_self ctrl)

/-! ## The frame that a tick makes -/

/-- No frame is taken back. -/
theorem cache_prefix_step (g : FighterWar) (clk : Clock) (ev : Event) :
    g.frameMgr.frameCacheQueue <+: (g.step clk ev).state.frameMgr.frameCacheQueue := by
  have hother : ∃ pid, ev.adds pid = false := by
    cases ev with
    | addPlayer q args spawn => exact ⟨q + 1, by simp [Event.adds]⟩
    | delPlayer | syncCtrl | frameSkip | syncData | syncRtt => exact ⟨0, rfl⟩
  obtain ⟨pid, hadd⟩ := hother
  obtain ⟨new, hnew⟩ := step_frames g pid clk ev hadd
  exact ⟨new, hnew.cache.symm⟩

theorem cache_prefix_run (g : FighterWar) (evs : List (Clock × Event)) :
    g.frameMgr.frameCacheQueue <+: (g.run evs).state.frameMgr.frameCacheQueue := by
  induction evs generalizing g with
  | nil => exact List.prefix_rfl
  | cons e evs ih => exact (cache_prefix_step g e.1 e.2).trans (ih _)

/-- A tick that does not raise makes a frame of all that waits. -/
theorem frameMgr_frameSkip {g : FighterWar} {clk : Clock} (hok : (g.frameSkip clk).raised = false) :
    (g.frameSkip clk).state.frameMgr = g.frameMgr.frameSkip clk.now false := by
  rw [frameSkip] at hok ⊢
  rw [Outcome.andThen_of_not_raised (Outcome.andThen_raised_eq_false.mp hok).1]
  show ((g.bc2Players _ _).state.frameMgr).frameSkip clk.now false = _
  rw [bc2Players, Net.sendToList_state]

/-- **The table when a frame was made.** The frames up to number `n` tell who was in the table when
frame `n` was made, in a run without a raised error. -/
theorem memberBy_frames {gameID rndSeed n : ℕ} {evs pre post : List (Clock × Event)} {clk : Clock}
    (hplaying : ∀ e ∈ evs, e.2.Playing) (hok : ((init gameID rndSeed).run evs).raised = false)
    (hsplit : evs = pre ++ (clk, .frameSkip) :: post)
    (hn : ((init gameID rndSeed).run pre).state.frameMgr.curFrameNo = n) (pid : Pid) :
    memberBy pid ((((init gameID rndSeed).run evs).state.frameMgr.frameCache.take n).flatMap
        FrameInfo.ctrlData) = true ↔
      pid ∈ ((init gameID rndSeed).run pre).state.players := by
  subst hsplit
  rw [run_append] at hok ⊢
  rw [Bool.or_eq_false_iff] at hok
  obtain ⟨hpre, hrest⟩ := hok
  rw [run, Bool.or_eq_false_iff] at hrest
  have hinit : ∀ pid, memberBy pid (init gameID rndSeed).frameMgr.entries = true ↔
      pid ∈ (init gameID rndSeed).players := fun pid =>
    iff_of_false (fun h => Bool.noConfusion h) (AList.notMem_empty pid)
  have hmember := memberBy_run (fun e he => hplaying e (List.mem_append_left _ he)) hpre hinit pid
  have hnumbered := numbered_run (g := init gameID rndSeed) FrameMgr.numbered_init pre
  generalize ((init gameID rndSeed).run pre).state = g at hmember hnumbered hn hrest ⊢
  have hmade := frameMgr_frameSkip hrest.1
  -- the first `n` frames are those after the tick
  have hprefix := cache_prefix_run (g.step clk .frameSkip).state post
  have hcache : ((g.step clk .frameSkip).state.run post).state.frameMgr.frameCacheQueue.take n
      = g.frameMgr.frameCacheQueue ++ [g.frameMgr.param clk.now] := by
    rw [step, hmade] at hprefix
    have hlength : n = (g.frameMgr.frameCacheQueue ++ [g.frameMgr.param clk.now]).length := by
      rw [← hn, hnumbered.curFrameNo, List.length_append]
      rfl
    rw [hlength]
    exact (List.prefix_iff_eq_take.mp hprefix).symm
  have hentries : (((g.step clk .frameSkip).state.run post).state.frameMgr.frameCacheQueue.take n).flatMap
      FrameInfo.ctrlData = g.frameMgr.entries := by
    rw [hcache, List.flatMap_append, FrameMgr.entries]
    simp
  show memberBy pid ((((g.step clk .frameSkip).state.run post).state.frameMgr.frameCacheQueue.take n).flatMap
    FrameInfo.ctrlData) = true ↔ _
  rw [hentries]
  exact hmember

end FrameSync.FighterWar
