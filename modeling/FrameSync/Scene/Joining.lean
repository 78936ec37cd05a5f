import FrameSync.Scene.FrameClock

/-! # Joining a running game

`add_player` cuts the frame cache by the number of frames, while the wire limits a message by its
bytes. So whether a player can join depends on the sizes of the cached frames, block by block
(`joins_iff`), although each of these frames was broadcast on its own. -/

namespace FrameSync.FighterWar

open Sproto

section Join

variable [Wire]

/-- The `k`-th block of 500 cached frames. -/
def block (frames : List FrameInfo) (k : ℕ) : List FrameInfo := (frames.drop (iPiece * k)).take iPiece

/-- The chunk loop ends exactly when every block it is left with packs. -/
theorem sendFrameCache_raised {pid : Pid} {sec : ℕ} {g : FighterWar} {frames pkglist : List FrameInfo}
    {i : ℕ} (hi : i = pkglist.length + 1) (hle : i ≤ iPiece) :
    (sendFrameCache pid sec frames pkglist i g).raised = false ↔
      ∀ k, iPiece * k < (pkglist ++ frames).length →
        Wire.packs (.gs2cFrameCacheData (block (pkglist ++ frames) k)) sec = true := by
  induction frames generalizing pkglist i with
  | nil =>
      have hshort : pkglist.length ≤ iPiece := by omega
      have hblock : block pkglist 0 = pkglist := List.take_of_length_le (by simpa using hshort)
      rw [sendFrameCache, List.append_nil]
      split
      · rename_i hpkg
        rw [send2Player, Net.sendToPlayer_raised]
        constructor
        · intro hpacks k hk
          -- the list is shorter than a block
          obtain rfl : k = 0 := by
            by_contra hne
            have hmul := Nat.le_mul_of_pos_right iPiece (Nat.pos_of_ne_zero hne)
            omega
          rw [hblock]
          exact hpacks
        · intro hall
          have := hall 0 (by simpa using hpkg)
          rwa [hblock] at this
      · rename_i hpkg
        exact iff_of_true rfl fun k hk => absurd hk (by omega)
  | cons f frames ih =>
      rw [sendFrameCache]
      split
      · -- the block is full: it goes out and the next one starts empty
        rename_i hfull
        have hlen : (pkglist ++ [f]).length = iPiece := by
          rw [List.length_append, List.length_singleton]
          omega
        have hsplit : pkglist ++ f :: frames = (pkglist ++ [f]) ++ frames := by simp
        have hfirst : block (pkglist ++ f :: frames) 0 = pkglist ++ [f] := by
          rw [hsplit, block, Nat.mul_zero, List.drop_zero, ← hlen]
          exact List.take_left
        have hnext : ∀ k, block (pkglist ++ f :: frames) (k + 1) = block frames k := by
          intro k
          have hdrop : (pkglist ++ f :: frames).drop (iPiece * (k + 1)) = frames.drop (iPiece * k) := by
            rw [hsplit, Nat.mul_succ, Nat.add_comm, ← List.drop_drop, ← hlen, List.drop_left]
          rw [block, block, hdrop]
        have hlength : (pkglist ++ f :: frames).length = iPiece + frames.length := by
          rw [hsplit, List.length_append, hlen]
        have hrest := @ih [] (0 + 1) rfl (by decide)
        rw [Outcome.andThen_raised_eq_false, send2Player_state, hrest, send2Player,
          Net.sendToPlayer_raised, hlength, List.nil_append]
        constructor
        · rintro ⟨hpacks, hall⟩ k hk
          cases k with
          | zero =>
              rw [hfirst]
              exact hpacks
          | succ k =>
              rw [hnext]
              exact hall k (by rw [Nat.mul_succ] at hk; omega)
        · intro hall
          refine ⟨?_, fun k hk => ?_⟩
          · have := hall 0 (by rw [Nat.mul_zero]; exact Nat.add_pos_left (by decide) _)
            rwa [hfirst] at this
          · have := hall (k + 1) (by rw [Nat.mul_succ]; omega)
            rwa [hnext] at this
      · rename_i hfull
        have hrest := @ih (pkglist ++ [f]) (i + 1) (by simp [hi]) (by omega)
        rw [hrest, List.append_assoc, List.singleton_append]

/-- `add_player` completes: nothing raises, the login answer and every cached frame is sent, in
messages that pack, and the entry is pushed. -/
structure Joins (g : FighterWar) (pid : Pid) (args : PlayerArgs) (spawn : Spawn) (clk : Clock) :
    Prop where
  /-- Nothing raises. -/
  raised : (g.addPlayer pid args spawn clk).raised = false
  /-- What is sent. -/
  sent : ∃ chunks : List (List FrameInfo), (g.addPlayer pid args spawn clk).sent
    = .sendToPlayer pid ((g.seat pid args spawn clk.now).loginsuc clk.now)
      :: chunks.map (fun c => .sendToPlayer pid (.gs2cFrameCacheData c)) ∧
    chunks.flatten = g.frameMgr.frameCacheQueue ∧
    ∀ c ∈ chunks, Wire.packs (.gs2cFrameCacheData c) clk.sec = true
  /-- What is pushed. -/
  pushed : (g.addPlayer pid args spawn clk).state.frameMgr
    = g.frameMgr.pushFrame (some (enterEntry pid (FWPlayer.init args spawn clk.now)))

/-- The messages that are sent pack. -/
theorem packs_of_mem_sendFrameCache {pid : Pid} {sec : ℕ} {g : FighterWar}
    {frames pkglist : List FrameInfo} {i : ℕ} {q : Pid} {m : ServerMsg}
    (h : .sendToPlayer q m ∈ (sendFrameCache pid sec frames pkglist i g).sent) :
    Wire.packs m sec = true := by
  -- Nothing is sent that did not pack.
  have hone : ∀ m', .sendToPlayer q m ∈ (g.send2Player pid m' sec).sent → Wire.packs m sec = true := by
    intro m' hm
    rw [send2Player, Net.sendToPlayer_sent] at hm
    split at hm
    · rename_i hpacks
      obtain ⟨-, rfl⟩ := BcMsg.sendToPlayer.inj (List.mem_singleton.mp hm)
      exact hpacks
    · cases hm
  induction frames generalizing pkglist i with
  | nil =>
      rw [sendFrameCache] at h
      split at h
      · exact hone _ h
      · cases h
  | cons f frames ih =>
      rw [sendFrameCache] at h
      split at h
      · rw [Outcome.andThen] at h
        split at h
        · exact hone _ h
        · rcases List.mem_append.mp h with h | h
          · exact hone _ h
          · rw [send2Player_state] at h
            exact ih h
      · exact ih h

/-- What `add_player` sends when its login answer packs: that answer, and what the chunk loop sends. -/
theorem addPlayer_sent {g : FighterWar} {pid : Pid} {args : PlayerArgs} {spawn : Spawn} {clk : Clock}
    (hlogin : Wire.packs ((g.seat pid args spawn clk.now).loginsuc clk.now) clk.sec = true) :
    (g.addPlayer pid args spawn clk).sent
      = .sendToPlayer pid ((g.seat pid args spawn clk.now).loginsuc clk.now)
        :: (sendFrameCache pid clk.sec g.frameMgr.frameCacheQueue [] 1
          (g.seat pid args spawn clk.now)).sent := by
  have hsend : ((g.seat pid args spawn clk.now).send2Player pid
      ((g.seat pid args spawn clk.now).loginsuc clk.now) clk.sec).raised = false :=
    (Net.sendToPlayer_raised ..).mpr hlogin
  rw [addPlayer, welcome, Outcome.andThen_of_not_raised hsend]
  show (send2Player _ _ _ _).sent ++ (welcomeCache _ _ _ (send2Player _ _ _ _).state).sent = _
  rw [send2Player_state, welcomeCache, Outcome.andThen, send2Player, Net.sendToPlayer_sent, if_pos hlogin]
  split
  · rfl
  · exact congrArg (_ :: ·) (List.append_nil _)

/-- `add_player` completes when it does not raise. -/
theorem joins_of_not_raised {g : FighterWar} {pid : Pid} {args : PlayerArgs} {spawn : Spawn}
    {clk : Clock} (hok : (g.addPlayer pid args spawn clk).raised = false) :
    Joins g pid args spawn clk := by
  obtain ⟨hlogin, hcache⟩ := welcome_parts hok
  obtain ⟨chunks, hsent, hflat, -⟩ := sendFrameCache_sent pid clk.sec
    (g.seat pid args spawn clk.now) _ [] 1 rfl (by decide) hcache
  refine ⟨hok, ⟨chunks, ?_, hflat, fun c hc => ?_⟩, ?_⟩
  · exact (addPlayer_sent hlogin).trans (congrArg (_ :: ·) hsent)
  · have hmem := List.mem_map_of_mem (f := fun c => BcMsg.sendToPlayer pid (.gs2cFrameCacheData c)) hc
    rw [← hsent] at hmem
    exact packs_of_mem_sendFrameCache hmem
  · rw [addPlayer, welcome_state hok]
    rfl

/-- `add_player` does not raise exactly when the login answer packs and every block does. -/
theorem addPlayer_raised {g : FighterWar} {pid : Pid} {args : PlayerArgs} {spawn : Spawn} {clk : Clock} :
    (g.addPlayer pid args spawn clk).raised = false ↔
      Wire.packs ((g.seat pid args spawn clk.now).loginsuc clk.now) clk.sec = true ∧
      ∀ k, iPiece * k < g.frameMgr.frameCacheQueue.length →
        Wire.packs (.gs2cFrameCacheData (block g.frameMgr.frameCacheQueue k)) clk.sec = true := by
  have hloop := @sendFrameCache_raised _ pid clk.sec (g.seat pid args spawn clk.now)
    g.frameMgr.frameCacheQueue [] 1 rfl (by decide)
  rw [addPlayer, welcome, Outcome.andThen_raised_eq_false, send2Player_state, welcomeCache,
    Outcome.andThen_raised_eq_false, send2Player, Net.sendToPlayer_raised]
  exact and_congr_right fun _ => (and_iff_left rfl).trans hloop

end Join

/-- **When a running game can be joined.** In every state of a game, reached by any calls, and for
every player: `add_player` completes if and only if each block of 500 frames of the cache, and the
last, shorter one, encodes to fewer than 65536 bytes. -/
theorem joins_iff (gameID rndSeed : ℕ) (evs : List (Clock × Event)) (pid : Pid) (args : PlayerArgs)
    (spawn : Spawn) (clk : Clock) :
    let g := (@FighterWar.run sprotoWire (init gameID rndSeed) evs).state
    @Joins sprotoWire g pid args spawn clk ↔
      ∀ k, iPiece * k < g.frameMgr.frameCacheQueue.length →
        (spSend (.gs2cFrameCacheData (block g.frameMgr.frameCacheQueue k)) clk.sec).length < 65536 := by
  let := sprotoWire
  intro g
  have hlogin : Wire.packs ((g.seat pid args spawn clk.now).loginsuc clk.now) clk.sec = true :=
    packs_gs2cLoginsuc ..
  have hiff := (@addPlayer_raised _ g pid args spawn clk).trans (and_iff_right hlogin)
  have hjoins : Joins g pid args spawn clk ↔ (g.addPlayer pid args spawn clk).raised = false :=
    ⟨fun h => h.raised, joins_of_not_raised⟩
  rw [hjoins, hiff]
  exact forall₂_congr fun k _ => decide_eq_true_iff

/-! ## A game that cannot be joined -/

/-- The arguments of player 1, who has no name. -/
def firstArgs : PlayerArgs := ⟨[], 1, 9, {}⟩

/-- Player 1 enters and sends an entry before each of two ticks. -/
def twoLong (c : CtrlInfo) : List (Clock × Event) :=
  [(⟨0, 0⟩, .addPlayer 1 firstArgs Spawn.corner), (⟨1, 0⟩, .syncCtrl 1 (some c)), (⟨2, 0⟩, .frameSkip),
    (⟨3, 0⟩, .syncCtrl 1 (some c)), (⟨4, 0⟩, .frameSkip)]

/-- The two frames this makes. -/
def twoFrames (c : CtrlInfo) : List FrameInfo :=
  [⟨1, [enterEntry 1 (FWPlayer.init firstArgs Spawn.corner 0), c], 2⟩, ⟨2, [c], 4⟩]

section TwoLong

variable [Wire]

/-- A run whose first call does not raise. -/
theorem run_cons {g g' : FighterWar} {clk : Clock} {ev : Event} (hraised : (g.step clk ev).raised = false)
    (hstate : (g.step clk ev).state = g') (evs : List (Clock × Event)) :
    (g.run ((clk, ev) :: evs)).raised = (g'.run evs).raised ∧
      (g.run ((clk, ev) :: evs)).state = (g'.run evs).state := by
  subst hstate
  rw [run, hraised]
  exact ⟨rfl, rfl⟩

/-- When the login answer and the two frames pack, nothing raises and the frames are cached. -/
theorem run_twoLong {c : CtrlInfo} (hall : ∀ m ∈ ServerMsg.gs2cLoginsuc 1 7 0 0 0
      :: (twoFrames c).map .gs2cFrameData, Wire.packs m 0 = true) :
    ((init 1 7).run (twoLong c)).raised = false ∧
      ((init 1 7).run (twoLong c)).state.frameMgr.frameCacheQueue = twoFrames c := by
  have hjoins : Joins (init 1 7) 1 firstArgs Spawn.corner ⟨0, 0⟩ := by
    refine joins_of_not_raised (addPlayer_raised.mpr ⟨hall _ List.mem_cons_self, fun k hk => ?_⟩)
    exact absurd hk (Nat.not_lt_zero _)
  obtain ⟨hframe, hframe'⟩ : Wire.packs (.gs2cFrameData _) 0 = true ∧
      Wire.packs (.gs2cFrameData _) 0 = true :=
    ⟨hall _ (List.mem_cons_of_mem _ List.mem_cons_self),
      hall _ (List.mem_cons_of_mem _ (List.mem_cons_of_mem _ List.mem_cons_self))⟩
  generalize hg : ((init 1 7).addPlayer 1 firstArgs Spawn.corner ⟨0, 0⟩).state = g
  have hin : (1 : Pid) ∈ g.players := by
    rw [← hg, addPlayer_players, AList.mem_insert]
    exact Or.inl rfl
  have hmgr : g.frameMgr = FrameMgr.init.pushFrame
      (some (enterEntry 1 (FWPlayer.init firstArgs Spawn.corner 0))) := hg ▸ hjoins.pushed
  -- the calls one after the other
  have htick := @frameSkip_of_packs _ (g.pushFrame (some c)) ⟨2, 0⟩
    (by rw [TickPacks, pushFrame, hmgr]; exact hframe)
  generalize hg₂ : { g.pushFrame (some c) with
    frameMgr := (g.pushFrame (some c)).frameMgr.frameSkip 2 false } = g₂ at htick
  have hmgr₂ : g₂.frameMgr = ⟨[], [⟨1, [enterEntry 1 (FWPlayer.init firstArgs Spawn.corner 0), c], 2⟩], 2⟩ := by
    rw [← hg₂, pushFrame, hmgr]
    rfl
  have hin₂ : (1 : Pid) ∈ g₂.players := hg₂ ▸ hin
  have htick' := @frameSkip_of_packs _ (g₂.pushFrame (some c)) ⟨4, 0⟩
    (by rw [TickPacks, pushFrame, hmgr₂]; exact hframe')
  have h₁ := @run_cons _ _ _ ⟨0, 0⟩ (.addPlayer 1 firstArgs Spawn.corner) hjoins.raised hg
  have h₂ := @run_cons _ g _ ⟨1, 0⟩ (.syncCtrl 1 (some c)) rfl (syncCtrl_of_mem hin _)
  have h₃ := @run_cons _ _ _ ⟨2, 0⟩ .frameSkip htick.1 htick.2
  have h₄ := @run_cons _ g₂ _ ⟨3, 0⟩ (.syncCtrl 1 (some c)) rfl (syncCtrl_of_mem hin₂ _)
  have h₅ := @run_cons _ _ _ ⟨4, 0⟩ .frameSkip htick'.1 htick'.2
  rw [twoLong, (h₁ _).1, (h₁ _).2, (h₂ _).1, (h₂ _).2, (h₃ _).1, (h₃ _).2, (h₄ _).1, (h₄ _).2,
    (h₅ _).1, (h₅ _).2]
  refine ⟨rfl, ?_⟩
  show ((g₂.pushFrame (some c)).frameMgr.frameSkip 4 false).frameCacheQueue = _
  rw [pushFrame, hmgr₂]
  rfl

end TwoLong

/-- Two frames with an entry of more than 32768 nonzero bytes do not fit into one message. -/
theorem not_packs_twoFrames {c : CtrlInfo} (h : 32768 ≤ notzero c.encode) (sec : ℕ) :
    sprotoWire.packs (.gs2cFrameCacheData (block (twoFrames c) 0)) sec = false := by
  have hone := sum_notzero_le_encode ⟨1, [enterEntry 1 (FWPlayer.init firstArgs Spawn.corner 0), c], 2⟩
  have htwo := sum_notzero_le_encode ⟨2, [c], 4⟩
  have hlen := sum_notzero_le_spSend_cache (block (twoFrames c) 0) sec
  simp only [block, twoFrames, Nat.mul_zero, List.drop_zero, iPiece, List.take_succ_cons, List.take_nil,
    List.map_cons, List.map_nil, List.sum_cons, List.sum_nil] at hone htwo hlen
  refine decide_eq_false fun hlt => ?_
  simp only [block, twoFrames, Nat.mul_zero, List.drop_zero, iPiece, List.take_succ_cons,
    List.take_nil] at hlt
  omega

/-- What happens to player 2 after `twoLong c`, when two such entries do not fit into one message but
one does. -/
theorem blocked_of_long {c : CtrlInfo} (hname : c.nameLength ≤ 40000) (hlong : 32768 ≤ notzero c.encode) :
    (@FighterWar.run sprotoWire (init 1 7) (twoLong c)).raised = false ∧
    ¬ (@addPlayer sprotoWire (@FighterWar.run sprotoWire (init 1 7) (twoLong c)).state 2
      ⟨[], 2, 10, {}⟩ Spawn.corner ⟨5, 0⟩).raised = false := by
  let := sprotoWire
  have hall : ∀ m ∈ ServerMsg.gs2cLoginsuc 1 7 0 0 0 :: (twoFrames c).map .gs2cFrameData,
      Wire.packs m 0 = true := by
    intro m hm
    rcases List.mem_cons.mp hm with rfl | hm
    · exact packs_gs2cLoginsuc ..
    · obtain ⟨f, hf, rfl⟩ := List.mem_map.mp hm
      refine packs_of_nameLength ?_ 0
      have hfirst : (enterEntry 1 (FWPlayer.init firstArgs Spawn.corner 0)).nameLength = 0 := rfl
      rcases List.mem_pair.mp hf with rfl | rfl
      · simp only [List.map_cons, List.map_nil, List.sum_cons, List.sum_nil]
        omega
      · simp only [List.map_cons, List.map_nil, List.sum_cons, List.sum_nil]
        omega
  obtain ⟨hraised, hcache⟩ := run_twoLong hall
  refine ⟨hraised, fun hok => ?_⟩
  have hpacks := (addPlayer_raised.mp hok).2 0
  rw [hcache] at hpacks
  have hfalse := not_packs_twoFrames hlong 0
  exact Bool.false_ne_true (hfalse.symm.trans (hpacks (Nat.succ_pos _)))

/-- **A busy game that nobody can join.** Player 1 sends two entries with long names; both frames were
broadcast and nothing raised. But the frames do not fit into one message, so `add_player` of player 2
raises half way: player 2 is in the table, and no entry was pushed. -/
theorem longFrames_block :
    (@FighterWar.run sprotoWire (init 1 7) (twoLong longEntry)).raised = false ∧
    ¬ @Joins sprotoWire (@FighterWar.run sprotoWire (init 1 7) (twoLong longEntry)).state 2
      ⟨[], 2, 10, {}⟩ Spawn.corner ⟨5, 0⟩ ∧
    (2 : Pid) ∈ (@addPlayer sprotoWire (@FighterWar.run sprotoWire (init 1 7) (twoLong longEntry)).state
      2 ⟨[], 2, 10, {}⟩ Spawn.corner ⟨5, 0⟩).state.players ∧
    (@addPlayer sprotoWire (@FighterWar.run sprotoWire (init 1 7) (twoLong longEntry)).state
      2 ⟨[], 2, 10, {}⟩ Spawn.corner ⟨5, 0⟩).state.frameMgr
      = (@FighterWar.run sprotoWire (init 1 7) (twoLong longEntry)).state.frameMgr := by
  have hname : longEntry.nameLength ≤ 40000 := by
    rw [show longEntry.nameLength = longName.length from rfl, longName, List.length_replicate]
  have hlong : 32768 ≤ notzero longEntry.encode := le_trans (by decide) notzero_longEntry
  generalize longEntry = c at hname hlong ⊢
  obtain ⟨hraised, hblock⟩ := blocked_of_long hname hlong
  have hstate := @addPlayer_of_raised sprotoWire _ _ _ _ _ hblock
  exact ⟨hraised, fun h => hblock (@Joins.raised sprotoWire _ _ _ _ _ h), hstate⟩

end FrameSync.FighterWar
