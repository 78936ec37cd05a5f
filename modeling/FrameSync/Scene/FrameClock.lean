import FrameSync.Scene.Emission
import Mathlib.Algebra.Order.BigOperators.Group.List
import Mathlib.Data.Nat.Find

/-! # The frame clock of a game

The `FrameSkip` timer of `frame_mgr.lua` over the tick `FighterWar.frameSkip`. `TimerObject` arms
its timeout again before it calls back, so a tick that raises is followed by the next one. But
`frame_skip` clears the waiting entries only after the broadcast returned: a tick that raises
leaves the game as it was, and the next one encodes the same entries again. -/

namespace FrameSync.FighterWar

open Sproto

section Tick

variable [Wire]

/-- The frame message of a tick at `clk` packs. -/
def TickPacks (g : FighterWar) (clk : Clock) : Prop :=
  Wire.packs (.gs2cFrameData (g.frameMgr.param clk.now)) clk.sec = true

/-- A tick whose message packs stores its frame, clears the waiting entries and counts on. -/
theorem frameSkip_of_packs {g : FighterWar} {clk : Clock} (h : g.TickPacks clk) :
    (g.frameSkip clk).raised = false ∧
      (g.frameSkip clk).state = { g with frameMgr := g.frameMgr.frameSkip clk.now false } := by
  have hsend : (g.bc2Players (.gs2cFrameData (g.frameMgr.param clk.now)) clk.sec).raised = false :=
    (Net.sendToList_raised ..).mpr h
  rw [frameSkip, Outcome.andThen_of_not_raised hsend]
  exact ⟨rfl, by simp only [bc2Players, Net.sendToList_state, storeFrame, Outcome.done_state]⟩

/-- A tick whose message does not pack raises and leaves the game as it was. -/
theorem frameSkip_of_not_packs {g : FighterWar} {clk : Clock} (h : ¬ g.TickPacks clk) :
    (g.frameSkip clk).raised = true ∧ (g.frameSkip clk).state = g := by
  have hsend : (g.bc2Players (.gs2cFrameData (g.frameMgr.param clk.now)) clk.sec).raised = true := by
    rw [← Bool.not_eq_false, bc2Players, Net.sendToList_raised]
    exact h
  rw [frameSkip, Outcome.andThen_of_raised hsend]
  exact ⟨hsend, by rw [bc2Players, Net.sendToList_state]⟩

/-- `k` ticks with no call in between, the `i`-th reading the clock `clks i`. -/
def ticks (g : FighterWar) (clks : ℕ → Clock) : ℕ → FighterWar
  | 0 => g
  | k + 1 => ((g.ticks clks k).frameSkip (clks k)).state

/-- As long as every tick raises, the game stays as it is. -/
theorem ticks_of_not_packs {g : FighterWar} {clks : ℕ → Clock} {k : ℕ}
    (h : ∀ i < k, ¬ g.TickPacks (clks i)) : g.ticks clks k = g := by
  induction k with
  | zero => rfl
  | succ k ih =>
      have hk := ih fun i hi => h i (Nat.lt_succ_of_lt hi)
      rw [ticks, hk]
      exact (frameSkip_of_not_packs (h k (Nat.lt_succ_self k))).2

/-- The clock moves: some number of ticks advances the frame number and leaves every entry that was
in frames or waiting in frames, none waiting. -/
def Moves (g : FighterWar) (clks : ℕ → Clock) : Prop :=
  ∃ k, g.frameMgr.curFrameNo < (g.ticks clks k).frameMgr.curFrameNo ∧
    (g.ticks clks k).frameMgr.ctrlDataQueue = [] ∧
    (g.ticks clks k).frameMgr.frameCacheQueue.flatMap FrameInfo.ctrlData = g.frameMgr.entries

/-- **When the frame clock moves.** In every state of a game reached by any calls, and for all
clock readings of the coming ticks: the ticks advance the frame number and move the waiting entries
into frames if and only if at some coming tick the message of the frame made of the entries that
wait now packs. -/
theorem moves_iff (gameID rndSeed : ℕ) (evs : List (Clock × Event)) (clks : ℕ → Clock) :
    ((init gameID rndSeed).run evs).state.Moves clks ↔
      ∃ i, ((init gameID rndSeed).run evs).state.TickPacks (clks i) := by
  generalize ((init gameID rndSeed).run evs).state = g
  constructor
  · rintro ⟨k, hno, -, -⟩
    by_contra hnever
    -- no tick ever packs, so the game is still what it was
    have hstuck : g.ticks clks k = g := ticks_of_not_packs fun i _ hi => hnever ⟨i, hi⟩
    rw [hstuck] at hno
    exact lt_irrefl _ hno
  · intro hsome
    classical
    -- up to the first tick that packs nothing changes; that tick moves everything
    have hbefore : g.ticks clks (Nat.find hsome) = g :=
      ticks_of_not_packs fun i hi => Nat.find_min hsome hi
    have hfirst := (frameSkip_of_packs (Nat.find_spec hsome)).2
    refine ⟨Nat.find hsome + 1, ?_⟩
    rw [ticks, hbefore, hfirst]
    refine ⟨Nat.lt_succ_self _, rfl, ?_⟩
    simp [FrameMgr.entries, FrameMgr.param]

end Tick

/-! ## A game that wedges -/

/-- A name of 40000 bytes. -/
def longName : Bytes := List.replicate 40000 0x61

/-- An entry with a long name, as a client can send it in one `c2gs_ctrl_data`. -/
def longEntry : CtrlInfo where
  pid := some 1
  action := some actionMove
  enterInfo := some { name := some longName }

/-- Player 1 enters and sends the entry `c` twice before the first tick. -/
def sendTwice (c : CtrlInfo) : List (Clock × Event) :=
  [(⟨0, 0⟩, .addPlayer 1 ⟨[], 1, 9, {}⟩ Spawn.corner),
    (⟨1, 0⟩, .syncCtrl 1 (some c)), (⟨2, 0⟩, .syncCtrl 1 (some c))]

theorem notzero_longEntry : 40000 ≤ notzero longEntry.encode := by
  have hname : notzero longName = 40000 := by
    rw [notzero, longName, List.countP_replicate, if_pos (by decide)]
  have h := notzero_le_of_isInfix (name_infix_encode (c := longEntry) rfl rfl)
  rwa [hname] at h

/-- Both long entries wait. -/
structure Flooded (g : FighterWar) : Prop where
  /-- Where the two entries are. -/
  queue : [longEntry, longEntry].Sublist g.frameMgr.ctrlDataQueue
  /-- No frame was made. -/
  curFrameNo : g.frameMgr.curFrameNo = 1

/-- An entry that is in a list twice counts twice. -/
theorem two_mul_notzero_le {c : CtrlInfo} {q : List CtrlInfo} (h : [c, c].Sublist q) :
    2 * notzero c.encode ≤ (q.map fun c => notzero c.encode).sum := by
  have hsum : ([c, c].map fun c => notzero c.encode).sum ≤ (q.map fun c => notzero c.encode).sum :=
    (h.map _).sum_le_sum fun _ _ => Nat.zero_le _
  simp only [List.map_cons, List.map_nil, List.sum_cons, List.sum_nil] at hsum
  omega

/-- Two long entries do not fit into one frame message, whatever else is in the frame. -/
theorem Flooded.not_packs {g : FighterWar} (h : g.Flooded) (clk : Clock) :
    ¬ @TickPacks sprotoWire g clk := by
  have htwo : 2 * 40000 ≤ 2 * notzero longEntry.encode := Nat.mul_le_mul_left 2 notzero_longEntry
  have hsum := htwo.trans (two_mul_notzero_le h.queue)
  have hfalse := not_packs_of_sum_notzero (f := g.frameMgr.param clk.now)
    (le_trans (by decide) hsum) clk.sec
  exact fun hpacks => Bool.false_ne_true (hfalse.symm.trans hpacks)

/-- More waiting entries do not help. -/
theorem Flooded.push {g g' : FighterWar} (h : g.Flooded) {c : Option CtrlInfo}
    (hg : g'.frameMgr = g.frameMgr.pushFrame c) : g'.Flooded := by
  refine ⟨?_, by rw [hg]; exact h.curFrameNo⟩
  rw [hg]
  exact h.queue.trans (List.sublist_append_left _ _)

/-- No call gets a flooded game out of that state. -/
theorem Flooded.step {g : FighterWar} (h : g.Flooded) (clk : Clock) (ev : Event) :
    (@FighterWar.step sprotoWire g clk ev).state.Flooded := by
  let := sprotoWire
  cases ev with
  | addPlayer pid args spawn =>
      rw [FighterWar.step]
      rcases addPlayer_state_cases g pid args spawn clk with hst | hst
      · rw [hst]; exact ⟨h.queue, h.curFrameNo⟩
      · rw [hst]; exact h.push rfl
  | delPlayer pid =>
      rw [FighterWar.step, Outcome.done_state, delPlayer]
      split
      · exact h.push rfl
      · exact h
  | syncCtrl pid c =>
      rw [FighterWar.step, Outcome.done_state, syncCtrl]
      split
      · exact h.push rfl
      · exact h
  | frameSkip =>
      -- The queue is too large to be packed, and a failing `frameSkip` leaves it as it is.
      rw [FighterWar.step, (frameSkip_of_not_packs (h.not_packs clk)).2]
      exact h
  | syncData pid val =>
      have hquiet := (quiet_syncData g pid val clk.now).frameMgr
      exact ⟨by rw [FighterWar.step, hquiet]; exact h.queue,
        by rw [FighterWar.step, hquiet]; exact h.curFrameNo⟩
  | syncRtt =>
      have hquiet := (quiet_syncRtt g clk).frameMgr
      exact ⟨by rw [FighterWar.step, hquiet]; exact h.queue,
        by rw [FighterWar.step, hquiet]; exact h.curFrameNo⟩

/-- A flooded game stays flooded over every run. -/
theorem Flooded.run {g : FighterWar} (h : g.Flooded) (evs : List (Clock × Event)) :
    (@FighterWar.run sprotoWire g evs).state.Flooded := by
  induction evs generalizing g with
  | nil => exact h
  | cons e evs ih => exact ih (h.step e.1 e.2)

/-- The control data of a player in the table is pushed. -/
theorem syncCtrl_of_mem {g : FighterWar} {pid : Pid} (h : pid ∈ g.players) (c : Option CtrlInfo) :
    g.syncCtrl pid c = g.pushFrame c := by
  obtain ⟨p, hp⟩ := Option.isSome_iff_exists.mp (AList.lookup_isSome.mpr h)
  rw [syncCtrl, hp]

/-- What waits in a game in which `sendTwice c` happened, on any wire. -/
theorem sendTwice_queue [Wire] (c : CtrlInfo) :
    [c, c].Sublist ((init 1 7).run (sendTwice c)).state.frameMgr.ctrlDataQueue ∧
      ((init 1 7).run (sendTwice c)).state.frameMgr.curFrameNo = 1 := by
  simp only [sendTwice, run, step, Outcome.done_state]
  generalize hspawn : Spawn.corner = spawn
  generalize hg : ((init 1 7).addPlayer 1 ⟨[], 1, 9, {}⟩ spawn ⟨0, 0⟩).state = g
  have hin : (1 : Pid) ∈ g.players := by
    rw [← hg, addPlayer_players, AList.mem_insert]
    exact Or.inl rfl
  have hno : g.frameMgr.curFrameNo = 1 := by
    rw [← hg]
    rcases addPlayer_state_cases (init 1 7) 1 ⟨[], 1, 9, {}⟩ spawn ⟨0, 0⟩ with hst | hst
    · rw [hst]; rfl
    · rw [hst]; rfl
  rw [syncCtrl_of_mem hin, syncCtrl_of_mem (by exact hin)]
  refine ⟨?_, hno⟩
  simp only [pushFrame, FrameMgr.pushFrame_ctrlDataQueue, Option.toList_some, List.append_assoc]
  exact List.sublist_append_right _ _

/-- **A client can wedge the clock.** After two long entries of one client no tick moves anything,
whatever calls come first and whatever the clocks read. -/
theorem longEntry_wedges : ¬ ∃ (later : List (Clock × Event)) (clks : ℕ → Clock),
    @Moves sprotoWire (@FighterWar.run sprotoWire
      (@FighterWar.run sprotoWire (init 1 7) (sendTwice longEntry)).state later).state clks := by
  let := sprotoWire
  rintro ⟨later, clks, hmoves⟩
  obtain ⟨hqueue, hno⟩ := sendTwice_queue longEntry
  have hflooded := Flooded.run ⟨hqueue, hno⟩ later
  rw [← run_append_state] at hmoves
  obtain ⟨i, hi⟩ := (moves_iff 1 7 (sendTwice longEntry ++ later) clks).mp hmoves
  rw [run_append_state] at hi
  exact hflooded.not_packs (clks i) hi

end FrameSync.FighterWar
