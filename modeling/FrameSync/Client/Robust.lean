import FrameSync.Client.Lockstep
import FrameSync.Scene.FighterWar

/-! # Which frames raise

A client that is started runs (`running_run`): its dicts agree and `RandomInt` finds a seed. So a
frame raises exactly when its loop comes to an entry that lacks a key `update_frame` reads
(`updateFrame_ok_iff_of_run`). The server checks no entry of a client, so such a frame exists
(`emptyEntry_raises`), and `update_logic` itself adds no other error. -/

namespace FrameSync.Client

open Program

variable {γ : Type}

namespace GameObj

section Clear

variable [DictOrder ℕ]

/-- Destroying all objects of one type does not raise. -/
theorem ensures_destroyAll {g : GameObj γ} (hg : g.Running []) (t : EntityType) :
    Ensures (· = g) ((g.dictOf t).items.forM destroyEntity) fun _ g' => g'.Running [] := by
  have hloop : Ensures (fun g' : GameObj γ => g'.Running (g.dictOf t).items
      ∧ (g.dictOf t).items.Nodup) ((g.dictOf t).items.forM destroyEntity)
      fun _ (g' : GameObj γ) => g'.Running [] ∧ List.Nodup ([] : List ℕ) := by
    refine Ensures.forM (I := fun ids (g' : GameObj γ) => g'.Running ids ∧ ids.Nodup) (fun id ids => ?_) _
    intro g' h
    obtain ⟨hid, hnodup⟩ := List.nodup_cons.mp h.2
    obtain ⟨a, g'', hrun, hg''⟩ := ensures_destroyEntity hid g' h.1
    exact ⟨a, g'', hrun, hg'', hnodup⟩
  refine hloop.mono (fun g' h => ?_) fun _ _ h => h.1
  subst h
  exact ⟨hg.items (hg.indexed.alive_dictOf t), PyDict.nodup_items _⟩

/-- **Clearing the screen does not raise.** -/
theorem ensures_clearScreen :
    Ensures (Running []) (clearScreen : Method γ Unit) fun _ g => g.Running [] := by
  refine Ensures.get_bind fun g hg => ?_
  refine (ensures_destroyAll hg .bullet).bind fun _ => ?_
  exact Ensures.get_bind fun g hg => ensures_destroyAll hg .enemy

/-- The end of `update_logic` does not raise. -/
theorem ensures_finish : Ensures (Running []) (finish : Method γ Unit) fun _ g => g.Running [] := by
  refine Ensures.get_bind fun g hg => ?_
  split
  · exact ensures_clearScreen.mono (fun _ h => h ▸ hg) fun _ _ h => h
  · exact Ensures.pure fun _ h => h ▸ hg

end Clear

variable [PyRandom γ]

/-- A new client that was given a seed runs. -/
theorem running_seeded (pid : Pid) (gen : γ) {rndseed : ℕ} (h : rndseed ≠ 0) :
    ({ GameObj.init pid gen with rndSeed := some rndseed, gen := PyRandom.seed rndseed } :
      GameObj γ).Running [] := by
  refine ⟨⟨fun id => ?_, fun id t => ?_, fun id hid => ?_⟩, ?_, fun id hid => ?_⟩
  · exact iff_of_false List.not_mem_nil (AList.notMem_empty id)
  · cases t
    all_goals exact iff_of_false List.not_mem_nil (by simp [GameObj.init])
  · exact absurd hid (AList.notMem_empty id)
  · simpa using h
  · exact absurd hid List.not_mem_nil

variable [DictOrder ℕ]

/-- The frames of a replay leave a game that runs. -/
theorem running_forM {frames : List FrameInfo} {g g' : GameObj γ} (hg : g.Running [])
    (h : frames.forM updateFrame g = .ok ((), g')) : g'.Running [] := by
  induction frames generalizing g with
  | nil =>
      obtain rfl := (Prod.mk.inj (Except.ok.inj h)).2
      exact hg
  | cons data frames ih =>
      obtain ⟨⟨⟩, g₁, hdata, hrest⟩ := bind_eq_ok.mp h
      exact ih (running_updateFrame hg hdata) hrest

/-- A replay leaves a game that runs. -/
theorem running_replay {rndseed : ℕ} {frames : List FrameInfo} {pid : Pid} {gen : γ} {g : GameObj γ}
    (hseed : rndseed ≠ 0) (h : replay rndseed frames (GameObj.init pid gen) = .ok ((), g)) :
    g.Running [] := by
  obtain ⟨a, g₁, hfirst, hframes⟩ := bind_eq_ok.mp h
  obtain rfl := (Prod.mk.inj (Except.ok.inj hfirst)).2
  exact running_forM (running_seeded pid gen hseed) hframes

end GameObj

namespace Fsm

open GameObj

variable [PyRandom γ] [DictOrder ℕ]

/-- **Run lemma**: a client that was started with a seed of the server, which is never 0, runs. -/
theorem running_run {pid : Pid} {gen : γ} {msg : Loginsuc} {tr : List (Fsm γ × Event)} {c : Fsm γ}
    (hseed : msg.rndseed ≠ 0) (h : Run step (Fsm.init pid gen msg) tr c)
    (hs : c.pace.phase ≠ .waiting) : c.game.Running [] := by
  obtain ⟨-, g, hreplay, hin, hout⟩ := (follows_run h).started hs
  have hg := running_replay hseed hreplay
  cases hloop : c.pace.inUpdate with
  | true => exact hin hloop ▸ hg
  | false => exact ensures_finish.post hg (hout hloop)

/-- **When a frame raises.** In every state of a started client, whatever frames came before: a frame
is applied without raising if and only if each entry has the keys that are read from it in the state
in which its turn comes. -/
theorem updateFrame_ok_iff_of_run {pid : Pid} {gen : γ} {msg : Loginsuc}
    {tr : List (Fsm γ × Event)} {c : Fsm γ} (hseed : msg.rndseed ≠ 0)
    (h : Run step (Fsm.init pid gen msg) tr c) (hs : c.pace.phase ≠ .waiting) (data : FrameInfo) :
    (∃ g, updateFrame data c.game = .ok ((), g)) ↔
      ∀ pre ctrl post, data.ctrlData = pre ++ ctrl :: post →
        ∀ g, updateFrame { data with ctrlData := pre } c.game = .ok ((), g) → g.Readable ctrl := by
  rw [← updateFrame_ok_iff (running_run hseed h hs) data]
  constructor
  · rintro ⟨g, hg⟩
    exact ⟨_, hg⟩
  · rintro ⟨⟨⟨⟩, g⟩, hg⟩
    exact ⟨g, hg⟩

end Fsm

/-! ## Entries that never raise, and one that does -/

/-- All keys are there that `update_frame` may read of the entry in some state. -/
structure Complete (ctrl : CtrlInfo) : Prop where
  /-- `ctrl["pid"]` -/
  pid : ctrl.pid.isSome
  /-- `ctrl["action"]` -/
  action : ctrl.action.isSome
  /-- `ctrl["enter_info"]` -/
  enter : ctrl.action = some actionEnter → ∃ args, ctrl.enterInfo = some args ∧ GameObj.FullEnter args
  /-- `ctrl["attack_info"]["status"]` -/
  attack : ctrl.action = some actionAttack → ∃ status, ctrl.attackInfo = some ⟨some status⟩
  /-- `ctrl["move_info"]["dir"]`, `ctrl["move_info"]["status"]` -/
  move : ctrl.action = some actionMove →
    ∃ dir status, ctrl.moveInfo = some ⟨some dir, some status⟩

/-- A complete entry is readable in every state. -/
theorem Complete.readable {ctrl : CtrlInfo} (h : Complete ctrl) [DictOrder ℕ] (g : GameObj γ) :
    g.Readable ctrl :=
  ⟨h.pid, h.action, h.enter, fun ha _ => h.attack ha, fun ha _ => h.move ha⟩

/-- The entry a server pushes for a player who left is complete. -/
theorem complete_leaveEntry (pid : Pid) : Complete (FighterWar.leaveEntry pid) := by
  refine ⟨rfl, rfl, fun h => ?_, fun h => ?_, fun h => ?_⟩
  · cases h
  · cases h
  · cases h

section Recorded

open GameObj

attribute [local instance] DictOrder.byInsertion sprotoWire

/-- What the server is called with: player 1 joins and sends an entry without any field. -/
def emptyEntryEvents : List (Clock × FighterWar.Event) :=
  [(⟨0, 0⟩, .addPlayer 1 ⟨[97], 1, 9, ⟨some 1, some 2, some 3⟩⟩ Spawn.corner),
   (⟨5, 0⟩, .syncCtrl 1 (some {})), (⟨10, 0⟩, .frameSkip)]

/-- The frame the server makes of it. -/
def emptyEntryFrame : FrameInfo :=
  ⟨1, [{ pid := some 1, action := some actionEnter, enterInfo := some {
           name := some [97], color := some ⟨some 1, some 2, some 3⟩,
           pos := some ⟨some 1, some 550⟩ } }, {}], 10⟩

/-- **An entry without fields ends every client that gets it.** The server broadcasts the entry of
player 1 as it came, and the client of player 1, which has just started, cannot apply the frame. -/
theorem emptyEntry_raises :
    .sendToList [1] (.gs2cFrameData emptyEntryFrame) ∈
        ((FighterWar.init 1 43).run emptyEntryEvents).sent ∧
      ∃ c, runFrom Fsm.step Fsm.livePlayer [.frameCacheData [], .fsmOpen] = some c ∧
        ∀ r, updateFrame emptyEntryFrame c.game ≠ .ok r := by
  have hrun : (runFrom Fsm.step Fsm.livePlayer [.frameCacheData [], .fsmOpen]).any (fun c =>
      !(updateFrame emptyEntryFrame c.game).isOk) = true := by decide +kernel
  obtain ⟨c, hc, hraises⟩ := Option.any_eq_true _ _ |>.mp hrun
  refine ⟨by decide +kernel, c, hc, fun r hr => ?_⟩
  rw [hr] at hraises
  cases hraises

/-- A frame of complete entries is applied. -/
theorem completeEntry_applies :
    ∃ c, runFrom Fsm.step Fsm.livePlayer [.frameCacheData [], .fsmOpen] = some c ∧
      ∃ g, updateFrame ⟨1, [FighterWar.leaveEntry 5], 10⟩ c.game = .ok ((), g) := by
  have hrun : (runFrom Fsm.step Fsm.livePlayer [.frameCacheData [], .fsmOpen]).any (fun c =>
      c.pace.phase = .opened) = true := by decide +kernel
  obtain ⟨c, hc, hphase⟩ := Option.any_eq_true _ _ |>.mp hrun
  have hopen : c.pace.phase = .opened := of_decide_eq_true hphase
  have hs : c.pace.phase ≠ .waiting := by
    rw [hopen]
    decide
  refine ⟨c, hc, (Fsm.updateFrame_ok_iff_of_run ?_ (run_of_runFrom hc) hs _).mpr ?_⟩
  · decide
  · intro pre ctrl post hdata g _
    have hctrl : ctrl ∈ pre ++ ctrl :: post := List.mem_append_right _ List.mem_cons_self
    rw [← hdata] at hctrl
    rw [List.mem_singleton.mp hctrl]
    exact (complete_leaveEntry 5).readable g

end Recorded

end FrameSync.Client
