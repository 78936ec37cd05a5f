import FrameSync.Client.Robust
import FrameSync.Client.Traces

/-! # The entity index between any two operations

The dicts of a client, its main role and its ids, after each operation of a run (`index_run`). A
consistent game says all of it about one state, and every operation keeps a game consistent; what
remains is that ids only grow and that no call of a started client raises. -/

namespace FrameSync.Client

variable {γ : Type}

namespace GameObj

/-- The index of the entities. -/
structure EntityIndex (g : GameObj γ) : Prop where
  /-- `m_AllEntityObjects` is the union of the three dicts. -/
  union : ∀ id, id ∈ g.allEntityObjects.keys ↔
    id ∈ g.playerObjects.keys ∨ id ∈ g.enemyObjects.keys ∨ id ∈ g.bulletObjects.keys
  /-- No object is in two of them. -/
  disjoint : g.playerObjects.keys.Disjoint g.enemyObjects.keys ∧
    g.playerObjects.keys.Disjoint g.bulletObjects.keys ∧
    g.enemyObjects.keys.Disjoint g.bulletObjects.keys
  /-- Each key has its object, of the type of the dict. -/
  stored : ∀ id t, id ∈ (g.dictOf t).keys ↔ ∃ e, g.objects.lookup id = some e ∧ e.type = t
  /-- A pid has at most one object. -/
  unique : ∀ id ∈ g.playerObjects.keys, ∀ id' ∈ g.playerObjects.keys,
    g.pidAt id = g.pidAt id' → id = id'
  /-- `m_MainRole` is the player of `m_MainRPid`, if there is one. -/
  mainRole : ∀ id, g.mainRole = some id ↔ id ∈ g.playerObjects.keys ∧ g.pidAt id = some g.mainRPid

/-- A player has a pid. -/
theorem pidAt_of_player {g : GameObj γ} {id : ℕ} {e : Entity} (he : g.objects.lookup id = some e)
    (htype : e.type = .player) : ∃ pid, g.pidAt id = some pid := by
  obtain ⟨x, z, width, height, color, speed, dir, blood, body⟩ := e
  cases body with
  | enemy | bullet => cases htype
  | player pid => exact ⟨pid, by rw [pidAt, he]; rfl⟩

/-- An object with a pid is a player. -/
theorem Consistent.mem_players {g : GameObj γ} (h : g.Consistent) {id : ℕ} {pid : Pid}
    (hid : g.pidAt id = some pid) : id ∈ g.playerObjects.keys := by
  obtain ⟨e, he, hpid⟩ := Option.bind_eq_some_iff.mp hid
  exact (h.indexed.dict id .player).mpr ⟨e, he, type_of_pid? hpid⟩

/-- The index of a consistent game. -/
theorem Consistent.entityIndex {g : GameObj γ} (h : g.Consistent) : g.EntityIndex := by
  have disjoint : ∀ t t', t ≠ t' → (g.dictOf t).keys.Disjoint (g.dictOf t').keys := by
    intro t t' hne id hid hid'
    obtain ⟨e, he, ht⟩ := (h.indexed.dict id t).mp hid
    obtain ⟨e', he', ht'⟩ := (h.indexed.dict id t').mp hid'
    obtain rfl := Option.some.inj (he.symm.trans he')
    exact hne (ht.symm.trans ht')
  refine ⟨fun id => ?_, ⟨disjoint .player .enemy (by decide), disjoint .player .bullet (by decide),
    disjoint .enemy .bullet (by decide)⟩, h.indexed.dict, fun id hid id' hid' heq => ?_, fun id => ?_⟩
  · rw [h.indexed.all]
    constructor
    · intro hmem
      obtain ⟨e, he⟩ := Option.isSome_iff_exists.mp (AList.lookup_isSome.mpr hmem)
      cases ht : e.type with
      | player => exact Or.inl ((h.indexed.dict id .player).mpr ⟨e, he, ht⟩)
      | enemy => exact Or.inr (Or.inl ((h.indexed.dict id .enemy).mpr ⟨e, he, ht⟩))
      | bullet => exact Or.inr (Or.inr ((h.indexed.dict id .bullet).mpr ⟨e, he, ht⟩))
    · rintro (hid | hid | hid)
      · exact h.indexed.alive_dictOf .player id hid
      · exact h.indexed.alive_dictOf .enemy id hid
      · exact h.indexed.alive_dictOf .bullet id hid
  · obtain ⟨e, he, htype⟩ := (h.indexed.dict id .player).mp hid
    obtain ⟨pid, hpid⟩ := pidAt_of_player he htype
    exact h.unique id id' pid hpid (heq.symm.trans hpid)
  · exact (h.mainRole id).trans ⟨fun hid => ⟨h.mem_players hid, hid⟩, fun hid => hid.2⟩

end GameObj

/-- Every entry lets players enter somewhere. -/
theorem placed_anywhere (ctrl : CtrlInfo) : Placed (fun _ _ => True) ctrl :=
  fun _ _ _ _ _ _ => trivial

/-! ## The ids -/

/-- The id of an object that is created. -/
def EntityOp.createdId : EntityOp → Option ℕ
  | .created id _ => some id
  | .drew | .seeded | .began | .destroyed .. | .removed .. | .wrote .. | .hit .. | .ctrlOnce => none

/-- The ids that were given, in order. -/
def createdIds (l : List (EntityOp × GameObj γ)) : List ℕ := l.filterMap fun x => x.1.createdId

theorem createdIds_snoc (l : List (EntityOp × GameObj γ)) (o : EntityOp) (g : GameObj γ) :
    createdIds (l ++ [(o, g)]) = createdIds l ++ o.createdId.toList := by
  rw [createdIds, createdIds, List.filterMap_append]
  cases h : o.createdId with
  | none => simp [h]
  | some id => simp [h]

@[simp] theorem entityId_rewarded (g : GameObj γ) (e : Entity) :
    (g.rewarded e).entityId = g.entityId := (g.rewarded_toIndex e).2.2.1

/-- **Ids grow.** An operation that creates an object uses the next id, and no other changes it. -/
theorem EntityStep.entityId {N : ℤ → ℤ → Prop} {g g' : GameObj γ} {o : EntityOp}
    (h : EntityStep N g o g') : (o.createdId = none ∧ g'.entityId = g.entityId) ∨
      (o.createdId = some (g.entityId + 1) ∧ g'.entityId = g.entityId + 1) := by
  cases h with
  | spawned | fired | entered => exact Or.inr ⟨rfl, rfl⟩
  | removed => exact Or.inl ⟨rfl, entityId_rewarded _ _⟩
  | drew | seeded | began | destroyed | moved | turned | hit | ctrlOnce => exact Or.inl ⟨rfl, rfl⟩

/-- The ids of a path grow, and none is above `ENTITY_ID`. -/
theorem createdIds_path {N : ℤ → ℤ → Prop} {g g' : GameObj γ} {l : List (EntityOp × GameObj γ)}
    (h : Path (EntityStep N) g l g') :
    (createdIds l).Pairwise (· < ·) ∧ ∀ id ∈ createdIds l, id ≤ g'.entityId := by
  refine h.invariant (P := fun l g => (createdIds l).Pairwise (· < ·) ∧ ∀ id ∈ createdIds l, id ≤ g.entityId)
    ⟨List.Pairwise.nil, fun id hid => absurd hid List.not_mem_nil⟩ ?_
  rintro l g o g' ⟨hgrow, hle⟩ hstep
  rw [createdIds_snoc]
  rcases hstep.entityId with ⟨hnone, hid⟩ | ⟨hsome, hid⟩
  · rw [hnone, hid]
    simpa using ⟨hgrow, hle⟩
  · rw [hsome, hid]
    refine ⟨List.pairwise_append.mpr ⟨hgrow, List.pairwise_singleton _ _, ?_⟩, fun id hmem => ?_⟩
    · intro id hmem id' hid'
      obtain rfl := List.mem_singleton.mp hid'
      exact Nat.lt_succ_of_le (hle id hmem)
    · rcases List.mem_append.mp hmem with hmem | hmem
      · exact (hle id hmem).trans (Nat.le_succ _)
      · exact (List.mem_singleton.mp hmem).le

/-! ## A run -/

namespace Fsm

open GameObj

section Run

variable [PyRandom γ] [DictOrder ℕ]

/-- A client whose call of `update_logic` is in its loop has been started. -/
theorem started_of_inUpdate {pid : Pid} {gen : γ} {msg : Loginsuc} {tr : List (Fsm γ × Event)}
    {c : Fsm γ} (h : Run step (Fsm.init pid gen msg) tr c) (hin : c.pace.inUpdate = true) :
    c.pace.phase ≠ .waiting := by
  intro hw
  rw [((follows_run h).waiting hw).2.2.1] at hin
  cases hin

/-- **No call raises** in a client that got well-formed frames. -/
theorem call_ok {pid : Pid} {gen : γ} {msg : Loginsuc} {tr : List (Fsm γ × Event)} {c : Fsm γ}
    (hseed : msg.rndseed ≠ 0) (h : Run step (Fsm.init pid gen msg) tr c)
    (hframes : ∀ data ∈ received tr, ∀ ctrl ∈ data.ctrlData, Complete ctrl)
    {e : Event} {p : Pace} {a : Action} (hpace : c.pace.step c.game.gameOver e = some (p, a)) :
    ∃ g, a.call c.game = .ok ((), g) := by
  cases a with
  | nothing => exact ⟨c.game, rfl⟩
  | seed rndseed => exact ⟨_, rfl⟩
  | frame data =>
      obtain ⟨rfl, hin⟩ := Pace.step_eq_drain hpace (Or.inr ⟨data, rfl⟩)
      have hdata : data ∈ received tr := by
        rw [Pace.step, if_pos hin] at hpace
        obtain ⟨rest, hqueue⟩ := Pace.head_of_frame (Option.some.inj hpace)
        rw [received_eq h, hqueue]
        exact List.mem_append_right _ List.mem_cons_self
      have hrun := running_run hseed h (started_of_inUpdate h hin)
      obtain ⟨⟨⟨⟩, g⟩, hg⟩ := (GameObj.updateFrame_ok_iff hrun data).mpr fun pre ctrl post hsplit g' _ =>
        (hframes data hdata ctrl (hsplit ▸ List.mem_append_right _ List.mem_cons_self)).readable g'
      exact ⟨g, hg⟩
  | finish =>
      obtain ⟨rfl, hin⟩ := Pace.step_eq_drain hpace (Or.inl rfl)
      obtain ⟨⟨⟩, g, hg, -⟩ := ensures_finish c.game (running_run hseed h (started_of_inUpdate h hin))
      exact ⟨g, hg⟩

/-- **Entity index consistency.** Between any two operations of a client that got well-formed frames
the dicts agree, each object under an id that was never used before, each pid with one player at most
and the main role right; and whatever the client does next raises no error, so no `destroy_entity`
misses a key or meets an object that was released. -/
theorem index_run {pid : Pid} {gen : γ} {msg : Loginsuc} {tr : List (Fsm γ × Event)} {c : Fsm γ}
    (hseed : msg.rndseed ≠ 0) (h : Run step (Fsm.init pid gen msg) tr c)
    (hframes : ∀ data ∈ received tr, ∀ ctrl ∈ data.ctrlData, Complete ctrl) :
    (∀ x ∈ ops tr, x.2.EntityIndex) ∧ c.game.EntityIndex ∧ (createdIds (ops tr)).Pairwise (· < ·) ∧
      ∀ e p a, c.pace.step c.game.gameOver e = some (p, a) → ∃ g, a.call c.game = .ok ((), g) := by
  obtain ⟨hpath, -⟩ := path_run (N := fun _ _ => True) h fun data _ ctrl _ => placed_anywhere ctrl
  have hstates := hpath.forall_states (consistent_init pid gen) fun t o t' ht hstep => hstep.consistent ht
  refine ⟨fun x hx => (hstates.1 x hx).entityIndex, hstates.2.entityIndex, (createdIds_path hpath).1, ?_⟩
  exact fun e p a hpace => call_ok hseed h hframes hpace

end Run

section Recorded

attribute [local instance] DictOrder.byInsertion

/-- The frames of `twoFrames` are well formed. -/
theorem complete_twoFrames : ∀ data ∈ twoFrames, ∀ ctrl ∈ data.ctrlData, Complete ctrl := by
  intro data hdata ctrl hctrl
  rcases List.mem_cons.mp hdata with rfl | hdata
  · obtain rfl := List.mem_singleton.mp hctrl
    refine ⟨rfl, rfl, fun _ => ⟨_, rfl, ?_⟩, fun h => ?_, fun h => ?_⟩
    · exact ⟨_, _, _, _, _, _, _, _, rfl, rfl, rfl⟩
    · cases h
    · cases h
  · obtain rfl := List.mem_singleton.mp hdata
    exact absurd hctrl List.not_mem_nil

/-- The index of a client that was there from the start. -/
theorem index_run_live : ∃ c, runFrom step livePlayer liveEvents = some c ∧ c.game.EntityIndex := by
  have hrun : (runFrom step livePlayer liveEvents).isSome = true := by decide +kernel
  obtain ⟨c, hc⟩ := Option.isSome_iff_exists.mp hrun
  have hreceived : received (traceFrom step livePlayer liveEvents) = twoFrames := by decide +kernel
  have hframes : ∀ data ∈ received (traceFrom step livePlayer liveEvents), ∀ ctrl ∈ data.ctrlData,
      Complete ctrl := by
    rw [hreceived]
    exact complete_twoFrames
  exact ⟨c, hc, (index_run (by decide) (run_of_runFrom hc) hframes).2.1⟩

end Recorded

end Fsm

end FrameSync.Client
