import FrameSync.Client.Operations

/-! # What an operation can do

`EntityStep` lists what each operation of a client can do to the game. The relation knows where
players enter: at the places `N` of the frames. It asks that a player who enters has no object, and
that an object which is destroyed by anything but its own `update` is alive. For that the games in
between must have at most one object for each pid (`Consistent`), and no dead object at the end of
`update_ctrl_once`. -/

namespace FrameSync.Client

variable {γ : Type}

namespace GameObj

/-! ## Games that are consistent -/

/-- `m_Pid` of an object, if it is stored and a player. -/
def pidAt (g : GameObj γ) (id : ℕ) : Option Pid := (g.objects.lookup id).bind Entity.pid?

/-- The dicts agree, each pid has at most one object, and `m_MainRole` is the one of `m_MainRPid`. -/
structure Consistent (g : GameObj γ) : Prop where
  /-- The dicts agree. -/
  indexed : g.Indexed
  /-- Each pid has at most one object. -/
  unique : ∀ id id' pid, g.pidAt id = some pid → g.pidAt id' = some pid → id = id'
  /-- `m_MainRole` -/
  mainRole : ∀ id, g.mainRole = some id ↔ g.pidAt id = some g.mainRPid

/-- The dead objects are among those listed. -/
def DeadIn (ids : List ℕ) (g : GameObj γ) : Prop :=
  ∀ id e, g.objects.lookup id = some e → e.isDead = true → id ∈ ids

/-- A new object is stored under the next id. -/
def create (e : Entity) (g : GameObj γ) : GameObj γ :=
  ({ g with entityId := g.entityId + 1 } : GameObj γ).store (g.entityId + 1) e

/-- The state after `add_score`. -/
def scored (score : ℤ) (g : GameObj γ) : GameObj γ :=
  { g with
    curScore := g.curScore + score
    gameOver := g.gameOver || decide (goalScore ≤ g.curScore + score) }

/-- The state after the reward for an object. -/
def rewarded (e : Entity) (g : GameObj γ) : GameObj γ :=
  match e.body with
  | .enemy rewardScore => if e.isDead then g.scored rewardScore else g
  | .bullet | .player .. => g

/-- The objects after one was created. -/
theorem lookup_create (g : GameObj γ) (e : Entity) (id : ℕ) : (g.create e).objects.lookup id
    = if id = g.entityId + 1 then some e else g.objects.lookup id := by
  show (g.objects.insert (g.entityId + 1) e).lookup id = _
  split
  · rename_i hid
    rw [hid, AList.lookup_insert]
  · rename_i hid
    rw [AList.lookup_insert_ne hid]

/-- The objects after one was destroyed. -/
theorem lookup_unstore (g : GameObj γ) (id : ℕ) (e : Entity) (id' : ℕ) :
    (g.unstore id e).objects.lookup id' = if id' = id then none else g.objects.lookup id' := by
  show (g.objects.erase id).lookup id' = _
  split
  · rename_i hid
    rw [hid, AList.lookup_erase]
  · rename_i hid
    rw [AList.lookup_erase_ne hid]

@[simp] theorem objects_rewarded (g : GameObj γ) (e : Entity) :
    (g.rewarded e).objects = g.objects := by
  unfold rewarded
  split
  · split_ifs
    · rfl
    · rfl
  all_goals rfl

theorem rewarded_toIndex (g : GameObj γ) (e : Entity) :
    (g.rewarded e).allEntityObjects = g.allEntityObjects ∧ (∀ t, (g.rewarded e).dictOf t = g.dictOf t) ∧
      (g.rewarded e).entityId = g.entityId ∧ (g.rewarded e).mainRole = g.mainRole ∧
      (g.rewarded e).mainRPid = g.mainRPid := by
  unfold rewarded
  split
  · split_ifs
    · exact ⟨rfl, fun t => by cases t <;> rfl, rfl, rfl, rfl⟩
    · exact ⟨rfl, fun t => rfl, rfl, rfl, rfl⟩
  all_goals exact ⟨rfl, fun t => rfl, rfl, rfl, rfl⟩

/-- Only an object that was dead and still is can be dead. -/
theorem DeadIn.congr {g g' : GameObj γ} {ids : List ℕ} (h : g.DeadIn ids)
    (hlookup : ∀ id e, g'.objects.lookup id = some e → e.isDead = true → g.objects.lookup id = some e) :
    g'.DeadIn ids := fun id e he hdead => h id e (hlookup id e he hdead) hdead

theorem DeadIn.create {g : GameObj γ} {ids : List ℕ} (h : g.DeadIn ids) {e : Entity}
    (halive : e.isDead = false) : (g.create e).DeadIn ids := by
  refine h.congr fun id e' he' hdead => ?_
  rw [lookup_create] at he'
  split at he'
  · obtain rfl := Option.some.inj he'
    exact absurd (halive.symm.trans hdead) Bool.false_ne_true
  · exact he'

/-- A dead object is taken out. -/
theorem DeadIn.unstore {g : GameObj γ} {ids : List ℕ} {id : ℕ} (h : g.DeadIn (id :: ids)) (e : Entity) :
    (g.unstore id e).DeadIn ids := by
  intro id' e' he' hdead
  rw [lookup_unstore] at he'
  split at he'
  · cases he'
  · rename_i hne
    exact (List.mem_cons.mp (h id' e' he' hdead)).resolve_left hne

/-- An object that is alive is written. -/
theorem DeadIn.put {g : GameObj γ} {ids : List ℕ} {id : ℕ} (h : g.DeadIn (id :: ids)) {e e' : Entity}
    (he : g.objects.lookup id = some e) (halive : e'.isDead = false) : (g.put id e').DeadIn ids := by
  intro id' e'' he'' hdead
  rw [lookup_put he] at he''
  split at he''
  · obtain rfl := Option.some.inj he''
    exact absurd (halive.symm.trans hdead) Bool.false_ne_true
  · rename_i hne
    exact (List.mem_cons.mp (h id' e'' he'' hdead)).resolve_left hne

theorem DeadIn.mono {g : GameObj γ} {ids ids' : List ℕ} (h : g.DeadIn ids) (hsub : ids ⊆ ids') :
    g.DeadIn ids' := fun id e he hdead => hsub (h id e he hdead)

theorem pidAt_create (g : GameObj γ) (e : Entity) (id : ℕ) :
    (g.create e).pidAt id = if id = g.entityId + 1 then e.pid? else g.pidAt id := by
  rw [pidAt, lookup_create]
  split
  · rfl
  · rfl

theorem pidAt_unstore (g : GameObj γ) (id : ℕ) (e : Entity) (id' : ℕ) :
    (g.unstore id e).pidAt id' = if id' = id then none else g.pidAt id' := by
  rw [pidAt, lookup_unstore]
  split
  · rfl
  · rfl

theorem pidAt_put {g : GameObj γ} {id : ℕ} {e e' : Entity} (h : g.objects.lookup id = some e)
    (hpid : e'.pid? = e.pid?) (id' : ℕ) : (g.put id e').pidAt id' = g.pidAt id' := by
  rw [pidAt, lookup_put h]
  split
  · rename_i hid
    rw [hid, pidAt, h]
    exact hpid
  · rfl

/-- The id of a new object is not in use. -/
theorem Indexed.lookup_next {g : GameObj γ} (h : g.Indexed) :
    g.objects.lookup (g.entityId + 1) = none :=
  AList.lookup_eq_none.mpr h.notMem

/-- A new client is consistent. -/
theorem consistent_init (pid : Pid) (gen : γ) : (GameObj.init pid gen).Consistent := by
  have hnone : ∀ id, (GameObj.init pid gen).objects.lookup id = none := fun _ => rfl
  refine ⟨⟨fun id => ?_, fun id t => ?_, fun id hid => ?_⟩, fun id id' pid' hid => ?_, fun id => ?_⟩
  · exact iff_of_false List.not_mem_nil (AList.notMem_empty id)
  · refine iff_of_false ?_ ?_
    · cases t
      all_goals exact List.not_mem_nil
    · rintro ⟨e, he, -⟩
      rw [hnone] at he
      cases he
  · exact absurd hid (AList.notMem_empty id)
  · rw [pidAt, hnone] at hid
    cases hid
  · rw [pidAt, hnone]
    exact iff_of_false (fun h => Option.some_ne_none _ h.symm) fun h => Option.some_ne_none _ h.symm

/-! ## Operations keep a game consistent -/

namespace Consistent

variable {g g' : GameObj γ}

/-- Only the index, the objects and the main role matter. -/
theorem congr (h : g.Consistent) (hobjects : g'.objects = g.objects)
    (hall : g'.allEntityObjects = g.allEntityObjects) (hdict : ∀ t, g'.dictOf t = g.dictOf t)
    (hid : g'.entityId = g.entityId) (hrole : g'.mainRole = g.mainRole)
    (hpid : g'.mainRPid = g.mainRPid) : g'.Consistent := by
  have hat : ∀ id, g'.pidAt id = g.pidAt id := fun id => by rw [pidAt, pidAt, hobjects]
  refine ⟨⟨fun id => ?_, fun id t => ?_, fun id hid' => ?_⟩, fun id id' pid => ?_, fun id => ?_⟩
  · rw [hall, hobjects]
    exact h.indexed.all id
  · rw [hdict, hobjects]
    exact h.indexed.dict id t
  · rw [hobjects] at hid'
    rw [hid]
    exact h.indexed.fresh id hid'
  · rw [hat, hat]
    exact h.unique id id' pid
  · rw [hat, hrole, hpid]
    exact h.mainRole id

/-- A new object, of a pid that has none if it is a player. -/
theorem create (h : g.Consistent) {e : Entity} (hnone : ∀ id pid, e.pid? = some pid → g.pidAt id ≠ some pid) :
    (g.create e).Consistent := by
  have hnew : g.pidAt (g.entityId + 1) = none := by
    rw [pidAt, h.indexed.lookup_next]
    rfl
  refine ⟨h.indexed.store e, fun id id' pid => ?_, fun id => ?_⟩
  · rw [pidAt_create, pidAt_create]
    intro hid hid'
    split at hid
    · split at hid'
      · rename_i heq heq'
        rw [heq, heq']
      · exact absurd hid' (hnone id' pid hid)
    · split at hid'
      · exact absurd hid (hnone id pid hid')
      · exact h.unique id id' pid hid hid'
  · show (if e.pid? = some g.mainRPid then some (g.entityId + 1) else g.mainRole) = some id ↔ _
    rw [pidAt_create]
    split
    · -- the object is the new main role
      rename_i hmain
      split
      · rename_i hid
        rw [hid]
        exact iff_of_true rfl hmain
      · rename_i hid
        refine iff_of_false (fun heq => hid (Option.some.inj heq).symm) ?_
        exact hnone id _ hmain
    · rename_i hmain
      split
      · rename_i hid
        refine iff_of_false (fun hrole => ?_) hmain
        have hat := (h.mainRole id).mp hrole
        rw [hid, hnew] at hat
        cases hat
      · exact h.mainRole id

/-- An object is taken out. -/
theorem unstore (h : g.Consistent) {id : ℕ} {e : Entity} (he : g.objects.lookup id = some e) :
    (g.unstore id e).Consistent := by
  have hat : g.pidAt id = e.pid? := by
    rw [pidAt, he]
    rfl
  refine ⟨h.indexed.unstore he, fun id₁ id₂ pid => ?_, fun id' => ?_⟩
  · rw [pidAt_unstore, pidAt_unstore]
    intro h₁ h₂
    split at h₁
    · cases h₁
    · split at h₂
      · cases h₂
      · exact h.unique id₁ id₂ pid h₁ h₂
  · show (if e.pid? = some g.mainRPid then none else g.mainRole) = some id' ↔ _
    rw [pidAt_unstore]
    split
    · -- the object was the main role, and no other has its pid
      rename_i hmain
      refine iff_of_false (fun heq => Option.some_ne_none _ heq.symm) ?_
      split
      · exact fun heq => Option.some_ne_none _ heq.symm
      · rename_i hid
        exact fun heq => hid (h.unique _ _ _ heq (hat.trans hmain))
    · rename_i hmain
      split
      · rename_i hid
        refine iff_of_false (fun hrole => ?_) fun heq => Option.some_ne_none _ heq.symm
        rw [h.mainRole, hid, hat] at hrole
        exact hmain hrole
      · exact h.mainRole id'

/-- An object of the same type and pid is written back. -/
theorem put (h : g.Consistent) {id : ℕ} {e e' : Entity} (he : g.objects.lookup id = some e)
    (htype : e'.type = e.type) (hpid : e'.pid? = e.pid?) : (g.put id e').Consistent := by
  refine ⟨h.indexed.put he htype, fun id₁ id₂ pid => ?_, fun id' => ?_⟩
  · rw [pidAt_put he hpid, pidAt_put he hpid]
    exact h.unique id₁ id₂ pid
  · rw [pidAt_put he hpid]
    exact h.mainRole id'

end Consistent

end GameObj

/-! ## The steps -/

/-- What `CEnemyObj.__init__` makes. -/
structure NewEnemy (e : Entity) : Prop where
  /-- `m_RewardScore` -/
  body : e.body = .enemy 10
  /-- `m_Blood` -/
  blood : e.blood = 1
  /-- `m_Dir` -/
  dir : e.dir = some dirDown
  /-- `m_Pos[1]` -/
  z : 1 ≤ e.z
  /-- `m_Speed` -/
  speed : 20 ≤ e.speed

/-- What `CPlayerObj.__init__` makes. -/
structure NewPlayer (pid : Pid) (e : Entity) : Prop where
  /-- `m_Type` -/
  type : e.type = .player
  /-- `m_Pid` -/
  pid : e.pid? = some pid
  /-- `m_Blood` -/
  blood : e.blood = 3000

/-- A bullet meets an enemy, or an enemy a player. -/
def Foes (e₁ e₂ : Entity) : Prop :=
  e₁.type = .bullet ∧ e₂.type = .enemy ∨ e₁.type = .enemy ∧ e₂.type = .player

/-- The entry lets a player enter at places of `N` only. -/
def Placed (N : ℤ → ℤ → Prop) (ctrl : CtrlInfo) : Prop :=
  ctrl.action = some actionEnter →
    ∀ args x z, ctrl.enterInfo = some args → args.pos = some ⟨some x, some z⟩ → N x z

/-- What the operations of a client can do, when the players who enter do so at places of `N`. -/
inductive EntityStep (N : ℤ → ℤ → Prop) : GameObj γ → EntityOp → GameObj γ → Prop
  /-- A draw. -/
  | drew {g : GameObj γ} (gen : γ) : EntityStep N g .drew { g with gen := gen }
  /-- A seed. -/
  | seeded {g : GameObj γ} (rndSeed : Option ℕ) (gen : γ) :
      EntityStep N g .seeded { g with rndSeed := rndSeed, gen := gen }
  /-- A frame begins. -/
  | began {g : GameObj γ} (gsFrameNo : ℕ) : EntityStep N g .began { g with gsFrameNo := gsFrameNo }
  /-- An enemy is created. -/
  | spawned {g : GameObj γ} {e : Entity} (h : NewEnemy e) :
      EntityStep N g (.created (g.entityId + 1) e) (g.create e)
  /-- A player fires a bullet. -/
  | fired {g : GameObj γ} {id : ℕ} {p : Entity} (h : g.objects.lookup id = some p)
      (htype : p.type = .player) : EntityStep N g (.created (g.entityId + 1) (GameObj.initBullet p.x p.z))
        (g.create (GameObj.initBullet p.x p.z))
  /-- A player enters, who has no object. -/
  | entered {g : GameObj γ} {pid : Pid} {e : Entity} (h : NewPlayer pid e) (hN : N e.x e.z)
      (hnone : ∀ id, g.pidAt id ≠ some pid) : EntityStep N g (.created (g.entityId + 1) e) (g.create e)
  /-- An object that is alive is destroyed. -/
  | destroyed {g : GameObj γ} {id : ℕ} {e : Entity} (h : g.objects.lookup id = some e)
      (halive : e.isDead = false) : EntityStep N g (.destroyed id e) (g.unstore id e)
  /-- An object that is dead or out of the screen is removed. -/
  | removed {g : GameObj γ} {id : ℕ} {e : Entity} (h : g.objects.lookup id = some e)
      (hgone : (e.isDead || e.isOutScreen) = true) :
      EntityStep N g (.removed id e) ((g.rewarded e).unstore id e)
  /-- An object moves. -/
  | moved {g : GameObj γ} {id : ℕ} {e : Entity} (h : g.objects.lookup id = some e)
      (hstays : (e.isDead || e.isOutScreen) = false) :
      EntityStep N g (.wrote id e.advance) (g.put id e.advance)
  /-- A player turns, or counts its shots. -/
  | turned {g : GameObj γ} {id : ℕ} {e e' : Entity} (h : g.objects.lookup id = some e)
      (hplayer : e.type = .player) (hpos : e'.x = e.x ∧ e'.z = e.z) (htype : e'.type = e.type)
      (hpid : e'.pid? = e.pid?) (hblood : e'.blood = e.blood) : EntityStep N g (.wrote id e') (g.put id e')
  /-- Two objects that are alive collide. -/
  | hit {g : GameObj γ} {id₁ id₂ : ℕ} {e₁ e₂ : Entity} (h₁ : g.objects.lookup id₁ = some e₁)
      (h₂ : g.objects.lookup id₂ = some e₂) (halive₁ : e₁.isDead = false) (halive₂ : e₂.isDead = false)
      (hfoes : Foes e₁ e₂) :
      EntityStep N g (.hit id₁ id₂ e₁ e₂) ((g.put id₁ e₁.onHit).put id₂ e₂.onHit)
  /-- `update_ctrl_once` ends without a dead object. -/
  | ctrlOnce {g : GameObj γ} (h : g.DeadIn []) : EntityStep N g .ctrlOnce g

/-- Objects of different types are different. -/
theorem Foes.ne {g : GameObj γ} {id₁ id₂ : ℕ} {e₁ e₂ : Entity} (h : Foes e₁ e₂)
    (h₁ : g.objects.lookup id₁ = some e₁) (h₂ : g.objects.lookup id₂ = some e₂) : id₂ ≠ id₁ := by
  rintro rfl
  obtain rfl := Option.some.inj (h₁.symm.trans h₂)
  rcases h with ⟨h, h'⟩ | ⟨h, h'⟩
  · rw [h] at h'
    cases h'
  · rw [h] at h'
    cases h'

/-- So the second is still there when the first has been written. -/
theorem Foes.lookup_put {g : GameObj γ} {id₁ id₂ : ℕ} {e₁ e₂ : Entity} (h : Foes e₁ e₂)
    (h₁ : g.objects.lookup id₁ = some e₁) (h₂ : g.objects.lookup id₂ = some e₂) (e : Entity) :
    (g.put id₁ e).objects.lookup id₂ = some e₂ := by
  rw [GameObj.lookup_put h₁, if_neg (h.ne h₁ h₂)]
  exact h₂

/-- **Every operation keeps a game consistent.** -/
theorem EntityStep.consistent {N : ℤ → ℤ → Prop} {g g' : GameObj γ} {o : EntityOp}
    (h : EntityStep N g o g') (hg : g.Consistent) : g'.Consistent := by
  cases h with
  | drew | seeded | began => exact hg.congr rfl rfl (fun t => by cases t <;> rfl) rfl rfl rfl
  | spawned h =>
      refine hg.create fun id pid hpid => ?_
      rw [Entity.pid?, h.body] at hpid
      cases hpid
  | fired => exact hg.create fun id pid hpid => absurd hpid.symm (Option.some_ne_none pid)
  | entered h _ hnone =>
      refine hg.create fun id pid hpid => ?_
      obtain rfl := Option.some.inj (h.pid.symm.trans hpid)
      exact hnone id
  | destroyed h => exact hg.unstore h
  | @removed id e h _ =>
      obtain ⟨hall, hdict, hid, hrole, hpid⟩ := g.rewarded_toIndex e
      have hrewarded := hg.congr (g.objects_rewarded e) hall hdict hid hrole hpid
      exact hrewarded.unstore (by rw [GameObj.objects_rewarded]; exact h)
  | moved h => exact hg.put h (Entity.type_advance _) (Entity.pid?_advance _)
  | turned h _ _ htype hpid => exact hg.put h htype hpid
  | hit h₁ h₂ _ _ hfoes =>
      exact (hg.put h₁ (Entity.type_onHit _) rfl).put (hfoes.lookup_put h₁ h₂ _) (Entity.type_onHit _) rfl
  | ctrlOnce => exact hg

/-! ## Which operations a part of a frame makes -/

/-- An operation on the player of `pid`. -/
def EntityOp.Concerns (pid : Pid) : EntityOp → Prop
  | .created _ obj | .destroyed _ obj | .wrote _ obj => obj.pid? = some pid
  | _ => False

/-- An operation of `update_ctrl_once`, but its end: it creates no player. -/
def EntityOp.InTurn : EntityOp → Prop
  | .created _ obj => obj.pid? = none
  | .drew | .removed .. | .wrote .. | .hit .. => True
  | _ => False

/-- What an entry of a frame can do: only `ENTER` and `LEAVE` do more than write to the player. -/
structure EntryStep (N : ℤ → ℤ → Prop) (pid : Pid) (action : ℤ) (g : GameObj γ) (o : EntityOp)
    (g' : GameObj γ) : Prop where
  /-- It is a step. -/
  step : EntityStep N g o g'
  /-- It concerns the sender. -/
  concerns : o.Concerns pid
  /-- The others write. -/
  writes : action ≠ actionEnter → action ≠ actionLeave → ∃ id obj, o = .wrote id obj

/-- What the end of a game can do: destroy bullets and enemies. -/
def MobStep (N : ℤ → ℤ → Prop) (g : GameObj γ) (o : EntityOp) (g' : GameObj γ) : Prop :=
  EntityStep N g o g' ∧ ∃ id e, o = .destroyed id e ∧ e.pid? = none

end FrameSync.Client
