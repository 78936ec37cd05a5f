import FrameSync.Client.UpdateLogic
import FrameSync.Foundations.Observed

/-! # The operations on the entities

The methods of `CGameObj` once more, with the operations on the entities that they make, one by one.
`run_updateFrame` and `run_finish` say that nothing else has changed: the program is the one of
`GameObj`. -/

namespace FrameSync.Client

variable {γ : Type}

/-- An operation of a client. The two `on_hit` of a collision are one operation, and so are the score
for an object and its removal: the dicts do not change in between. -/
inductive EntityOp
  /-- `RandomInt` -/
  | drew
  /-- `SetRndSeed` -/
  | seeded
  /-- `update_frame` sets `m_GSFrameNo`. -/
  | began
  /-- `create_entity` -/
  | created (id : ℕ) (obj : Entity)
  /-- `destroy_entity`, called by `update_frame` or `update_logic`. -/
  | destroyed (id : ℕ) (obj : Entity)
  /-- `destroy_entity` of an object that is dead or out of the screen, called by its `update`, with the
  score for an enemy. -/
  | removed (id : ℕ) (obj : Entity)
  /-- Fields of an object are written. -/
  | wrote (id : ℕ) (obj : Entity)
  /-- `on_hit` of two objects that collide; before it they were `obj₁` and `obj₂`. -/
  | hit (id₁ id₂ : ℕ) (obj₁ obj₂ : Entity)
  /-- `update_ctrl_once` ends. -/
  | ctrlOnce
  deriving Repr, DecidableEq

/-- A method of `CGameObj` with its operations. -/
abbrev Observing (γ α : Type) := Observed (GameObj γ) PyError EntityOp α

namespace Observing

open GameObj Observed

/-! ## The methods -/

section Random

variable [PyRandom γ]

/-- `SetRndSeed` -/
def setRndSeed (seed : ℕ) : Observing γ Unit := op (GameObj.setRndSeed seed) fun _ => .seeded

/-- `RandomInt` -/
def randomInt (lo hi : ℤ) : Observing γ ℤ := op (GameObj.randomInt lo hi) fun _ => .drew

/-- `RandomList` -/
def randomList {α : Type} (lst : List α) : Observing γ α := do
  let pos ← randomInt 1 lst.length
  reads (nth lst pos)

/-- `CEnemyObj.__init__` -/
def initEnemy : Observing γ Entity := do
  let width ← randomInt 30 50
  let height ← randomInt 30 50
  let color ← randomList enemyColors
  let x ← randomInt 1 (screenWidth - 1)
  let z ← randomInt 1 50
  let speed ← randomInt 20 60
  pure { x, z, width, height, color, speed, dir := some dirDown, blood := 1, body := .enemy 10 }

end Random

/-- `CGameObj.create_entity` -/
def createEntity (init : Observing γ Entity) : Observing γ Unit := do
  let obj ← init
  op (do let id ← newID; modify (store id obj)) fun g => .created g.entityId obj

/-- `CGameObj.destroy_entity` -/
def destroyEntity (id : ℕ) : Observing γ Unit := do
  let obj ← reads (object id)
  op (do
      let g ← get
      if id ∈ (g.dictOf obj.type).keys ∧ id ∈ g.allEntityObjects.keys then modify (unstore id obj)
      else throw .keyError) fun _ => .destroyed id obj

/-- Write an object back. -/
def putObject (id : ℕ) (obj : Entity) : Observing γ Unit :=
  op (GameObj.putObject id obj) fun _ => .wrote id obj

/-- A bullet every fifth time. -/
def shoot (obj : Entity) (ackLoopCnt : ℕ) : Observing γ Unit :=
  if ackLoopCnt % 5 = 0 then createEntity (reads (pure (initBullet obj.x obj.z))) else pure ()

/-- `on_update` -/
def onUpdate (id : ℕ) (obj : Entity) : Observing γ Unit :=
  match obj.body with
  | .player pid name true ackLoopCnt => do
      shoot obj ackLoopCnt
      putObject id { obj with body := .player pid name true (ackLoopCnt + 1) }
  | _ => pure ()

/-- The first half of `CBaseObj.update`. -/
def remove (id : ℕ) (obj : Entity) : Observing γ Unit :=
  op (GameObj.remove id obj) fun _ => .removed id obj

/-- The second half of `CBaseObj.update`. -/
def move (id : ℕ) (obj : Entity) : Observing γ Unit := do
  putObject id obj
  onUpdate id obj

/-- `CBaseObj.update` -/
def update (id : ℕ) : Observing γ Unit := do
  let obj ← reads (object id)
  if obj.isDead || obj.isOutScreen then remove id obj else move id obj.advance

/-- Both objects are hit. -/
def hitBoth (id₁ id₂ : ℕ) (obj₁ obj₂ : Entity) : Observing γ Unit :=
  op (GameObj.hitBoth id₁ id₂ obj₁ obj₂) fun _ => .hit id₁ id₂ obj₁ obj₂

/-- The body of both collision loops. -/
def collidePair (id₁ id₂ : ℕ) : Observing γ Unit := do
  let obj₁ ← reads (object id₁)
  let obj₂ ← reads (object id₂)
  if !obj₁.isDead && !obj₂.isDead && obj₁.is2RectsCross obj₂ then hitBoth id₁ id₂ obj₁ obj₂
  else pure ()

section Frame

variable [PyRandom γ] [DictOrder ℕ]

/-- A collision loop. -/
def collide (outer inner : GameObj γ → PyDict ℕ) : Observing γ Unit := do
  let g ← reads get
  (outer g).items.forM fun id₁ => do
    let g ← reads get
    (inner g).items.forM fun id₂ => collidePair id₁ id₂

/-- An enemy, one time in twenty. -/
def spawnEnemy : Observing γ Unit := do
  let n ← randomInt 1 20
  if n ≤ 1 then createEntity initEnemy else pure ()

/-- The last loop of `update_ctrl_once`. -/
def updateAll : Observing γ Unit := do
  let g ← reads get
  g.allEntityObjects.items.forM update

/-- `CGameObj.update_ctrl_once` -/
def updateCtrlOnce : Observing γ Unit := do
  spawnEnemy
  collide (fun g => g.bulletObjects) fun g => g.enemyObjects
  collide (fun g => g.enemyObjects) fun g => g.playerObjects
  updateAll
  op (pure ()) fun _ => .ctrlOnce

/-- Destroy the player of `pid`, if there is one. -/
def dropPlayer (pid : Pid) : Observing γ Unit := do
  let g ← reads get
  match g.getPlayer pid with
  | some id => destroyEntity id
  | none => pure ()

/-- Call a handler of the player of `pid`, if there is one. -/
def handle {α : Type} (pid : Pid) (read : Method γ α) (handler : α → Entity → Entity) :
    Observing γ Unit := do
  let g ← reads get
  match g.getPlayer pid with
  | some id => do
      let obj ← reads (object id)
      let a ← reads read
      putObject id (handler a obj)
  | none => pure ()

/-- The `ACTION_ENTER` branch of `update_frame`. -/
def enter (pid : Pid) (ctrl : CtrlInfo) : Observing γ Unit := do
  dropPlayer pid
  let args ← reads (key ctrl.enterInfo)
  createEntity (reads (initPlayer pid args))

/-- The branches of `update_frame` on the action of an entry. -/
def act (ctrl : CtrlInfo) : Observing γ Unit := do
  let pid ← reads (key ctrl.pid)
  let action ← reads (key ctrl.action)
  if action = actionEnter then enter pid ctrl
  else if action = actionLeave then dropPlayer pid
  else if action = actionAttack then
    handle pid (attackArgs ctrl) fun status obj => obj.handleAttack status
  else if action = actionMove then
    handle pid (moveArgs ctrl) fun args obj => obj.handleMove args.1 args.2
  else pure ()

/-- One turn of the loop of `update_frame`. -/
def updateEntry (ctrl : CtrlInfo) : Observing γ Unit := do
  act ctrl
  updateCtrlOnce

/-- `CGameObj.update_frame` -/
def updateFrame (msg : FrameInfo) : Observing γ Unit := do
  op (modify fun g => { g with gsFrameNo := msg.frameNumber }) fun _ => .began
  updateCtrlOnce
  msg.ctrlData.forM updateEntry

/-- The end of `update_logic` when the game is over. -/
def clearScreen : Observing γ Unit := do
  let g ← reads get
  g.bulletObjects.items.forM destroyEntity
  let g ← reads get
  g.enemyObjects.items.forM destroyEntity

/-- The end of `update_logic`. -/
def finish : Observing γ Unit := do
  let g ← reads get
  if g.gameOver then clearScreen else pure ()

/-- The calls on the simulation. -/
def call : Action → Observing γ Unit
  | .nothing => pure ()
  | .seed rndseed => setRndSeed rndseed
  | .frame data => updateFrame data
  | .finish => finish

end Frame

/-! ## They are the methods of `GameObj` -/

@[simp] theorem run_createEntity (init : Observing γ Entity) :
    (createEntity init).run = GameObj.createEntity init.run := rfl

@[simp] theorem run_destroyEntity (id : ℕ) :
    (destroyEntity id : Observing γ Unit).run = GameObj.destroyEntity id := rfl

@[simp] theorem run_shoot (obj : Entity) (ackLoopCnt : ℕ) :
    (shoot obj ackLoopCnt : Observing γ Unit).run = GameObj.shoot obj ackLoopCnt := by
  rw [shoot, GameObj.shoot, run_ite]
  rfl

@[simp] theorem run_onUpdate (id : ℕ) (obj : Entity) :
    (onUpdate id obj : Observing γ Unit).run = GameObj.onUpdate id obj := by
  obtain ⟨x, z, width, height, color, speed, dir, blood, body⟩ := obj
  cases body with
  | enemy | bullet => rfl
  | player pid name inAttack ackLoopCnt =>
      cases inAttack with
      | false => rfl
      | true =>
          show (shoot _ ackLoopCnt).run >>= _ = _
          rw [run_shoot]
          rfl

@[simp] theorem run_update (id : ℕ) : (update id : Observing γ Unit).run = GameObj.update id := by
  rw [update, GameObj.update, run_bind]
  congr 1
  funext obj
  rw [run_ite, move, run_bind, run_onUpdate]
  rfl

@[simp] theorem run_collidePair (id₁ id₂ : ℕ) :
    (collidePair id₁ id₂ : Observing γ Unit).run = GameObj.collidePair id₁ id₂ := by
  rw [collidePair, GameObj.collidePair, run_bind]
  congr 1
  funext obj₁
  rw [run_bind]
  congr 1
  funext obj₂
  rw [run_ite]
  rfl

section Frame

variable [PyRandom γ] [DictOrder ℕ]

omit [PyRandom γ] in
@[simp] theorem run_collide (outer inner : GameObj γ → PyDict ℕ) :
    (collide outer inner).run = GameObj.collide outer inner := by
  rw [collide, GameObj.collide, run_bind]
  congr 1
  funext g
  rw [run_forM]
  congr 1
  funext id₁
  rw [run_bind]
  congr 1
  funext g
  rw [run_forM]
  congr 1
  funext id₂
  rw [run_collidePair]

omit [DictOrder ℕ] in
@[simp] theorem run_initEnemy : (initEnemy : Observing γ Entity).run = GameObj.initEnemy := rfl

omit [DictOrder ℕ] in
@[simp] theorem run_spawnEnemy : (spawnEnemy : Observing γ Unit).run = GameObj.spawnEnemy := by
  rw [spawnEnemy, GameObj.spawnEnemy, run_bind]
  congr 1
  funext n
  rw [run_ite, run_createEntity, run_initEnemy]
  rfl

omit [PyRandom γ] in
@[simp] theorem run_updateAll : (updateAll : Observing γ Unit).run = GameObj.updateAll := by
  rw [updateAll, GameObj.updateAll, run_bind]
  congr 1
  funext g
  rw [run_forM]
  congr 1
  funext id
  rw [run_update]

@[simp] theorem run_updateCtrlOnce :
    (updateCtrlOnce : Observing γ Unit).run = GameObj.updateCtrlOnce := by
  simp only [updateCtrlOnce, run_bind, run_spawnEnemy, run_collide, run_updateAll, run_op,
    bind_pure_unit]
  rfl

omit [PyRandom γ] in
@[simp] theorem run_dropPlayer (pid : Pid) :
    (dropPlayer pid : Observing γ Unit).run = GameObj.dropPlayer pid := by
  rw [dropPlayer, GameObj.dropPlayer, run_bind]
  congr 1
  funext g
  cases g.getPlayer pid with
  | none => rfl
  | some id => rfl

omit [PyRandom γ] in
@[simp] theorem run_handle {α : Type} (pid : Pid) (read : Method γ α) (handler : α → Entity → Entity) :
    (handle pid read handler).run = GameObj.handle pid read handler := by
  rw [handle, GameObj.handle, run_bind]
  congr 1
  funext g
  cases g.getPlayer pid with
  | none => rfl
  | some id => rfl

omit [PyRandom γ] in
@[simp] theorem run_act (ctrl : CtrlInfo) : (act ctrl : Observing γ Unit).run = GameObj.act ctrl := by
  rw [act, GameObj.act, run_bind]
  congr 1
  funext pid
  rw [run_bind]
  congr 1
  funext action
  simp only [run_ite, run_dropPlayer, run_handle, enter, GameObj.enter, run_bind, run_createEntity]
  rfl

@[simp] theorem run_updateEntry (ctrl : CtrlInfo) :
    (updateEntry ctrl : Observing γ Unit).run = GameObj.updateEntry ctrl := by
  rw [updateEntry, GameObj.updateEntry, run_bind, run_act, run_updateCtrlOnce]

/-- **The observed `update_frame` is `update_frame`.** -/
@[simp] theorem run_updateFrame (msg : FrameInfo) :
    (updateFrame msg : Observing γ Unit).run = GameObj.updateFrame msg := by
  simp only [updateFrame, run_bind, run_op, run_updateCtrlOnce, run_forM, run_updateEntry]
  rfl

omit [PyRandom γ] in
/-- **The observed end of `update_logic` is its end.** -/
@[simp] theorem run_finish : (finish : Observing γ Unit).run = GameObj.finish := by
  simp only [finish, clearScreen, run_bind, run_ite, run_forM, run_destroyEntity]
  rfl

/-- What a client calls is what its state machine calls. -/
@[simp] theorem run_call (a : Action) : (call a : Observing γ Unit).run = a.call := by
  cases a with
  | nothing => rfl
  | seed rndseed => rfl
  | frame data => exact run_updateFrame data
  | finish => exact run_finish

end Frame

end Observing

end FrameSync.Client
