import FrameSync.Client.Entity
import FrameSync.Client.Random
import FrameSync.Foundations.Program
import FrameSync.Foundations.PyDict
import FrameSync.Foundations.Table

/-! # The client's simulation

`CGameObj` of `game.py`: creating, updating and destroying entities, and `update_frame`, which
applies one frame of the server. The dicts are `PyDict`s of object ids, and `objects` holds the
objects that are stored in one of them. The module `random` and the order of dict iteration are
parameters. A raised Python error ends the client. -/

namespace FrameSync.Client

/-- The Python errors the simulation may raise. -/
inductive PyError
  /-- A key that is not in a dict. -/
  | keyError
  /-- A failed `assert`. -/
  | assertionError
  /-- A list index out of range. -/
  | indexError
  /-- A method of an object that was released; see `object`. -/
  | released
  deriving Repr, DecidableEq

/-- The simulation of one client, without the fields that depend on who plays: the globals
`GAME_RND_SEED` and `ENTITY_ID`, the state of `random`, and fields of `CGameObj`. -/
@[ext] structure Sim (γ : Type) where
  /-- `GAME_RND_SEED` -/
  rndSeed : Option ℕ
  /-- The state of the module `random`. -/
  gen : γ
  /-- `ENTITY_ID` -/
  entityId : ℕ
  /-- The objects that are in some dict, by `m_ID`. -/
  objects : AList fun _ : ℕ => Entity
  /-- The keys of `m_AllEntityObjects`. -/
  allEntityObjects : PyDict ℕ
  /-- The keys of `m_PlayerObjects`. -/
  playerObjects : PyDict ℕ
  /-- The keys of `m_EnemyObjects`. -/
  enemyObjects : PyDict ℕ
  /-- The keys of `m_BulletObjects`. -/
  bulletObjects : PyDict ℕ
  /-- `m_CurScore` -/
  curScore : ℤ
  /-- `m_GameOver` -/
  gameOver : Bool
  /-- `m_GSFrameNo` -/
  gsFrameNo : ℕ

/-- `CGameObj`, as far as the simulation reads and writes it. -/
@[ext] structure GameObj (γ : Type) extends Sim γ where
  /-- `m_MainRPid` -/
  mainRPid : Pid
  /-- `m_MainRole`, the id of the object. -/
  mainRole : Option ℕ

/-- `m_GoalScore` -/
def goalScore : ℤ := 3000

/-- `CGameObj.__init__`, with the generator state the process starts with. -/
def GameObj.init {γ : Type} (pid : Pid) (gen : γ) : GameObj γ where
  rndSeed := none
  gen := gen
  entityId := 0
  objects := ∅
  allEntityObjects := .empty
  playerObjects := .empty
  enemyObjects := .empty
  bulletObjects := .empty
  curScore := 0
  gameOver := false
  gsFrameNo := 0
  mainRPid := pid
  mainRole := none

/-- A method of `CGameObj`. -/
abbrev Method (γ α : Type) := Program (GameObj γ) PyError α

namespace GameObj

variable {γ : Type}

/-! ## Reading -/

/-- The value of a key that may be absent. -/
def key {α : Type} (v : Option α) : Method γ α :=
  match v with
  | some a => pure a
  | none => throw .keyError

/-- The object with an id. The source iterates over copies of its dicts and would go on with an
object that is in none of them any more; the model raises `released` there, and no run does. -/
def object (id : ℕ) : Method γ Entity := do
  let g ← get
  match g.objects.lookup id with
  | some e => pure e
  | none => throw .released

/-- Write an object back. -/
def putObject (id : ℕ) (e : Entity) : Method γ Unit :=
  modify fun g => { g with objects := g.objects.replace id e }

section Random

variable [PyRandom γ]

/-- `SetRndSeed` -/
def setRndSeed (seed : ℕ) : Method γ Unit :=
  modify fun g => { g with rndSeed := some seed, gen := PyRandom.seed seed }

/-- `RandomInt`. The assertion fails for `None` and for 0. -/
def randomInt (lo hi : ℤ) : Method γ ℤ := do
  let g ← get
  if g.rndSeed = none ∨ g.rndSeed = some 0 then throw .assertionError
  else do
    set { g with gen := (PyRandom.randint lo hi g.gen).2 }
    pure (PyRandom.randint lo hi g.gen).1

/-- The element of a list at a position counted from 1. -/
def nth {α : Type} (lst : List α) (pos : ℤ) : Method γ α :=
  match lst[(pos - 1).toNat]? with
  | some a => pure a
  | none => throw .indexError

/-- `RandomList`, for a nonempty list. -/
def randomList {α : Type} (lst : List α) : Method γ α := do
  let pos ← randomInt 1 lst.length
  nth lst pos

end Random

/-! ## Creating and destroying -/

/-- `CBaseObj.__init__`: the next id. -/
def newID : Method γ ℕ := do
  modify fun g => { g with entityId := g.entityId + 1 }
  let g ← get
  pure g.entityId

/-- `CEnemyObj.__init__` -/
def initEnemy [PyRandom γ] : Method γ Entity := do
  let width ← randomInt 30 50
  let height ← randomInt 30 50
  let color ← randomList enemyColors
  let x ← randomInt 1 (screenWidth - 1)
  let z ← randomInt 1 50
  let speed ← randomInt 20 60
  pure { x, z, width, height, color, speed, dir := some dirDown, blood := 1, body := .enemy 10 }

/-- `CBulletObj.__init__` at a position. -/
def initBullet (x z : ℤ) : Entity where
  x := x
  z := z
  width := 15
  height := 15
  color := colorYellow
  speed := 15
  dir := some dirUp
  blood := 1
  body := .bullet

/-- `CPlayerObj.__init__`; `args` is the `enter_info` of an entry, with `pid` put into it. -/
def initPlayer (pid : Pid) (args : ActionEnter) : Method γ Entity := do
  let name ← key args.name
  let color ← key args.color
  let r ← key color.r
  let g ← key color.g
  let b ← key color.b
  let pos ← key args.pos
  let x ← key pos.x
  let z ← key pos.z
  pure { x, z, width := 40, height := 40, color := (r, g, b), speed := 30, dir := none,
         blood := 3000, body := .player pid name false 0 }

/-- Store a new object under its id in the dict of its type, note the main role, and store it in
`m_AllEntityObjects`. -/
def store (id : ℕ) (obj : Entity) (g : GameObj γ) : GameObj γ :=
  { g with
    objects := g.objects.insert id obj
    playerObjects := if obj.type = .player then g.playerObjects.insert id else g.playerObjects
    enemyObjects := if obj.type = .enemy then g.enemyObjects.insert id else g.enemyObjects
    bulletObjects := if obj.type = .bullet then g.bulletObjects.insert id else g.bulletObjects
    mainRole := if obj.pid? = some g.mainRPid then some id else g.mainRole
    allEntityObjects := g.allEntityObjects.insert id }

/-- `CGameObj.create_entity`, given the constructor of the type. -/
def createEntity (init : Method γ Entity) : Method γ Unit := do
  let obj ← init
  let id ← newID
  modify (store id obj)

/-- Take an object out of the dict of its type, of the main role and of `m_AllEntityObjects`. -/
def unstore (id : ℕ) (obj : Entity) (g : GameObj γ) : GameObj γ :=
  { g with
    objects := g.objects.erase id
    playerObjects := if obj.type = .player then g.playerObjects.delete id else g.playerObjects
    enemyObjects := if obj.type = .enemy then g.enemyObjects.delete id else g.enemyObjects
    bulletObjects := if obj.type = .bullet then g.bulletObjects.delete id else g.bulletObjects
    mainRole := if obj.pid? = some g.mainRPid then none else g.mainRole
    allEntityObjects := g.allEntityObjects.delete id }

/-- The dict of a type. -/
def dictOf (g : GameObj γ) : EntityType → PyDict ℕ
  | .player => g.playerObjects
  | .enemy => g.enemyObjects
  | .bullet => g.bulletObjects

/-- `CGameObj.destroy_entity`. Deleting a key that is not in its dict raises. -/
def destroyEntity (id : ℕ) : Method γ Unit := do
  let obj ← object id
  let g ← get
  if id ∈ (g.dictOf obj.type).keys ∧ id ∈ g.allEntityObjects.keys then modify (unstore id obj)
  else throw .keyError

/-! ## Updating -/

/-- `CGameObj.add_score` -/
def addScore (score : ℤ) : Method γ Unit :=
  modify fun g =>
    { g with
      curScore := g.curScore + score
      gameOver := g.gameOver || decide (goalScore ≤ g.curScore + score) }

/-- The reward for an enemy that died; nothing for other objects. -/
def reward (obj : Entity) : Method γ Unit :=
  match obj.body with
  | .enemy rewardScore => if obj.isDead then addScore rewardScore else pure ()
  | _ => pure ()

/-- A bullet every fifth time, at the player's position. -/
def shoot (obj : Entity) (ackLoopCnt : ℕ) : Method γ Unit :=
  if ackLoopCnt % 5 = 0 then createEntity (pure (initBullet obj.x obj.z)) else pure ()

/-- `on_update` -/
def onUpdate (id : ℕ) (obj : Entity) : Method γ Unit :=
  match obj.body with
  | .player pid name true ackLoopCnt => do
      shoot obj ackLoopCnt
      putObject id { obj with body := .player pid name true (ackLoopCnt + 1) }
  | _ => pure ()

/-- The first half of `CBaseObj.update`, for an object that is dead or out of the screen. -/
def remove (id : ℕ) (obj : Entity) : Method γ Unit := do
  reward obj
  destroyEntity id

/-- The second half of `CBaseObj.update`. -/
def move (id : ℕ) (obj : Entity) : Method γ Unit := do
  putObject id obj
  onUpdate id obj

/-- `CBaseObj.update` -/
def update (id : ℕ) : Method γ Unit := do
  let obj ← object id
  if obj.isDead || obj.isOutScreen then remove id obj else move id obj.advance

/-- Both objects are hit. -/
def hitBoth (id₁ id₂ : ℕ) (obj₁ obj₂ : Entity) : Method γ Unit := do
  putObject id₁ obj₁.onHit
  putObject id₂ obj₂.onHit

/-- The body of both collision loops. -/
def collidePair (id₁ id₂ : ℕ) : Method γ Unit := do
  let obj₁ ← object id₁
  let obj₂ ← object id₂
  if !obj₁.isDead && !obj₂.isDead && obj₁.is2RectsCross obj₂ then hitBoth id₁ id₂ obj₁ obj₂
  else pure ()

section Frame

variable [PyRandom γ] [DictOrder ℕ]

/-- A collision loop over two dicts; the inner one is copied for each element of the outer. -/
def collide (outer inner : GameObj γ → PyDict ℕ) : Method γ Unit := do
  let g ← get
  (outer g).items.forM fun id₁ => do
    let g ← get
    (inner g).items.forM fun id₂ => collidePair id₁ id₂

/-- An enemy, one time in twenty. -/
def spawnEnemy : Method γ Unit := do
  let n ← randomInt 1 20
  if n ≤ 1 then createEntity initEnemy else pure ()

/-- The last loop of `update_ctrl_once`. -/
def updateAll : Method γ Unit := do
  let g ← get
  g.allEntityObjects.items.forM update

/-- `CGameObj.update_ctrl_once` -/
def updateCtrlOnce : Method γ Unit := do
  spawnEnemy
  collide (fun g => g.bulletObjects) fun g => g.enemyObjects
  collide (fun g => g.enemyObjects) fun g => g.playerObjects
  updateAll

/-- `CGameObj.get_player`: the first object with that pid. -/
def getPlayer (g : GameObj γ) (pid : Pid) : Option ℕ :=
  g.playerObjects.items.find? fun id => (g.objects.lookup id).bind Entity.pid? = some pid

/-- Destroy the player of `pid`, if there is one. -/
def dropPlayer (pid : Pid) : Method γ Unit := do
  let g ← get
  match g.getPlayer pid with
  | some id => destroyEntity id
  | none => pure ()

/-- Call a handler of the player of `pid`, if there is one, with what `read` reads from the entry. -/
def handle {α : Type} (pid : Pid) (read : Method γ α) (handler : α → Entity → Entity) :
    Method γ Unit := do
  let g ← get
  match g.getPlayer pid with
  | some id => do
      let obj ← object id
      let a ← read
      putObject id (handler a obj)
  | none => pure ()

/-- `ctrl["attack_info"]["status"]` -/
def attackArgs (ctrl : CtrlInfo) : Method γ ℤ := do
  let info ← key ctrl.attackInfo
  key info.status

/-- `ctrl["move_info"]["dir"], ctrl["move_info"]["status"]` -/
def moveArgs (ctrl : CtrlInfo) : Method γ (ℤ × ℤ) := do
  let info ← key ctrl.moveInfo
  let dir ← key info.dir
  let status ← key info.status
  pure (dir, status)

/-- The `ACTION_ENTER` branch of `update_frame`. -/
def enter (pid : Pid) (ctrl : CtrlInfo) : Method γ Unit := do
  dropPlayer pid
  let args ← key ctrl.enterInfo
  createEntity (initPlayer pid args)

/-- The branches of `update_frame` on the action of an entry. -/
def act (ctrl : CtrlInfo) : Method γ Unit := do
  let pid ← key ctrl.pid
  let action ← key ctrl.action
  if action = actionEnter then enter pid ctrl
  else if action = actionLeave then dropPlayer pid
  else if action = actionAttack then
    handle pid (attackArgs ctrl) fun status obj => obj.handleAttack status
  else if action = actionMove then
    handle pid (moveArgs ctrl) fun args obj => obj.handleMove args.1 args.2
  else pure ()

/-- One turn of the loop of `update_frame`. -/
def updateEntry (ctrl : CtrlInfo) : Method γ Unit := do
  act ctrl
  updateCtrlOnce

/-- `CGameObj.update_frame` -/
def updateFrame (msg : FrameInfo) : Method γ Unit := do
  modify fun g => { g with gsFrameNo := msg.frameNumber }
  updateCtrlOnce
  msg.ctrlData.forM updateEntry

end Frame

/-- The end of `update_logic` when the game is over: the bullets and the enemies go. -/
def clearScreen [DictOrder ℕ] : Method γ Unit := do
  let g ← get
  g.bulletObjects.items.forM destroyEntity
  let g ← get
  g.enemyObjects.items.forM destroyEntity

end GameObj

end FrameSync.Client
