import FrameSync.Wire.Protocol

/-! # The entities of the client's game

`game.py`: the constants, the classes `CBaseObj`, `CEnemyObj`, `CBulletObj` and `CPlayerObj` with
the methods that touch the object alone. Positions and sizes are Python integers, `/` on them is
floor division. What is only drawn (names, colours) is kept where the constructor reads it. -/

namespace FrameSync.Client

open Sproto

/-- `SCREEN_WIDTH` -/
def screenWidth : ℤ := 800
/-- `SCREEN_HEIGHT` -/
def screenHeight : ℤ := 600
/-- `DIR_UP` -/
def dirUp : ℤ := 1
/-- `DIR_DOWN` -/
def dirDown : ℤ := 2
/-- `DIR_LEFT` -/
def dirLeft : ℤ := 3
/-- `DIR_RIGHT` -/
def dirRight : ℤ := 4
/-- `STATUS_KEY_DOWN` -/
def statusKeyDown : ℤ := 1
/-- `STATUS_KEY_UP` -/
def statusKeyUp : ℤ := 2

/-- A colour as the client keeps it. -/
abbrev Rgb := ℤ × ℤ × ℤ

/-- `COLOR_BLACK` -/
def colorBlack : Rgb := (0, 0, 0)
/-- `COLOR_RED` -/
def colorRed : Rgb := (255, 0, 0)
/-- `COLOR_YELLOW` -/
def colorYellow : Rgb := (255, 255, 0)
/-- `COLOR_GREEN` -/
def colorGreen : Rgb := (0, 255, 0)
/-- `COLOR_BLUE` -/
def colorBlue : Rgb := (0, 255, 255)
/-- `COLOR_GOLDEN` -/
def colorGolden : Rgb := (255, 215, 0)

/-- The colours `CEnemyObj.__init__` chooses from. -/
def enemyColors : List Rgb := [colorBlack, colorRed, colorGreen, colorBlue, colorGolden]

/-- What the classes derived from `CBaseObj` add. -/
inductive Body
  /-- `CEnemyObj`, with `m_RewardScore`. -/
  | enemy (rewardScore : ℤ)
  /-- `CBulletObj` -/
  | bullet
  /-- `CPlayerObj`, with `m_Pid`, `m_Name`, `m_InAttack` and `m_AckLoopCnt`. -/
  | player (pid : Pid) (name : Bytes) (inAttack : Bool) (ackLoopCnt : ℕ)
  deriving Repr, DecidableEq

/-- `m_Type` -/
inductive EntityType
  /-- `ENTITY_ENEMY` -/
  | enemy
  /-- `ENTITY_BULLET` -/
  | bullet
  /-- `ENTITY_PLAYER` -/
  | player
  deriving Repr, DecidableEq

/-- An object. Its `m_ID` is the key it is stored under. -/
structure Entity where
  /-- `m_Pos[0]` -/
  x : ℤ
  /-- `m_Pos[1]` -/
  z : ℤ
  /-- `m_Width` -/
  width : ℤ
  /-- `m_Height` -/
  height : ℤ
  /-- `m_Color` -/
  color : Rgb
  /-- `m_Speed` -/
  speed : ℤ
  /-- `m_Dir` -/
  dir : Option ℤ
  /-- `m_Blood` -/
  blood : ℤ
  /-- What depends on the class. -/
  body : Body
  deriving Repr, DecidableEq

namespace Entity

/-- `m_Type` -/
def type (e : Entity) : EntityType :=
  match e.body with
  | .enemy _ => .enemy
  | .bullet => .bullet
  | .player .. => .player

/-- `m_Pid` of a player. -/
def pid? (e : Entity) : Option Pid :=
  match e.body with
  | .player pid .. => some pid
  | _ => none

/-- `CBaseObj.on_hit` -/
def onHit (e : Entity) : Entity := { e with blood := e.blood - 1 }

/-- `CBaseObj.is_dead` -/
def isDead (e : Entity) : Bool := e.blood ≤ 0

/-- `CBaseObj.is_out_screen` -/
def isOutScreen (e : Entity) : Bool :=
  e.x < 0 || screenWidth < e.x || e.z < 0 || screenHeight < e.z

/-- The move in `CBaseObj.update`: a quarter of the speed in the direction, if it is one of the
four. -/
def moveBy (e : Entity) (dir : ℤ) : Entity :=
  if dir = dirUp then { e with z := e.z - e.speed / 4 }
  else if dir = dirDown then { e with z := e.z + e.speed / 4 }
  else if dir = dirLeft then { e with x := e.x - e.speed / 4 }
  else if dir = dirRight then { e with x := e.x + e.speed / 4 }
  else e

/-- What `CBaseObj.update` does to a player after the move: it puts one coordinate back onto the
screen. -/
def clamp (e : Entity) : Entity :=
  if e.x < 0 then { e with x := 0 }
  else if screenWidth < e.x then { e with x := screenWidth }
  else if e.z < 0 then { e with z := 0 }
  else if screenHeight < e.z then { e with z := screenHeight }
  else e

/-- The part of `CBaseObj.update` below `if self.m_Dir:`. No direction and direction 0 are false. -/
def advance (e : Entity) : Entity :=
  match e.dir with
  | none => e
  | some dir =>
      if dir = 0 then e
      else if e.type = .player then (e.moveBy dir).clamp
      else e.moveBy dir

/-- `CPlayerObj.handle_move` -/
def handleMove (e : Entity) (iDir status : ℤ) : Entity :=
  if status = statusKeyUp then
    if e.dir = some iDir then { e with dir := none } else e
  else if status = statusKeyDown then
    if e.dir = none then { e with dir := some iDir } else e
  else e

/-- `CPlayerObj.handle_attack` -/
def handleAttack (e : Entity) (status : ℤ) : Entity :=
  match e.body with
  | .player pid name _ ackLoopCnt =>
      if status = statusKeyUp then { e with body := .player pid name false ackLoopCnt }
      else if status = statusKeyDown then { e with body := .player pid name true 0 }
      else e
  | _ => e

/-- `Is2RectsCross` on two objects, with their centres and sizes. -/
def is2RectsCross (e₁ e₂ : Entity) : Bool :=
  let lx1 := e₁.x - e₁.width / 2
  let rx1 := e₁.x + e₁.width / 2
  let tz1 := e₁.z - e₁.height / 2
  let bz1 := e₁.z + e₁.height / 2
  let lx2 := e₂.x - e₂.width / 2
  let rx2 := e₂.x + e₂.width / 2
  let tz2 := e₂.z - e₂.height / 2
  let bz2 := e₂.z + e₂.height / 2
  !(rx2 < lx1 || rx1 < lx2 || bz2 < tz1 || bz1 < tz2)

@[simp] theorem type_onHit (e : Entity) : e.onHit.type = e.type := rfl

@[simp] theorem type_handleMove (e : Entity) (iDir status : ℤ) :
    (e.handleMove iDir status).type = e.type := by
  unfold handleMove
  split_ifs <;> rfl

@[simp] theorem type_handleAttack (e : Entity) (status : ℤ) :
    (e.handleAttack status).type = e.type := by
  unfold handleAttack
  split
  · rename_i hbody
    split_ifs <;> simp [type, hbody]
  · rfl

@[simp] theorem type_moveBy (e : Entity) (dir : ℤ) : (e.moveBy dir).type = e.type := by
  unfold moveBy
  split_ifs <;> rfl

@[simp] theorem type_clamp (e : Entity) : e.clamp.type = e.type := by
  unfold clamp
  split_ifs <;> rfl

@[simp] theorem type_advance (e : Entity) : e.advance.type = e.type := by
  unfold advance
  split
  · rfl
  · split_ifs
    · rfl
    · rw [type_clamp, type_moveBy]
    · rw [type_moveBy]

/-- A move keeps everything but the position. -/
theorem body_moveBy (e : Entity) (dir : ℤ) : (e.moveBy dir).body = e.body := by
  unfold moveBy
  split_ifs <;> rfl

theorem body_clamp (e : Entity) : e.clamp.body = e.body := by
  unfold clamp
  split_ifs <;> rfl

@[simp] theorem body_advance (e : Entity) : e.advance.body = e.body := by
  unfold advance
  split
  · rfl
  · split_ifs
    · rfl
    · rw [body_clamp, body_moveBy]
    · rw [body_moveBy]

@[simp] theorem pid?_advance (e : Entity) : e.advance.pid? = e.pid? := by
  rw [pid?, pid?, body_advance]

theorem blood_moveBy (e : Entity) (dir : ℤ) : (e.moveBy dir).blood = e.blood := by
  unfold moveBy
  split_ifs <;> rfl

theorem blood_clamp (e : Entity) : e.clamp.blood = e.blood := by
  unfold clamp
  split_ifs <;> rfl

@[simp] theorem blood_advance (e : Entity) : e.advance.blood = e.blood := by
  unfold advance
  split
  · rfl
  · split_ifs
    · rfl
    · rw [blood_clamp, blood_moveBy]
    · rw [blood_moveBy]

@[simp] theorem isDead_advance (e : Entity) : e.advance.isDead = e.isDead := by
  rw [isDead, isDead, blood_advance]

/-- A player that turns stays where and who it is. -/
theorem handleMove_keeps (e : Entity) (iDir status : ℤ) :
    ((e.handleMove iDir status).x = e.x ∧ (e.handleMove iDir status).z = e.z) ∧
      (e.handleMove iDir status).type = e.type ∧ (e.handleMove iDir status).pid? = e.pid? ∧
      (e.handleMove iDir status).blood = e.blood := by
  unfold handleMove
  split_ifs
  all_goals exact ⟨⟨rfl, rfl⟩, rfl, rfl, rfl⟩

/-- So does one that starts or stops to fire. -/
theorem handleAttack_keeps (e : Entity) (status : ℤ) :
    ((e.handleAttack status).x = e.x ∧ (e.handleAttack status).z = e.z) ∧
      (e.handleAttack status).type = e.type ∧ (e.handleAttack status).pid? = e.pid? ∧
      (e.handleAttack status).blood = e.blood := by
  obtain ⟨x, z, width, height, color, speed, dir, blood, body⟩ := e
  cases body with
  | enemy | bullet => exact ⟨⟨rfl, rfl⟩, rfl, rfl, rfl⟩
  | player pid name inAttack ackLoopCnt =>
      unfold handleAttack
      dsimp only
      split_ifs
      all_goals exact ⟨⟨rfl, rfl⟩, rfl, rfl, rfl⟩

end Entity

end FrameSync.Client
