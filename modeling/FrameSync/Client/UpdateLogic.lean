import FrameSync.Client.Readable
import FrameSync.Foundations.Run

/-! # When a client applies its frames

`update_logic`, `gs2c_loginsuc`, `gs2c_frame_cache_data` and `gs2c_frame_data` of `game.py`: the
queue of received frames, the clock `m_PassTime` and the loop that applies the frames that are due.
`Pace` is this part of `CGameObj`; it decides what is called on the simulation and is itself
influenced by the simulation through `m_GameOver` alone. The network thread puts frames into the
queue at any time, also while the main thread is inside `update_logic`, so each turn of the loop is
an event of its own. -/

namespace FrameSync.Client

/-- The message `gs2c_loginsuc`. -/
structure Loginsuc where
  /-- `game_id` -/
  gameId : ℕ
  /-- `rndseed` -/
  rndseed : ℕ
  /-- `timestamp` -/
  timestamp : ℕ
  /-- `frame_cache_num` -/
  frameCacheNum : ℕ
  /-- `init_time` -/
  initTime : ℕ
  deriving Repr, DecidableEq

/-- Who may call `update_logic`. -/
inductive Phase
  /-- Nobody: `FSM_OPEN` is `False` and cached frames are awaited. -/
  | waiting
  /-- The network thread, in the loop of `gs2c_frame_cache_data`. -/
  | fastForward
  /-- The main thread: `FSM_OPEN` is `True`. -/
  | opened
  deriving Repr, DecidableEq

/-- The part of `CGameObj` that decides when a frame is applied. -/
structure Pace where
  /-- `m_PassTime`, in hundredths of a second. -/
  passTime : ℕ
  /-- `m_FrameQueue` -/
  frameQueue : List FrameInfo
  /-- `m_FsmInitData` -/
  fsmInitData : Option Loginsuc
  /-- `m_GSFsmInitTime` -/
  gsFsmInitTime : ℕ
  /-- The local `dt` of `gs2c_frame_cache_data`. -/
  dt : ℤ
  /-- Who may call `update_logic`. -/
  phase : Phase
  /-- A call of `update_logic` is in its loop. -/
  inUpdate : Bool
  deriving Repr, DecidableEq

/-- What happens to a client. -/
inductive Event
  /-- The message `gs2c_frame_cache_data`. -/
  | frameCacheData (frameCache : List FrameInfo)
  /-- The message `gs2c_frame_data`. -/
  | frameData (frameData : FrameInfo)
  /-- `update_logic` is called and runs up to its loop. -/
  | updateLogic
  /-- One turn of the loop of `update_logic`, or its end. -/
  | drain
  /-- The loop of `gs2c_frame_cache_data` ends and `FSM_OPEN` becomes `True`. -/
  | fsmOpen
  deriving Repr, DecidableEq

/-- What an event calls on the simulation. -/
inductive Action
  /-- Nothing. -/
  | nothing
  /-- `SetRndSeed` -/
  | seed (rndseed : ℕ)
  /-- `update_frame` -/
  | frame (data : FrameInfo)
  /-- The end of `update_logic`. -/
  | finish
  deriving Repr, DecidableEq

namespace Pace

/-- A new `CGameObj` whose `init_fsm` has stored `msg`. -/
def init (msg : Loginsuc) : Pace where
  passTime := 0
  frameQueue := []
  fsmInitData := some msg
  gsFsmInitTime := 0
  dt := 0
  phase := .waiting
  inUpdate := false

/-- `recv_frame` for each of the frames. -/
def recvFrames (p : Pace) (frames : List FrameInfo) : Pace :=
  { p with frameQueue := p.frameQueue ++ frames }

/-- `gs2c_frame_cache_data` up to its loop. The frames are dropped when the state machine was
started before. -/
def frameCacheData (p : Pace) (frameCache : List FrameInfo) : Pace × Action :=
  match p.fsmInitData with
  | none => (p, .nothing)
  | some msg =>
      if msg.frameCacheNum ≤ (p.recvFrames frameCache).frameQueue.length then
        ({ p.recvFrames frameCache with
            fsmInitData := none
            gsFsmInitTime := msg.initTime
            dt := (msg.timestamp : ℤ) - (msg.initTime : ℤ)
            phase := .fastForward }, .seed msg.rndseed)
      else (p.recvFrames frameCache, .nothing)

/-- The test of the loop of `update_logic` on the first frame of the queue. -/
def due (p : Pace) (data : FrameInfo) : Bool :=
  (data.timestamp : ℤ) - (p.gsFsmInitTime : ℤ) ≤ (p.passTime : ℤ)

/-- One turn of the loop of `update_logic`. -/
def drain (p : Pace) : Pace × Action :=
  match p.frameQueue with
  | data :: rest =>
      if p.due data then ({ p with frameQueue := rest }, .frame data)
      else ({ p with inUpdate := false }, .finish)
  | [] => ({ p with inUpdate := false }, .finish)

/-- `update_logic` up to its loop; `over` is `m_GameOver`. -/
def updateLogic (p : Pace) (gameOver : Bool) : Pace :=
  { p with
    passTime := p.passTime + 10
    inUpdate := !gameOver && !p.frameQueue.isEmpty }

/-- `update_logic` may be called: by the main thread, or by the network thread while
`m_PassTime < dt`. -/
def mayUpdate (p : Pace) : Bool :=
  !p.inUpdate && (p.phase = .opened || (p.phase = .fastForward && (p.passTime : ℤ) < p.dt))

/-- One event. The network thread handles no message while it is in the loop of
`gs2c_frame_cache_data`. -/
def step (p : Pace) (gameOver : Bool) : Event → Option (Pace × Action)
  | .frameCacheData frames => if p.phase = .fastForward then none else some (p.frameCacheData frames)
  | .frameData data =>
      if p.phase = .fastForward then none else some (p.recvFrames [data], .nothing)
  | .updateLogic => if p.mayUpdate then some (p.updateLogic gameOver, .nothing) else none
  | .drain => if p.inUpdate then some p.drain else none
  | .fsmOpen =>
      if p.phase = .fastForward ∧ p.inUpdate = false ∧ p.dt ≤ (p.passTime : ℤ) then
        some ({ p with phase := .opened }, .nothing)
      else none

/-- The frames an event puts into the queue. -/
def received (p : Pace) : Event → List FrameInfo
  | .frameCacheData frames => if p.fsmInitData.isSome then frames else []
  | .frameData data => [data]
  | .updateLogic | .drain | .fsmOpen => []

/-- What an event does, case by case. -/
inductive Move (p : Pace) (gameOver : Bool) : Event → Pace → Action → Prop
  /-- Cached frames are dropped once the state machine was started. -/
  | dropped {frames : List FrameInfo} : p.phase ≠ .fastForward → p.fsmInitData = none →
      Move p gameOver (.frameCacheData frames) p .nothing
  /-- More cached frames are awaited. -/
  | stored {frames : List FrameInfo} {msg : Loginsuc} : p.phase ≠ .fastForward →
      p.fsmInitData = some msg → (p.frameQueue ++ frames).length < msg.frameCacheNum →
      Move p gameOver (.frameCacheData frames) (p.recvFrames frames) .nothing
  /-- The last cached frame is there. -/
  | started {frames : List FrameInfo} {msg : Loginsuc} : p.phase ≠ .fastForward →
      p.fsmInitData = some msg → msg.frameCacheNum ≤ (p.frameQueue ++ frames).length →
      Move p gameOver (.frameCacheData frames)
        { p.recvFrames frames with
            fsmInitData := none
            gsFsmInitTime := msg.initTime
            dt := (msg.timestamp : ℤ) - (msg.initTime : ℤ)
            phase := .fastForward } (.seed msg.rndseed)
  /-- A live frame is put into the queue. -/
  | live {data : FrameInfo} : p.phase ≠ .fastForward →
      Move p gameOver (.frameData data) (p.recvFrames [data]) .nothing
  /-- `update_logic` is called. -/
  | called : p.inUpdate = false →
      p.phase = .opened ∨ p.phase = .fastForward ∧ (p.passTime : ℤ) < p.dt →
      Move p gameOver .updateLogic (p.updateLogic gameOver) .nothing
  /-- The first frame of the queue is due. -/
  | applied {data : FrameInfo} {rest : List FrameInfo} : p.inUpdate = true →
      p.frameQueue = data :: rest → p.due data = true →
      Move p gameOver .drain { p with frameQueue := rest } (.frame data)
  /-- No frame is due. -/
  | left : p.inUpdate = true →
      (∀ data rest, p.frameQueue = data :: rest → p.due data = false) →
      Move p gameOver .drain { p with inUpdate := false } .finish
  /-- The fast-forward is over. -/
  | opened : p.phase = .fastForward → p.inUpdate = false → p.dt ≤ (p.passTime : ℤ) →
      Move p gameOver .fsmOpen { p with phase := .opened } .nothing

/-- `update_logic` may be called between two calls, by whoever may call it. -/
theorem mayUpdate_iff {p : Pace} : p.mayUpdate = true ↔ p.inUpdate = false ∧
    (p.phase = .opened ∨ p.phase = .fastForward ∧ (p.passTime : ℤ) < p.dt) := by
  simp [mayUpdate]

/-- **Inversion**: an enabled event is one of the moves. -/
theorem move_of_step {p p' : Pace} {gameOver : Bool} {e : Event} {a : Action}
    (h : p.step gameOver e = some (p', a)) : p.Move gameOver e p' a := by
  cases e with
  | frameCacheData frames =>
      obtain ⟨hphase, h⟩ := Option.ite_none_left_eq_some.mp h
      rw [frameCacheData] at h
      cases hdata : p.fsmInitData with
      | none =>
          simp only [hdata] at h
          obtain ⟨rfl, rfl⟩ := Prod.mk.inj (Option.some.inj h)
          exact .dropped hphase hdata
      | some msg =>
          simp only [hdata] at h
          split at h
          · rename_i hnum
            obtain ⟨rfl, rfl⟩ := Prod.mk.inj (Option.some.inj h)
            exact .started hphase hdata hnum
          · rename_i hnum
            obtain ⟨rfl, rfl⟩ := Prod.mk.inj (Option.some.inj h)
            exact .stored hphase hdata (Nat.lt_of_not_le hnum)
  | frameData data =>
      obtain ⟨hphase, h⟩ := Option.ite_none_left_eq_some.mp h
      obtain ⟨rfl, rfl⟩ := Prod.mk.inj (Option.some.inj h)
      exact .live hphase
  | updateLogic =>
      obtain ⟨hmay, h⟩ := Option.ite_none_right_eq_some.mp h
      obtain ⟨rfl, rfl⟩ := Prod.mk.inj (Option.some.inj h)
      obtain ⟨hloop, hcaller⟩ := mayUpdate_iff.mp hmay
      exact .called hloop hcaller
  | drain =>
      obtain ⟨hloop, h⟩ := Option.ite_none_right_eq_some.mp h
      have h := Option.some.inj h
      rw [drain] at h
      split at h
      · rename_i data rest hqueue
        split at h
        · rename_i hdue
          obtain ⟨rfl, rfl⟩ := Prod.mk.inj h
          exact .applied hloop hqueue hdue
        · rename_i hdue
          obtain ⟨rfl, rfl⟩ := Prod.mk.inj h
          -- The loop is left at a frame that is not due, or at the end of the queue.
          refine .left hloop fun data' rest' hcons => ?_
          obtain ⟨rfl, -⟩ := List.cons.inj (hqueue.symm.trans hcons)
          simpa using hdue
      · rename_i hqueue
        obtain ⟨rfl, rfl⟩ := Prod.mk.inj h
        exact .left hloop fun data rest hcons => by simp [hqueue] at hcons
  | fsmOpen =>
      obtain ⟨⟨hphase, hloop, hdt⟩, h⟩ := Option.ite_none_right_eq_some.mp h
      obtain ⟨rfl, rfl⟩ := Prod.mk.inj (Option.some.inj h)
      exact .opened hphase hloop hdt

/-- Each of the moves is enabled. -/
theorem Move.step {p p' : Pace} {gameOver : Bool} {e : Event} {a : Action}
    (h : p.Move gameOver e p' a) : p.step gameOver e = some (p', a) := by
  cases h with
  | dropped hphase hdata => simp [Pace.step, frameCacheData, hphase, hdata]
  | stored hphase hdata hnum =>
      have hnot := Nat.not_le_of_lt hnum
      rw [Pace.step, if_neg hphase, frameCacheData]
      simp only [hdata]
      exact congrArg some (if_neg hnot)
  | started hphase hdata hnum =>
      rw [Pace.step, if_neg hphase, frameCacheData]
      simp only [hdata]
      exact congrArg some (if_pos hnum)
  | live hphase => rw [Pace.step, if_neg hphase]
  | called hloop hcaller => rw [Pace.step, if_pos (mayUpdate_iff.mpr ⟨hloop, hcaller⟩)]
  | applied hloop hqueue hdue => simp [Pace.step, drain, hloop, hqueue, hdue]
  | left hloop hnot =>
      rw [Pace.step, if_pos hloop, drain]
      split
      · rename_i data rest hqueue
        rw [if_neg (by simp [hnot data rest hqueue])]
      · rfl
  | opened hphase hloop hdt => rw [Pace.step, if_pos ⟨hphase, hloop, hdt⟩]

/-- Only a turn of the loop applies a frame or ends a call. -/
theorem step_eq_drain {p p' : Pace} {gameOver : Bool} {e : Event} {a : Action}
    (h : p.step gameOver e = some (p', a)) (ha : a = .finish ∨ ∃ data, a = .frame data) :
    e = .drain ∧ p.inUpdate = true := by
  cases move_of_step h with
  | applied hloop => exact ⟨rfl, hloop⟩
  | left hloop => exact ⟨rfl, hloop⟩
  | _ => simp at ha

/-- The frame that a turn of the loop applies was the first of the queue. -/
theorem head_of_frame {p p' : Pace} {data : FrameInfo} (h : p.drain = (p', .frame data)) :
    ∃ rest, p.frameQueue = data :: rest := by
  rw [drain] at h
  split at h
  · rename_i data' rest hqueue
    split at h
    · obtain rfl := Action.frame.inj (Prod.mk.inj h).2
      exact ⟨rest, hqueue⟩
    · cases (Prod.mk.inj h).2
  · cases (Prod.mk.inj h).2

end Pace

/-- The frame an action applies. -/
def Action.applied : Action → List FrameInfo
  | .frame data => [data]
  | .nothing | .seed _ | .finish => []

section Call

variable {γ : Type} [PyRandom γ] [DictOrder ℕ]

/-- The end of `update_logic`. -/
def GameObj.finish : Method γ Unit := do
  let g ← get
  if g.gameOver then clearScreen else pure ()

/-- The calls on the simulation. -/
def Action.call : Action → Method γ Unit
  | .nothing => pure ()
  | .seed rndseed => GameObj.setRndSeed rndseed
  | .frame data => GameObj.updateFrame data
  | .finish => GameObj.finish

end Call

/-- The state machine of a client: one `CGameObj`. -/
structure Fsm (γ : Type) where
  /-- The part that decides when a frame is applied. -/
  pace : Pace
  /-- The simulation. -/
  game : GameObj γ

namespace Fsm

variable {γ : Type}

/-- A client that was started for `pid`, with the generator of its process in the state `gen`, and
got `msg`. -/
def init (pid : Pid) (gen : γ) (msg : Loginsuc) : Fsm γ := ⟨Pace.init msg, GameObj.init pid gen⟩

variable [PyRandom γ] [DictOrder ℕ]

/-- One event. A client in which an error is raised is gone. -/
def step (c : Fsm γ) (e : Event) : Option (Fsm γ) :=
  match c.pace.step c.game.gameOver e with
  | none => none
  | some (p, a) =>
      match a.call c.game with
      | .ok (_, g) => some ⟨p, g⟩
      | .error _ => none

/-- The client is started and between two calls of `update_logic`. -/
def Idle (c : Fsm γ) : Prop := c.pace.phase ≠ .waiting ∧ c.pace.inUpdate = false

instance (c : Fsm γ) : Decidable c.Idle := inferInstanceAs (Decidable (_ ∧ _))

/-- The frames a run received, in order. -/
def received (tr : List (Fsm γ × Event)) : List FrameInfo :=
  tr.flatMap fun x => x.1.pace.received x.2

/-- What a step consists of. -/
theorem step_eq_some {c c' : Fsm γ} {e : Event} :
    c.step e = some c' ↔ ∃ a, c.pace.step c.game.gameOver e = some (c'.pace, a) ∧
      a.call c.game = .ok ((), c'.game) := by
  rw [step]
  constructor
  · intro h
    split at h
    · cases h
    · rename_i p a hpace
      split at h
      · rename_i g hcall
        obtain rfl := Option.some.inj h
        exact ⟨a, hpace, hcall⟩
      · cases h
  · rintro ⟨a, hpace, hcall⟩
    rw [hpace]
    simp only [hcall]

end Fsm

end FrameSync.Client
