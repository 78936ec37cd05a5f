import FrameSync.Client.Robust
import Mathlib.Data.List.Infix

/-! # A player who comes late

`gs2c_loginsuc` tells a client how many frames it has missed, `gs2c_frame_cache_data` brings them in
chunks, and live frames follow. The client starts its state machine at the message that brings the
last missed frame and lets a simulated clock run until it stands where the server's stood; only then
it sets `FSM_OPEN`. This module says what holds in every run of that (`HandsOff`), and that the
fast-forward ends, and a call of `update_logic` returns, exactly when every frame they come to apply
can be read (`opens_iff`, `returns_iff`). -/

namespace FrameSync.Client

open Program

/-- The event is a message of the server. -/
def Event.isMessage : Event → Bool
  | .frameCacheData _ | .frameData _ => true
  | .updateLogic | .drain | .fsmOpen => false

/-- The frames a message brings. -/
def Event.frames : Event → List FrameInfo
  | .frameCacheData frames => frames
  | .frameData data => [data]
  | .updateLogic | .drain | .fsmOpen => []

/-- The seed an action sets. -/
def Action.seeds : Action → List ℕ
  | .seed rndseed => [rndseed]
  | .nothing | .frame _ | .finish => []

/-- What the network thread handles after `gs2c_loginsuc`: the call of `gs2c_frame_cache_data` that
`init_fsm` itself makes, the chunks of the cache and then the live frames. -/
def delivery (chunks : List (List FrameInfo)) (live : List FrameInfo) : List Event :=
  .frameCacheData [] :: (chunks.map .frameCacheData ++ live.map .frameData)

/-- What the server promises of `gs2c_loginsuc` and of the chunks that follow it. -/
structure LateJoin (msg : Loginsuc) (chunks : List (List FrameInfo)) : Prop where
  /-- `frame_cache_num` is the number of cached frames. -/
  num : msg.frameCacheNum = chunks.flatten.length
  /-- The server's clock does not run backwards. -/
  initTime_le : msg.initTime ≤ msg.timestamp
  /-- No cached frame is stamped later than `gs2c_loginsuc`. -/
  cached : ∀ f ∈ chunks.flatten, f.timestamp ≤ msg.timestamp
  /-- The seed is never 0. -/
  seed : msg.rndseed ≠ 0

namespace Pace

/-- Where the simulated clock of a client stands. -/
structure OnTime (msg : Loginsuc) (p : Pace) : Prop where
  /-- `m_PassTime` moves in whole ticks. -/
  tens : 10 ∣ p.passTime
  /-- The clock of a waiting client has not moved. -/
  waiting : p.phase = .waiting →
    p.passTime = 0 ∧ p.fsmInitData = some msg ∧ p.inUpdate = false
  /-- A started client measures from `init_time`. -/
  started : p.phase ≠ .waiting → p.fsmInitData = none ∧ p.gsFsmInitTime = msg.initTime ∧
    p.dt = (msg.timestamp : ℤ) - msg.initTime
  /-- The fast-forward overshoots by less than a tick. -/
  fastForward : p.phase = .fastForward →
    (p.passTime : ℤ) < (msg.timestamp : ℤ) - msg.initTime + 10
  /-- An open client is past the fast-forward. -/
  opened : p.phase = .opened → (msg.timestamp : ℤ) - msg.initTime ≤ p.passTime

theorem OnTime.init (msg : Loginsuc) : (Pace.init msg).OnTime msg := by
  refine ⟨Nat.dvd_zero _, fun _ => ⟨rfl, rfl, rfl⟩, fun hs => absurd rfl hs, fun hff => ?_, fun ho => ?_⟩
  · cases hff
  · cases ho

/-- A client that still has the login answer is waiting, and the answer is the one it got. -/
theorem OnTime.of_data {msg msg' : Loginsuc} {p : Pace} (h : p.OnTime msg)
    (hdata : p.fsmInitData = some msg') : p.phase = .waiting ∧ msg' = msg := by
  have hw : p.phase = .waiting := by
    by_contra hs
    rw [(h.started hs).1] at hdata
    cases hdata
  have hmsg := (h.waiting hw).2.1
  rw [hdata] at hmsg
  exact ⟨hw, Option.some.inj hmsg⟩

/-- A client in a call of `update_logic` is started. -/
theorem OnTime.started_of_inUpdate {msg : Loginsuc} {p : Pace} (h : p.OnTime msg)
    (hloop : p.inUpdate = true) : p.phase ≠ .waiting := by
  intro hw
  rw [(h.waiting hw).2.2] at hloop
  cases hloop

/-- **Step lemma of the clock.** -/
theorem OnTime.move {msg : Loginsuc} {p p' : Pace} {gameOver : Bool} {e : Event} {a : Action}
    (hle : msg.initTime ≤ msg.timestamp) (h : p.OnTime msg) (hm : p.Move gameOver e p' a) :
    p'.OnTime msg := by
  cases hm with
  | dropped => exact h
  | stored => exact ⟨h.tens, h.waiting, h.started, h.fastForward, h.opened⟩
  | live => exact ⟨h.tens, h.waiting, h.started, h.fastForward, h.opened⟩
  | applied => exact ⟨h.tens, h.waiting, h.started, h.fastForward, h.opened⟩
  | started hphase hdata hnum =>
      obtain ⟨hw, rfl⟩ := h.of_data hdata
      refine ⟨h.tens, fun hw' => ?_, fun _ => ⟨rfl, rfl, rfl⟩, fun _ => ?_, fun ho => ?_⟩
      · cases hw'
      · -- Nothing was received before the start, and `initTime` is not after `timestamp`.
        have hzero := (h.waiting hw).1
        simp only [recvFrames, hzero]
        omega
      · cases ho
  | called hloop hcaller =>
      -- A caller is the fast-forward or the opened game: both come after the start.
      have hs : p.phase ≠ .waiting := by
        rcases hcaller with ho | ⟨hff, -⟩
        · rw [ho]
          decide
        · rw [hff]
          decide
      refine ⟨Nat.dvd_add h.tens (Nat.dvd_refl 10), fun hw => absurd hw hs, h.started, ?_, ?_⟩
      · intro hff
        have hff : p.phase = .fastForward := hff
        have hdt := (h.started hs).2.2
        -- The fast-forward calls only while it has not caught up.
        rcases hcaller with ho | ⟨-, hlt⟩
        · rw [hff] at ho
          cases ho
        · simp only [updateLogic]
          omega
      · intro ho
        have hpast := h.opened ho
        simp only [updateLogic]
        omega
  | left hloop =>
      exact ⟨h.tens, fun hw => absurd hw (h.started_of_inUpdate hloop), h.started, h.fastForward,
        h.opened⟩
  | opened hphase hloop hdt =>
      have hs : p.phase ≠ .waiting := by
        rw [hphase]
        decide
      refine ⟨h.tens, fun hw => ?_, fun _ => h.started hs, fun hff => ?_, fun _ => ?_⟩
      · cases hw
      · cases hff
      · rw [(h.started hs).2.2] at hdt
        exact hdt

/-- A started client stays started, and an open one stays open. -/
theorem OnTime.phase_move {msg : Loginsuc} {p p' : Pace} {gameOver : Bool} {e : Event} {a : Action}
    (h : p.OnTime msg) (hs : p.phase ≠ .waiting) (hm : p.Move gameOver e p' a) :
    p'.phase ≠ .waiting ∧ (p'.phase = .fastForward → p.phase = .fastForward) := by
  cases hm with
  | started hphase hdata => exact absurd (h.of_data hdata).1 hs
  | opened hphase => exact ⟨Phase.noConfusion, fun _ => hphase⟩
  | _ => exact ⟨hs, id⟩

/-- **In the fast-forward at most one event is enabled.** -/
theorem Move.of_fastForward {p p' : Pace} {gameOver : Bool} {e : Event} {a : Action}
    (h : p.Move gameOver e p' a) (hff : p.phase = .fastForward) :
    e = if p.inUpdate then .drain else if (p.passTime : ℤ) < p.dt then .updateLogic else .fsmOpen := by
  cases h with
  | dropped hphase | stored hphase | started hphase | live hphase => exact absurd hff hphase
  | called hloop hcaller =>
      rcases hcaller with ho | ⟨-, hlt⟩
      · rw [hff] at ho
        cases ho
      · simp [hloop, hlt]
  | applied hloop | left hloop => simp [hloop]
  | opened _ hloop hdt => simp [hloop, not_lt.mpr hdt]

/-- What is left of the fast-forward: two events for each tick, one for each frame, and the end of
the call that is under way. -/
def left (p : Pace) : ℕ :=
  2 * (p.dt - (p.passTime : ℤ)).toNat + p.frameQueue.length + if p.inUpdate then 1 else 0

/-- Each event of the fast-forward leaves less of it. -/
theorem Move.left_lt {p p' : Pace} {gameOver : Bool} {e : Event} {a : Action}
    (h : p.Move gameOver e p' a) (hff : p.phase = .fastForward) (hff' : p'.phase = .fastForward) :
    p'.left < p.left := by
  cases h with
  | dropped hphase | stored hphase | started hphase | live hphase => exact absurd hff hphase
  | called hloop hcaller =>
      rcases hcaller with ho | ⟨-, hlt⟩
      · rw [hff] at ho
        cases ho
      · cases henter : (!gameOver && !p.frameQueue.isEmpty) with
        | true =>
            simp only [Pace.left, updateLogic, hloop, henter]
            simp
            omega
        | false =>
            simp only [Pace.left, updateLogic, hloop, henter]
            simp
            omega
  | applied hloop hqueue => simp [Pace.left, hqueue]
  | left hloop => simp [Pace.left, hloop]
  | opened => cases hff'

/-- The clock does not run backwards. -/
theorem Move.passTime_le {p p' : Pace} {gameOver : Bool} {e : Event} {a : Action}
    (h : p.Move gameOver e p' a) : p.passTime ≤ p'.passTime := by
  cases h with
  | called => exact Nat.le_add_right _ _
  | _ => exact Nat.le_refl _

end Pace

namespace Fsm

variable {γ : Type}

/-- The messages a run handled, in order. -/
def messages (tr : List (Fsm γ × Event)) : List Event := (tr.map Prod.snd).filter Event.isMessage

/-- The seeds a step sets. -/
def seedsBy (c : Fsm γ) (e : Event) : List ℕ :=
  match c.pace.step c.game.gameOver e with
  | none => []
  | some (_, a) => a.seeds

/-- The seeds a run set, in order. -/
def seeds (tr : List (Fsm γ × Event)) : List ℕ := tr.flatMap fun x => x.1.seedsBy x.2

/-- How often a run set `FSM_OPEN`. -/
def opens (tr : List (Fsm γ × Event)) : ℕ := tr.countP fun x => x.2 = .fsmOpen

/-- The main thread has called `update_logic`. -/
def Called (tr : List (Fsm γ × Event)) : Prop :=
  ∃ x ∈ tr, x.2 = .updateLogic ∧ x.1.pace.phase = .opened

/-- A frame that a call of `update_logic` comes to apply can be read: each of its entries has the
keys that are read from it in the state in which its turn comes. -/
def NextReadable [PyRandom γ] [DictOrder ℕ] (c : Fsm γ) : Prop :=
  c.pace.inUpdate = true → ∀ data rest, c.pace.frameQueue = data :: rest → c.pace.due data = true →
    ∀ pre ctrl post, data.ctrlData = pre ++ ctrl :: post →
      ∀ g, GameObj.updateFrame { data with ctrlData := pre } c.game = .ok ((), g) → g.Readable ctrl

/-- The cached frames reach the simulation as they should, in a run `tr` to the client `c` whose
messages are the first of `delivery chunks live`. -/
structure HandsOff (msg : Loginsuc) (chunks : List (List FrameInfo)) (live : List FrameInfo)
    (tr : List (Fsm γ × Event)) (c : Fsm γ) : Prop where
  /-- The state machine is started by the message that brings the last cached frame, and not
  before. -/
  started : c.pace.phase ≠ .waiting ↔
    messages tr ≠ [] ∧ msg.frameCacheNum ≤ ((messages tr).flatMap Event.frames).length
  /-- Then the seed is set, once. -/
  seeded : seeds tr = if c.pace.phase = .waiting then [] else [msg.rndseed]
  /-- The fast-forward belongs to that message: no other is handled before its end. -/
  atMessage : c.pace.phase = .fastForward → ∃ pre m, messages tr = pre ++ [m] ∧
    (pre = [] ∨ (pre.flatMap Event.frames).length < msg.frameCacheNum)
  /-- `FSM_OPEN` is set once, at the end of the fast-forward. -/
  opened : opens tr = if c.pace.phase = .opened then 1 else 0
  /-- At that moment the simulated clock stands where the server's stood. -/
  window : ∀ x ∈ tr, x.2 = .fsmOpen → x.1.pace.phase = .fastForward ∧ 10 ∣ x.1.pace.passTime ∧
    (msg.timestamp : ℤ) - msg.initTime ≤ x.1.pace.passTime ∧
    (x.1.pace.passTime : ℤ) < (msg.timestamp : ℤ) - msg.initTime + 10
  /-- From the end of the first call of `update_logic` by the main thread on, every cached frame has
  been applied or the game is over. -/
  caughtUp : Called tr → c.pace.inUpdate = false →
    c.game.gameOver = true ∨ chunks.flatten <+: applied tr
  /-- The frames are applied in the order of the cache, then as they came, each at most once. -/
  inOrder : applied tr <+: chunks.flatten ++ live
  /-- So frames that are numbered in order are applied in the order of their numbers. -/
  numbered : (chunks.flatten ++ live).Pairwise (fun f f' => f.frameNumber < f'.frameNumber) →
    (applied tr).Pairwise fun f f' => f.frameNumber < f'.frameNumber
  /-- No frame has been applied that is not due. -/
  due : ∀ f ∈ applied tr, (f.timestamp : ℤ) - msg.initTime ≤ c.pace.passTime

/-! ## Traces -/

theorem messages_snoc (tr : List (Fsm γ × Event)) (c : Fsm γ) (e : Event) :
    messages (tr ++ [(c, e)]) = messages tr ++ if e.isMessage then [e] else [] := by
  simp [messages, List.filter_singleton]

theorem seeds_snoc (tr : List (Fsm γ × Event)) (c : Fsm γ) (e : Event) :
    seeds (tr ++ [(c, e)]) = seeds tr ++ c.seedsBy e := by
  simp [seeds]

theorem opens_snoc (tr : List (Fsm γ × Event)) (c : Fsm γ) (e : Event) :
    opens (tr ++ [(c, e)]) = opens tr + if e = .fsmOpen then 1 else 0 := by
  simp [opens, List.countP_append, List.countP_singleton]

/-- The main thread has called `update_logic` before, or does so now. -/
theorem called_snoc {tr : List (Fsm γ × Event)} {c : Fsm γ} {e : Event} :
    Called (tr ++ [(c, e)]) ↔ Called tr ∨ (e = .updateLogic ∧ c.pace.phase = .opened) := by
  simp [Called, or_and_right, exists_or]

/-! ## What a message brings -/

/-- All messages together bring the cache and the live frames. -/
theorem delivery_frames (chunks : List (List FrameInfo)) (live : List FrameInfo) :
    (delivery chunks live).flatMap Event.frames = chunks.flatten ++ live := by
  have hchunks : (chunks.map Event.frameCacheData).flatMap Event.frames = chunks.flatten := by
    rw [List.flatMap_map, List.flatten_eq_flatMap]
    rfl
  have hlive : (live.map Event.frameData).flatMap Event.frames = live := by
    rw [List.flatMap_map]
    exact List.flatMap_singleton' live
  rw [delivery, List.flatMap_cons, List.flatMap_append, hchunks, hlive]
  rfl

/-- The cached frames are what the first messages bring. -/
theorem chunks_frames (chunks : List (List FrameInfo)) :
    (delivery chunks []).flatMap Event.frames = chunks.flatten := by
  rw [delivery_frames, List.append_nil]

/-- The messages are those of the cache and then those of the live frames. -/
theorem delivery_append (chunks : List (List FrameInfo)) (live : List FrameInfo) :
    delivery chunks live = delivery chunks [] ++ live.map Event.frameData := by
  simp [delivery]

/-- A live frame is no message of the cache. -/
theorem frameData_notMem (chunks : List (List FrameInfo)) (data : FrameInfo) :
    Event.frameData data ∉ delivery chunks [] := by
  simp [delivery]

/-- The messages up to a chunk bring cached frames only. -/
theorem frames_of_chunk {chunks : List (List FrameInfo)} {live frames : List FrameInfo}
    {pre : List Event} (h : pre ++ [Event.frameCacheData frames] <+: delivery chunks live) :
    ((pre ++ [Event.frameCacheData frames]).flatMap Event.frames).length
      ≤ chunks.flatten.length := by
  rw [delivery_append] at h
  have hcache : pre ++ [Event.frameCacheData frames] <+: delivery chunks [] := by
    rcases List.prefix_or_prefix_of_prefix h (List.prefix_append _ _) with hpart | hall
    · exact hpart
    · rcases List.prefix_concat_iff.mp hall with heq | ⟨post, rfl⟩
      · exact heq ▸ List.prefix_rfl
      · -- behind the cache there are live frames only
        rw [List.append_assoc] at h
        have hlive := (List.prefix_append_right_inj _).mp h
        have hmem := hlive.subset (List.mem_append_right post List.mem_cons_self)
        simp at hmem
  rw [← chunks_frames]
  exact (hcache.flatMap Event.frames).length_le

/-- The messages before a live frame bring the whole cache. -/
theorem frames_of_live {chunks : List (List FrameInfo)} {live : List FrameInfo} {data : FrameInfo}
    {pre : List Event} (h : pre ++ [Event.frameData data] <+: delivery chunks live) :
    pre ≠ [] ∧ chunks.flatten.length ≤ (pre.flatMap Event.frames).length := by
  rw [delivery_append] at h
  have hnot := frameData_notMem chunks data
  have hcache : delivery chunks [] <+: pre := by
    rcases List.prefix_or_prefix_of_prefix h (List.prefix_append _ _) with hpart | hall
    · exact absurd (hpart.subset (List.mem_append_right pre List.mem_cons_self)) hnot
    · rcases List.prefix_concat_iff.mp hall with heq | hpart
      · refine absurd ?_ hnot
        rw [heq]
        exact List.mem_append_right pre List.mem_cons_self
      · exact hpart
  constructor
  · rintro rfl
    exact absurd (List.prefix_nil.mp hcache) (by simp [delivery])
  · rw [← chunks_frames]
    exact (hcache.flatMap Event.frames).length_le

/-! ## The clock and the counters of a run -/

section Runs

variable [PyRandom γ] [DictOrder ℕ]

omit [PyRandom γ] [DictOrder ℕ] in
/-- The seeds a move sets. -/
theorem seedsBy_of_move {c : Fsm γ} {p' : Pace} {e : Event} {a : Action}
    (hm : c.pace.Move c.game.gameOver e p' a) : c.seedsBy e = a.seeds := by
  rw [seedsBy, hm.step]

/-- **Run lemma of the clock.** -/
theorem onTime_run {pid : Pid} {gen : γ} {msg : Loginsuc} {tr : List (Fsm γ × Event)} {c : Fsm γ}
    (hle : msg.initTime ≤ msg.timestamp) (h : Run step (Fsm.init pid gen msg) tr c) :
    c.pace.OnTime msg := by
  refine h.invariant (P := fun _ c => c.pace.OnTime msg) (Pace.OnTime.init msg) ?_
  intro tr c e c' _ hc hstep
  obtain ⟨a, hm, -⟩ := move_of_step hstep
  exact hc.move hle hm

/-- The state machine is seeded when it is started. -/
theorem seeds_run {pid : Pid} {gen : γ} {msg : Loginsuc} {tr : List (Fsm γ × Event)} {c : Fsm γ}
    (hle : msg.initTime ≤ msg.timestamp) (h : Run step (Fsm.init pid gen msg) tr c) :
    seeds tr = if c.pace.phase = .waiting then [] else [msg.rndseed] := by
  refine h.invariant
    (P := fun tr c => seeds tr = if c.pace.phase = .waiting then [] else [msg.rndseed]) rfl ?_
  intro tr c e c' hrun hc hstep
  obtain ⟨a, hm, -⟩ := move_of_step hstep
  have htime := onTime_run hle hrun
  rw [seeds_snoc, hc, seedsBy_of_move hm]
  obtain ⟨p', g'⟩ := c'
  cases hm with
  | started hphase hdata hnum =>
      obtain ⟨hw, rfl⟩ := htime.of_data hdata
      simp [hw, Action.seeds]
  | opened hphase => simp [hphase, Action.seeds]
  | _ => exact List.append_nil _

/-- `FSM_OPEN` is set when the fast-forward ends. -/
theorem opens_run {pid : Pid} {gen : γ} {msg : Loginsuc} {tr : List (Fsm γ × Event)} {c : Fsm γ}
    (hle : msg.initTime ≤ msg.timestamp) (h : Run step (Fsm.init pid gen msg) tr c) :
    opens tr = if c.pace.phase = .opened then 1 else 0 := by
  refine h.invariant (P := fun tr c => opens tr = if c.pace.phase = .opened then 1 else 0) rfl ?_
  intro tr c e c' hrun hc hstep
  obtain ⟨a, hm, -⟩ := move_of_step hstep
  have htime := onTime_run hle hrun
  rw [opens_snoc, hc]
  obtain ⟨p', g'⟩ := c'
  cases hm with
  | started hphase hdata hnum =>
      obtain ⟨hw, -⟩ := htime.of_data hdata
      simp [hw]
  | opened hphase => simp [hphase]
  | _ => rfl

/-- No frame is applied before it is due. -/
theorem due_run {pid : Pid} {gen : γ} {msg : Loginsuc} {tr : List (Fsm γ × Event)} {c : Fsm γ}
    (hle : msg.initTime ≤ msg.timestamp) (h : Run step (Fsm.init pid gen msg) tr c) :
    ∀ f ∈ applied tr, (f.timestamp : ℤ) - msg.initTime ≤ c.pace.passTime := by
  refine h.invariant (P := fun tr c =>
    ∀ f ∈ applied tr, (f.timestamp : ℤ) - msg.initTime ≤ c.pace.passTime) (fun f hf => ?_) ?_
  · cases hf
  · intro tr c e c' hrun hc hstep f hf
    obtain ⟨a, hm, -, happlied⟩ := move_of_step hstep
    have hclock := hm.passTime_le
    rw [applied_snoc, happlied, List.mem_append] at hf
    rcases hf with hold | hnew
    · have := hc f hold
      omega
    · obtain ⟨p', g'⟩ := c'
      cases hm with
      | applied hloop hqueue hdue =>
          obtain rfl := List.mem_singleton.mp hnew
          have htime := onTime_run hle hrun
          have hinit := (htime.started (htime.started_of_inUpdate hloop)).2.1
          rw [Pace.due, hinit] at hdue
          exact of_decide_eq_true hdue
      | _ => cases hnew

/-- When `FSM_OPEN` is set the simulated clock stands where the server's stood. -/
theorem window_run {pid : Pid} {gen : γ} {msg : Loginsuc} {tr : List (Fsm γ × Event)} {c : Fsm γ}
    (hle : msg.initTime ≤ msg.timestamp) (h : Run step (Fsm.init pid gen msg) tr c) :
    ∀ x ∈ tr, x.2 = .fsmOpen → x.1.pace.phase = .fastForward ∧ 10 ∣ x.1.pace.passTime ∧
      (msg.timestamp : ℤ) - msg.initTime ≤ x.1.pace.passTime ∧
      (x.1.pace.passTime : ℤ) < (msg.timestamp : ℤ) - msg.initTime + 10 := by
  rintro ⟨c₁, e⟩ hx rfl
  obtain ⟨pre, post, hsplit⟩ := List.append_of_mem hx
  obtain ⟨c₂, hstep⟩ := h.enabled hsplit
  have htime := onTime_run hle (h.before hsplit)
  obtain ⟨a, hm, -⟩ := move_of_step hstep
  obtain ⟨p', g'⟩ := c₂
  cases hm with
  | opened hphase hloop hdt =>
      have hs : c₁.pace.phase ≠ .waiting := by
        rw [hphase]
        decide
      rw [(htime.started hs).2.2] at hdt
      exact ⟨hphase, htime.tens, hdt, htime.fastForward hphase⟩

/-! ## The message that brings the last cached frame -/

/-- What the messages of a run have brought, and what the client made of it. -/
structure Brought (msg : Loginsuc) (tr : List (Fsm γ × Event)) (c : Fsm γ) : Prop where
  /-- No frame is dropped. -/
  received : received tr = (messages tr).flatMap Event.frames
  /-- A waiting client lacks cached frames. -/
  waiting : c.pace.phase = .waiting →
    messages tr = [] ∨ ((messages tr).flatMap Event.frames).length < msg.frameCacheNum
  /-- A started client has all of them. -/
  started : c.pace.phase ≠ .waiting →
    messages tr ≠ [] ∧ msg.frameCacheNum ≤ ((messages tr).flatMap Event.frames).length
  /-- The fast-forward belongs to the message that brought the last of them. -/
  atMessage : c.pace.phase = .fastForward → ∃ pre m, messages tr = pre ++ [m] ∧
    (pre = [] ∨ (pre.flatMap Event.frames).length < msg.frameCacheNum)

omit [PyRandom γ] [DictOrder ℕ] in
/-- An event that is no message and leaves the phase as it is brings nothing. -/
theorem Brought.of_quiet {msg : Loginsuc} {tr : List (Fsm γ × Event)} {c c' : Fsm γ} {e : Event}
    (h : Brought msg tr c) (he : e.isMessage = false) (hrec : c.pace.received e = [])
    (hphase : c'.pace.phase = c.pace.phase) : Brought msg (tr ++ [(c, e)]) c' := by
  have hmessages : messages (tr ++ [(c, e)]) = messages tr := by simp [messages_snoc, he]
  have hreceived : Fsm.received (tr ++ [(c, e)]) = Fsm.received tr := by
    rw [received_snoc, hrec, List.append_nil]
  refine ⟨?_, ?_, ?_, ?_⟩
  · rw [hreceived, hmessages]
    exact h.received
  · rw [hphase, hmessages]
    exact h.waiting
  · rw [hphase, hmessages]
    exact h.started
  · rw [hphase, hmessages]
    exact h.atMessage

/-- What a waiting client has in its queue is what the messages brought. -/
theorem Brought.queue {pid : Pid} {gen : γ} {msg : Loginsuc} {tr : List (Fsm γ × Event)} {c : Fsm γ}
    (h : Brought msg tr c) (hrun : Run step (Fsm.init pid gen msg) tr c)
    (hw : c.pace.phase = .waiting) :
    c.pace.frameQueue = (messages tr).flatMap Event.frames := by
  have hqueue := received_eq hrun
  rw [((follows_run hrun).waiting hw).2.1, List.nil_append] at hqueue
  rw [← hqueue, h.received]

/-- **Step lemma of the messages.** -/
theorem Brought.step {pid : Pid} {gen : γ} {msg : Loginsuc} {chunks : List (List FrameInfo)}
    {live : List FrameInfo} {tr : List (Fsm γ × Event)} {c c' : Fsm γ} {e : Event}
    (hjoin : LateJoin msg chunks) (h : Brought msg tr c)
    (hrun : Run Fsm.step (Fsm.init pid gen msg) tr c)
    (hm : messages (tr ++ [(c, e)]) <+: delivery chunks live) (hstep : c.step e = some c') :
    Brought msg (tr ++ [(c, e)]) c' := by
  obtain ⟨a, hmove, -⟩ := move_of_step hstep
  have htime := onTime_run hjoin.initTime_le hrun
  obtain ⟨p', g'⟩ := c'
  cases hmove with
  | @dropped frames hphase hdata =>
      have hs : c.pace.phase ≠ .waiting := fun hw => by
        rw [(htime.waiting hw).2.1] at hdata
        cases hdata
      have hmessages : messages (tr ++ [(c, .frameCacheData frames)]) =
          messages tr ++ [.frameCacheData frames] := messages_snoc _ _ _
      -- all cached frames are there, so the chunk is empty
      obtain ⟨hsome, hnum⟩ := h.started hs
      rw [hmessages] at hm
      have hle := frames_of_chunk hm
      rw [List.flatMap_append, List.length_append, ← hjoin.num] at hle
      have hnil : frames = [] := by
        refine List.eq_nil_of_length_eq_zero ?_
        simp only [List.flatMap_singleton, Event.frames] at hle
        omega
      subst hnil
      have hframes : (messages tr ++ [Event.frameCacheData []]).flatMap Event.frames =
          (messages tr).flatMap Event.frames := by
        rw [List.flatMap_append]
        exact List.append_nil _
      refine ⟨?_, fun hw => absurd hw hs, fun _ => ?_, fun hff => absurd hff hphase⟩
      · rw [received_snoc, hmessages, hframes, h.received, Pace.received, hdata]
        exact List.append_nil _
      · rw [hmessages, hframes]
        exact ⟨by simp, hnum⟩
  | @stored frames msg' hphase hdata hnum =>
      obtain ⟨hw, rfl⟩ := htime.of_data hdata
      have hmessages : messages (tr ++ [(c, .frameCacheData frames)]) =
          messages tr ++ [.frameCacheData frames] := messages_snoc _ _ _
      have hframes : (messages tr ++ [Event.frameCacheData frames]).flatMap Event.frames =
          c.pace.frameQueue ++ frames := by
        rw [List.flatMap_append, h.queue hrun hw]
        simp [Event.frames]
      refine ⟨?_, fun _ => Or.inr ?_, fun hs => absurd hw hs, fun hff => absurd hff hphase⟩
      · rw [received_snoc, hmessages, hframes, h.received, ← h.queue hrun hw, Pace.received, hdata]
        rfl
      · rw [hmessages, hframes]
        exact hnum
  | @started frames msg' hphase hdata hnum =>
      obtain ⟨hw, rfl⟩ := htime.of_data hdata
      have hmessages : messages (tr ++ [(c, .frameCacheData frames)]) =
          messages tr ++ [.frameCacheData frames] := messages_snoc _ _ _
      have hframes : (messages tr ++ [Event.frameCacheData frames]).flatMap Event.frames =
          c.pace.frameQueue ++ frames := by
        rw [List.flatMap_append, h.queue hrun hw]
        simp [Event.frames]
      refine ⟨?_, fun hw' => Phase.noConfusion hw', fun _ => ?_, fun _ => ?_⟩
      · rw [received_snoc, hmessages, hframes, h.received, ← h.queue hrun hw, Pace.received, hdata]
        rfl
      · rw [hmessages, hframes]
        exact ⟨by simp, hnum⟩
      · rw [hmessages]
        exact ⟨_, _, rfl, h.waiting hw⟩
  | @live data hphase =>
      have hmessages : messages (tr ++ [(c, .frameData data)]) =
          messages tr ++ [.frameData data] := messages_snoc _ _ _
      rw [hmessages] at hm
      obtain ⟨hsome, hnum⟩ := frames_of_live hm
      rw [← hjoin.num] at hnum
      have hs : c.pace.phase ≠ .waiting := fun hw => by
        rcases h.waiting hw with hnil | hlt
        · exact hsome hnil
        · omega
      refine ⟨?_, fun hw => absurd hw hs, fun _ => ?_, fun hff => absurd hff hphase⟩
      · rw [received_snoc, hmessages, h.received, List.flatMap_append]
        simp [Pace.received, Event.frames]
      · rw [hmessages, List.flatMap_append, List.length_append]
        exact ⟨by simp, Nat.le_add_right_of_le hnum⟩
  | called => exact h.of_quiet rfl rfl rfl
  | applied => exact h.of_quiet rfl rfl rfl
  | left => exact h.of_quiet rfl rfl rfl
  | opened hphase =>
      have hs : c.pace.phase ≠ .waiting := by
        rw [hphase]
        decide
      have hmessages : messages (tr ++ [(c, .fsmOpen)]) = messages tr := by simp [messages_snoc, Event.isMessage]
      refine ⟨?_, fun hw => ?_, fun _ => ?_, fun hff => ?_⟩
      · rw [received_snoc, hmessages, h.received]
        exact List.append_nil _
      · cases hw
      · rw [hmessages]
        exact h.started hs
      · cases hff

/-- **Run lemma of the messages.** -/
theorem brought_run {pid : Pid} {gen : γ} {msg : Loginsuc} {chunks : List (List FrameInfo)}
    {live : List FrameInfo} {tr : List (Fsm γ × Event)} {c : Fsm γ} (hjoin : LateJoin msg chunks)
    (h : Run step (Fsm.init pid gen msg) tr c) (hm : messages tr <+: delivery chunks live) :
    Brought msg tr c := by
  induction h with
  | nil =>
      refine ⟨rfl, fun _ => Or.inl rfl, fun hs => absurd rfl hs, fun hff => ?_⟩
      cases hff
  | snoc hrun hstep ih =>
      have hm' := hm
      rw [messages_snoc] at hm'
      exact (ih ((List.prefix_append _ _).trans hm')).step hjoin hrun hm hstep

/-! ## The frames that were missed -/

/-- A client receives the cached frames and then the live ones. -/
theorem received_of_delivery {pid : Pid} {gen : γ} {msg : Loginsuc}
    {chunks : List (List FrameInfo)} {live : List FrameInfo} {tr : List (Fsm γ × Event)} {c : Fsm γ}
    (hjoin : LateJoin msg chunks) (h : Run step (Fsm.init pid gen msg) tr c)
    (hm : messages tr <+: delivery chunks live) : received tr <+: chunks.flatten ++ live := by
  rw [(brought_run hjoin h hm).received, ← delivery_frames]
  exact hm.flatMap Event.frames

/-- A started client has received the whole cache. -/
theorem cache_received {pid : Pid} {gen : γ} {msg : Loginsuc} {chunks : List (List FrameInfo)}
    {live : List FrameInfo} {tr : List (Fsm γ × Event)} {c : Fsm γ} (hjoin : LateJoin msg chunks)
    (h : Run step (Fsm.init pid gen msg) tr c) (hm : messages tr <+: delivery chunks live)
    (hs : c.pace.phase ≠ .waiting) : chunks.flatten <+: received tr := by
  have hbrought := brought_run hjoin h hm
  have hnum := (hbrought.started hs).2
  rw [← hbrought.received, hjoin.num] at hnum
  exact List.prefix_of_prefix_length_le (List.prefix_append _ _) (received_of_delivery hjoin h hm) hnum

/-- Past the fast-forward, every cached frame is due: one that has not been applied is in the queue,
and the first of these would be applied by the next turn of the loop. -/
theorem cache_applied {pid : Pid} {gen : γ} {msg : Loginsuc} {chunks : List (List FrameInfo)}
    {live : List FrameInfo} {tr : List (Fsm γ × Event)} {c : Fsm γ} (hjoin : LateJoin msg chunks)
    (h : Run step (Fsm.init pid gen msg) tr c) (hm : messages tr <+: delivery chunks live)
    (ho : c.pace.phase = .opened)
    (hnot : ∀ data rest, c.pace.frameQueue = data :: rest → c.pace.due data = false) :
    chunks.flatten <+: applied tr := by
  have hs : c.pace.phase ≠ .waiting := by
    rw [ho]
    decide
  have htime := onTime_run hjoin.initTime_le h
  have hcache := cache_received hjoin h hm hs
  rw [received_eq h] at hcache
  -- Suppose a cached frame is missing: then the first one that is heads the queue, and it is due.
  rcases List.prefix_or_prefix_of_prefix hcache (List.prefix_append _ _) with hall | ⟨rest, hrest⟩
  · exact hall
  cases rest with
  | nil =>
      rw [List.append_nil] at hrest
      rw [hrest]
  | cons data rest =>
      exfalso
      rw [← hrest] at hcache
      obtain ⟨post, hqueue⟩ := (List.prefix_append_right_inj _).mp hcache
      have hmem : data ∈ chunks.flatten := by
        rw [← hrest]
        exact List.mem_append_right _ List.mem_cons_self
      have hstamp := hjoin.cached data hmem
      have hpast := htime.opened ho
      have hdue := hnot data _ hqueue.symm
      rw [Pace.due, (htime.started hs).2.1, decide_eq_false_iff_not] at hdue
      omega

/-- **Run lemma of the first call.** -/
theorem caughtUp_run {pid : Pid} {gen : γ} {msg : Loginsuc} {chunks : List (List FrameInfo)}
    {live : List FrameInfo} {tr : List (Fsm γ × Event)} {c : Fsm γ} (hjoin : LateJoin msg chunks)
    (h : Run step (Fsm.init pid gen msg) tr c) (hm : messages tr <+: delivery chunks live) :
    Called tr → c.pace.phase = .opened ∧ (c.pace.inUpdate = false →
      c.game.gameOver = true ∨ chunks.flatten <+: applied tr) := by
  induction h with
  | nil =>
      rintro ⟨x, hx, -⟩
      cases hx
  | snoc hrun hstep ih =>
      rename_i tr c c' e
      rw [messages_snoc] at hm
      have hprev := (List.prefix_append _ _).trans hm
      have ih := ih hprev
      obtain ⟨a, hmove, hcall, happlied⟩ := move_of_step hstep
      have htime := onTime_run hjoin.initTime_le hrun
      obtain ⟨p', g'⟩ := c'
      intro hcalled
      have hbefore : e ≠ .updateLogic → Called tr := fun he =>
        (called_snoc.mp hcalled).resolve_right fun hnow => he hnow.1
      rw [applied_snoc, happlied]
      cases hmove with
      | dropped | stored | live =>
          obtain rfl := (Prod.mk.inj (Except.ok.inj hcall)).2
          rw [Action.applied, List.append_nil]
          exact ih (hbefore Event.noConfusion)
      | started hphase hdata =>
          have hw := (htime.of_data hdata).1
          rw [(ih (hbefore Event.noConfusion)).1] at hw
          cases hw
      | called hloop hcaller =>
          obtain rfl := (Prod.mk.inj (Except.ok.inj hcall)).2
          have ho : c.pace.phase = .opened := by
            rcases called_snoc.mp hcalled with hcalled | ⟨-, ho⟩
            · exact (ih hcalled).1
            · exact ho
          refine ⟨ho, fun hout => ?_⟩
          -- a call that does not enter the loop finds the game over or the queue empty
          rw [Action.applied, List.append_nil]
          cases hover : c.game.gameOver with
          | true => exact Or.inl rfl
          | false =>
              refine Or.inr (cache_applied hjoin hrun hprev ho fun data rest hqueue => ?_)
              simp [hover, hqueue] at hout
      | applied hloop =>
          refine ⟨(ih (hbefore Event.noConfusion)).1, fun hout => ?_⟩
          exact absurd (hloop.symm.trans hout) Bool.noConfusion
      | left hloop hnot =>
          have ho := (ih (hbefore Event.noConfusion)).1
          refine ⟨ho, fun _ => Or.inr ?_⟩
          rw [Action.applied, List.append_nil]
          exact cache_applied hjoin hrun hprev ho hnot
      | opened hphase =>
          rw [(ih (hbefore Event.noConfusion)).1] at hphase
          cases hphase

/-- **What holds in every run.** -/
theorem handsOff_run {pid : Pid} {gen : γ} {msg : Loginsuc} {chunks : List (List FrameInfo)}
    {live : List FrameInfo} {tr : List (Fsm γ × Event)} {c : Fsm γ} (hjoin : LateJoin msg chunks)
    (h : Run step (Fsm.init pid gen msg) tr c) (hm : messages tr <+: delivery chunks live) :
    HandsOff msg chunks live tr c := by
  have hbrought := brought_run hjoin h hm
  have horder : applied tr <+: chunks.flatten ++ live := by
    refine List.IsPrefix.trans ?_ (received_of_delivery hjoin h hm)
    rw [received_eq h]
    exact List.prefix_append _ _
  refine ⟨⟨hbrought.started, fun ⟨hsome, hnum⟩ hw => ?_⟩, seeds_run hjoin.initTime_le h,
    hbrought.atMessage, opens_run hjoin.initTime_le h, window_run hjoin.initTime_le h,
    fun hcalled => (caughtUp_run hjoin h hm hcalled).2, horder, fun hno => hno.sublist horder.sublist,
    due_run hjoin.initTime_le h⟩
  rcases hbrought.waiting hw with hnil | hlt
  · exact hsome hnil
  · omega

/-! ## The end of the fast-forward -/

/-- One turn of the loop of `update_logic`, whatever else may happen meanwhile. -/
def turn (c : Fsm γ) (_ : Unit) : Option (Fsm γ) := c.step .drain

/-- **A turn of the loop raises if and only if a frame it comes to apply cannot be read.** -/
theorem drain_iff {pid : Pid} {gen : γ} {msg : Loginsuc} {tr : List (Fsm γ × Event)} {c : Fsm γ}
    (hle : msg.initTime ≤ msg.timestamp) (hseed : msg.rndseed ≠ 0)
    (h : Run step (Fsm.init pid gen msg) tr c) (hloop : c.pace.inUpdate = true) :
    (∃ c', c.step .drain = some c') ↔ c.NextReadable := by
  have hs := (onTime_run hle h).started_of_inUpdate hloop
  constructor
  · rintro ⟨c', hstep⟩ - data rest hqueue hdue
    obtain ⟨a, hm, hcall, -⟩ := move_of_step hstep
    obtain ⟨p', g'⟩ := c'
    cases hm with
    | applied _ hqueue' =>
        obtain ⟨rfl, rfl⟩ := List.cons.inj (hqueue.symm.trans hqueue')
        exact (updateFrame_ok_iff_of_run hseed h hs data).mp ⟨g', hcall⟩
    | left _ hnot =>
        rw [hnot data rest hqueue] at hdue
        cases hdue
  · intro hread
    by_cases hhead : ∃ data rest, c.pace.frameQueue = data :: rest ∧ c.pace.due data = true
    · obtain ⟨data, rest, hqueue, hdue⟩ := hhead
      obtain ⟨g, hg⟩ :=
        (updateFrame_ok_iff_of_run hseed h hs data).mpr (hread hloop data rest hqueue hdue)
      exact ⟨⟨_, g⟩, step_eq_some.mpr ⟨_, (Pace.Move.applied hloop hqueue hdue).step, hg⟩⟩
    · obtain ⟨⟨⟩, g, hg, -⟩ := GameObj.ensures_finish c.game (running_run hseed h hs)
      refine ⟨⟨_, g⟩, step_eq_some.mpr ⟨_, (Pace.Move.left hloop fun data rest hqueue => ?_).step, hg⟩⟩
      by_contra hdue
      exact hhead ⟨data, rest, hqueue, by simpa using hdue⟩

/-- **In the fast-forward an event is enabled if and only if the next frame can be read.** -/
theorem goes_on_iff {pid : Pid} {gen : γ} {msg : Loginsuc} {tr : List (Fsm γ × Event)} {c : Fsm γ}
    (hle : msg.initTime ≤ msg.timestamp) (hseed : msg.rndseed ≠ 0)
    (h : Run step (Fsm.init pid gen msg) tr c) (hff : c.pace.phase = .fastForward) :
    (∃ e c', c.step e = some c') ↔ c.NextReadable := by
  cases hloop : c.pace.inUpdate with
  | true =>
      rw [← drain_iff hle hseed h hloop]
      constructor
      · rintro ⟨e, c', hstep⟩
        obtain ⟨a, hm, -⟩ := move_of_step hstep
        have he := hm.of_fastForward hff
        rw [if_pos hloop] at he
        exact ⟨c', he ▸ hstep⟩
      · rintro ⟨c', hstep⟩
        exact ⟨_, c', hstep⟩
  | false =>
      refine iff_of_true ?_ fun hloop' => absurd (hloop.symm.trans hloop') Bool.noConfusion
      by_cases hlt : (c.pace.passTime : ℤ) < c.pace.dt
      · have hm : c.pace.Move c.game.gameOver .updateLogic (c.pace.updateLogic c.game.gameOver)
            .nothing := .called hloop (Or.inr ⟨hff, hlt⟩)
        exact ⟨_, ⟨_, c.game⟩, step_eq_some.mpr ⟨_, hm.step, rfl⟩⟩
      · have hm : c.pace.Move c.game.gameOver .fsmOpen { c.pace with phase := .opened } .nothing :=
          .opened hff hloop (not_lt.mp hlt)
        exact ⟨_, ⟨_, c.game⟩, step_eq_some.mpr ⟨_, hm.step, rfl⟩⟩

/-- The client was started and came to its state by a run. -/
def Reached (pid : Pid) (gen : γ) (msg : Loginsuc) (c : Fsm γ) : Prop :=
  (∃ tr, Run step (Fsm.init pid gen msg) tr c) ∧ c.pace.phase ≠ .waiting

/-- Each step of such a client leads to another one, and never back into the fast-forward. -/
theorem Reached.step {pid : Pid} {gen : γ} {msg : Loginsuc} {c c' : Fsm γ} {e : Event}
    (hle : msg.initTime ≤ msg.timestamp) (h : c.Reached pid gen msg) (hstep : c.step e = some c') :
    c'.Reached pid gen msg ∧ (c'.pace.phase = .fastForward → c.pace.phase = .fastForward) := by
  obtain ⟨⟨tr, hrun⟩, hs⟩ := h
  obtain ⟨a, hm, -⟩ := move_of_step hstep
  have hphase := (onTime_run hle hrun).phase_move hs hm
  exact ⟨⟨⟨_, hrun.snoc hstep⟩, hphase.1⟩, hphase.2⟩

/-- **When the fast-forward ends.** From each of its states `FSM_OPEN` is set if and only if every
frame the fast-forward comes to apply can be read. -/
theorem opens_iff {pid : Pid} {gen : γ} {msg : Loginsuc} {tr : List (Fsm γ × Event)} {c : Fsm γ}
    (hle : msg.initTime ≤ msg.timestamp) (hseed : msg.rndseed ≠ 0)
    (h : Run step (Fsm.init pid gen msg) tr c) (hff : c.pace.phase = .fastForward) :
    (∃ tr' c', Run step c tr' c' ∧ c'.pace.phase = .opened) ↔
      ∀ tr' c', Run step c tr' c' → c'.pace.phase = .fastForward → c'.NextReadable := by
  have hreached : c.Reached pid gen msg := by
    refine ⟨⟨tr, h⟩, ?_⟩
    rw [hff]
    decide
  have hI : ∀ (s : Fsm γ) e s', s.Reached pid gen msg → s.step e = some s' →
      s'.Reached pid gen msg := fun s e s' hs hstep => (hs.step hle hstep).1
  have hback : ∀ (s : Fsm γ) e s', s.Reached pid gen msg → s.step e = some s' →
      s'.pace.phase = .fastForward → s.pace.phase = .fastForward :=
    fun s e s' hs hstep => (hs.step hle hstep).2
  -- In the fast-forward one event is enabled at most, each one lowers what is left, and one is
  -- enabled exactly when the next frame can be read: the run is forced.
  have hdet : ∀ (s : Fsm γ) e e' s₁ s₂, s.pace.phase = .fastForward → s.step e = some s₁ →
      s.step e' = some s₂ → e = e' := by
    intro s e e' s₁ s₂ hs h₁ h₂
    obtain ⟨a₁, hm₁, -⟩ := move_of_step h₁
    obtain ⟨a₂, hm₂, -⟩ := move_of_step h₂
    exact (hm₁.of_fastForward hs).trans (hm₂.of_fastForward hs).symm
  have hon : ∀ s : Fsm γ, s.Reached pid gen msg → s.pace.phase = .fastForward →
      ((∃ e s', s.step e = some s') ↔ s.NextReadable) := by
    rintro s ⟨⟨tr, hrun⟩, -⟩ hs
    exact goes_on_iff hle hseed hrun hs
  have hless : ∀ (s : Fsm γ) e s', s.pace.phase = .fastForward → s.step e = some s' →
      s'.pace.phase = .fastForward → s'.pace.left < s.pace.left := by
    intro s e s' hs hstep hs'
    obtain ⟨a, hm, -⟩ := move_of_step hstep
    exact hm.left_lt hs hs'
  rw [← Run.leads_out_iff (fun s : Fsm γ => s.pace.left) hI hback hdet hon hless hreached hff]
  -- A run that leaves the fast-forward can only reach the opened game.
  refine exists_congr fun tr' => exists_congr fun c' => and_congr_right fun hrun => ?_
  have hs' := (hrun.through hI hback hreached).1.2
  cases hphase : c'.pace.phase with
  | waiting => exact absurd hphase hs'
  | fastForward => simp
  | opened => simp

/-- **When a call of `update_logic` returns.** Without new frames, it does if and only if every frame
it comes to apply can be read. -/
theorem returns_iff {pid : Pid} {gen : γ} {msg : Loginsuc} {tr : List (Fsm γ × Event)} {c : Fsm γ}
    (hle : msg.initTime ≤ msg.timestamp) (hseed : msg.rndseed ≠ 0)
    (h : Run step (Fsm.init pid gen msg) tr c) (hloop : c.pace.inUpdate = true) :
    (∃ tr' c', Run turn c tr' c' ∧ c'.pace.inUpdate = false) ↔
      ∀ tr' c', Run turn c tr' c' → c'.NextReadable := by
  have hI : ∀ (s : Fsm γ) u s', (∃ tr, Run step (Fsm.init pid gen msg) tr s) → s.turn u = some s' →
      ∃ tr, Run step (Fsm.init pid gen msg) tr s' := by
    rintro s u s' ⟨tr, hrun⟩ hturn
    exact ⟨_, hrun.snoc hturn⟩
  -- A turn of the loop either leaves it or shortens the queue.
  have hmove : ∀ (s : Fsm γ) u s', s.turn u = some s' → s.pace.inUpdate = true ∧
      (s'.pace.inUpdate = true → s'.pace.frameQueue.length < s.pace.frameQueue.length) := by
    intro s u s' hturn
    obtain ⟨a, hm, -⟩ := move_of_step hturn
    obtain ⟨p', g'⟩ := s'
    cases hm with
    | applied hloop hqueue => exact ⟨hloop, fun _ => by simp [hqueue]⟩
    | left hloop => exact ⟨hloop, fun hloop' => Bool.noConfusion hloop'⟩
  have hon : ∀ s : Fsm γ, (∃ tr, Run step (Fsm.init pid gen msg) tr s) → s.pace.inUpdate = true →
      ((∃ u s', s.turn u = some s') ↔ s.NextReadable) := by
    rintro s ⟨tr, hrun⟩ hs
    rw [← drain_iff hle hseed hrun hs]
    exact ⟨fun ⟨_, s', hturn⟩ => ⟨s', hturn⟩, fun ⟨s', hturn⟩ => ⟨(), s', hturn⟩⟩
  have hiff := Run.leads_out_iff (fun s : Fsm γ => s.pace.frameQueue.length) hI
    (fun s u s' _ hturn _ => (hmove s u s' hturn).1) (fun _ _ _ _ _ _ _ _ => rfl) hon
    (fun s u s' _ hturn => (hmove s u s' hturn).2) ⟨tr, h⟩ hloop
  simp only [Bool.not_eq_true] at hiff
  rw [hiff]
  refine forall_congr' fun tr' => forall_congr' fun c' => forall_congr' fun _ => ?_
  exact ⟨fun hread hloop' => hread hloop' hloop', fun hread _ => hread⟩

/-- A waiting client takes every message. -/
theorem waiting_takes {c : Fsm γ} (hw : c.pace.phase = .waiting) {m : Event}
    (hm : m.isMessage = true) : ∃ c', c.step m = some c' := by
  have hphase : c.pace.phase ≠ .fastForward := by
    rw [hw]
    decide
  cases m with
  | frameCacheData frames =>
      cases hdata : c.pace.fsmInitData with
      | none =>
          exact ⟨⟨_, _⟩, step_eq_some.mpr ⟨_, (Pace.Move.dropped hphase hdata).step, rfl⟩⟩
      | some msg =>
          by_cases hnum : msg.frameCacheNum ≤ (c.pace.frameQueue ++ frames).length
          · exact ⟨⟨_, _⟩, step_eq_some.mpr ⟨_, (Pace.Move.started hphase hdata hnum).step, rfl⟩⟩
          · have hlt := Nat.lt_of_not_le hnum
            exact ⟨⟨_, _⟩, step_eq_some.mpr ⟨_, (Pace.Move.stored hphase hdata hlt).step, rfl⟩⟩
  | frameData data =>
      exact ⟨⟨_, _⟩, step_eq_some.mpr ⟨_, (Pace.Move.live hphase).step, rfl⟩⟩
  | updateLogic | drain | fsmOpen => cases hm

/-- **Late-joiner hand-off.** In every run in which a client gets the cached frames in any chunks and
then live frames, at any moments: the state machine is started once, by the message that brings the
last cached frame, the simulated clock ends in the tick where the server's stood, and from the end
of the first call of `update_logic` on the client has caught up or the game is over (`HandsOff`); it
takes every message it waits for. The fast-forward ends and a call of `update_logic` returns if and
only if every frame that they come to apply can be read. -/
theorem late_join {pid : Pid} {gen : γ} {msg : Loginsuc} {chunks : List (List FrameInfo)}
    {live : List FrameInfo} {tr : List (Fsm γ × Event)} {c : Fsm γ} (hjoin : LateJoin msg chunks)
    (h : Run step (Fsm.init pid gen msg) tr c) (hm : messages tr <+: delivery chunks live) :
    HandsOff msg chunks live tr c ∧
    (c.pace.phase = .waiting → ∀ m : Event, m.isMessage = true → ∃ c', c.step m = some c') ∧
    (c.pace.phase = .fastForward →
      ((∃ tr' c', Run step c tr' c' ∧ c'.pace.phase = .opened) ↔
        ∀ tr' c', Run step c tr' c' → c'.pace.phase = .fastForward → c'.NextReadable)) ∧
    (c.pace.inUpdate = true →
      ((∃ tr' c', Run turn c tr' c' ∧ c'.pace.inUpdate = false) ↔
        ∀ tr' c', Run turn c tr' c' → c'.NextReadable)) :=
  ⟨handsOff_run hjoin h hm, fun hw _ hmessage => waiting_takes hw hmessage,
    opens_iff hjoin.initTime_le hjoin.seed h, returns_iff hjoin.initTime_le hjoin.seed h⟩

end Runs

section Recorded

attribute [local instance] DictOrder.byInsertion sprotoWire

/-- Player 2 comes late, gets its two cached frames in two chunks and enters the main loop. -/
def lateJoinEvents : List Event :=
  [.frameCacheData [], .frameCacheData (twoFrames.take 1), .frameCacheData (twoFrames.drop 1),
    .updateLogic, .drain, .drain, .updateLogic, .drain, .drain, .fsmOpen, .updateLogic]

/-- After its first call of `update_logic` player 2 has applied both frames. -/
theorem late_join_two : ∃ tr c, Run step cachedPlayer tr c ∧ c.pace.phase = .opened ∧ opens tr = 1 ∧
    seeds tr = [43] ∧ twoFrames <+: applied tr := by
  have hrun : (runFrom step cachedPlayer lateJoinEvents).any (fun c => c.pace.phase = .opened ∧
      c.pace.inUpdate = false ∧ c.game.gameOver = false) = true := by decide +kernel
  obtain ⟨c, hc, hstate⟩ := Option.any_eq_true _ _ |>.mp hrun
  obtain ⟨ho, hloop, hover⟩ := of_decide_eq_true hstate
  have hjoin : LateJoin ⟨1, 43, 20, 2, 0⟩ [twoFrames.take 1, twoFrames.drop 1] :=
    ⟨by decide, by decide, by decide, by decide⟩
  have hmessages : messages (traceFrom step cachedPlayer lateJoinEvents) <+:
      delivery [twoFrames.take 1, twoFrames.drop 1] [] := by
    rw [messages, traceFrom_map_snd hc]
    decide
  have hcalled : Called (traceFrom step cachedPlayer lateJoinEvents) := by
    have hany : (traceFrom step cachedPlayer lateJoinEvents).any (fun x =>
        x.2 = .updateLogic ∧ x.1.pace.phase = .opened) = true := by decide +kernel
    obtain ⟨x, hx, hlast⟩ := List.any_eq_true.mp hany
    exact ⟨x, hx, of_decide_eq_true hlast⟩
  obtain ⟨hoff, -⟩ := late_join hjoin (run_of_runFrom hc) hmessages
  refine ⟨_, c, run_of_runFrom hc, ho, ?_, ?_, ?_⟩
  · exact hoff.opened.trans (if_pos ho)
  · exact hoff.seeded.trans (if_neg (by rw [ho]; decide))
  · refine (hoff.caughtUp hcalled hloop).resolve_left fun hend => ?_
    rw [hover] at hend
    cases hend

/-- What the server is called with: after the frame with the entry without fields player 2 joins. -/
def lateEvents : List (Clock × FighterWar.Event) :=
  emptyEntryEvents ++
    [(⟨20, 0⟩, .addPlayer 2 ⟨[98], 2, 9, ⟨some 1, some 2, some 3⟩⟩ Spawn.corner)]

/-- A client that comes after the entry without fields was broadcast, with one cached frame. -/
def emptyEntryPlayer : Fsm MersenneTwister := Fsm.init 2 (.seed 2) ⟨1, 43, 20, 1, 0⟩

/-- It gets all its messages and calls `update_logic` in the fast-forward. -/
def emptyEntryJoin : List Event :=
  [.frameCacheData [], .frameCacheData [emptyEntryFrame], .updateLogic]

/-- **A client that comes late to a frame it cannot read is never opened.** The server sends it
`gs2c_loginsuc` and the one cached frame; the frame is due in the fast-forward, and it raises there,
so that `FSM_OPEN` is never set. -/
theorem late_join_unreadable :
    .sendToPlayer 2 (.gs2cLoginsuc 1 43 20 1 0) ∈ ((FighterWar.init 1 43).run lateEvents).sent ∧
      .sendToPlayer 2 (.gs2cFrameCacheData [emptyEntryFrame]) ∈
        ((FighterWar.init 1 43).run lateEvents).sent ∧
      ∃ tr c, Run step emptyEntryPlayer tr c ∧ messages tr = delivery [[emptyEntryFrame]] [] ∧
        c.pace.phase = .fastForward ∧
        ∀ tr' c', Run step c tr' c' → c'.pace.phase ≠ .opened := by
  have hrun : (runFrom step emptyEntryPlayer emptyEntryJoin).any (fun c =>
      c.pace.phase = .fastForward ∧ c.pace.inUpdate = true ∧ (c.step .drain).isNone) = true := by
    decide +kernel
  obtain ⟨c, hc, hstate⟩ := Option.any_eq_true _ _ |>.mp hrun
  obtain ⟨hff, hloop, hstuck⟩ := of_decide_eq_true hstate
  have hle : (⟨1, 43, 20, 1, 0⟩ : Loginsuc).initTime ≤ (⟨1, 43, 20, 1, 0⟩ : Loginsuc).timestamp := by
    decide
  have hseed : (⟨1, 43, 20, 1, 0⟩ : Loginsuc).rndseed ≠ 0 := by decide
  refine ⟨by decide +kernel, by decide +kernel, _, c, run_of_runFrom hc, ?_, hff, fun tr' c' hrest ho => ?_⟩
  · rw [messages, traceFrom_map_snd hc]
    decide
  · have hread := (opens_iff hle hseed (run_of_runFrom hc) hff).mp ⟨tr', c', hrest, ho⟩ [] c .nil hff
    obtain ⟨c₁, hstep⟩ := (drain_iff hle hseed (run_of_runFrom hc) hloop).mpr hread
    rw [hstep] at hstuck
    cases hstuck

end Recorded

end Fsm

end FrameSync.Client
