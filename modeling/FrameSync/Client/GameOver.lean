import FrameSync.Client.Robust
import FrameSync.Client.Row
import Mathlib.Data.List.TakeWhile

/-! # Where a client stops

`add_score` sets `m_GameOver` in the middle of a frame, but `update_logic` tests it only when it is
called: the call that applies the winning frame goes on to drain every frame that is due. So where
a client stops depends on the frames that were behind the winning one in the queue, and due, while that
call went on (`queuedAndDue`). Two clients stop at the same end if and only if these were the same
(`sameEnd_iff`). -/

namespace FrameSync.Client

open Program

/-! ## The winning frame -/

section Winning

variable (γ : Type) [PyRandom γ] [DictOrder ℕ]

/-- The game is over after the first `n` frames. -/
def overAfter (rndseed : ℕ) (frames : List FrameInfo) (n : ℕ) : Bool :=
  match GameObj.replay rndseed (frames.take n) (GameObj.init 0 (PyRandom.seed rndseed : γ)) with
  | .ok (_, g) => g.gameOver
  | .error _ => false

/-- The number of the winning frame: the first after which the game is over. -/
def winningFrame (rndseed : ℕ) (frames : List FrameInfo) : Option ℕ :=
  (List.range (frames.length + 1)).find? (overAfter γ rndseed frames)

end Winning

section Ends

variable {γ : Type} [PyRandom γ] [DictOrder ℕ]

/-- A replay on any client tells whether the game is over. -/
theorem overAfter_eq {rndseed : ℕ} {frames : List FrameInfo} {n : ℕ} {pid : Pid} {gen : γ}
    {g : GameObj γ} (h : GameObj.replay rndseed (frames.take n) (GameObj.init pid gen) = .ok ((), g)) :
    overAfter γ rndseed frames n = g.gameOver := by
  have hsame := GameObj.replay_sameSim rndseed (frames.take n) 0 pid (PyRandom.seed rndseed) gen
  rw [h] at hsame
  rw [overAfter]
  generalize GameObj.replay rndseed (frames.take n) (GameObj.init 0 (PyRandom.seed rndseed : γ)) = x
    at hsame
  cases hsame with
  | ok hg => exact congrArg Sim.gameOver hg

/-- A game that is over stays over. -/
theorem gameOver_forM {frames : List FrameInfo} {g g' : GameObj γ}
    (h : frames.forM GameObj.updateFrame g = .ok ((), g')) (hover : g.gameOver = true) :
    g'.gameOver = true := by
  induction frames generalizing g with
  | nil =>
      obtain rfl := (Prod.mk.inj (Except.ok.inj h)).2
      exact hover
  | cons data frames ih =>
      obtain ⟨⟨⟩, g₁, hdata, hrest⟩ := bind_eq_ok.mp h
      exact ih hrest ((GameObj.updateFrame_calm hdata).2 hover)

/-- **The game is over from the winning frame on.** -/
theorem gameOver_iff {rndseed : ℕ} {frames : List FrameInfo} {n w : ℕ} {pid : Pid} {gen : γ}
    {g : GameObj γ} (hw : winningFrame γ rndseed frames = some w)
    (h : GameObj.replay rndseed (frames.take n) (GameObj.init pid gen) = .ok ((), g)) :
    g.gameOver = true ↔ w ≤ n := by
  obtain ⟨hover, -, hbefore⟩ := List.find?_range_eq_some.mp hw
  constructor
  · intro hn
    by_contra hlt
    have hnot := hbefore n (Nat.lt_of_not_le hlt)
    rw [overAfter_eq h, hn] at hnot
    cases hnot
  · intro hle
    -- the replay of `n` frames passes through the replay of `w` of them
    have htake : (frames.take n).take w = frames.take w := by rw [List.take_take, Nat.min_eq_left hle]
    rw [← List.take_append_drop w (frames.take n), htake] at h
    obtain ⟨a, g₀, hseed, hframes⟩ := bind_eq_ok.mp h
    obtain ⟨⟨⟩, g₁, hfirst, hrest⟩ := forM_append_eq_ok.mp hframes
    refine gameOver_forM hrest ?_
    rw [← overAfter_eq (bind_eq_ok.mpr ⟨a, g₀, hseed, hfirst⟩)]
    exact hover

/-- Without a winning frame no replay ends the game. -/
theorem gameOver_of_no_winner {rndseed : ℕ} {frames : List FrameInfo} {n : ℕ} {pid : Pid} {gen : γ}
    {g : GameObj γ} (hw : winningFrame γ rndseed frames = none) (hn : n ≤ frames.length)
    (h : GameObj.replay rndseed (frames.take n) (GameObj.init pid gen) = .ok ((), g)) :
    g.gameOver = false := by
  have hnot := List.find?_range_eq_none.mp hw n (Nat.lt_succ_of_le hn)
  rw [overAfter_eq h] at hnot
  simpa using hnot

namespace Fsm

open GameObj

/-- A turn of the loop of a client that follows its frames: the simulation is their replay. -/
theorem Follows.in_loop {pid : Pid} {gen : γ} {msg : Loginsuc} {frames : List FrameInfo} {c : Fsm γ}
    (h : c.Follows pid gen msg frames) (hloop : c.pace.inUpdate = true) :
    replay msg.rndseed frames (GameObj.init pid gen) = .ok ((), c.game) := by
  have hs : c.pace.phase ≠ .waiting := fun hw => by
    have hout := (h.waiting hw).2.2.1
    rw [hloop] at hout
    cases hout
  obtain ⟨-, g, hreplay, hin, -⟩ := h.started hs
  rw [hin hloop]
  exact hreplay

/-! ## The call that applies the winning frame -/

/-- The event by which a game ends. -/
def wins (x : Fsm γ × Event) : Bool := !x.1.game.gameOver && (x.1.step x.2).any fun c => c.game.gameOver

/-- A run from the event on by which the game ends. -/
def fromWin (tr : List (Fsm γ × Event)) : List (Fsm γ × Event) := tr.dropWhile fun x => !wins x

/-- The frames that are behind the winning one in the queue, or are put there while the call of
`update_logic` that applies it is in its loop, up to the first that is not due. -/
def queuedAndDue (tr : List (Fsm γ × Event)) : List FrameInfo :=
  match fromWin tr with
  | [] => []
  | x :: post =>
      (x.1.pace.frameQueue.tail ++ received (post.takeWhile fun y => y.1.pace.inUpdate)).takeWhile
        x.1.pace.due

theorem fromWin_snoc (tr : List (Fsm γ × Event)) (x : Fsm γ × Event) :
    fromWin (tr ++ [x]) = if fromWin tr = [] then (if wins x then [x] else []) else fromWin tr ++ [x] := by
  rw [fromWin, List.dropWhile_append, ← fromWin]
  cases hwin : fromWin tr with
  | nil => cases hx : wins x <;> simp [hx]
  | cons y post => rfl

/-- What a client that is in no call does, does not matter. -/
theorem queuedAndDue_snoc {tr : List (Fsm γ × Event)} {x : Fsm γ × Event} (hwon : fromWin tr ≠ [])
    (hout : x.1.pace.inUpdate = false) : queuedAndDue (tr ++ [x]) = queuedAndDue tr := by
  have hsnoc := fromWin_snoc tr x
  rw [if_neg hwon] at hsnoc
  obtain ⟨y, post, hpost⟩ := List.exists_cons_of_ne_nil hwon
  rw [hpost] at hsnoc
  rw [queuedAndDue, queuedAndDue, hsnoc, hpost]
  show (_ ++ received ((post ++ [x]).takeWhile _)).takeWhile _ = _
  have hsame : (post ++ [x]).takeWhile (fun y => y.1.pace.inUpdate) =
      post.takeWhile fun y => y.1.pace.inUpdate := by
    rw [List.takeWhile_append]
    split_ifs with hall
    · rw [List.takeWhile_cons_of_neg (by rw [hout]; exact Bool.false_ne_true), List.append_nil]
      exact (List.takeWhile_prefix _).eq_of_length hall |>.symm
    · rfl
  rw [hsame]

/-- How far a run of a client has come; the game ends with the last frame of `first`. -/
inductive Stage (first : List FrameInfo) (tr : List (Fsm γ × Event)) (c : Fsm γ) : Prop
  /-- The game goes on. -/
  | playing (hover : c.game.gameOver = false) (hwon : fromWin tr = [])
  /-- The call that applied the winning frame has applied `done` since, and goes on. -/
  | draining {x : Fsm γ × Event} {post : List (Fsm γ × Event)} {done : List FrameInfo}
      (hover : c.game.gameOver = true) (hloop : c.pace.inUpdate = true) (hwon : fromWin tr = x :: post)
      (hpost : ∀ y ∈ post, y.1.pace.inUpdate = true) (happlied : applied tr = first ++ done)
      (hqueue : x.1.pace.frameQueue.tail ++ received post = done ++ c.pace.frameQueue)
      (hdone : ∀ data ∈ done, x.1.pace.due data = true) (hdue : c.pace.due = x.1.pace.due)
  /-- That call has returned. -/
  | stopped (hover : c.game.gameOver = true) (hloop : c.pace.inUpdate = false) (hwon : fromWin tr ≠ [])
      (happlied : applied tr = first ++ queuedAndDue tr)

/-- Only a frame ends a game. -/
theorem gameOver_of_call {a : Action} {g g' : GameObj γ} (hcall : a.call g = .ok ((), g'))
    (ha : a.applied = []) : g'.gameOver = g.gameOver := by
  cases a with
  | nothing => rw [(Prod.mk.inj (Except.ok.inj hcall)).2]
  | seed rndseed => rw [← (Prod.mk.inj (Except.ok.inj hcall)).2]
  | frame data => cases ha
  | finish => exact (still_finish _ _ _ hcall).gameOver

namespace Stage

variable {first : List FrameInfo} {tr : List (Fsm γ × Event)} {c c' : Fsm γ} {e : Event}

/-- A game that goes on is not over, or is won by the frame just applied. -/
theorem of_playing (hover : c.game.gameOver = false) (hwon : fromWin tr = []) (hstep : c.step e = some c')
    (hfirst : c.pace.inUpdate = true → c'.game.gameOver = true →
      applied tr ++ c.appliedBy e = first) : Stage first (tr ++ [(c, e)]) c' := by
  have hsnoc := fromWin_snoc tr (c, e)
  rw [if_pos hwon] at hsnoc
  cases hover' : c'.game.gameOver with
  | false =>
      have hwins : wins (c, e) = false := by simp [wins, hstep, hover']
      exact .playing hover' (by rw [hsnoc, hwins]; rfl)
  | true =>
      have hwins : wins (c, e) = true := by simp [wins, hstep, hover, hover']
      obtain ⟨a, hmove, hcall, happlied⟩ := move_of_step hstep
      have hframe : a.applied ≠ [] := by
        intro hnone
        rw [gameOver_of_call hcall hnone, hover] at hover'
        cases hover'
      have hnow : c.pace.inUpdate = true → applied (tr ++ [(c, e)]) = first ++ [] := by
        intro hloop
        rw [applied_snoc, List.append_nil]
        exact hfirst hloop hover'
      obtain ⟨p', g'⟩ := c'
      cases hmove with
      | applied hloop hqueue hdue =>
          refine .draining hover' hloop (by rw [hsnoc, hwins]; rfl) (fun y hy => absurd hy List.not_mem_nil)
            (hnow hloop) ?_ (fun y hy => absurd hy List.not_mem_nil) rfl
          rw [hqueue]
          exact List.append_nil _
      | _ => exact absurd rfl hframe

/-- The call that applied the winning frame applies what is due. -/
theorem of_draining {x : Fsm γ × Event} {post : List (Fsm γ × Event)} {done : List FrameInfo}
    (hover : c.game.gameOver = true) (hloop : c.pace.inUpdate = true) (hwon : fromWin tr = x :: post)
    (hpost : ∀ y ∈ post, y.1.pace.inUpdate = true) (happlied : applied tr = first ++ done)
    (hqueue : x.1.pace.frameQueue.tail ++ received post = done ++ c.pace.frameQueue)
    (hdone : ∀ data ∈ done, x.1.pace.due data = true) (hdue : c.pace.due = x.1.pace.due)
    (hdata : c.pace.fsmInitData = none) (hstep : c.step e = some c') :
    Stage first (tr ++ [(c, e)]) c' := by
  have hsnoc : fromWin (tr ++ [(c, e)]) = x :: (post ++ [(c, e)]) := by
    rw [fromWin_snoc, if_neg (by rw [hwon]; exact List.cons_ne_nil _ _), hwon]
    rfl
  have hpost' : ∀ y ∈ post ++ [(c, e)], y.1.pace.inUpdate = true := by
    intro y hy
    rcases List.mem_append.mp hy with hy | hy
    · exact hpost y hy
    · rw [List.mem_singleton.mp hy]
      exact hloop
  have hqueue' : x.1.pace.frameQueue.tail ++ received (post ++ [(c, e)]) =
      done ++ c.appliedBy e ++ c'.pace.frameQueue := by
    rw [received_snoc, ← List.append_assoc, hqueue, List.append_assoc, queue_step hstep, List.append_assoc]
  have happlied' : applied (tr ++ [(c, e)]) = first ++ (done ++ c.appliedBy e) := by
    rw [applied_snoc, happlied, List.append_assoc]
  have hkeep : c'.game.gameOver = true := by
    obtain ⟨a, -, hcall, -⟩ := move_of_step hstep
    cases a with
    | frame data => exact (updateFrame_calm hcall).2 hover
    | _ => rw [gameOver_of_call hcall rfl, hover]
  have hqueued : queuedAndDue (tr ++ [(c, e)]) =
      (done ++ c.appliedBy e ++ c'.pace.frameQueue).takeWhile x.1.pace.due := by
    rw [queuedAndDue, hsnoc]
    show (_ ++ received ((post ++ [(c, e)]).takeWhile _)).takeWhile _ = _
    rw [List.takeWhile_eq_self_iff.mpr hpost', hqueue']
  obtain ⟨a, hmove, -, ha⟩ := move_of_step hstep
  rw [ha] at hqueue' happlied' hqueued
  obtain ⟨p', g'⟩ := c'
  cases hmove with
  | dropped | live =>
      rw [Action.applied, List.append_nil] at hqueue' happlied'
      exact .draining hkeep hloop hsnoc hpost' happlied' hqueue' hdone hdue
  | stored _ hsome | started _ hsome =>
      rw [hdata] at hsome
      cases hsome
  | called hout | opened _ hout =>
      rw [hloop] at hout
      cases hout
  | applied _ hhead hdue' =>
      refine .draining hkeep hloop hsnoc hpost' happlied' hqueue' (fun data' hdata' => ?_) hdue
      rcases List.mem_append.mp hdata' with hdata' | hdata'
      · exact hdone data' hdata'
      · rw [List.mem_singleton.mp hdata', ← hdue]
        exact hdue'
  | left _ hnot =>
      rw [Action.applied, List.append_nil] at happlied' hqueued
      refine .stopped hkeep rfl (by rw [hsnoc]; exact List.cons_ne_nil _ _) ?_
      -- the loop ends at the first frame that is not due
      have hrest : c.pace.frameQueue.takeWhile x.1.pace.due = [] := by
        rw [← hdue]
        cases hq : c.pace.frameQueue with
        | nil => rfl
        | cons data rest => rw [List.takeWhile_cons_of_neg (by rw [hnot data rest hq]; exact Bool.false_ne_true)]
      rw [hqueued, List.takeWhile_append_of_pos hdone]
      show applied _ = first ++ (done ++ c.pace.frameQueue.takeWhile _)
      rw [hrest, List.append_nil]
      exact happlied'

/-- A game that is over stays so. -/
theorem of_over (hover : c.game.gameOver = true) (hloop : c.pace.inUpdate = false) (hwon : fromWin tr ≠ [])
    (happlied : applied tr = first ++ queuedAndDue tr) (hstep : c.step e = some c') :
    Stage first (tr ++ [(c, e)]) c' := by
  obtain ⟨a, hmove, hcall, ha⟩ := move_of_step hstep
  have hnone : a.applied = [] ∧ c'.pace.inUpdate = false := by
    obtain ⟨p', g'⟩ := c'
    cases hmove with
    | applied hin | left hin =>
        rw [hloop] at hin
        cases hin
    | called =>
        refine ⟨rfl, ?_⟩
        rw [hover]
        rfl
    | _ => exact ⟨rfl, hloop⟩
  refine .stopped ((gameOver_of_call hcall hnone.1).trans hover) hnone.2 ?_ ?_
  · rw [fromWin_snoc, if_neg hwon]
    simp
  · rw [applied_snoc, ha, hnone.1, List.append_nil, queuedAndDue_snoc hwon hloop]
    exact happlied

end Stage

/-- The frame that ends a game is the winning one. -/
theorem applied_of_win {pid : Pid} {gen : γ} {msg : Loginsuc} {frames : List FrameInfo} {w : ℕ}
    (hw : winningFrame γ msg.rndseed frames = some w) {tr : List (Fsm γ × Event)} {c c' : Fsm γ} {e : Event}
    (h : Run step (Fsm.init pid gen msg) tr c) (hstep : c.step e = some c')
    (hpart : applied tr ++ c.appliedBy e <+: frames) (hloop : c.pace.inUpdate = true)
    (hover : c.game.gameOver = false) (hover' : c'.game.gameOver = true) :
    applied tr ++ c.appliedBy e = frames.take w := by
  have hbefore := (follows_run h).in_loop hloop
  have hpart₁ := (List.prefix_append _ _).trans hpart
  rw [List.prefix_iff_eq_take.mp hpart₁] at hbefore
  have hlt : ¬ w ≤ (applied tr).length := by
    rw [← gameOver_iff hw hbefore, hover]
    exact Bool.false_ne_true
  obtain ⟨a, hmove, hcall, happlied⟩ := move_of_step hstep
  have hframe : a.applied ≠ [] := by
    intro hnone
    rw [gameOver_of_call hcall hnone, hover] at hover'
    cases hover'
  cases a with
  | frame data =>
      rw [happlied, Action.applied] at hpart ⊢
      have hafter := replay_snoc ((follows_run h).in_loop hloop) hcall
      rw [List.prefix_iff_eq_take.mp hpart] at hafter ⊢
      have hle := (gameOver_iff hw hafter).mp hover'
      rw [List.length_append, List.length_singleton] at hle ⊢
      have hlength : (applied tr).length + 1 = w := by omega
      rw [hlength]
  | _ => exact absurd rfl hframe

/-- **Run lemma**: a client goes through the stages. -/
theorem stage_run {pid : Pid} {gen : γ} {msg : Loginsuc} {frames : List FrameInfo} {w : ℕ}
    (hw : winningFrame γ msg.rndseed frames = some w) {tr : List (Fsm γ × Event)} {c : Fsm γ}
    (h : Run step (Fsm.init pid gen msg) tr c) (hrec : received tr <+: frames) :
    Stage (frames.take w) tr c := by
  induction h with
  | nil => exact .playing rfl rfl
  | snoc hrun hstep ih =>
      rename_i tr c c' e
      have hpart : applied tr ++ c.appliedBy e <+: frames := by
        rw [received_eq (hrun.snoc hstep), applied_snoc] at hrec
        exact (List.prefix_append _ _).trans hrec
      rw [received_snoc] at hrec
      cases ih ((List.prefix_append _ _).trans hrec) with
      | playing hover hwon =>
          exact .of_playing hover hwon hstep fun hloop hover' =>
            applied_of_win hw hrun hstep hpart hloop hover hover'
      | draining hover hloop hwon hpost happlied hqueue hdone hdue =>
          have hstarted := (follows_run hrun).started_of_inUpdate hloop
          exact .of_draining hover hloop hwon hpost happlied hqueue hdone hdue
            ((follows_run hrun).started hstarted).1 hstep
      | stopped hover hloop hwon happlied => exact .of_over hover hloop hwon happlied hstep

/-- **A client that is over has applied the frames up to the winning one**, and those that were queued
and due then. -/
theorem applied_of_over {pid : Pid} {gen : γ} {msg : Loginsuc} {frames : List FrameInfo}
    {tr : List (Fsm γ × Event)} {c : Fsm γ} (h : Run step (Fsm.init pid gen msg) tr c)
    (hrec : received tr <+: frames) (hidle : c.Idle) (hover : c.game.gameOver = true) :
    ∃ w, winningFrame γ msg.rndseed frames = some w ∧
      applied tr = frames.take w ++ queuedAndDue tr := by
  cases hw : winningFrame γ msg.rndseed frames with
  | none =>
      obtain ⟨-, g, hreplay, -, hout⟩ := (follows_run h).started hidle.1
      have hpart := applied_isPrefix h hrec
      rw [List.prefix_iff_eq_take.mp hpart] at hreplay
      have hnot := gameOver_of_no_winner hw hpart.length_le hreplay
      rw [(still_finish g _ _ (hout hidle.2)).gameOver, hnot] at hover
      cases hover
  | some w =>
      refine ⟨w, rfl, ?_⟩
      cases stage_run hw h hrec with
      | playing hnot =>
          rw [hover] at hnot
          cases hnot
      | draining _ hloop =>
          rw [hidle.2] at hloop
          cases hloop
      | stopped _ _ _ happlied => exact happlied

/-- Two clients stopped at the same end: the same last frame, score and objects. -/
structure SameEnd (c c' : Fsm γ) : Prop where
  /-- `m_GSFrameNo` -/
  frameNo : c.game.gsFrameNo = c'.game.gsFrameNo
  /-- `m_CurScore` -/
  curScore : c.game.curScore = c'.game.curScore
  /-- The players and the other objects that remain. -/
  objects : c.game.objects = c'.game.objects

/-- **When two clients agree on the end of the game.** Two clients with the same seed that received
the first frames of one sequence and are over end with the same last frame, score and objects if and
only if the same frames were queued behind the winning one, and due, in the calls that applied it. -/
theorem sameEnd_iff {pid pid' : Pid} {gen gen' : γ} {msg msg' : Loginsuc} {frames : List FrameInfo}
    {tr tr' : List (Fsm γ × Event)} {c c' : Fsm γ} (hseed : msg.rndseed = msg'.rndseed)
    (hno : NumberedFrames frames)
    (h : Run step (Fsm.init pid gen msg) tr c) (h' : Run step (Fsm.init pid' gen' msg') tr' c')
    (hrec : received tr <+: frames) (hrec' : received tr' <+: frames)
    (hidle : c.Idle) (hidle' : c'.Idle)
    (hover : c.game.gameOver = true) (hover' : c'.game.gameOver = true) :
    SameEnd c c' ↔ queuedAndDue tr = queuedAndDue tr' := by
  obtain ⟨w, hw, happlied⟩ := applied_of_over h hrec hidle hover
  obtain ⟨w', hw', happlied'⟩ := applied_of_over h' hrec' hidle' hover'
  rw [← hseed, hw] at hw'
  obtain rfl := Option.some.inj hw'
  have hno₁ := gsFrameNo_eq h hno hrec hidle
  have hno₂ := gsFrameNo_eq h' hno hrec' hidle'
  constructor
  · intro hsame
    -- the applied frames are as many first ones of the same sequence
    have htake : applied tr = applied tr' := by
      rw [List.prefix_iff_eq_take.mp (applied_isPrefix h hrec), ← hno₁, hsame.frameNo, hno₂]
      exact (List.prefix_iff_eq_take.mp (applied_isPrefix h' hrec')).symm
    rw [happlied, happlied'] at htake
    exact List.append_cancel_left htake
  · intro hqueued
    have hframe : c.game.gsFrameNo = c'.game.gsFrameNo := by
      rw [hno₁, hno₂, happlied, happlied', hqueued]
    have hsim := lockstep hseed hno h h' hrec hrec' hidle hidle' hframe
    exact ⟨hframe, congrArg Sim.curScore hsim, congrArg Sim.objects hsim⟩

/-! ## Two schedules that end differently -/

/-- `gs2c_frame_data` for each of the frames. -/
def arrive (frames : List FrameInfo) : List Event := frames.map .frameData

/-- One call of `update_logic` that applies `n` frames. -/
def oneCall (n : ℕ) : List Event := .updateLogic :: (List.replicate n .drain ++ [.drain])

/-- The frames arrive one by one, and the call that follows applies the frame. -/
def beats (frames : List FrameInfo) : List Event := frames.flatMap fun data => arrive [data] ++ oneCall 1

/-- The answer to a login in a game that has made no frame yet. -/
def freshLogin (rndseed initTime : ℕ) : Loginsuc := ⟨1, rndseed, initTime, 0, initTime⟩

/-- A client that is there from the start. The call that applies `data` returns before `next` arrives. -/
def inTime (pre : List FrameInfo) (data next : FrameInfo) : List Event :=
  [.frameCacheData [], .fsmOpen] ++ (beats pre ++ (arrive [data] ++ (oneCall 1 ++ arrive [next])))

/-- A client that is there from the start. Here `data` comes one call late, together with `next`. -/
def oneCallLate (pre : List FrameInfo) (data next : FrameInfo) : List Event :=
  [.frameCacheData [], .fsmOpen] ++ (beats pre ++ (.updateLogic :: (arrive [data, next] ++ oneCall 2)))

/-- The frames that arrive wait in the queue. -/
theorem runFrom_arrive {c : Fsm γ} (h : c.pace.phase = .opened) (frames : List FrameInfo) :
    runFrom step c (arrive frames) = some ⟨c.pace.recvFrames frames, c.game⟩ := by
  induction frames generalizing c with
  | nil =>
      rw [Pace.recvFrames, List.append_nil]
      rfl
  | cons data frames ih =>
      have hstep : step c (.frameData data) = some ⟨c.pace.recvFrames [data], c.game⟩ := by
        rw [step, Pace.step, if_neg (by rw [h]; decide)]
        rfl
      rw [arrive, List.map_cons, runFrom, hstep, Option.bind_some]
      refine (ih (c := ⟨c.pace.recvFrames [data], c.game⟩) h).trans ?_
      simp [Pace.recvFrames]

/-- The loop of `update_logic` applies the frames that are due. -/
theorem runFrom_drain {c : Fsm γ} {frames rest : List FrameInfo} {g : GameObj γ}
    (hloop : c.pace.inUpdate = true) (hqueue : c.pace.frameQueue = frames ++ rest)
    (hdue : ∀ data ∈ frames, c.pace.due data = true)
    (h : frames.forM updateFrame c.game = .ok ((), g)) :
    runFrom step c (List.replicate frames.length .drain)
      = some ⟨{ c.pace with frameQueue := rest }, g⟩ := by
  induction frames generalizing c with
  | nil =>
      obtain rfl := (Prod.mk.inj (Except.ok.inj h)).2
      rw [← show c.pace.frameQueue = rest from hqueue]
      rfl
  | cons data frames ih =>
      obtain ⟨⟨⟩, g₁, hdata, hrest⟩ := bind_eq_ok.mp h
      have hstep : step c .drain
          = some ⟨{ c.pace with frameQueue := frames ++ rest }, g₁⟩ := by
        refine step_eq_some.mpr ⟨.frame data, ?_, hdata⟩
        rw [Pace.step, if_pos hloop, Pace.drain, hqueue, List.cons_append]
        simp only [hdue data List.mem_cons_self, if_true]
      rw [List.length_cons, List.replicate_succ, runFrom, hstep, Option.bind_some]
      exact ih (c := ⟨{ c.pace with frameQueue := frames ++ rest }, g₁⟩) hloop rfl
        (fun data' hdata' => hdue data' (List.mem_cons_of_mem _ hdata')) hrest

/-- A call of `update_logic` that finds every frame of the queue due. -/
theorem runFrom_oneCall {c : Fsm γ} {g g' : GameObj γ} (h : c.pace.phase = .opened)
    (hloop : c.pace.inUpdate = false) (hover : c.game.gameOver = false)
    (hne : c.pace.frameQueue ≠ [])
    (hdue : ∀ data ∈ c.pace.frameQueue, (c.pace.updateLogic false).due data = true)
    (hframes : c.pace.frameQueue.forM updateFrame c.game = .ok ((), g))
    (hend : finish g = .ok ((), g')) :
    runFrom step c (oneCall c.pace.frameQueue.length) =
      some ⟨{ c.pace with passTime := c.pace.passTime + 10, frameQueue := [] }, g'⟩ := by
  have hcall : step c .updateLogic = some ⟨c.pace.updateLogic false, c.game⟩ := by
    rw [step, Pace.step, if_pos (by simp [Pace.mayUpdate, h, hloop]), hover]
    rfl
  have hin : (c.pace.updateLogic false).inUpdate = true := by
    simp [Pace.updateLogic, hne]
  have hloops := runFrom_drain (c := ⟨c.pace.updateLogic false, c.game⟩) hin
    (List.append_nil _).symm hdue hframes
  have hlast : step ⟨{ c.pace.updateLogic false with frameQueue := [] }, g⟩ .drain
      = some ⟨{ c.pace with passTime := c.pace.passTime + 10, frameQueue := [] }, g'⟩ := by
    refine step_eq_some.mpr ⟨.finish, ?_, hend⟩
    rw [Pace.step, if_pos hin, Pace.drain]
    simp [Pace.updateLogic, hloop]
  rw [oneCall, runFrom, hcall, Option.bind_some]
  refine runFrom_append_eq_some hloops ?_
  rw [runFrom, hlast]
  rfl

/-- Frames that arrive at an empty queue and are due in the next call. -/
theorem runFrom_arrive_oneCall {c : Fsm γ} (frames : List FrameInfo) {g g' : GameObj γ}
    (h : c.pace.phase = .opened) (hloop : c.pace.inUpdate = false) (hqueue : c.pace.frameQueue = [])
    (hover : c.game.gameOver = false) (hne : frames ≠ [])
    (hdue : ∀ data ∈ frames, (data.timestamp : ℤ) - c.pace.gsFsmInitTime ≤ c.pace.passTime + 10)
    (hframes : frames.forM updateFrame c.game = .ok ((), g)) (hend : finish g = .ok ((), g')) :
    runFrom step c (arrive frames ++ oneCall frames.length)
      = some ⟨{ c.pace with passTime := c.pace.passTime + 10 }, g'⟩ := by
  obtain ⟨⟨passTime, queue, fsmInitData, initTime, dt, phase, inUpdate⟩, game⟩ := c
  obtain rfl : queue = [] := hqueue
  refine runFrom_append_eq_some (runFrom_arrive h frames) ?_
  refine (runFrom_oneCall (c := ⟨⟨passTime, frames, fsmInitData, initTime, dt, phase, inUpdate⟩, game⟩) h hloop
    hover hne (fun data hdata => ?_) hframes hend).trans rfl
  have hle := hdue data hdata
  exact decide_eq_true (by show _ ≤ ((passTime + 10 : ℕ) : ℤ); push_cast; exact hle)

/-- **A client to which the frames come in time** applies one in each call. -/
theorem runFrom_beats {c : Fsm γ} {frames : List FrameInfo} {g : GameObj γ} (h : c.pace.phase = .opened)
    (hloop : c.pace.inUpdate = false) (hqueue : c.pace.frameQueue = [])
    (hdue : ∀ (i : ℕ) (data : FrameInfo), frames[i]? = some data →
      (data.timestamp : ℤ) - c.pace.gsFsmInitTime ≤ c.pace.passTime + 10 * (i + 1))
    (hframes : frames.forM updateFrame c.game = .ok ((), g)) (hover : g.gameOver = false) :
    runFrom step c (beats frames)
      = some ⟨{ c.pace with passTime := c.pace.passTime + 10 * frames.length }, g⟩ := by
  induction frames generalizing c with
  | nil =>
      obtain rfl := (Prod.mk.inj (Except.ok.inj hframes)).2
      rfl
  | cons data frames ih =>
      obtain ⟨⟨⟩, g₁, hdata, hrest⟩ := bind_eq_ok.mp hframes
      -- a game that is not over in the end was not over before
      have hover₁ : g₁.gameOver = false := by
        rw [← Bool.not_eq_true]
        intro hover₁
        rw [gameOver_forM hrest hover₁] at hover
        cases hover
      have hover₀ : c.game.gameOver = false := by
        rw [← Bool.not_eq_true]
        intro hover₀
        rw [(updateFrame_calm hdata).2 hover₀] at hover₁
        cases hover₁
      have hcall := runFrom_arrive_oneCall [data] h hloop hqueue hover₀ (List.cons_ne_nil _ _)
        (fun data' hdata' => ?_) (bind_eq_ok.mpr ⟨(), g₁, hdata, rfl⟩) (finish_of_not_over hover₁)
      · refine runFrom_append_eq_some hcall ?_
        refine (ih (c := ⟨{ c.pace with passTime := c.pace.passTime + 10 }, g₁⟩) h hloop hqueue
          (fun i data' hdata' => ?_) hrest).trans ?_
        · have hle := hdue (i + 1) data' hdata'
          show (data'.timestamp : ℤ) - c.pace.gsFsmInitTime ≤ ((c.pace.passTime + 10 : ℕ) : ℤ) + 10 * (i + 1)
          push_cast at hle ⊢
          omega
        · rw [List.length_cons, Nat.mul_succ, Nat.add_comm (10 * frames.length), ← Nat.add_assoc]
      · rw [List.mem_singleton.mp hdata']
        exact (hdue 0 data rfl).trans (by omega)

/-- A frame every 100 ms, from the time on at which the first player entered. -/
def OnBeat (initTime : ℕ) (frames : List FrameInfo) : Prop :=
  ∀ (i : ℕ) (data : FrameInfo), frames[i]? = some data → data.timestamp ≤ initTime + 10 * (i + 1)

omit [PyRandom γ] [DictOrder ℕ] in
theorem OnBeat.of_prefix {initTime : ℕ} {part frames : List FrameInfo} (h : OnBeat initTime frames)
    (hpart : part <+: frames) : OnBeat initTime part := by
  obtain ⟨rest, rfl⟩ := hpart
  intro i data hdata
  refine h i data ?_
  rw [List.getElem?_append_left (List.getElem?_eq_some_iff.mp hdata).1]
  exact hdata

section Schedules

variable {rndseed initTime : ℕ} {pre : List FrameInfo} {data next : FrameInfo} {pid : Pid} {gen : γ}
  {g₀ g₁ g₂ g' : GameObj γ}

/-- What both clients do first. -/
theorem runFrom_start (hbeat : OnBeat initTime pre)
    (hpre : replay rndseed pre (GameObj.init pid gen) = .ok ((), g₀)) (h₀ : g₀.gameOver = false) :
    runFrom step (Fsm.init pid gen (freshLogin rndseed initTime))
        ([.frameCacheData [], .fsmOpen] ++ beats pre)
      = some ⟨⟨10 * pre.length, [], none, initTime, 0, .opened, false⟩, g₀⟩ := by
  obtain ⟨⟨⟩, g, hseeded, hframes⟩ := bind_eq_ok.mp hpre
  have hcache : step (Fsm.init pid gen (freshLogin rndseed initTime)) (.frameCacheData [])
      = some ⟨⟨0, [], none, initTime, (initTime : ℤ) - initTime, .fastForward, false⟩, g⟩ :=
    step_eq_some.mpr ⟨.seed rndseed, rfl, hseeded⟩
  rw [sub_self] at hcache
  have hbeats := runFrom_beats (c := ⟨⟨0, [], none, initTime, 0, .opened, false⟩, g⟩) rfl rfl rfl
    (fun i data hdata => ?_) hframes h₀
  · rw [List.cons_append, runFrom, hcache, Option.bind_some]
    refine hbeats.trans ?_
    rw [Nat.zero_add]
  · have hle := hbeat i data hdata
    show (data.timestamp : ℤ) - (initTime : ℤ) ≤ ((0 : ℕ) : ℤ) + 10 * (i + 1)
    push_cast
    omega

/-- The first client stops at `data`. -/
theorem runFrom_inTime (hbeat : OnBeat initTime (pre ++ [data, next]))
    (hpre : replay rndseed pre (GameObj.init pid gen) = .ok ((), g₀)) (h₀ : g₀.gameOver = false)
    (hdata : updateFrame data g₀ = .ok ((), g₁)) (hend : finish g₁ = .ok ((), g')) :
    runFrom step (Fsm.init pid gen (freshLogin rndseed initTime)) (inTime pre data next)
      = some ⟨⟨10 * pre.length + 10, [next], none, initTime, 0, .opened, false⟩, g'⟩ := by
  have hstart := runFrom_start (hbeat.of_prefix (List.prefix_append _ _)) hpre h₀
  have hdue : data.timestamp ≤ initTime + 10 * (pre.length + 1) := hbeat pre.length data (by simp)
  have hcall := runFrom_arrive_oneCall [data]
    (c := ⟨⟨10 * pre.length, [], none, initTime, 0, .opened, false⟩, g₀⟩) rfl rfl rfl h₀
    (List.cons_ne_nil _ _) (fun data' hdata' => ?_) (bind_eq_ok.mpr ⟨(), g₁, hdata, rfl⟩) hend
  · rw [inTime, ← List.append_assoc]
    refine runFrom_append_eq_some hstart ?_
    rw [← List.append_assoc]
    exact runFrom_append_eq_some hcall (runFrom_arrive rfl [next])
  · rw [List.mem_singleton.mp hdata']
    show (data.timestamp : ℤ) - (initTime : ℤ) ≤ ((10 * pre.length : ℕ) : ℤ) + 10
    push_cast
    omega

/-- The second client applies `next` in the same call. -/
theorem runFrom_oneCallLate (hbeat : OnBeat initTime (pre ++ [data, next]))
    (hpre : replay rndseed pre (GameObj.init pid gen) = .ok ((), g₀)) (h₀ : g₀.gameOver = false)
    (hdata : updateFrame data g₀ = .ok ((), g₁)) (hnext : updateFrame next g₁ = .ok ((), g₂))
    (hend : finish g₂ = .ok ((), g')) :
    runFrom step (Fsm.init pid gen (freshLogin rndseed initTime)) (oneCallLate pre data next)
      = some ⟨⟨10 * pre.length + 20, [], none, initTime, 0, .opened, false⟩, g'⟩ := by
  have hstart := runFrom_start (hbeat.of_prefix (List.prefix_append _ _)) hpre h₀
  have hdue : data.timestamp ≤ initTime + 10 * (pre.length + 1) := hbeat pre.length data (by simp)
  have hdue' : next.timestamp ≤ initTime + 10 * (pre.length + 1 + 1) := hbeat (pre.length + 1) next (by simp)
  -- a call that finds the queue empty only counts the time
  have hcalled : step ⟨⟨10 * pre.length, [], none, initTime, 0, .opened, false⟩, g₀⟩ .updateLogic
      = some ⟨⟨10 * pre.length + 10, [], none, initTime, 0, .opened, false⟩, g₀⟩ := by
    rw [step, h₀]
    rfl
  have hcall := runFrom_arrive_oneCall [data, next]
    (c := ⟨⟨10 * pre.length + 10, [], none, initTime, 0, .opened, false⟩, g₀⟩) rfl rfl rfl h₀
    (List.cons_ne_nil _ _) (fun data' hdata' => ?_)
    (bind_eq_ok.mpr ⟨(), g₁, hdata, bind_eq_ok.mpr ⟨(), g₂, hnext, rfl⟩⟩) hend
  · rw [oneCallLate, ← List.append_assoc]
    refine runFrom_append_eq_some hstart ?_
    rw [runFrom, hcalled, Option.bind_some]
    exact hcall
  · show (data'.timestamp : ℤ) - (initTime : ℤ) ≤ ((10 * pre.length + 10 : ℕ) : ℤ) + 10
    push_cast
    rcases List.mem_cons.mp hdata' with rfl | hdata'
    · omega
    · rw [List.mem_singleton.mp hdata']
      omega

/-- What one client has replayed another client can. -/
theorem replay_other {frames : List FrameInfo} {g : GameObj γ} (pid' : Pid) (gen' : γ)
    (h : replay rndseed frames (GameObj.init pid gen) = .ok ((), g)) :
    ∃ g', replay rndseed frames (GameObj.init pid' gen') = .ok ((), g') ∧ g'.gameOver = g.gameOver := by
  have hsame := replay_sameSim rndseed frames pid pid' gen gen'
  rw [h] at hsame
  generalize replay rndseed frames (GameObj.init pid' gen') = r at hsame ⊢
  cases hsame with
  | ok hg => exact ⟨_, rfl, (congrArg Sim.gameOver hg).symm⟩

/-- The game that another client replays goes through the same frames. -/
theorem replay_snoc_other {frames : List FrameInfo} {data : FrameInfo} {g g' g'' : GameObj γ} {pid' : Pid}
    {gen' : γ} (h : replay rndseed frames (GameObj.init pid gen) = .ok ((), g))
    (hdata : updateFrame data g = .ok ((), g'))
    (h' : replay rndseed frames (GameObj.init pid' gen') = .ok ((), g'')) :
    ∃ g₃, updateFrame data g'' = .ok ((), g₃) ∧ g₃.gameOver = g'.gameOver := by
  obtain ⟨g₃, hrun, hover⟩ := replay_other pid' gen' (replay_snoc h hdata)
  obtain ⟨⟨⟩, g₄, hseeded, hframes⟩ := bind_eq_ok.mp hrun
  obtain ⟨⟨⟩, g₅, hpart, hlast⟩ := forM_append_eq_ok.mp hframes
  obtain ⟨⟨⟩, g₆, hdata', hnil⟩ := bind_eq_ok.mp hlast
  obtain rfl := (Prod.mk.inj (Except.ok.inj hnil)).2
  have hsame : replay rndseed frames (GameObj.init pid' gen') = .ok ((), g₅) :=
    bind_eq_ok.mpr ⟨(), g₄, hseeded, hpart⟩
  obtain rfl := (Prod.mk.inj (Except.ok.inj (h'.symm.trans hsame))).2
  exact ⟨g₆, hdata', hover⟩

/-- **Every won game can end differently.** Take any generator, any seed of the server and any numbered
frames on the beat, of which `data` wins the game and `next` can be applied. Then of two clients that
receive the same frames one may stop at `data`, and one at `next`. -/
theorem ends_differ (pid' : Pid) (gen' : γ) (hseed : rndseed ≠ 0)
    (hbeat : OnBeat initTime (pre ++ [data, next])) (hno : NumberedFrames (pre ++ [data, next]))
    (hpre : replay rndseed pre (GameObj.init pid gen) = .ok ((), g₀)) (h₀ : g₀.gameOver = false)
    (hdata : updateFrame data g₀ = .ok ((), g₁)) (h₁ : g₁.gameOver = true)
    (hnext : updateFrame next g₁ = .ok ((), g₂)) :
    ∃ c c', runFrom step (Fsm.init pid gen (freshLogin rndseed initTime)) (inTime pre data next) = some c ∧
      runFrom step (Fsm.init pid' gen' (freshLogin rndseed initTime)) (oneCallLate pre data next) = some c' ∧
      (c.Idle ∧ c.game.gameOver = true ∧ c.game.gsFrameNo = pre.length + 1) ∧
      c'.Idle ∧ c'.game.gameOver = true ∧ c'.game.gsFrameNo = pre.length + 2 := by
  have hwin := replay_snoc hpre hdata
  obtain ⟨⟨⟩, g, hend, -⟩ := ensures_finish g₁ (running_replay hseed hwin)
  have hfirst := runFrom_inTime hbeat hpre h₀ hdata hend
  -- the second client goes through the same games
  obtain ⟨k₀, hpre', hover₀⟩ := replay_other pid' gen' hpre
  obtain ⟨k₁, hdata', hover₁⟩ := replay_snoc_other hpre hdata hpre'
  have hwin' := replay_snoc hpre' hdata'
  obtain ⟨k₂, hnext', -⟩ := replay_snoc_other hwin hnext hwin'
  obtain ⟨⟨⟩, k, hend', -⟩ := ensures_finish k₂ (running_replay hseed (replay_snoc hwin' hnext'))
  have hsecond := runFrom_oneCallLate hbeat hpre' (hover₀.trans h₀) hdata' hnext' hend'
  have hstill := still_finish g₁ _ _ hend
  have hstill' := still_finish k₂ _ _ hend'
  refine ⟨_, _, hfirst, hsecond, ⟨⟨Phase.noConfusion, rfl⟩, hstill.gameOver.trans h₁, ?_⟩,
    ⟨Phase.noConfusion, rfl⟩, ?_, ?_⟩
  · rw [hstill.frameNo, (updateFrame_calm hdata).1]
    exact hno pre.length data (by simp)
  · rw [hstill'.gameOver]
    exact (updateFrame_calm hnext').2 (hover₁.trans h₁)
  · rw [hstill'.frameNo, (updateFrame_calm hnext').1]
    exact hno (pre.length + 1) next (by simp)

end Schedules

/-! ### What both clients receive -/

/-- The frame that arrives with an event, if the cache is empty. -/
def live : Event → List FrameInfo
  | .frameData data => [data]
  | .frameCacheData _ | .updateLogic | .drain | .fsmOpen => []

omit [PyRandom γ] [DictOrder ℕ] in
/-- What arrives one by one. -/
theorem flatMap_live_arrive (frames : List FrameInfo) : (arrive frames).flatMap live = frames := by
  induction frames with
  | nil => rfl
  | cons data frames ih => rw [arrive, List.map_cons, List.flatMap_cons, ← arrive, ih]; rfl

omit [PyRandom γ] [DictOrder ℕ] in
/-- Nothing arrives in a call. -/
theorem flatMap_live_oneCall (n : ℕ) : (oneCall n).flatMap live = [] := by
  rw [List.flatMap_eq_nil_iff]
  intro e he
  simp only [oneCall, List.mem_cons, List.mem_append, List.mem_replicate, List.not_mem_nil, or_false] at he
  rcases he with rfl | ⟨-, rfl⟩ | rfl
  all_goals rfl

omit [PyRandom γ] [DictOrder ℕ] in
theorem flatMap_live_beats (frames : List FrameInfo) : (beats frames).flatMap live = frames := by
  induction frames with
  | nil => rfl
  | cons data frames ih =>
      rw [beats, List.flatMap_cons, ← beats, List.flatMap_append, List.flatMap_append, flatMap_live_arrive,
        flatMap_live_oneCall, ih]
      rfl

/-- A run with an empty cache received what arrived one by one. -/
theorem received_traceFrom {c c' : Fsm γ} {es : List Event} (h : runFrom step c es = some c')
    (hcache : ∀ frames, .frameCacheData frames ∈ es → frames = []) :
    received (traceFrom step c es) = es.flatMap live := by
  conv_rhs => rw [← traceFrom_map_snd h, List.flatMap_map]
  refine List.flatMap_congr fun x hx => ?_
  have hmem : x.2 ∈ es := by
    rw [← traceFrom_map_snd h]
    exact List.mem_map_of_mem hx
  obtain ⟨c, e⟩ := x
  cases e with
  | frameCacheData frames =>
      obtain rfl := hcache frames hmem
      show (if c.pace.fsmInitData.isSome then _ else _) = _
      split
      · rfl
      · rfl
  | _ => rfl

/-- Both clients receive all frames. -/
theorem received_inTime {c c' : Fsm γ} {pre : List FrameInfo} {data next : FrameInfo}
    (h : runFrom step c (inTime pre data next) = some c') :
    received (traceFrom step c (inTime pre data next)) = pre ++ [data, next] := by
  rw [received_traceFrom h]
  · simp only [inTime, List.flatMap_append, flatMap_live_arrive, flatMap_live_beats, flatMap_live_oneCall]
    rfl
  · simp [inTime, beats, arrive, oneCall]

theorem received_oneCallLate {c c' : Fsm γ} {pre : List FrameInfo} {data next : FrameInfo}
    (h : runFrom step c (oneCallLate pre data next) = some c') :
    received (traceFrom step c (oneCallLate pre data next)) = pre ++ [data, next] := by
  rw [received_traceFrom h]
  · simp only [oneCallLate, List.flatMap_append, List.flatMap_cons, flatMap_live_arrive, flatMap_live_beats,
      flatMap_live_oneCall]
    rfl
  · simp [oneCallLate, beats, arrive, oneCall]

end Fsm

end Ends

/-! ## A won game -/

namespace Fsm

section Won

open GameObj

attribute [local instance] DictOrder.byInsertion

/-- A player enters. -/
def enterAt (pid : Pid) (x z : ℤ) : CtrlInfo where
  pid := some pid
  action := some actionEnter
  enterInfo := some { name := some [97], color := some ⟨some 1, some 2, some 3⟩, pos := some ⟨some x, some z⟩ }

/-- Players 1 and 2 enter where the server puts them. Then player 1 sends twelve `ACTION_ENTER` of its own,
which the server passes on as they are. -/
def rowFrame : FrameInfo :=
  ⟨1, enterAt 1 200 575 :: enterAt 2 600 575 ::
    (List.range 12).map fun i => enterAt (i + 3) (30 + 70 * i) 20, 1010⟩

/-- A frame in which nobody does anything. -/
def emptyFrame (n : ℕ) : FrameInfo := ⟨n, [], 1000 + 10 * n⟩

/-- The row enters, and waits for `n` frames. -/
def rowFrames (n : ℕ) : List FrameInfo := rowFrame :: (List.range n).map fun i => emptyFrame (i + 2)

theorem rowFrames_succ (n : ℕ) : rowFrames (n + 1) = rowFrames n ++ [emptyFrame (n + 2)] := by
  rw [rowFrames, rowFrames, List.range_succ, List.map_append, List.cons_append]
  rfl

theorem length_rowFrames (n : ℕ) : (rowFrames n).length = n + 1 := by
  rw [rowFrames, List.length_cons, List.length_map, List.length_range]

theorem getElem?_rowFrames {n i : ℕ} {data : FrameInfo} (h : (rowFrames n)[i]? = some data) :
    data.frameNumber = i + 1 ∧ data.timestamp = 1000 + 10 * (i + 1) := by
  cases i with
  | zero =>
      obtain rfl := Option.some.inj h
      exact ⟨rfl, rfl⟩
  | succ i =>
      rw [rowFrames, List.getElem?_cons_succ, List.getElem?_map, Option.map_eq_some_iff] at h
      obtain ⟨j, hj, rfl⟩ := h
      obtain ⟨-, rfl⟩ := List.getElem?_eq_some_iff.mp hj
      rw [List.getElem_range]
      exact ⟨rfl, rfl⟩

theorem numbered_rowFrames (n : ℕ) : NumberedFrames (rowFrames n) := fun _ _ h => (getElem?_rowFrames h).1

theorem onBeat_rowFrames (n : ℕ) : OnBeat 1000 (rowFrames n) := fun _ _ h => (getElem?_rowFrames h).2.le

/-- With this seed the first enemy appears after the row has entered, and the 300th in frame 4778. -/
theorem row_enters : endsIn (replay 9209 [rowFrame]) (GameObj.init 1 (.seed 1) : GameObj MersenneTwister)
    (fun g => g.twelveStand && lastAppears 299 4776 g.gen) = true := by
  decide +kernel

/-- **The game of the row.** The last enemy appears, and the row wins, with the frame after those it waits
for. -/
theorem row_game {n : ℕ} {pid : Pid} {gen : MersenneTwister}
    (h : endsIn (replay 9209 [rowFrame]) (GameObj.init pid gen)
      (fun g => g.twelveStand && lastAppears 299 n g.gen) = true) :
    ∃ g₀ g₁ g₂ : GameObj MersenneTwister,
      replay 9209 (rowFrames n) (GameObj.init pid gen) = .ok ((), g₀) ∧ g₀.gameOver = false ∧
        updateFrame (emptyFrame (n + 2)) g₀ = .ok ((), g₁) ∧ g₁.gameOver = true ∧
        updateFrame (emptyFrame (n + 3)) g₁ = .ok ((), g₂) := by
  obtain ⟨⟨⟩, g, hfirst, hstate⟩ := endsIn_eq_true h
  obtain ⟨hstand, hlast⟩ := Bool.and_eq_true_iff.mp hstate
  have hrow := row_of_twelveStand (running_replay (by decide) hfirst) hstand
  obtain ⟨hcount, happears⟩ := lastAppears_iff.mp hlast
  obtain ⟨⟨⟩, g', hseeded, hrowFrame⟩ := bind_eq_ok.mp hfirst
  have hempty : ∀ data ∈ (List.range n).map fun i => emptyFrame (i + 2), data.ctrlData = [] := by
    intro data hdata
    obtain ⟨i, -, rfl⟩ := List.mem_map.mp hdata
    rfl
  have hlength : ((List.range n).map fun i => emptyFrame (i + 2)).length = n := by
    rw [List.length_map, List.length_range]
  obtain ⟨g₀, hwait, hrow₀, hgen₀⟩ := hrow.forM_updateFrame hempty (by rw [hlength, hcount]; decide)
  rw [hlength] at hrow₀ hgen₀
  rw [hcount] at hrow₀
  have hnone : ∀ n, (emptyFrame n).ctrlData = [] := fun _ => rfl
  obtain ⟨g₁, hdata, hrow₁, -⟩ := hrow₀.updateFrame (hnone (n + 2)) (by decide)
  rw [hgen₀, happears] at hrow₁
  obtain ⟨g₂, hnext, -⟩ := hrow₁.updateFrame (hnone (n + 3)) (by decide)
  refine ⟨g₀, g₁, g₂, bind_eq_ok.mpr ⟨(), g', hseeded, ?_⟩, hrow₀.gameOver, hdata, hrow₁.gameOver, hnext⟩
  rw [rowFrames, ← List.singleton_append]
  exact forM_append_eq_ok.mpr ⟨(), g, hrowFrame, hwait⟩

/-- The client of a player of this game. -/
def watcher (pid : Pid) : Fsm MersenneTwister := Fsm.init pid (.seed 1) (freshLogin 9209 1000)

/-- The events of player 1: the frames come in time. -/
def firstEvents : List Event := inTime (rowFrames 4776) (emptyFrame 4778) (emptyFrame 4779)

/-- The events of player 2: the winning frame comes one call late. -/
def secondEvents : List Event := oneCallLate (rowFrames 4776) (emptyFrame 4778) (emptyFrame 4779)

/-- The ends of both clients. -/
theorem watchers_run : ∃ c c', runFrom step (watcher 1) firstEvents = some c ∧
    runFrom step (watcher 2) secondEvents = some c' ∧
    received (traceFrom step (watcher 1) firstEvents) = rowFrames 4778 ∧
    received (traceFrom step (watcher 2) secondEvents) = rowFrames 4778 ∧
    (c.Idle ∧ c.game.gameOver = true ∧ c.game.gsFrameNo = 4778) ∧
    c'.Idle ∧ c'.game.gameOver = true ∧ c'.game.gsFrameNo = 4779 := by
  have hall : ∀ n, rowFrames n ++ [emptyFrame (n + 2), emptyFrame (n + 3)] = rowFrames (n + 2) := by
    intro n
    rw [rowFrames_succ, rowFrames_succ, List.append_assoc]
    rfl
  obtain ⟨g₀, g₁, g₂, hpre, h₀, hdata, h₁, hnext⟩ := row_game row_enters
  obtain ⟨c, c', hrun, hrun', hend, hend'⟩ := ends_differ 2 (.seed 1) (by decide)
    ((hall 4776).symm ▸ onBeat_rowFrames _) ((hall 4776).symm ▸ numbered_rowFrames _) hpre h₀ hdata h₁ hnext
  rw [length_rowFrames] at hend hend'
  exact ⟨c, c', hrun, hrun', (received_inTime hrun).trans (hall 4776),
    (received_oneCallLate hrun').trans (hall 4776), hend, hend'⟩

/-- **Two clients of one game end differently.** Player 1 and player 2 receive the same frames with the
same seed, and both are over, but not at the same end. -/
theorem batch_changes_the_end :
    ∃ c c', runFrom step (watcher 1) firstEvents = some c ∧ runFrom step (watcher 2) secondEvents = some c' ∧
      received (traceFrom step (watcher 1) firstEvents) = rowFrames 4778 ∧
      received (traceFrom step (watcher 2) secondEvents) = rowFrames 4778 ∧
      (c.Idle ∧ c'.Idle) ∧ (c.game.gameOver = true ∧ c'.game.gameOver = true) ∧
      c.game.gsFrameNo = 4778 ∧ c'.game.gsFrameNo = 4779 ∧ ¬ SameEnd c c' := by
  obtain ⟨c, c', hrun, hrun', hrec, hrec', ⟨hidle, hover, hno⟩, hidle', hover', hno'⟩ := watchers_run
  refine ⟨c, c', hrun, hrun', hrec, hrec', ⟨hidle, hidle'⟩, ⟨hover, hover'⟩, hno, hno', fun hsame => ?_⟩
  have hframe := hsame.frameNo
  rw [hno, hno'] at hframe
  exact absurd hframe (by decide)

/-- Not the same frames were queued behind the winning one, and due. -/
theorem queuedAndDue_differs :
    queuedAndDue (traceFrom step (watcher 1) firstEvents) ≠
      queuedAndDue (traceFrom step (watcher 2) secondEvents) := by
  obtain ⟨c, c', hrun, hrun', hrec, hrec', ⟨hidle, hover, hno⟩, hidle', hover', hno'⟩ := watchers_run
  intro hqueued
  have hsame := (sameEnd_iff rfl (numbered_rowFrames 4778) (run_of_runFrom hrun) (run_of_runFrom hrun')
    (hrec ▸ List.prefix_refl _) (hrec' ▸ List.prefix_refl _) hidle hidle' hover hover').mpr hqueued
  have hframe := hsame.frameNo
  rw [hno, hno'] at hframe
  exact absurd hframe (by decide)

end Won

end Fsm

end FrameSync.Client
