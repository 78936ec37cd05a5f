import FrameSync.Foundations.Run
import FrameSync.Skynet.Timer

/-! # The timer thread of skynet

The timer thread makes up for the ticks of the clock (`skynet_updatetime`), and has the lock of the timer
but for the time in which it sends the messages of a list. Then, and between two ticks, any thread adds
timers. Whatever the order of their steps, each timer is sent once, at its tick (`timers_sent`). -/

namespace FrameSync.Skynet

/-! ## The threads -/

/-- Where the timer thread is, with the ticks that are left after this one. -/
inductive Phase
  /-- In no `timer_update`. -/
  | idle
  /-- Before `timer_shift`. -/
  | before (left : ℕ)
  /-- After `timer_shift`. -/
  | after (left : ℕ)
deriving DecidableEq

/-- The timer and its thread. -/
structure TimerThread where
  /-- `TI` -/
  timer : Timer
  /-- Where the thread is. -/
  phase : Phase
  /-- The timers that `dispatch_list` still has to send. -/
  sending : List TimerNode

/-- What a thread does. -/
inductive TimerCall
  /-- `skynet_timeout`, in any thread. -/
  | timeout (handle : ℕ) (time session : ℤ)
  /-- `skynet_updatetime`, with the time that it is. -/
  | updatetime (cp : ℕ)
  /-- The timer thread goes on to the end of its critical section, or sends one message. -/
  | advance

/-- What comes of it. -/
inductive TimerEffect
  /-- A timer was added. -/
  | added (event : TimerEvent) (time : ℕ)
  /-- A message was sent without a timer. -/
  | pushed (event : TimerEvent)
  /-- The time went on. -/
  | ticked
  /-- The message of a timer was sent. -/
  | sent (event : TimerEvent)

namespace TimerThread

/-- The loop of `skynet_updatetime`, with so many rounds left. -/
def rounds : ℕ → Phase
  | 0 => .idle
  | left + 1 => .before left

/-- The loop of `timer_execute` up to the next dispatch: the list that is due is taken. Without one the
thread goes on as `next`. -/
def timerExecute (s next : TimerThread) : TimerThread :=
  if s.timer.slots s.timer.due = [] then next
  else { s with timer := s.timer.clearDue, sending := s.timer.slots s.timer.due }

/-- The end of `timer_update`, with the second `timer_execute`. -/
def finish (s : TimerThread) (left : ℕ) : TimerThread :=
  { s with phase := .after left }.timerExecute { s with phase := rounds left }

/-- One critical section of `timer_update`. -/
def timerUpdate (s : TimerThread) : Option (TimerThread × Option TimerEffect) :=
  match s.phase with
  | .idle => none
  | .before left =>
      if s.timer.slots s.timer.due = [] then
        some ({ s with timer := s.timer.timerShift }.finish left, some .ticked)
      else some (s.timerExecute s, none)
  | .after left => some (s.finish left, none)

/-- `skynet_updatetime`. The count of the rounds is an `int`. -/
def updatetime (s : TimerThread) (cp : ℕ) : Option TimerThread :=
  let T := s.timer
  if cp < T.currentPoint then some { s with timer := { T with currentPoint := cp } }
  else if cp = T.currentPoint then some s
  else
    let diff := (cp - T.currentPoint) % 2 ^ 32
    if diff < 2 ^ 31 then
      some { s with timer := { T with currentPoint := cp, current := (T.current + diff) % 2 ^ 64 },
                    phase := rounds diff }
    else none

/-- One step of a thread. -/
def step (s : TimerThread) : TimerCall → Option (TimerThread × Option TimerEffect)
  | .timeout handle time session =>
      if -2 ^ 31 ≤ time ∧ time < 2 ^ 31 then
        some (if time ≤ 0 then (s, some (.pushed ⟨handle, session⟩))
          else ({ s with timer := s.timer.timerAdd ⟨handle, session⟩ time.toNat },
            some (.added ⟨handle, session⟩ time.toNat)))
      else none
  | .updatetime cp =>
      if s.phase = .idle ∧ cp < 2 ^ 64 then (s.updatetime cp).map fun s' => (s', none) else none
  | .advance =>
      match s.sending with
      | node :: rest => some ({ s with sending := rest }, some (.sent node.event))
      | [] => s.timerUpdate

/-- `skynet_timer_init` -/
def init (current currentPoint : ℕ) : TimerThread := ⟨Timer.create current currentPoint, .idle, []⟩

end TimerThread

/-! ### What was done -/

/-- The ticks, the timers with the ticks at which they are due, and what was sent of them. -/
structure TimerLog where
  /-- The ticks since the start. -/
  ticks : ℕ
  /-- The timers, in the order in which they were added. -/
  timers : List (ℕ × TimerEvent)
  /-- The messages. -/
  sent : List TimerEvent

namespace TimerLog

/-- Before anything is done. -/
def start : TimerLog := ⟨0, [], []⟩

/-- What an effect adds. -/
def record (l : TimerLog) : TimerEffect → TimerLog
  | .added event time => { l with timers := l.timers ++ [(l.ticks + time, event)] }
  | .pushed _ => l
  | .ticked => { l with ticks := l.ticks + 1 }
  | .sent event => { l with sent := l.sent ++ [event] }

/-- The timers that are due at a tick. -/
def dueAt (l : TimerLog) (n : ℕ) : List TimerEvent := (l.timers.filter fun p => p.1 = n).map Prod.snd

/-- The timers that are still to come. -/
def pending (l : TimerLog) : List (ℕ × TimerEvent) := l.timers.filter fun p => l.ticks < p.1

/-- The timers that were due up to now, by their ticks. -/
def fired (l : TimerLog) : List TimerEvent := (List.range (l.ticks + 1)).flatMap l.dueAt

end TimerLog

namespace TimerThread

/-- A thread with its log takes a step. -/
def logStep (x : TimerThread × TimerLog) (call : TimerCall) : Option (TimerThread × TimerLog) :=
  (x.1.step call).map fun r => (r.1, r.2.elim x.2 x.2.record)

/-- The rounds that are left. -/
def left (s : TimerThread) : ℕ :=
  match s.phase with
  | .idle => 0
  | .before left => left + 1
  | .after left => left

end TimerThread

namespace TimerLog

variable (l : TimerLog)

theorem pending_added (event : TimerEvent) {time : ℕ} (htime : 0 < time) :
    (l.record (.added event time)).pending = l.pending ++ [(l.ticks + time, event)] := by
  have hlate : l.ticks < l.ticks + time := Nat.lt_add_of_pos_right htime
  change (l.timers ++ [(l.ticks + time, event)]).filter (fun p => l.ticks < p.1) = _
  rw [List.filter_append, pending]
  simp [hlate]

theorem fired_added (event : TimerEvent) {time : ℕ} (htime : 0 < time) :
    (l.record (.added event time)).fired = l.fired := by
  refine List.flatMap_congr fun n hn => ?_
  have hlate : ¬ l.ticks + time = n := by
    have := List.mem_range.mp hn
    change n < l.ticks + 1 at this
    omega
  simp [record, dueAt, hlate]

theorem pending_ticked : (l.record .ticked).pending = l.pending.filter fun p => p.1 ≠ l.ticks + 1 := by
  rw [pending, pending, List.filter_filter]
  refine List.filter_congr fun p _ => ?_
  rw [← Bool.decide_and, decide_eq_decide]
  change l.ticks + 1 < p.1 ↔ _
  omega

theorem fired_ticked : (l.record .ticked).fired =
    l.fired ++ (l.pending.filter fun p => p.1 = l.ticks + 1).map Prod.snd := by
  have hdue : l.dueAt (l.ticks + 1) = (l.pending.filter fun p => p.1 = l.ticks + 1).map Prod.snd := by
    rw [dueAt, pending, List.filter_filter]
    refine congrArg _ (List.filter_congr fun p _ => ?_)
    rw [← Bool.decide_and, decide_eq_decide]
    omega
  rw [← hdue]
  change (List.range (l.ticks + 1 + 1)).flatMap l.dueAt = _
  rw [List.range_succ, List.flatMap_append, List.flatMap_singleton, fired]

theorem pending_late {p : ℕ × TimerEvent} (hp : p ∈ l.pending) : l.ticks < p.1 :=
  of_decide_eq_true (List.mem_filter.mp hp).2

end TimerLog

namespace TimerThread

/-- **What a run keeps.** -/
structure Kept (start : ℕ) (s : TimerThread) (l : TimerLog) : Prop where
  /-- The timers that are to come are in the wheel. -/
  has : s.timer.Has l.ticks l.pending
  /-- The others were sent, or will be. -/
  sent_eq : l.sent ++ s.sending.map TimerNode.event = l.fired
  /-- The clock counts the ticks. -/
  current_eq : s.timer.current = (start + l.ticks + s.left) % 2 ^ 64
  /-- All is sent at the end. -/
  idle : s.phase = .idle → s.sending = []

variable {start : ℕ} {s s' : TimerThread} {l l' : TimerLog}

/-- **No timer is due before `timer_shift`**: none is added for the tick that it is. -/
theorem Kept.due_eq_nil (h : s.Kept start l) : s.timer.slots s.timer.due = [] := by
  rw [h.has.slots_due, List.map_eq_nil_iff, List.filter_eq_nil_iff]
  intro p hp heq
  have := l.pending_late hp
  have := of_decide_eq_true heq
  omega

theorem left_rounds (k : ℕ) : { s with phase := rounds k }.left = k := by
  cases k <;> rfl

/-- After `timer_shift` the list that is due is taken, if it is empty or not. -/
theorem finish_spec (hs : s.sending = []) (k : ℕ) :
    (s.finish k).timer = s.timer.clearDue ∧ (s.finish k).sending = s.timer.slots s.timer.due ∧
      (s.finish k).left = k := by
  rw [finish, timerExecute]
  split_ifs with hdue
  · change s.timer.slots s.timer.due = [] at hdue
    refine ⟨?_, ?_, left_rounds k⟩
    · rw [Timer.clearDue, ← hdue, Function.update_eq_self]
    · rw [hdue]
      exact hs
  · exact ⟨rfl, rfl, rfl⟩

theorem finish_idle (hs : s.sending = []) (k : ℕ) (hidle : (s.finish k).phase = .idle) :
    (s.finish k).sending = [] := by
  rw [finish, timerExecute] at hidle ⊢
  split_ifs at hidle ⊢
  exact hs

/-- **`skynet_timeout`.** -/
theorem Kept.timeout (h : s.Kept start l) (event : TimerEvent) {time : ℕ} (hpos : 0 < time)
    (hlt : time < 2 ^ 31) :
    { s with timer := s.timer.timerAdd event time }.Kept start (l.record (.added event time)) where
  has := by
    rw [l.pending_added event hpos]
    exact h.has.timerAdd event hlt
  sent_eq := by
    rw [l.fired_added event hpos]
    exact h.sent_eq
  current_eq := h.current_eq
  idle := h.idle

/-- **A tick.** -/
theorem Kept.tick (h : s.Kept start l) (hs : s.sending = []) {k : ℕ} (hphase : s.phase = .before k) :
    ({ s with timer := s.timer.timerShift }.finish k).Kept start (l.record .ticked) := by
  have hshift := h.has.timerShift fun p hp => l.pending_late hp
  obtain ⟨htimer, hsending, hleft⟩ := finish_spec (s := { s with timer := s.timer.timerShift }) hs k
  refine ⟨?_, ?_, ?_, ?_⟩
  · rw [htimer, l.pending_ticked]
    exact hshift.clearDue
  · rw [hsending, hshift.slots_due, l.fired_ticked, ← h.sent_eq, hs, List.map_nil, List.append_nil, List.map_map]
    rfl
  · rw [htimer, hleft]
    have hleft' : s.left = k + 1 := by rw [left, hphase]
    have hcurrent := h.current_eq
    rw [hleft', Nat.add_comm k 1, ← Nat.add_assoc, Nat.add_assoc start] at hcurrent
    exact h.has.timerShift_current.trans hcurrent
  · exact finish_idle (s := { s with timer := s.timer.timerShift }) hs k

theorem step_sending {node : TimerNode} {rest : List TimerNode} (hs : s.sending = node :: rest) :
    s.step .advance = some ({ s with sending := rest }, some (.sent node.event)) := by
  rw [step, hs]

theorem step_update (hs : s.sending = []) : s.step .advance = s.timerUpdate := by
  rw [step, hs]

/-- **The thread goes on.** -/
theorem Kept.advance (h : s.Kept start l) {effect : Option TimerEffect}
    (hstep : s.step .advance = some (s', effect)) :
    s'.Kept start (effect.elim l l.record) := by
  cases hsending : s.sending with
  | cons node rest =>
      rw [step_sending hsending] at hstep
      obtain ⟨rfl, rfl⟩ := Prod.mk.inj (Option.some.inj hstep)
      refine ⟨h.has, ?_, h.current_eq, fun hidle => ?_⟩
      · have hsent := h.sent_eq
        rw [hsending, List.map_cons, ← List.singleton_append, ← List.append_assoc] at hsent
        exact hsent
      · exact absurd (hsending.symm.trans (h.idle hidle)) (List.cons_ne_nil _ _)
  | nil =>
      rw [step_update hsending, timerUpdate] at hstep
      cases hphase : s.phase with
      | idle =>
          rw [hphase] at hstep
          cases hstep
      | before k =>
          rw [hphase] at hstep
          dsimp only at hstep
          rw [if_pos h.due_eq_nil] at hstep
          obtain ⟨rfl, rfl⟩ := Prod.mk.inj (Option.some.inj hstep)
          have htick := h.tick hsending hphase
          rw [hphase] at htick
          exact htick
      | after k =>
          rw [hphase] at hstep
          obtain ⟨rfl, rfl⟩ := Prod.mk.inj (Option.some.inj hstep)
          have hleft : s.left = k := by rw [left, hphase]
          rw [finish, timerExecute, if_pos h.due_eq_nil]
          refine ⟨h.has, h.sent_eq, ?_, fun _ => hsending⟩
          rw [left_rounds, ← hleft]
          exact h.current_eq

/-- **`skynet_updatetime`.** -/
theorem Kept.updatetime (h : s.Kept start l) (hphase : s.phase = .idle) {cp : ℕ}
    (hstep : s.updatetime cp = some s') :
    s'.Kept start l := by
  have hleft : s.left = 0 := by rw [left, hphase]
  have hcurrent := h.current_eq
  rw [hleft] at hcurrent
  rw [TimerThread.updatetime] at hstep
  dsimp only at hstep
  split_ifs at hstep with hback hsame hdiff
  · obtain rfl := Option.some.inj hstep
    exact ⟨h.has.clock _ _, h.sent_eq, h.current_eq, h.idle⟩
  · obtain rfl := Option.some.inj hstep
    exact h
  · obtain rfl := Option.some.inj hstep
    refine ⟨h.has.clock _ _, h.sent_eq, ?_, fun _ => h.idle hphase⟩
    change (s.timer.current + _) % 2 ^ 64 = (start + l.ticks + left { s with phase := rounds _ }) % 2 ^ 64
    rw [left_rounds, hcurrent, Nat.mod_add_mod, Nat.add_zero]

/-- **A step of any thread.** -/
theorem Kept.step {x x' : TimerThread × TimerLog} (h : x.1.Kept start x.2) {call : TimerCall}
    (hstep : logStep x call = some x') : x'.1.Kept start x'.2 := by
  obtain ⟨⟨s', effect⟩, hcall, rfl⟩ := Option.map_eq_some_iff.mp hstep
  cases call with
  | timeout handle time session =>
      rw [TimerThread.step] at hcall
      split_ifs at hcall with hint hpos
      · obtain ⟨rfl, rfl⟩ := Prod.mk.inj (Option.some.inj hcall)
        exact h
      · obtain ⟨rfl, rfl⟩ := Prod.mk.inj (Option.some.inj hcall)
        exact h.timeout _ (by omega) (by omega)
  | updatetime cp =>
      rw [TimerThread.step] at hcall
      split_ifs at hcall with hidle
      obtain ⟨s₁, hupdate, heq⟩ := Option.map_eq_some_iff.mp hcall
      obtain ⟨rfl, rfl⟩ := Prod.mk.inj heq
      exact h.updatetime hidle.1 hupdate
  | advance => exact h.advance hcall

theorem kept_init (current currentPoint : ℕ) (hcurrent : current < 2 ^ 64) :
    (init current currentPoint).Kept current TimerLog.start where
  has := Timer.Has.create current currentPoint
  sent_eq := rfl
  current_eq := (Nat.mod_eq_of_lt hcurrent).symm
  idle := fun _ => rfl

theorem kept_run {current currentPoint : ℕ} (hcurrent : current < 2 ^ 64)
    {tr : List ((TimerThread × TimerLog) × TimerCall)} {x : TimerThread × TimerLog}
    (h : Run logStep (init current currentPoint, TimerLog.start) tr x) : x.1.Kept current x.2 :=
  h.invariant (P := fun _ x => x.1.Kept current x.2) (kept_init current currentPoint hcurrent)
    fun _ _ _ _ _ hk hstep => hk.step hstep

/-- **Each timer is sent once, at its tick.** What was sent, and what `dispatch_list` is about to send, are
the timers that were due in the ticks up to now: an earlier tick comes first, and in one tick the timers
come as they were added. When the thread is idle, all of them were sent. -/
theorem timers_sent {current currentPoint : ℕ} (hcurrent : current < 2 ^ 64)
    {tr : List ((TimerThread × TimerLog) × TimerCall)} {x : TimerThread × TimerLog}
    (h : Run logStep (init current currentPoint, TimerLog.start) tr x) :
    x.2.sent ++ x.1.sending.map TimerNode.event = (List.range (x.2.ticks + 1)).flatMap x.2.dueAt ∧
      (x.1.phase = .idle → x.1.sending = []) :=
  have hk := kept_run hcurrent h
  ⟨hk.sent_eq, hk.idle⟩

/-- Two ticks at once, and a timer that comes between them. -/
theorem timers_sent_late : ∃ tr x, Run logStep (init 0 0, TimerLog.start) tr x ∧
    x.2.sent = [⟨3, 8⟩, ⟨1, 7⟩, ⟨4, 9⟩] ∧
    x.2.sent ++ x.1.sending.map TimerNode.event = (List.range (x.2.ticks + 1)).flatMap x.2.dueAt ∧
      (x.1.phase = .idle → x.1.sending = []) := by
  obtain ⟨x, hx, hsent⟩ : ∃ x, runFrom logStep (init 0 0, TimerLog.start)
      [.timeout 1 2 7, .timeout 3 1 8, .updatetime 2, .advance, .timeout 4 1 9, .advance, .advance,
        .advance, .advance,
        .advance] = some x ∧ x.2.sent = [⟨3, 8⟩, ⟨1, 7⟩, ⟨4, 9⟩] := ⟨_, rfl, rfl⟩
  exact ⟨_, x, run_of_runFrom hx, hsent, timers_sent (by decide) (run_of_runFrom hx)⟩

/-- **The clock and the ticks.** The clock is ahead of the ticks by the rounds that are left, and the "rare
condition" of `timer_update` never comes: between two critical sections no timer is due. -/
theorem clock_eq {current currentPoint : ℕ} (hcurrent : current < 2 ^ 64)
    {tr : List ((TimerThread × TimerLog) × TimerCall)} {x : TimerThread × TimerLog}
    (h : Run logStep (init current currentPoint, TimerLog.start) tr x) :
    x.1.timer.time = x.2.ticks % 2 ^ 32 ∧ x.1.timer.current = (current + x.2.ticks + x.1.left) % 2 ^ 64 ∧
      x.1.timer.slots x.1.timer.due = [] :=
  have hk := kept_run hcurrent h
  ⟨hk.has.time_eq, hk.current_eq, hk.due_eq_nil⟩

/-- The first of two ticks. -/
theorem clock_eq_behind : ∃ tr x, Run logStep (init 0 0, TimerLog.start) tr x ∧ x.2.ticks = 1 ∧ x.1.left = 1 ∧
    x.1.timer.time = x.2.ticks % 2 ^ 32 ∧ x.1.timer.current = (0 + x.2.ticks + x.1.left) % 2 ^ 64 ∧
      x.1.timer.slots x.1.timer.due = [] := by
  obtain ⟨x, hx, hticks, hleft⟩ : ∃ x,
      runFrom logStep (init 0 0, TimerLog.start) [.updatetime 2, .advance] = some x ∧
      x.2.ticks = 1 ∧ x.1.left = 1 := ⟨_, rfl, rfl, rfl⟩
  exact ⟨_, x, run_of_runFrom hx, hticks, hleft, clock_eq (by decide) (run_of_runFrom hx)⟩

end TimerThread

end FrameSync.Skynet
