import FrameSync.Foundations.Run
import FrameSync.Server.Sessions
import FrameSync.Server.TimerObject

/-! # Players that have quit

An agent with the timers of its `Player` objects. `login` registers `ServerPing`, and neither `quit` nor
a later `login` of the same pid removes it, so the timer of every object that was ever made goes on
(`armed_serverPing`). A player that has left `playerlist` is silent in a run exactly as long as its timer
does not fire (`quit_silent`): nothing else is done on its behalf. -/

namespace FrameSync

/-- The timers of a `Player`. -/
inductive PlayerTimer
  /-- `ServerPing` -/
  | serverPing
  deriving Repr, DecidableEq

/-- The callbacks of a `Player`. -/
inductive PlayerCallback
  /-- `function () self:check_gs_ping() end` -/
  | checkGsPing
  deriving Repr, DecidableEq

/-- `ping_interval` of the game mode, in milliseconds. -/
def pingInterval : ℤ := 1000

/-- The timers of a `Player` after `login`. -/
def loginTimers : Timers PlayerTimer PlayerCallback :=
  Timers.init.addTimer (pingInterval / 10) .checkGsPing (some (.named .serverPing)) none

/-- An agent with the timers of its objects. -/
structure TimedAgent where
  /-- The agent. -/
  agent : Agent
  /-- The timers of each object. -/
  timers : ℕ → Timers PlayerTimer PlayerCallback

/-- What happens to an agent at the time `clk`. -/
inductive AgentEvent
  /-- It handles a letter. -/
  | letter (clk : Clock) (m : AgentMsg)
  /-- A timeout of an object fires. -/
  | timeout (clk : Clock) (obj : ℕ) (t : Timeout PlayerTimer PlayerCallback)

namespace TimedAgent

/-- An agent without players. -/
def init : TimedAgent := ⟨Agent.init, fun _ => Timers.init⟩

section Step

variable [Wire] [ServerConfig] (n : ℕ)

/-- What the handler of an event does. -/
def handle (s : TimedAgent) : AgentEvent → Outcome Agent (Letter Msg)
  | .letter clk m => s.agent.receive n clk m
  | .timeout clk obj t =>
      if .checkGsPing ∈ (s.timers obj).runs t then s.agent.act clk (.serverPing obj) else .done s.agent []

/-- The timers after an event. -/
def nextTimers (s : TimedAgent) : AgentEvent → ℕ → Timers PlayerTimer PlayerCallback
  | .letter _ (.start ..) => Function.update s.timers s.agent.objs.length loginTimers
  | .letter .. => s.timers
  | .timeout _ obj t => Function.update s.timers obj ((s.timers obj).fire t)

/-- One event of `AGENTn`. A timeout fires when it is under way. -/
def step (s : TimedAgent) (e : AgentEvent) : Option TimedAgent :=
  match e with
  | .letter .. => some ⟨(s.handle n e).state, s.nextTimers e⟩
  | .timeout _ obj t =>
      if t ∈ (s.timers obj).pending then some ⟨(s.handle n e).state, s.nextTimers e⟩ else none

/-- The object on whose behalf an event is handled. -/
def speaker (s : TimedAgent) : AgentEvent → Option ℕ
  | .letter _ (.start ..) => some s.agent.objs.length
  | .letter _ (.kick pid) | .letter _ (.unpack pid _) => s.agent.playerlist pid
  | .letter _ (.entered obj ..) => some obj
  | .timeout _ obj _ => some obj

/-- The letters that an event sends on behalf of an object. -/
def sentFor (s : TimedAgent) (e : AgentEvent) (obj : ℕ) : List (Letter Msg) :=
  if s.speaker e = some obj then (s.handle n e).sent else []

/-- The object that an event takes out of `playerlist`: `quit`, or another `Player` in its place. -/
def leaver (s : TimedAgent) : AgentEvent → Option ℕ
  | .letter _ (.start pid _) | .letter _ (.kick pid) => s.agent.playerlist pid
  | .letter _ (.unpack ..) | .letter _ (.entered ..) | .timeout .. => none

/-- The objects that a run took out of `playerlist`. -/
def left (tr : List (TimedAgent × AgentEvent)) : List ℕ := tr.flatMap fun x => (x.1.leaver x.2).toList

/-- If a timer fires, it is one of an object in `playerlist`. -/
def pingsCurrent (s : TimedAgent) : AgentEvent → Bool
  | .timeout _ obj _ => s.agent.objs[obj]?.any fun p => s.agent.playerlist p.id = some obj
  | .letter .. => true

end Step

/-! ## What an event changes -/

section Changes

variable [Wire] [ServerConfig] {n : ℕ}

/-- Only a login makes an object. -/
theorem length_handle (s : TimedAgent) (e : AgentEvent) : (s.handle n e).state.objs.length =
    match e with
    | .letter _ (.start ..) => s.agent.objs.length + 1
    | .letter .. | .timeout .. => s.agent.objs.length := by
  cases e with
  | letter clk m =>
      cases m with
      | start pid mArgs => exact List.length_append ..
      | kick pid =>
          show (s.agent.kick pid).state.objs.length = _
          rw [Agent.kick]
          split
          · rfl
          · rfl
      | unpack pid msg =>
          show (s.agent.unpack pid msg clk).state.objs.length = _
          rw [Agent.unpack]
          split
          · exact List.length_modify ..
          · rfl
      | entered obj gameId scene => exact List.length_modify ..
  | timeout clk obj t =>
      rw [handle]
      split
      · show (s.agent.serverPing obj clk).state.objs.length = _
        rw [Agent.serverPing]
        split
        · exact List.length_modify ..
        · rfl
      · rfl

/-- What an event does to `playerlist`. -/
theorem playerlist_handle (s : TimedAgent) (e : AgentEvent) : (s.handle n e).state.playerlist =
    match e with
    | .letter _ (.start pid _) => Function.update s.agent.playerlist pid (some s.agent.objs.length)
    | .letter _ (.kick pid) => Function.update s.agent.playerlist pid none
    | .letter .. | .timeout .. => s.agent.playerlist := by
  cases e with
  | letter clk m =>
      cases m with
      | start pid mArgs => rfl
      | kick pid =>
          show (s.agent.kick pid).state.playerlist = _
          rw [Agent.kick]
          split
          · rfl
          · rename_i hnone
            -- A `kick` that finds no player found no entry either, so taking it out changes
            -- nothing.
            have hlist : s.agent.playerlist pid = none := by
              cases hobj : s.agent.playerlist pid with
              | none => rfl
              | some obj =>
                  obtain ⟨p, hp, -⟩ := s.agent.id_eq pid obj hobj
                  rw [Agent.getPlayer_eq_some.mpr ⟨hobj, hp⟩] at hnone
                  cases hnone
            have hsame : Function.update s.agent.playerlist pid none = s.agent.playerlist := by
              rw [← hlist, Function.update_eq_self]
            exact hsame.symm
      | unpack pid msg =>
          show (s.agent.unpack pid msg clk).state.playerlist = _
          rw [Agent.unpack]
          split
          · rfl
          · rfl
      | entered obj gameId scene => rfl
  | timeout clk obj t =>
      rw [handle]
      split
      · show (s.agent.serverPing obj clk).state.playerlist = _
        rw [Agent.serverPing]
        split
        · rfl
        · rfl
      · rfl

/-- What a step leaves. -/
theorem step_eq_some {s s' : TimedAgent} {e : AgentEvent} (h : s.step n e = some s') :
    s' = ⟨(s.handle n e).state, s.nextTimers e⟩ := by
  cases e with
  | letter clk m => exact (Option.some.inj h).symm
  | timeout clk obj t =>
      rw [step.eq_def] at h
      dsimp only at h
      split_ifs at h
      exact (Option.some.inj h).symm

end Changes

/-! ## Objects that have left -/

section Left

variable [Wire] [ServerConfig] {n : ℕ} {tr : List (TimedAgent × AgentEvent)} {s : TimedAgent}

/-- The object was made, and is not in `playerlist`. -/
def Retired (s : TimedAgent) (obj : ℕ) : Prop :=
  obj < s.agent.objs.length ∧ ∀ pid, s.agent.playerlist pid ≠ some obj

omit [Wire] [ServerConfig] in
/-- The object under a pid was made. -/
theorem lt_of_playerlist {s : TimedAgent} {pid : Pid} {obj : ℕ} (h : s.agent.playerlist pid = some obj) :
    obj < s.agent.objs.length := by
  obtain ⟨p, hp, -⟩ := s.agent.id_eq pid obj h
  exact (List.getElem?_eq_some_iff.mp hp).1

omit [Wire] [ServerConfig] in
/-- An object is under one pid. -/
theorem playerlist_inj {s : TimedAgent} {pid pid' : Pid} {obj : ℕ}
    (h : s.agent.playerlist pid = some obj) (h' : s.agent.playerlist pid' = some obj) : pid = pid' := by
  obtain ⟨p, hp, rfl⟩ := s.agent.id_eq pid obj h
  obtain ⟨p', hp', rfl⟩ := s.agent.id_eq pid' obj h'
  rw [hp] at hp'
  exact congrArg Player.id (Option.some.inj hp')

/-- An object that has left does not come back. -/
theorem Retired.step {obj : ℕ} (h : s.Retired obj) {e : AgentEvent} {s' : TimedAgent}
    (hstep : s.step n e = some s') : s'.Retired obj := by
  obtain rfl := step_eq_some hstep
  obtain ⟨hlt, hout⟩ := h
  refine ⟨?_, fun pid => ?_⟩
  · show obj < (s.handle n e).state.objs.length
    rw [length_handle]
    split
    · exact hlt.trans (Nat.lt_succ_self _)
    · exact hlt
    · exact hlt
  · show (s.handle n e).state.playerlist pid ≠ some obj
    rw [playerlist_handle]
    split
    · rename_i clk pid' mArgs
      by_cases hpid : pid = pid'
      · subst hpid
        rw [Function.update_self]
        -- A new player gets a new object.
        exact fun heq => hlt.ne' (Option.some.inj heq)
      · rw [Function.update_of_ne hpid]
        exact hout pid
    · rename_i clk pid'
      by_cases hpid : pid = pid'
      · subst hpid
        rw [Function.update_self]
        exact (Option.some_ne_none _).symm
      · rw [Function.update_of_ne hpid]
        exact hout pid
    · exact hout pid
    · exact hout pid

/-- The object that an event takes out is out. -/
theorem retired_of_leaver {obj : ℕ} {e : AgentEvent} (h : s.leaver e = some obj) {s' : TimedAgent}
    (hstep : s.step n e = some s') : s'.Retired obj := by
  obtain rfl := step_eq_some hstep
  -- An object stands under one pid only: writing that one entry takes it out.
  have hkeep : ∀ {pid : Pid} {o : Option ℕ}, s.agent.playerlist pid = some obj → o ≠ some obj →
      ∀ q, Function.update s.agent.playerlist pid o q ≠ some obj := by
    intro pid o hobj ho q
    by_cases hq : q = pid
    · subst hq
      rwa [Function.update_self]
    · rw [Function.update_of_ne hq]
      exact fun heq => hq (playerlist_inj heq hobj)
  cases e with
  | letter clk m =>
      cases m with
      | start pid mArgs =>
          have hlt := lt_of_playerlist h
          refine ⟨?_, fun q => ?_⟩
          · show obj < (s.handle n _).state.objs.length
            rw [length_handle]
            exact hlt.trans (Nat.lt_succ_self _)
          · show (s.handle n _).state.playerlist q ≠ some obj
            rw [playerlist_handle]
            exact hkeep h (fun heq => hlt.ne' (Option.some.inj heq)) q
      | kick pid =>
          refine ⟨?_, fun q => ?_⟩
          · show obj < (s.handle n _).state.objs.length
            rw [length_handle]
            exact lt_of_playerlist h
          · show (s.handle n _).state.playerlist q ≠ some obj
            rw [playerlist_handle]
            exact @hkeep pid none h (by simp) q
      | unpack | entered => cases h
  | timeout => cases h

/-- **Who has left stays out.** -/
theorem retired_of_left (h : Run (step n) init tr s) : ∀ obj ∈ left tr, s.Retired obj := by
  refine h.invariant (P := fun tr s => ∀ obj ∈ left tr, s.Retired obj) ?_ ?_
  · exact fun obj hobj => absurd hobj List.not_mem_nil
  · intro tr s e s' _ hs hstep obj hobj
    rw [left, List.flatMap_append, List.flatMap_singleton] at hobj
    rcases List.mem_append.mp hobj with hobj | hobj
    · exact (hs obj hobj).step hstep
    · exact retired_of_leaver (Option.mem_toList.mp hobj) hstep

/-- What is sent is sent on behalf of some object. -/
theorem sent_of_speaker_eq_none {s : TimedAgent} {e : AgentEvent} (h : s.speaker e = none) :
    (s.handle n e).sent = [] := by
  cases e with
  | letter clk m =>
      cases m with
      | start => cases h
      | kick pid =>
          have hnone : s.agent.getPlayer pid = none := by
            rw [Agent.getPlayer, show s.agent.playerlist pid = none from h]
            rfl
          show (s.agent.kick pid).sent = []
          rw [Agent.kick, hnone]
          rfl
      | unpack pid msg =>
          have hnone : s.agent.getPlayer pid = none := by
            rw [Agent.getPlayer, show s.agent.playerlist pid = none from h]
            rfl
          show (s.agent.unpack pid msg clk).sent = []
          rw [Agent.unpack, hnone]
          rfl
      | entered => cases h
  | timeout => cases h

/-- On behalf of an object that has left, only its timer is handled. -/
theorem sentFor_of_retired {obj : ℕ} (h : s.Retired obj) {e : AgentEvent} (hping : s.pingsCurrent e = true) :
    s.sentFor n e obj = [] := by
  rw [sentFor]
  split_ifs with hspeaker
  · cases e with
    | letter clk m =>
        cases m with
        | start pid mArgs => exact absurd (Option.some.inj hspeaker) h.1.ne'
        | kick pid => exact absurd hspeaker (h.2 pid)
        | unpack pid msg => exact absurd hspeaker (h.2 pid)
        | entered => rfl
    | timeout clk obj' t =>
        obtain ⟨p, -, hp⟩ := Option.any_eq_true _ _ |>.mp hping
        obtain rfl := Option.some.inj hspeaker
        exact absurd (of_decide_eq_true hp) (h.2 p.id)
  · rfl

/-- **A player that has quit is silent** in every run in which the timers that fire are of players in
`playerlist`: after an object was taken out, by `quit` or by another `Player` of its pid, no letter is
sent on its behalf. -/
theorem quit_silent (h : Run (step n) init tr s) (hpings : ∀ x ∈ tr, x.1.pingsCurrent x.2 = true)
    {pre post : List (TimedAgent × AgentEvent)} {x : TimedAgent × AgentEvent}
    (hsplit : tr = pre ++ x :: post) {obj : ℕ} (hleft : obj ∈ left pre) : x.1.sentFor n x.2 obj = [] := by
  have hretired := retired_of_left (h.before hsplit) obj hleft
  refine sentFor_of_retired hretired (hpings x ?_)
  rw [hsplit]
  exact List.mem_append_right _ List.mem_cons_self

/-! ## The timers go on -/

/-- **The timer of every object goes on**, whether its player has quit or not. -/
theorem armed_serverPing (h : Run (step n) init tr s) : ∀ obj < s.agent.objs.length,
    (s.timers obj).Armed (.named .serverPing) .checkGsPing := by
  refine h.invariant (P := fun _ s => ∀ obj < s.agent.objs.length,
    (s.timers obj).Armed (.named .serverPing) .checkGsPing) ?_ ?_
  · exact fun obj hobj => absurd hobj (Nat.not_lt_zero obj)
  · intro tr s e s' _ hs hstep obj hobj
    obtain rfl := step_eq_some hstep
    change obj < (s.handle n e).state.objs.length at hobj
    rw [length_handle] at hobj
    show (s.nextTimers e obj).Armed _ _
    cases e with
    | letter clk m =>
        cases m with
        | start pid mArgs =>
            by_cases hnew : obj = s.agent.objs.length
            · subst hnew
              rw [nextTimers, Function.update_self]
              exact Timers.armed_addTimer _ (by decide) _ _
            · rw [nextTimers, Function.update_of_ne hnew]
              exact hs obj (lt_of_le_of_ne (Nat.lt_succ_iff.mp hobj) hnew)
        | kick | unpack | entered => exact hs obj hobj
    | timeout clk obj' t =>
        by_cases hsame : obj = obj'
        · subst hsame
          rw [nextTimers, Function.update_self]
          exact (hs obj hobj).fire t
        · rw [nextTimers, Function.update_of_ne hsame]
          exact hs obj hobj

/-- So every object that was made will check its ping again. -/
theorem exists_ping (h : Run (step n) init tr s) {obj : ℕ} (hobj : obj < s.agent.objs.length)
    (clk : Clock) : ∃ t s', s.step n (.timeout clk obj t) = some s' ∧
      s.handle n (.timeout clk obj t) = s.agent.act clk (.serverPing obj) := by
  obtain ⟨t, ht, -, hruns⟩ := (armed_serverPing h obj hobj).exists_runs
  refine ⟨t, _, if_pos ht, ?_⟩
  rw [handle, hruns]
  exact if_pos (List.mem_singleton_self _)

end Left

/-! ## A ping of a player that has quit -/

/-- The letter is a `gs2c_ping` for a player. -/
def isPingTo (pid : Pid) : Letter Msg → Bool
  | ⟨.broadcast _, .sendToPlayer pid' (.gs2cPing ..)⟩ => pid' = pid
  | _ => false

section Quit

attribute [local instance] sprotoWire gameConfig

/-- Player 1 logs in, quits and logs in again. -/
def loginAgain : List AgentEvent :=
  [.letter ⟨0, 0⟩ (.start 1 ⟨1, 1, [97], ⟨some 1, some 2, some 3⟩, 1⟩), .letter ⟨0, 0⟩ (.entered 0 1 1),
   .letter ⟨50, 0⟩ (.kick 1), .letter ⟨60, 0⟩ (.start 1 ⟨1, 1, [97], ⟨some 1, some 2, some 3⟩, 2⟩)]

/-- The timer of the first object fires. -/
def firstPing : AgentEvent := .timeout ⟨100, 1⟩ 0 ⟨100, .checkGsPing, .named .serverPing, 0⟩

/-- **A player that has quit sends pings.** The first object of player 1 was taken out of `playerlist`;
its timer fires, and a `gs2c_ping` goes to player 1, who has logged in again. -/
theorem ping_after_quit :
    ∃ tr s, Run (step 1) init tr s ∧ 0 ∈ left tr ∧ ∃ s', s.step 1 firstPing = some s' ∧
      ∃ l ∈ s.sentFor 1 firstPing 0, isPingTo 1 l = true := by
  have hrun : (runFrom (step 1) init loginAgain).any (fun s =>
      (s.step 1 firstPing).isSome && (s.sentFor 1 firstPing 0).any (isPingTo 1)) = true := by
    decide +kernel
  obtain ⟨s, hs, hstate⟩ := Option.any_eq_true _ _ |>.mp hrun
  simp only [Bool.and_eq_true, List.any_eq_true] at hstate
  obtain ⟨s', hs'⟩ := Option.isSome_iff_exists.mp hstate.1
  exact ⟨_, s, run_of_runFrom hs, by decide +kernel, s', hs', hstate.2⟩

/-- The timer of player 1 fires while it is in the game; then it quits and logs in again. -/
def pingThenQuit : List AgentEvent :=
  [.letter ⟨0, 0⟩ (.start 1 ⟨1, 1, [97], ⟨some 1, some 2, some 3⟩, 1⟩), .letter ⟨0, 0⟩ (.entered 0 1 1),
   firstPing, .letter ⟨150, 1⟩ (.kick 1),
   .letter ⟨160, 1⟩ (.start 1 ⟨1, 1, [97], ⟨some 1, some 2, some 3⟩, 2⟩)]

/-- The first object of player 1 has pinged and gone. Nothing is sent for it then, as long as its next
timeout, at 200, does not come. -/
theorem quit_silent_loginAgain :
    ∃ pre x, traceFrom (step 1) init pingThenQuit = pre ++ [x] ∧ 0 ∈ left pre ∧
      (∃ y ∈ pre, ∃ l ∈ y.1.sentFor 1 y.2 0, isPingTo 1 l = true) ∧ x.1.sentFor 1 x.2 0 = [] := by
  have hrun : (runFrom (step 1) init pingThenQuit).isSome = true := by decide +kernel
  obtain ⟨s, hs⟩ := Option.isSome_iff_exists.mp hrun
  have hpings : ∀ x ∈ traceFrom (step 1) init pingThenQuit, x.1.pingsCurrent x.2 = true := by
    decide +kernel
  obtain ⟨x, hx⟩ : ∃ x, (traceFrom (step 1) init pingThenQuit).drop 4 = [x] :=
    List.length_eq_one_iff.mp (by decide +kernel)
  have hsplit : traceFrom (step 1) init pingThenQuit
      = (traceFrom (step 1) init pingThenQuit).take 4 ++ [x] := by
    rw [← hx, List.take_append_drop]
  have hleft : 0 ∈ left ((traceFrom (step 1) init pingThenQuit).take 4) := by decide +kernel
  have hpinged : ((traceFrom (step 1) init pingThenQuit).take 4).any (fun y =>
      (y.1.sentFor 1 y.2 0).any (isPingTo 1)) = true := by
    decide +kernel
  simp only [List.any_eq_true] at hpinged
  exact ⟨_, x, hsplit, hleft, hpinged, quit_silent (run_of_runFrom hs) hpings hsplit hleft⟩

end Quit

end TimedAgent

end FrameSync
