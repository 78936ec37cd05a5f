import FrameSync.Server.Gate

/-! # The gate, connection by connection

What the gate sends about one socket, whatever the order in which it is told of connections, packets,
closes and logins: packets to `GAMELOGIN`, then one `start`, packets to the agent, and one `kick`
(`gate_protocol`). -/

namespace FrameSync

namespace Gate

/-- What the gate is told: a letter, or something of its sockets at a time in seconds. -/
inductive Event
  /-- A letter. -/
  | letter (m : GateMsg)
  /-- A report of the sockets, or the timer. -/
  | report (x : GateAct) (now : ℕ)
  deriving Repr, DecidableEq

/-- The socket an event is about. -/
def Event.subject : Event → Option Fd
  | .letter (.loginsuc fd _) => some fd
  | .report (.data fd _) _ | .report (.close fd) _ | .report (.error fd) _ => some fd
  | .report .open _ | .report .checkConnections _ => none

/-- One event. -/
def step (g : Gate) : Event → Outcome Gate (Letter Msg)
  | .letter m => g.receive m
  | .report x now => g.act now x

/-- The gate after some events. -/
def after (evs : List Event) : Outcome Gate (Letter Msg) := Outcome.after step init evs

/-- The gate may speak of a socket in the events about it, and in those that are about none. -/
def Event.concerns (ev : Event) (fd : Fd) : Bool := ev.subject.all fun fd' => fd' = fd

/-- What the gate sends in the events that concern a socket. -/
def said (fd : Fd) : List Event → List (Letter Msg) :=
  Outcome.observed step init fun g ev => if ev.concerns fd then (g.step ev).sent else []

/-! ### What arrives

The connections as the socket layer sees them: the socket `fd` is the one that was opened as the `fd`th. -/

/-- The connection of a socket. -/
inductive Line
  /-- It is not open yet, after so many others. -/
  | unopened (opens : ℕ)
  /-- It was opened at a time, and no login was answered. -/
  | waiting (since : ℕ)
  /-- A login was answered. -/
  | loggedIn
  /-- It was closed, or failed, or waited for more than five minutes when the timer came. -/
  | gone
  deriving Repr, DecidableEq

/-- An event on the connection of `fd`. -/
def Line.next (fd : Fd) (line : Line) : Event → Line
  | .letter (.loginsuc fd' _) =>
      match line with
      | .waiting since => if fd' = fd then .loggedIn else .waiting since
      | _ => line
  | .report .open now =>
      match line with
      | .unopened opens => if opens + 1 = fd then .waiting now else .unopened (opens + 1)
      | _ => line
  | .report (.close fd') _ | .report (.error fd') _ =>
      match line with
      | .waiting _ | .loggedIn => if fd' = fd then .gone else line
      | _ => line
  | .report .checkConnections now =>
      match line with
      | .waiting since => if since + 5 * 60 < now then .gone else .waiting since
      | _ => line
  | .report (.data _ _) _ => line

/-- Packets can arrive. -/
def Line.isOpen : Line → Bool
  | .waiting _ | .loggedIn => true
  | .unopened _ | .gone => false

/-- The packet of an event, on a connection that is open or not. -/
def Event.packet (ev : Event) (fd : Fd) (isOpen : Bool) : List ClientMsg :=
  match ev with
  | .report (.data fd' msg) _ => if fd' = fd ∧ isOpen then [msg] else []
  | _ => []

/-- The packets that arrive on the connection of a socket. -/
def arrived (fd : Fd) : List Event → List ClientMsg :=
  Outcome.observed (fun line ev => .done (Line.next fd line ev) ([] : List (Letter Msg))) (.unopened 0)
    fun line ev => ev.packet fd line.isOpen

/-! ### What is sent -/

/-- The letters of a connection that has not logged in. -/
def toLogin (fd : Fd) (msgs : List ClientMsg) : List (Letter Msg) :=
  msgs.map fun msg => ⟨.gamelogin, .upackData fd msg⟩

/-- The letters of a connection that has. -/
def toAgent (agent : ℕ) (mArgs : LoginArgs) (msgs : List ClientMsg) : List (Letter Msg) :=
  ⟨.agent agent, .start mArgs.pid mArgs⟩ :: msgs.map fun msg => ⟨.agent agent, .unpack mArgs.pid msg⟩

/-- How far a connection has come. -/
inductive Stage (g : Gate) (fd : Fd) (sent : List (Letter Msg)) (early late : List ClientMsg) : Prop
  /-- It did not log in. -/
  | waiting (hsent : sent = toLogin fd early) (hlate : late = []) (hlogin : g.loggedIn fd = none)
  /-- It is logged in. -/
  | started (agent : ℕ) (mArgs : LoginArgs) (hsent : sent = toLogin fd early ++ toAgent agent mArgs late)
      (hlogin : g.loggedIn fd = some (agent, mArgs.pid))
  /-- It was logged in and is gone. -/
  | ended (agent : ℕ) (mArgs : LoginArgs)
      (hsent : sent = toLogin fd early ++ toAgent agent mArgs late ++ [⟨.agent agent, .kick mArgs.pid⟩])
      (hgone : g.conlist fd = none) (hused : fd < g.nextFd)

variable {g : Gate} {fd : Fd} {sent : List (Letter Msg)} {early late : List ClientMsg}

/-- What does not concern a connection leaves it where it is. -/
theorem Stage.keep (h : Stage g fd sent early late) {g' : Gate} (hlogin : g'.loggedIn fd = g.loggedIn fd)
    (hgone : g.conlist fd = none → fd < g.nextFd → g'.conlist fd = none ∧ fd < g'.nextFd) :
    Stage g' fd sent early late := by
  cases h with
  | waiting hsent hlate hnone => exact .waiting hsent hlate (hlogin.trans hnone)
  | started agent mArgs hsent hsome => exact .started agent mArgs hsent (hlogin.trans hsome)
  | ended agent mArgs hsent hnone hused =>
      obtain ⟨hnone', hused'⟩ := hgone hnone hused
      exact .ended agent mArgs hsent hnone' hused'

/-- A connection that may log in has not. -/
theorem Stage.login (h : Stage g fd sent early late) (hmay : g.mayLogin fd = true) (mArgs : LoginArgs) :
    Stage (g.setLogin fd mArgs.agent mArgs.pid) fd
      (sent ++ [⟨.agent mArgs.agent, .start mArgs.pid mArgs⟩]) early late := by
  have hnot := loggedIn_of_mayLogin hmay
  cases h with
  | waiting hsent hlate hnone =>
      refine .started mArgs.agent mArgs ?_ ?_
      · rw [hsent, hlate]
        rfl
      · rw [loggedIn_setLogin hmay, if_pos rfl]
  | started agent mArgs hsent hsome => exact absurd (hsome.symm.trans hnot) (by simp)
  | ended agent mArgs hsent hgone hused =>
      rw [mayLogin, hgone] at hmay
      cases hmay

/-- A packet goes where the connection is. -/
theorem Stage.data (h : Stage g fd sent early late) (msg : ClientMsg) :
    ∃ early' late', early ++ late ++ (if (g.conlist fd).isSome then [msg] else []) = early' ++ late' ∧
      Stage g fd (sent ++ g.dispatchMsg fd msg) early' late' := by
  cases hconn : g.conlist fd with
  | none =>
      refine ⟨early, late, by simp, ?_⟩
      rw [dispatchMsg, hconn, List.append_nil]
      exact h
  | some conn =>
      obtain ⟨startTime, login⟩ := conn
      have hlogged : g.loggedIn fd = login := by rw [loggedIn, hconn]; rfl
      rw [Option.isSome_some, if_pos rfl, dispatchMsg, hconn]
      cases h with
      | waiting hsent hlate hnone =>
          obtain rfl : login = none := hlogged.symm.trans hnone
          refine ⟨early ++ [msg], [], by rw [hlate]; simp, .waiting ?_ rfl hnone⟩
          rw [hsent, toLogin, toLogin, List.map_append]
          rfl
      | started agent mArgs hsent hsome =>
          obtain rfl : login = some (agent, mArgs.pid) := hlogged.symm.trans hsome
          refine ⟨early, late ++ [msg], by rw [List.append_assoc], .started agent mArgs ?_ hsome⟩
          rw [hsent, toAgent, toAgent, List.map_append, List.append_assoc]
          rfl
      | ended agent mArgs hsent hgone hused => exact absurd (hgone.symm.trans hconn) (by simp)

/-- A connection is used when it was given out. -/
theorem lt_nextFd_of_conlist {conn : Connection} (h : g.conlist fd = some conn) : fd < g.nextFd := by
  by_contra hle
  rw [g.unused fd (Nat.le_of_not_lt hle)] at h
  cases h

/-- The connection of a socket is gone after it closed. -/
theorem conlist_delConnection (g : Gate) (fd : Fd) : (g.delConnection fd).state.conlist fd = none := by
  rw [delConnection]
  split
  · show (g.conlist fd).filter _ = none
    cases g.conlist fd with
    | none => rfl
    | some conn => simp [Option.filter]
  · rename_i hnone
    exact hnone

theorem nextFd_delConnection (g : Gate) (fd : Fd) : (g.delConnection fd).state.nextFd = g.nextFd := by
  rw [delConnection]
  split
  · rfl
  · rfl

/-- A close ends the session that the connection started. -/
theorem Stage.close (h : Stage g fd sent early late) :
    Stage (g.delConnection fd).state fd (sent ++ (g.delConnection fd).sent) early late := by
  rw [sent_delConnection]
  cases h with
  | waiting hsent hlate hnone =>
      rw [hnone]
      refine .waiting ?_ hlate ?_
      · rw [hsent]
        exact List.append_nil _
      · rw [loggedIn_delConnection, if_pos rfl]
  | started agent mArgs hsent hsome =>
      obtain ⟨conn, hconn, -⟩ := Option.bind_eq_some_iff.mp hsome
      rw [hsome]
      refine .ended agent mArgs ?_ (conlist_delConnection g fd) ?_
      · rw [hsent]
        rfl
      · rw [nextFd_delConnection]
        exact lt_nextFd_of_conlist hconn
  | ended agent mArgs hsent hgone hused =>
      have hnone : g.loggedIn fd = none := by rw [loggedIn, hgone]; rfl
      rw [hnone]
      refine .ended agent mArgs ?_ (conlist_delConnection g fd) ?_
      · rw [hsent]
        exact List.append_nil _
      · rw [nextFd_delConnection]
        exact hused

/-- Another connection that closes does not matter. -/
theorem conlist_delConnection_ne (g : Gate) {fd fd' : Fd} (h : fd' ≠ fd) :
    (g.delConnection fd).state.conlist fd' = g.conlist fd' := by
  rw [delConnection]
  split
  · show (g.conlist fd').filter _ = g.conlist fd'
    cases g.conlist fd' with
    | none => rfl
    | some conn => simp [Option.filter, h]
  · rfl

/-- **One event.** -/
theorem Stage.step (h : Stage g fd sent early late) (ev : Event) :
    ∃ early' late', early ++ late ++ ev.packet fd (g.conlist fd).isSome = early' ++ late' ∧
      Stage (g.step ev).state fd (sent ++ if ev.concerns fd then (g.step ev).sent else []) early' late' := by
  -- what leaves the connection as it is leaves the stage as it is
  have unconcerned : ∀ g' : Gate, g'.loggedIn fd = g.loggedIn fd →
      (g.conlist fd = none → fd < g.nextFd → g'.conlist fd = none ∧ fd < g'.nextFd) →
      ∃ early' late', early ++ late ++ [] = early' ++ late' ∧ Stage g' fd (sent ++ []) early' late' := by
    intro g' hlogin hgone
    refine ⟨early, late, List.append_nil _, ?_⟩
    rw [List.append_nil]
    exact h.keep hlogin hgone
  cases ev with
  | letter m =>
      obtain ⟨fd', mArgs⟩ := m
      simp only [Gate.step, receive, loginsuc, Event.concerns, Event.subject, Option.all_some, decide_eq_true_eq,
        Event.packet]
      by_cases hfd : fd' = fd
      · subst hfd
        by_cases hmay : g.mayLogin fd' = true
        · rw [if_pos hmay, if_pos rfl]
          exact ⟨early, late, List.append_nil _, h.login hmay mArgs⟩
        · rw [if_neg hmay, if_pos rfl]
          exact unconcerned g rfl fun hnone hlt => ⟨hnone, hlt⟩
      · rw [if_neg hfd]
        by_cases hmay : g.mayLogin fd' = true
        · rw [if_pos hmay]
          refine unconcerned _ ?_ fun hnone hlt => ⟨?_, hlt⟩
          · rw [Outcome.done_state, loggedIn_setLogin hmay, if_neg (Ne.symm hfd)]
          · exact (Function.update_of_ne (Ne.symm hfd) _ _).trans hnone
        · rw [if_neg hmay]
          exact unconcerned g rfl fun hnone hlt => ⟨hnone, hlt⟩
  | report x now =>
      cases x with
      | «open» =>
          refine unconcerned _ (loggedIn_newConnection g now fd) fun hnone hlt => ⟨?_, ?_⟩
          · -- a new connection gets a number that was never used
            exact (Function.update_of_ne (Nat.ne_of_lt hlt) _ _).trans hnone
          · exact Nat.lt_succ_of_lt hlt
      | data fd' msg =>
          simp only [Gate.step, act, Event.concerns, Event.subject, Option.all_some, decide_eq_true_eq,
            Event.packet]
          by_cases hfd : fd' = fd
          · subst hfd
            simpa using h.data msg
          · simp only [hfd, false_and, if_false]
            exact unconcerned g rfl fun hnone hlt => ⟨hnone, hlt⟩
      | close fd' | error fd' =>
          simp only [Gate.step, act, Event.concerns, Event.subject, Option.all_some, decide_eq_true_eq,
            Event.packet]
          by_cases hfd : fd' = fd
          · subst hfd
            rw [if_pos rfl]
            exact ⟨early, late, List.append_nil _, h.close⟩
          · rw [if_neg hfd]
            refine unconcerned _ ?_ fun hnone hlt => ⟨?_, ?_⟩
            · rw [loggedIn_delConnection, if_neg (Ne.symm hfd)]
            · rw [conlist_delConnection_ne g (Ne.symm hfd), hnone]
            · rw [nextFd_delConnection]
              exact hlt
      | checkConnections =>
          refine unconcerned _ (loggedIn_checkConnections g now fd) fun hnone hlt => ⟨?_, hlt⟩
          show (g.conlist fd).filter _ = none
          rw [hnone]
          rfl

/-- An event sends nothing about a connection that is gone, and it stays gone. -/
theorem gone_step {g : Gate} {fd : Fd} (hgone : g.conlist fd = none) (hused : fd < g.nextFd) (ev : Event) :
    (if ev.concerns fd then (g.step ev).sent else []) = [] ∧
      (g.step ev).state.conlist fd = none ∧ fd < (g.step ev).state.nextFd := by
  -- a connection that is gone is not logged in
  have hlogin : g.loggedIn fd = none := by rw [loggedIn, hgone]; rfl
  cases ev with
  | letter m =>
      obtain ⟨fd', mArgs⟩ := m
      simp only [Event.concerns, Event.subject, Option.all_some, decide_eq_true_eq, step, receive, loginsuc]
      by_cases hfd : fd' = fd
      · subst hfd
        -- nor may it log in
        have hmay : ¬ g.mayLogin fd' = true := by rw [mayLogin, hgone]; simp
        rw [if_neg hmay, if_pos rfl]
        exact ⟨rfl, hgone, hused⟩
      · rw [if_neg hfd]
        refine ⟨rfl, ?_⟩
        split
        · exact ⟨(Function.update_of_ne (Ne.symm hfd) _ _).trans hgone, hused⟩
        · exact ⟨hgone, hused⟩
  | report x now =>
      cases x with
      | «open» =>
          refine ⟨rfl, ?_, Nat.lt_succ_of_lt hused⟩
          -- the next connection gets another number
          exact (Function.update_of_ne (Nat.ne_of_lt hused) _ _).trans hgone
      | data fd' msg =>
          refine ⟨?_, hgone, hused⟩
          simp only [Event.concerns, Event.subject, Option.all_some, decide_eq_true_eq, step, act]
          split
          · rename_i hfd
            subst hfd
            rw [Outcome.done_sent, dispatchMsg, hgone]
          · rfl
      | close fd' | error fd' =>
          simp only [Event.concerns, Event.subject, Option.all_some, decide_eq_true_eq, step, act,
            nextFd_delConnection]
          by_cases hfd : fd' = fd
          · subst hfd
            rw [if_pos rfl, sent_delConnection, hlogin]
            exact ⟨rfl, conlist_delConnection g fd', hused⟩
          · rw [if_neg hfd, conlist_delConnection_ne g (Ne.symm hfd)]
            exact ⟨rfl, hgone, hused⟩
      | checkConnections =>
          refine ⟨rfl, ?_, hused⟩
          show (g.conlist fd).filter _ = none
          rw [hgone]
          rfl

/-- Nothing is sent about a connection that is gone. -/
theorem said_of_gone {evs : List Event} {fd : Fd} (hgone : (after evs).state.conlist fd = none)
    (hused : fd < (after evs).state.nextFd) (more : List Event) :
    said fd (evs ++ more) = said fd evs := by
  suffices h : said fd (evs ++ more) = said fd evs ∧ (after (evs ++ more)).state.conlist fd = none ∧
      fd < (after (evs ++ more)).state.nextFd from h.1
  induction more using List.reverseRecOn with
  | nil => exact (List.append_nil evs).symm ▸ ⟨rfl, hgone, hused⟩
  | append_singleton more ev ih =>
      obtain ⟨hsaid, hgone', hused'⟩ := ih
      obtain ⟨hsent, hstays⟩ := gone_step hgone' hused' ev
      rw [← List.append_assoc, said, Outcome.observed_snoc, ← said, hsaid, after, Outcome.after_snoc_state,
        ← after]
      exact ⟨(congrArg _ hsent).trans (List.append_nil _), hstays⟩

/-! ## The connections of the gate -/

/-- The connection of a socket after some events. -/
def lineAfter (fd : Fd) (evs : List Event) : Line :=
  (Outcome.after (fun line ev => .done (Line.next fd line ev) ([] : List (Letter Msg))) (.unopened 0) evs).state

theorem lineAfter_snoc (fd : Fd) (evs : List Event) (ev : Event) :
    lineAfter fd (evs ++ [ev]) = (lineAfter fd evs).next fd ev := by
  rw [lineAfter, Outcome.after_snoc_state]
  rfl

/-- What the gate knows of a connection. -/
inductive Line.Fits (g : Gate) (fd : Fd) : Line → Prop
  /-- The next connections have other numbers, up to `fd`. -/
  | unopened {opens : ℕ} (hnext : g.nextFd = opens + 1) (hnone : g.conlist fd = none) :
      Fits g fd (.unopened opens)
  /-- The connection has no login. -/
  | waiting {since : ℕ} (hconn : g.conlist fd = some ⟨since, none⟩) : Fits g fd (.waiting since)
  /-- The connection has one. -/
  | loggedIn {since agent : ℕ} {pid : Pid} (hconn : g.conlist fd = some ⟨since, some (agent, pid)⟩) :
      Fits g fd .loggedIn
  /-- The number was given out. -/
  | gone (hused : fd < g.nextFd) (hnone : g.conlist fd = none) : Fits g fd .gone

/-- The gate knows the connections that are open. -/
theorem Line.Fits.isOpen_eq {line : Line} (h : line.Fits g fd) : line.isOpen = (g.conlist fd).isSome := by
  cases h with
  | unopened hnext hnone => rw [hnone]; rfl
  | waiting hconn => rw [hconn]; rfl
  | loggedIn hconn => rw [hconn]; rfl
  | gone hused hnone => rw [hnone]; rfl

/-- What the gate does about other sockets. -/
theorem Line.Fits.keep {line : Line} (h : line.Fits g fd) {g' : Gate} (hnext : g'.nextFd = g.nextFd)
    (hconn : g'.conlist fd = g.conlist fd) : line.Fits g' fd := by
  cases h with
  | unopened hnext' hnone => exact .unopened (hnext.trans hnext') (hconn.trans hnone)
  | waiting hconn' => exact .waiting (hconn.trans hconn')
  | loggedIn hconn' => exact .loggedIn (hconn.trans hconn')
  | gone hused hnone => exact .gone (hnext.symm ▸ hused) (hconn.trans hnone)

/-- A connection that is deleted. -/
theorem Line.Fits.del {line : Line} (h : line.Fits g fd) (hopen : line.isOpen = true) :
    Line.Fits (g.delConnection fd).state fd .gone := by
  rw [h.isOpen_eq, Option.isSome_iff_exists] at hopen
  obtain ⟨conn, hconn⟩ := hopen
  refine .gone ?_ (conlist_delConnection g fd)
  rw [nextFd_delConnection]
  exact lt_nextFd_of_conlist hconn

/-- A login that is answered. -/
theorem Line.Fits.letter {line : Line} (h : line.Fits g fd) (fd' : Fd) (mArgs : LoginArgs) :
    (line.next fd (.letter (.loginsuc fd' mArgs))).Fits (g.loginsuc fd' mArgs).state fd := by
  rw [loginsuc]
  by_cases hfd : fd' = fd
  · subst hfd
    cases h with
    | @waiting since hconn =>
        have hmay : g.mayLogin fd' = true := by rw [mayLogin, hconn]; rfl
        rw [if_pos hmay, Line.next, if_pos rfl]
        have hlogin : (g.setLogin fd' mArgs.agent mArgs.pid).conlist fd' =
            some ⟨since, some (mArgs.agent, mArgs.pid)⟩ := by
          refine (Function.update_self _ _ _).trans ?_
          rw [hconn]
          rfl
        exact .loggedIn hlogin
    | unopened hnext hnone =>
        have hmay : ¬ g.mayLogin fd' = true := by rw [mayLogin, hnone]; exact Bool.false_ne_true
        rw [if_neg hmay]
        exact .unopened hnext hnone
    | loggedIn hconn =>
        have hmay : ¬ g.mayLogin fd' = true := by rw [mayLogin, hconn]; exact Bool.false_ne_true
        rw [if_neg hmay]
        exact .loggedIn hconn
    | gone hused hnone =>
        have hmay : ¬ g.mayLogin fd' = true := by rw [mayLogin, hnone]; exact Bool.false_ne_true
        rw [if_neg hmay]
        exact .gone hused hnone
  · have hline : line.next fd (.letter (.loginsuc fd' mArgs)) = line := by
      cases line <;> simp only [Line.next, if_neg hfd]
    rw [hline]
    split
    · exact h.keep rfl (Function.update_of_ne (Ne.symm hfd) _ _)
    · exact h

/-- A connection that is opened. -/
theorem Line.Fits.open {line : Line} (h : line.Fits g fd) (now : ℕ) :
    (line.next fd (.report .open now)).Fits (g.newConnection now) fd := by
  -- a number that was given out is not the next one
  have hother : fd < g.nextFd → (g.newConnection now).conlist fd = g.conlist fd :=
    fun hlt => Function.update_of_ne (Nat.ne_of_lt hlt) _ _
  cases h with
  | @unopened opens hnext hnone =>
      rw [Line.next]
      split_ifs with hfd
      · have hfd' : g.nextFd = fd := hnext.trans hfd
        refine .waiting ?_
        rw [← hfd']
        exact Function.update_self _ _ _
      · have hfd' : fd ≠ g.nextFd := fun heq => hfd (hnext.symm.trans heq.symm)
        exact .unopened (congrArg (· + 1) hnext) ((Function.update_of_ne hfd' _ _).trans hnone)
  | waiting hconn => exact .waiting ((hother (lt_nextFd_of_conlist hconn)).trans hconn)
  | loggedIn hconn => exact .loggedIn ((hother (lt_nextFd_of_conlist hconn)).trans hconn)
  | gone hused hnone => exact .gone (Nat.lt_succ_of_lt hused) ((hother hused).trans hnone)

/-- A connection that is closed or fails. -/
theorem Line.Fits.close {line : Line} (h : line.Fits g fd) (fd' : Fd) (now : ℕ) :
    (line.next fd (.report (.close fd') now)).Fits (g.delConnection fd').state fd := by
  by_cases hfd : fd' = fd
  · subst hfd
    cases h with
    | waiting hconn =>
        rw [Line.next, if_pos rfl]
        exact (Fits.waiting hconn).del rfl
    | loggedIn hconn =>
        rw [Line.next, if_pos rfl]
        exact (Fits.loggedIn hconn).del rfl
    | unopened hnext hnone =>
        exact .unopened ((nextFd_delConnection g fd').trans hnext) (conlist_delConnection g fd')
    | gone hused hnone => exact .gone ((nextFd_delConnection g fd').symm ▸ hused) (conlist_delConnection g fd')
  · have hline : line.next fd (.report (.close fd') now) = line := by
      cases line <;> simp only [Line.next, if_neg hfd]
    rw [hline]
    exact h.keep (nextFd_delConnection g fd') (conlist_delConnection_ne g (Ne.symm hfd))

/-- The timer. -/
theorem Line.Fits.checkConnections {line : Line} (h : line.Fits g fd) (now : ℕ) :
    (line.next fd (.report .checkConnections now)).Fits (g.checkConnections now) fd := by
  have hconlist : (g.checkConnections now).conlist fd =
      (g.conlist fd).filter fun conn => conn.login.isSome || now ≤ conn.startTime + 5 * 60 := rfl
  cases h with
  | unopened hnext hnone => exact .unopened hnext (by rw [hconlist, hnone]; rfl)
  | loggedIn hconn => exact .loggedIn (by rw [hconlist, hconn]; rfl)
  | gone hused hnone => exact .gone hused (by rw [hconlist, hnone]; rfl)
  | @waiting since hconn =>
      rw [hconn] at hconlist
      rw [Line.next]
      split_ifs with hlate
      · refine .gone (lt_nextFd_of_conlist hconn : fd < g.nextFd) ?_
        rw [hconlist, Option.filter_some, if_neg (by simpa using hlate)]
      · refine .waiting (hconlist.trans ?_)
        rw [Option.filter_some, if_pos (by simpa using hlate)]

/-- One event. -/
theorem Line.Fits.step {line : Line} (h : line.Fits g fd) (ev : Event) :
    (line.next fd ev).Fits (g.step ev).state fd := by
  cases ev with
  | letter m => exact h.letter m.1 m.2
  | report x now =>
      cases x with
      | «open» => exact h.open now
      | data fd' msg => exact h
      | close fd' => exact h.close fd' now
      | error fd' => exact h.close fd' now
      | checkConnections => exact h.checkConnections now

theorem fits_lineAfter (fd : Fd) (evs : List Event) : (lineAfter fd evs).Fits (after evs).state fd := by
  induction evs using List.reverseRecOn with
  | nil => exact .unopened rfl rfl
  | append_singleton evs ev ih =>
      rw [lineAfter_snoc, after, Outcome.after_snoc_state]
      exact ih.step ev

/-- **The gate's protocol for a connection**, whatever the order of events. What it sends in the events
about a socket, and in those about none, is: the packets that came before the login to `GAMELOGIN`, one
`start`, the packets that came after it to the agent, and one `kick`, all of one pid and one agent, as far
as the connection has come; the packets are those that arrived, in order. A close or an error ends a
connection that was logged in with a `kick`, and of a connection that is gone nothing more is said. -/
theorem gate_protocol (evs : List Event) (fd : Fd) :
    (∃ early late, arrived fd evs = early ++ late ∧
      Stage (after evs).state fd (said fd evs) early late) ∧
    (∀ now, ∀ ev ∈ [Event.report (.close fd) now, .report (.error fd) now],
      (after (evs ++ [ev])).state.conlist fd = none ∧ said fd (evs ++ [ev]) = said fd evs ++
        ((after evs).state.loggedIn fd).toList.map fun l => ⟨.agent l.1, .kick l.2⟩) ∧
    ((after evs).state.conlist fd = none → fd < (after evs).state.nextFd →
      ∀ more, said fd (evs ++ more) = said fd evs) := by
  refine ⟨?_, fun now ev hev => ?_, said_of_gone⟩
  · induction evs using List.reverseRecOn with
    | nil => exact ⟨[], [], rfl, .waiting rfl rfl rfl⟩
    | append_singleton evs ev ih =>
        obtain ⟨early, late, harrived, hstage⟩ := ih
        obtain ⟨early', late', harrived', hstage'⟩ := hstage.step ev
        refine ⟨early', late', ?_, ?_⟩
        · rw [arrived, Outcome.observed_snoc, ← arrived, harrived, ← lineAfter,
            (fits_lineAfter fd evs).isOpen_eq,
            harrived']
        · rw [said, Outcome.observed_snoc, ← said, after, Outcome.after_snoc_state, ← after]
          exact hstage'
  · rw [said, Outcome.observed_snoc, ← said, after, Outcome.after_snoc_state, ← after]
    rcases List.mem_pair.mp hev with rfl | rfl
    · refine ⟨conlist_delConnection _ fd, ?_⟩
      rw [← sent_delConnection]
      exact congrArg (said fd evs ++ ·) (if_pos (decide_eq_true rfl))
    · refine ⟨conlist_delConnection _ fd, ?_⟩
      rw [← sent_delConnection]
      exact congrArg (said fd evs ++ ·) (if_pos (decide_eq_true rfl))

/-- The arguments of the login of pid 7 on the first socket. -/
def firstLogin : LoginArgs := ⟨7, 0, [], ⟨some 1, some 2, some 3⟩, 1⟩

/-- A client connects, logs in and sends a ping, the timer comes, and the connection is closed. -/
def session : List Event :=
  [.report .open 0, .report (.data 1 (.c2gsLogin (some 7))) 1, .letter (.loginsuc 1 firstLogin),
   .report (.data 1 (.c2gsPing (some 1))) 2, .report .checkConnections 400, .report (.close 1) 401]

/-- The gate in this session. -/
theorem gate_protocol_session :
    arrived 1 session = [.c2gsLogin (some 7), .c2gsPing (some 1)] ∧
    said 1 session = [⟨.gamelogin, .upackData 1 (.c2gsLogin (some 7))⟩, ⟨.agent 0, .start 7 firstLogin⟩,
      ⟨.agent 0, .unpack 7 (.c2gsPing (some 1))⟩, ⟨.agent 0, .kick 7⟩] ∧
    ∃ early late, arrived 1 session = early ++ late ∧
      Stage (after session).state 1 (said 1 session) early late :=
  ⟨rfl, rfl, (gate_protocol session 1).1⟩

end Gate

end FrameSync
