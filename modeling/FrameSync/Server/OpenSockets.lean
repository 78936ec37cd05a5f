import FrameSync.Foundations.Run
import FrameSync.Server.GateProtocol

/-! # Sockets and connections

The gate next to the sockets themselves. The socket driver has a socket from the moment it reports it
as open until it reports it as closed or in error; the gate keeps a connection for each, and no handler
of the gate closes the socket of a connection. `CheckConnections` takes connections that did not log in
for five minutes out of `conlist` all the same, and their sockets stay open: nothing that arrives there
is handled any more, not even a login (`forgotten_socket`). A run remembers all its open sockets exactly
when no sweep finds a connection that is due (`remembered_iff`). -/

namespace FrameSync

/-- The gate and the sockets that the driver has open. -/
structure GateSockets where
  /-- The gate. -/
  gate : Gate
  /-- The sockets. -/
  isOpen : Fd → Bool

namespace GateSockets

/-- The gate before any connection. -/
def init : GateSockets := ⟨Gate.init, fun _ => false⟩

/-- The open sockets after an event. -/
def nextOpen (s : GateSockets) : Gate.Event → Fd → Bool
  | .report .open _ => Function.update s.isOpen s.gate.nextFd true
  | .report (.close fd) _ | .report (.error fd) _ => Function.update s.isOpen fd false
  | .report (.data ..) _ | .report .checkConnections _ | .letter _ => s.isOpen

/-- One event. -/
def step (s : GateSockets) (ev : Gate.Event) : Option GateSockets :=
  some ⟨(s.gate.step ev).state, s.nextOpen ev⟩

/-- The connection did not log in for five minutes. -/
def due (now : ℕ) (conn : Connection) : Bool :=
  conn.login.isNone && conn.startTime + 5 * 60 < now

/-- If the event is a sweep, it finds no connection that is due. -/
def noneDue (s : GateSockets) : Gate.Event → Bool
  | .report .checkConnections now =>
      (List.range s.gate.nextFd).all fun fd => (s.gate.conlist fd).all fun conn => !due now conn
  | .report .open _ | .report (.data ..) _ | .report (.close _) _ | .report (.error _) _
  | .letter _ => true

/-- No open socket is forgotten. -/
structure Remembered (s : GateSockets) : Prop where
  /-- It has an entry in `conlist`. -/
  entry : ∀ fd, s.isOpen fd = true → (s.gate.conlist fd).isSome = true
  /-- If it did not log in it can. -/
  login : ∀ fd, s.isOpen fd = true → s.gate.loggedIn fd = none → ∀ mArgs,
    (s.gate.loginsuc fd mArgs).sent = [⟨.agent mArgs.agent, .start mArgs.pid mArgs⟩]
  /-- A connection that is not in `conlist` any more is really closed. -/
  dropped : ∀ fd, fd < s.gate.nextFd → s.gate.conlist fd = none → s.isOpen fd = false

variable {s s' : GateSockets} {ev : Gate.Event}

/-- An entry is all it takes. -/
theorem remembered_of_entry (h : ∀ fd, s.isOpen fd = true → (s.gate.conlist fd).isSome = true) :
    Remembered s := by
  refine ⟨h, fun fd hopen hlogin mArgs => ?_, fun fd _ hnone => ?_⟩
  · obtain ⟨conn, hconn⟩ := Option.isSome_iff_exists.mp (h fd hopen)
    have hmay : s.gate.mayLogin fd = true := by
      rw [Gate.loggedIn, hconn, Option.bind_some] at hlogin
      rw [Gate.mayLogin, hconn, Option.any_some, hlogin]
      rfl
    rw [Gate.loginsuc, if_pos hmay]
    rfl
  · rw [← Bool.not_eq_true]
    intro hopen
    have hsome := h fd hopen
    rw [hnone] at hsome
    cases hsome

/-! ## What an event does to `conlist` -/

/-- **An event other than a sweep** gives the connections to the sockets that it leaves open. -/
theorem isSome_conlist_step (hsweep : ∀ now, ev ≠ .report .checkConnections now) (fd : Fd) :
    ((s.gate.step ev).state.conlist fd).isSome = match ev with
      | .report .open _ => decide (fd = s.gate.nextFd) || (s.gate.conlist fd).isSome
      | .report (.close fd') _ | .report (.error fd') _ => decide (fd ≠ fd') && (s.gate.conlist fd).isSome
      | .report (.data ..) _ | .report .checkConnections _ | .letter _ => (s.gate.conlist fd).isSome := by
  -- a close and an error do the same
  have hclose : ∀ fd', ((s.gate.delConnection fd').state.conlist fd).isSome
      = (decide (fd ≠ fd') && (s.gate.conlist fd).isSome) := by
    intro fd'
    by_cases hfd : fd = fd'
    · subst hfd
      rw [Gate.conlist_delConnection]
      simp
    · rw [Gate.conlist_delConnection_ne _ hfd]
      simp [hfd]
  cases ev with
  | letter m =>
      obtain ⟨fd', mArgs⟩ := m
      show ((s.gate.loginsuc fd' mArgs).state.conlist fd).isSome = _
      -- a login changes an entry, but neither adds nor removes one
      rw [Gate.loginsuc]
      split
      · show (Function.update s.gate.conlist fd' _ fd).isSome = _
        by_cases hfd : fd = fd'
        · subst hfd
          rw [Function.update_self, Option.isSome_map]
        · rw [Function.update_of_ne hfd]
      · rfl
  | report x now =>
      cases x with
      | «open» =>
          show (Function.update s.gate.conlist s.gate.nextFd _ fd).isSome = _
          by_cases hfd : fd = s.gate.nextFd
          · subst hfd
            rw [Function.update_self]
            simp
          · rw [Function.update_of_ne hfd]
            simp [hfd]
      | data fd' msg => rfl
      | close fd' | error fd' => exact hclose fd'
      | checkConnections => exact absurd rfl (hsweep now)

/-- A sweep keeps the connections that are not due. -/
theorem conlist_checkConnections (g : Gate) (now : ℕ) (fd : Fd) :
    (g.checkConnections now).conlist fd = (g.conlist fd).filter fun conn => !due now conn := by
  show (g.conlist fd).filter _ = _
  refine congrArg (fun keep => (g.conlist fd).filter keep) (funext fun conn => ?_)
  obtain ⟨startTime, login⟩ := conn
  cases login with
  | none =>
      rw [Bool.eq_iff_iff]
      simp [due]
  | some l => rfl

/-! ## Open sockets and entries -/

/-- A connection is one of an open socket. -/
def Backed (s : GateSockets) : Prop := ∀ fd, (s.gate.conlist fd).isSome = true → s.isOpen fd = true

/-- A connection that a sweep leaves was there before. -/
theorem isSome_of_checkConnections {g : Gate} {now : ℕ} {fd : Fd}
    (h : ((g.checkConnections now).conlist fd).isSome = true) : (g.conlist fd).isSome = true := by
  rw [conlist_checkConnections] at h
  cases hconn : g.conlist fd with
  | none =>
      rw [hconn] at h
      cases h
  | some conn => rfl

/-- Connections stay those of open sockets. -/
theorem Backed.step (h : s.Backed) (hstep : s.step ev = some s') : s'.Backed := by
  obtain rfl := Option.some.inj hstep
  intro fd hsome
  by_cases hsweep : ∃ now, ev = .report .checkConnections now
  · obtain ⟨now, rfl⟩ := hsweep
    exact h fd (isSome_of_checkConnections hsome)
  · dsimp only at hsome
    rw [isSome_conlist_step (not_exists.mp hsweep)] at hsome
    show s.nextOpen ev fd = true
    cases ev with
    | letter m => exact h fd hsome
    | report x now =>
        cases x with
        | «open» =>
            show Function.update s.isOpen s.gate.nextFd true fd = true
            rw [Function.update_apply]
            split_ifs with hfd
            · rfl
            · rw [Bool.or_eq_true, decide_eq_true_eq] at hsome
              exact h fd (hsome.resolve_left hfd)
        | data fd' msg => exact h fd hsome
        | close fd' | error fd' =>
            rw [Bool.and_eq_true, decide_eq_true_eq] at hsome
            show Function.update s.isOpen fd' false fd = true
            rw [Function.update_of_ne hsome.1]
            exact h fd hsome.2
        | checkConnections => exact absurd ⟨now, rfl⟩ hsweep

/-- An event other than a sweep forgets no socket. -/
theorem Remembered.step (h : s.Remembered) (hsweep : ∀ now, ev ≠ .report .checkConnections now)
    (hstep : s.step ev = some s') : s'.Remembered := by
  obtain rfl := Option.some.inj hstep
  refine remembered_of_entry fun fd hopen => ?_
  change s.nextOpen ev fd = true at hopen
  rw [isSome_conlist_step hsweep]
  cases ev with
  | letter m => exact h.entry fd hopen
  | report x now =>
      cases x with
      | «open» =>
          change Function.update s.isOpen s.gate.nextFd true fd = true at hopen
          rw [Function.update_apply] at hopen
          rw [Bool.or_eq_true, decide_eq_true_eq]
          split_ifs at hopen with hfd
          · exact Or.inl hfd
          · exact Or.inr (h.entry fd hopen)
      | data fd' msg => exact h.entry fd hopen
      | close fd' | error fd' =>
          change Function.update s.isOpen fd' false fd = true at hopen
          rw [Function.update_apply] at hopen
          split_ifs at hopen with hfd
          rw [Bool.and_eq_true, decide_eq_true_eq]
          exact ⟨hfd, h.entry fd hopen⟩
      | checkConnections => exact absurd rfl (hsweep now)

/-- **A sweep forgets no socket** exactly when it finds no connection that is due. -/
theorem remembered_sweep_iff (hbacked : s.Backed) (h : s.Remembered) {now : ℕ}
    (hstep : s.step (.report .checkConnections now) = some s') :
    s'.Remembered ↔ s.noneDue (.report .checkConnections now) = true := by
  obtain rfl := Option.some.inj hstep
  have htable : ∀ fd, (Gate.step s.gate (.report .checkConnections now)).state.conlist fd
      = (s.gate.conlist fd).filter fun conn => !due now conn := conlist_checkConnections s.gate now
  rw [noneDue, List.all_eq_true]
  constructor
  · intro hs' fd _
    rw [Option.all_eq_true]
    intro conn hconn
    have hopen : s.isOpen fd = true := hbacked fd (by rw [hconn]; rfl)
    have hsome := hs'.entry fd hopen
    dsimp only at hsome
    rw [htable, hconn, Option.filter] at hsome
    split_ifs at hsome with hdue
    · exact hdue
    · cases hsome
  · intro hall
    refine remembered_of_entry fun fd hopen => ?_
    obtain ⟨conn, hconn⟩ := Option.isSome_iff_exists.mp (h.entry fd hopen)
    have hkeep := hall fd (List.mem_range.mpr (Gate.lt_nextFd_of_conlist hconn))
    rw [hconn, Option.all_some] at hkeep
    show ((Gate.step s.gate (.report .checkConnections now)).state.conlist fd).isSome = true
    rw [htable, hconn, Option.filter, if_pos hkeep]
    rfl

/-- The same for every event. -/
theorem remembered_step_iff (hbacked : s.Backed) (h : s.Remembered) (hstep : s.step ev = some s') :
    s'.Remembered ↔ s.noneDue ev = true := by
  by_cases hsweep : ∃ now, ev = .report .checkConnections now
  · obtain ⟨now, rfl⟩ := hsweep
    exact remembered_sweep_iff hbacked h hstep
  · refine iff_of_true (h.step (not_exists.mp hsweep) hstep) ?_
    cases ev with
    | letter m => rfl
    | report x now =>
        cases x with
        | checkConnections => exact absurd ⟨now, rfl⟩ hsweep
        | «open» | data | close | error => rfl

theorem remembered_init : init.Remembered :=
  remembered_of_entry fun _ hopen => absurd hopen Bool.false_ne_true

/-- **A run remembers all its open sockets**, in every state it passes through, exactly when no sweep
finds a connection that did not log in for five minutes. -/
theorem remembered_iff {tr : List (GateSockets × Gate.Event)} (h : Run step init tr s) :
    (∀ x ∈ tr, x.1.Remembered) ∧ s.Remembered ↔ ∀ x ∈ tr, x.1.noneDue x.2 = true := by
  have hrun : s.Backed ∧
      ((∀ x ∈ tr, x.1.Remembered) ∧ s.Remembered ↔ ∀ x ∈ tr, x.1.noneDue x.2 = true) := by
    refine h.invariant (P := fun tr s => s.Backed ∧
      ((∀ x ∈ tr, x.1.Remembered) ∧ s.Remembered ↔ ∀ x ∈ tr, x.1.noneDue x.2 = true)) ?_ ?_
    · refine ⟨fun fd hsome => absurd hsome Bool.false_ne_true, iff_of_true ?_ ?_⟩
      · exact ⟨fun x hx => absurd hx List.not_mem_nil, remembered_init⟩
      · exact fun x hx => absurd hx List.not_mem_nil
    · rintro tr s ev s' - ⟨hbacked, hiff⟩ hstep
      refine ⟨hbacked.step hstep, ?_⟩
      rw [List.forall_mem_append, List.forall_mem_append, List.forall_mem_singleton,
        List.forall_mem_singleton, ← hiff, and_assoc, and_assoc]
      refine and_congr_right fun _ => and_congr_right fun hs => ?_
      exact remembered_step_iff hbacked hs hstep
  exact hrun.2

/-- A client connects and sends its login six minutes later; the gate has swept in between. -/
def lateLogin : List Gate.Event :=
  [.report .open 0, .report .checkConnections 300, .report .checkConnections 301]

/-- **An open socket is forgotten.** The socket of the run `lateLogin` is open and has no entry in
`conlist`: its login is not passed on. -/
theorem forgotten_socket : ∃ tr s, Run step init tr s ∧ s.isOpen 1 = true ∧ s.gate.conlist 1 = none ∧
    s.gate.dispatchMsg 1 (.c2gsLogin (some 7)) = [] ∧ ¬ s.Remembered := by
  have hrun : (runFrom step init lateLogin).any (fun s => s.isOpen 1 && s.gate.conlist 1 = none) = true := by
    decide
  obtain ⟨s, hs, hstate⟩ := Option.any_eq_true _ _ |>.mp hrun
  rw [Bool.and_eq_true, decide_eq_true_eq] at hstate
  refine ⟨_, s, run_of_runFrom hs, hstate.1, hstate.2, ?_, fun hmem => ?_⟩
  · rw [Gate.dispatchMsg, hstate.2]
  · have hsome := hmem.entry 1 hstate.1
    rw [hstate.2] at hsome
    cases hsome

/-- Two clients connect; one logs in, the other closes its connection before it is due. -/
def timely : List Gate.Event :=
  [.report .open 0, .report .open 20, .letter (.loginsuc 1 ⟨7, 1, [97], ⟨some 1, some 2, some 3⟩, 1⟩),
   .report .checkConnections 300, .report (.close 2) 310, .report .checkConnections 600]

/-- The run `timely`. -/
theorem remembered_timely : ∃ s, Run step init (traceFrom step init timely) s ∧ s.Remembered := by
  have hrun : (runFrom step init timely).isSome = true := by decide
  obtain ⟨s, hs⟩ := Option.isSome_iff_exists.mp hrun
  have hdue : ∀ x ∈ traceFrom step init timely, x.1.noneDue x.2 = true := by decide
  exact ⟨s, run_of_runFrom hs, ((remembered_iff (run_of_runFrom hs)).mpr hdue).2⟩

end GateSockets

end FrameSync
