import FrameSync.Foundations.LinkedQueue
import FrameSync.Foundations.Ring
import FrameSync.Foundations.Run
import Mathlib.Algebra.BigOperators.Fin
import Mathlib.Data.Fintype.Basic

/-! # The message queues of skynet and the threads that serve them

Each service has a queue for its messages (`skynet_mq.c`). The queues with messages stand in the global
queue, from which the worker threads take them (`skynet_context_message_dispatch`, `thread_worker`). A
service is kept by the references to its context (`skynet_server.c`), and its queue goes after it.

A service is named by its handle, and so is its queue, as `skynet_mq_create` gets it.
`skynet_handle_register` gives increasing handles as long as its 24 bits are enough; the runs here are those
with fewer than 2^24 handles. The table of `skynet_handle.c` is a function here, and its growth is not
modelled.

An event is what one thread does while it holds a lock, or with one atomic instruction. The threads are the
workers, those that launch a service, and whoever else has a reference to a context: senders, and those who
retire a service. Such references are only counted. A thread that gives back the last reference deletes the
context by an event of its own, and if it has more to do, it is not held up by that. The model has the runs
of the code among its own. -/

namespace FrameSync.Skynet

variable {M : Type}

/-! ## The queue of a service -/

/-- `struct message_queue` -/
structure MessageQueue (M : Type) where
  /-- `cap`, `head`, `tail` and `queue`. -/
  ring : Ring M
  /-- The context is gone. -/
  release : Bool
  /-- The queue is in the global queue, or its messages are dispatched. -/
  inGlobal : Bool
  /-- The length to warn of, or 0. -/
  overload : ℕ
  /-- The length from which on there is a warning. -/
  overloadThreshold : ℕ

namespace MessageQueue

/-- `skynet_mq_create` -/
def create : MessageQueue M := ⟨Ring.empty 64, false, true, 0, 1024⟩

/-- The ring of `skynet_mq_push`, with `expand_queue`. -/
def pushMessage (q : MessageQueue M) (m : M) : MessageQueue M := { q with ring := q.ring.push (· * 2) m }

/-- The loop of `skynet_mq_pop` that doubles the threshold. -/
def raiseThreshold : ℕ → ℕ → MessageQueue M → MessageQueue M
  | 0, _, q => q
  | fuel + 1, length, q =>
      if q.overloadThreshold < length then
        raiseThreshold fuel length { q with overload := length, overloadThreshold := q.overloadThreshold * 2 }
      else q

/-- `skynet_mq_pop` -/
def pop (q : MessageQueue M) : Option M × MessageQueue M :=
  match q.ring.pop with
  | (some m, ring) => (some m, raiseThreshold ring.length ring.length { q with ring := ring })
  | (none, _) => (none, { q with overloadThreshold := 1024, inGlobal := false })

/-- The messages in the queue. -/
def contents (q : MessageQueue M) : List M := q.ring.contents

variable {q : MessageQueue M} {l : List M}

theorem raiseThreshold_keeps (fuel length : ℕ) :
    (raiseThreshold fuel length q).ring = q.ring ∧ (raiseThreshold fuel length q).release = q.release ∧
      (raiseThreshold fuel length q).inGlobal = q.inGlobal := by
  induction fuel generalizing q with
  | zero => exact ⟨rfl, rfl, rfl⟩
  | succ fuel ih =>
      rw [raiseThreshold]
      split_ifs
      · exact ih
      · exact ⟨rfl, rfl, rfl⟩

/-- **A push adds a message at the end.** -/
theorem pushMessage_stands (h : q.ring.Stands l) (m : M) : (q.pushMessage m).ring.Stands (l ++ [m]) :=
  h.push (· * 2) (by have := h.length_lt; show q.ring.cap < q.ring.cap * 2; omega) m

/-- **A pop takes the first message.** -/
theorem pop_cons {m : M} (h : q.ring.Stands (m :: l)) :
    ∃ q', q.pop = (some m, q') ∧ q'.ring.Stands l ∧ q'.release = q.release ∧ q'.inGlobal = q.inGlobal := by
  obtain ⟨hfst, hstands, -⟩ := h.pop
  have hpop : q.ring.pop = (some m, q.ring.pop.2) := Prod.ext hfst rfl
  obtain ⟨hring, hrelease, hflag⟩ := raiseThreshold_keeps (q := { q with ring := q.ring.pop.2 })
    q.ring.pop.2.length q.ring.pop.2.length
  refine ⟨_, ?_, ?_, hrelease, hflag⟩
  · rw [pop, hpop]
  · rw [hring]
    exact hstands

/-- **A pop without messages** clears the flag. -/
theorem pop_nil (h : q.ring.Stands []) :
    q.pop = (none, { q with overloadThreshold := 1024, inGlobal := false }) := by
  obtain ⟨hfst, -, -⟩ := h.pop
  have hpop : q.ring.pop = (none, q.ring.pop.2) := Prod.ext hfst rfl
  rw [pop, hpop]

end MessageQueue

/-! ## Services and threads -/

/-- What the queues need of `struct skynet_context`. -/
structure Context where
  /-- The handle, or 0. -/
  handle : ℕ
  /-- The queue, when it is set. -/
  queue : Option ℕ
  /-- The number of references. -/
  ref : ℤ
  /-- The service is launched. -/
  init : Bool

/-- Where `skynet_context_new` is. -/
inductive Launch
  /-- It has not begun or it has ended. -/
  | idle
  /-- `skynet_handle_register(ctx)` has returned, and its result is yet to be stored in `ctx->handle`. -/
  | register
  /-- At `ctx->queue = skynet_mq_create(ctx->handle)`. -/
  | mqCreate
  /-- In `skynet_module_instance_init`. -/
  | init
  /-- That returned 0. -/
  | started
  /-- At `ctx->init = true`. -/
  | mark
  /-- At `skynet_globalmq_push(queue)`, with the context if it is there. -/
  | push (ret : Bool)
  /-- At `skynet_error(ret, "LAUNCH …")`. -/
  | log
  /-- `skynet_module_instance_init` did not return 0. -/
  | failed
  /-- At `skynet_handle_retire(handle)`. -/
  | retire
  /-- At `skynet_mq_release(queue, drop_message, &d)`. -/
  | orphan
  /-- In `_drop_queue`. -/
  | drop
deriving DecidableEq

namespace Launch

/-- The references of the launching thread. -/
def refs : Launch → ℕ
  | register | mqCreate | init | started | failed => 1
  | _ => 0

/-- The queue is in its hands. -/
def holds : Launch → ℕ
  | init | started | mark | push _ | failed | retire | orphan => 1
  | _ => 0

/-- It drops the messages. -/
def drops : Launch → ℕ
  | drop => 1
  | _ => 0

/-- The queue is not made yet. -/
def unmade : Launch → Bool
  | register | mqCreate => true
  | _ => false

/-- The context may not be marked yet. -/
def early : Launch → Bool
  | register | mqCreate | init | started | mark | failed | retire => true
  | _ => false

end Launch

/-- A service: the slot of its handle, its context, its queue, and who is at work on them. -/
structure Service (M : Type) where
  /-- The handle is registered. -/
  slot : Bool
  /-- The context, until it is freed. -/
  context : Option Context
  /-- The queue, until it is freed. -/
  queue : Option (MessageQueue M)
  /-- The thread that launches the service. -/
  launch : Launch
  /-- The references of other threads. -/
  grabbed : ℕ
  /-- A thread is in `delete_context`. -/
  deleting : Bool

/-- A handle that was never used. -/
def Service.blank : Service M := ⟨false, none, none, .idle, 0, false⟩

/-- A service when `skynet_context_new` has a handle for it. -/
def Service.register : Service M := ⟨true, some ⟨0, none, 2, false⟩, none, .register, 0, false⟩

/-- Where a worker is. -/
inductive Worker (M : Type)
  /-- `q` is `NULL`. -/
  | idle
  /-- At `skynet_handle_grab`. -/
  | grab (q : ℕ)
  /-- At `skynet_mq_release`, without a context. -/
  | orphan (q : ℕ)
  /-- In `_drop_queue`. -/
  | drop (q : ℕ)
  /-- At `skynet_mq_pop`, in the round `i` of `rounds`. -/
  | pop (q i rounds : ℕ)
  /-- At `skynet_mq_length`. -/
  | measure (q : ℕ) (m : M)
  /-- In `dispatch_message`. -/
  | dispatch (q : ℕ) (m : M) (i rounds : ℕ)
  /-- At `assert(q == ctx->queue)` and `skynet_globalmq_pop`, when the rounds are over. -/
  | leave (q : ℕ)
  /-- At `skynet_globalmq_push(q)`, to go on with `nq`. -/
  | handBack (q nq : ℕ)

namespace Worker

/-- The queues in its hands, other than one that it drops. -/
def queues : Worker M → List ℕ
  | grab q | orphan q | pop q _ _ | measure q _ | dispatch q _ _ _ | leave q => [q]
  | handBack q nq => [q, nq]
  | idle | drop _ => []

/-- The services whose context it has grabbed. -/
def contexts : Worker M → List ℕ
  | pop q _ _ | measure q _ | dispatch q _ _ _ | leave q | handBack q _ => [q]
  | _ => []

/-- The queue that it drops. -/
def dropping : Worker M → List ℕ
  | drop q => [q]
  | _ => []

/-- Its next step takes a queue from the global queue, if there is one. -/
def takes : Worker M → Bool
  | idle | leave _ => true
  | _ => false

end Worker

/-- What goes wrong: a failed assertion, or the use of memory that was freed. -/
inductive Fault
  /-- `assert(queue->next == NULL)` -/
  | linked
  /-- `assert(mq == q->tail)` -/
  | notTail
  /-- `assert(q->release == 0)` -/
  | released
  /-- `assert(ctx->init)` -/
  | notInit
  /-- `assert(q == ctx->queue)` -/
  | otherQueue
  /-- A queue that was not made yet. -/
  | unsetQueue
  /-- A queue that was freed. -/
  | freedQueue
  /-- A context that was freed. -/
  | freedContext
deriving DecidableEq

/-- A node of skynet with `n` workers. -/
structure Node (M : Type) (n : ℕ) where
  /-- No handle from here on is used. -/
  handleIndex : ℕ
  /-- The services by their handles. -/
  service : ℕ → Service M
  /-- The global queue, with the links of the queues. -/
  globalmq : LinkedQueue ℕ
  /-- The workers. -/
  worker : Fin n → Worker M

namespace Node

variable {n : ℕ}

/-- A node without services. -/
def start : Node M n := ⟨1, fun _ => .blank, .empty, fun _ => .idle⟩

def setService (s : Node M n) (h : ℕ) (sv : Service M) : Node M n :=
  { s with service := Function.update s.service h sv }

def setWorker (s : Node M n) (i : Fin n) (w : Worker M) : Node M n :=
  { s with worker := Function.update s.worker i w }

def setLaunch (s : Node M n) (h : ℕ) (l : Launch) : Node M n := s.setService h { s.service h with launch := l }

def setQueue (s : Node M n) (h : ℕ) (q : MessageQueue M) : Node M n :=
  s.setService h { s.service h with queue := some q }

/-- The queue of a service, to read or to write it. -/
def queue (s : Node M n) (h : ℕ) : Except Fault (MessageQueue M) :=
  match (s.service h).queue with
  | some q => .ok q
  | none => .error .freedQueue

/-- The context of a service, to read or to write it. -/
def context (s : Node M n) (h : ℕ) : Except Fault Context :=
  match (s.service h).context with
  | some c => .ok c
  | none => .error .freedContext

/-- `ctx->queue` -/
def contextQueue (s : Node M n) (h : ℕ) : Except Fault ℕ := do
  let c ← s.context h
  match c.queue with
  | some q => return q
  | none => .error .unsetQueue

/-- `skynet_globalmq_push` -/
def globalmqPush (s : Node M n) (h : ℕ) : Except Fault (Node M n) :=
  if s.globalmq.next h = none then .ok { s with globalmq := s.globalmq.push h } else .error .linked

/-- `skynet_globalmq_pop` -/
def globalmqPop (s : Node M n) : Except Fault (Option ℕ × Node M n) :=
  if s.globalmq.head.elim false (fun h => s.globalmq.next h = none ∧ s.globalmq.tail ≠ some h) then
    .error .notTail
  else .ok (s.globalmq.pop.1, { s with globalmq := s.globalmq.pop.2 })

/-- `skynet_mq_push` -/
def mqPush (s : Node M n) (h : ℕ) (m : M) : Except Fault (Node M n) := do
  let q ← s.queue h
  if q.inGlobal then return s.setQueue h (q.pushMessage m)
  else (s.setQueue h { q.pushMessage m with inGlobal := true }).globalmqPush h

/-- `skynet_mq_mark_release` -/
def mqMarkRelease (s : Node M n) (h : ℕ) : Except Fault (Node M n) := do
  let q ← s.queue h
  if q.release then .error .released
  else if q.inGlobal then return s.setQueue h { q with release := true }
  else (s.setQueue h { q with release := true }).globalmqPush h

/-- `skynet_mq_release` up to `_drop_queue`: whether that is called. -/
def mqRelease (s : Node M n) (h : ℕ) : Except Fault (Bool × Node M n) := do
  let q ← s.queue h
  if q.release then return (true, s)
  else return (false, ← s.globalmqPush h)

/-- One round of `_drop_queue`: whether there was a message. If not, the queue is freed by `_release`. -/
def dropRound (s : Node M n) (h : ℕ) : Except Fault (Bool × Node M n) := do
  let q ← s.queue h
  match q.pop with
  | (some _, q') => return (true, s.setQueue h q')
  | (none, _) =>
      if s.globalmq.next h = none then return (false, s.setService h { s.service h with queue := none })
      else .error .linked

/-- `skynet_handle_grab`: whether there is a context. Its new reference goes to the caller. -/
def handleGrab (s : Node M n) (h : ℕ) : Except Fault (Bool × Node M n) :=
  if (s.service h).slot then do
    let c ← s.context h
    if c.handle = h then
      return (true, s.setService h { s.service h with context := some { c with ref := c.ref + 1 } })
    else return (false, s)
  else return (false, s)

/-- `skynet_context_release`, up to `delete_context`: the context that is left, and whether it is to be
deleted. -/
def contextRelease (s : Node M n) (h : ℕ) : Except Fault (Bool × Node M n) := do
  let c ← s.context h
  let last : Bool := c.ref - 1 = 0
  return (last, s.setService h { s.service h with
    context := some { c with ref := c.ref - 1 }, deleting := (s.service h).deleting || last })

/-- `delete_context` -/
def deleteContext (s : Node M n) (h : ℕ) : Except Fault (Node M n) := do
  let s' ← s.mqMarkRelease (← s.contextQueue h)
  return s'.setService h { s'.service h with context := none, deleting := false }

/-- A reference of a known thread becomes one of the others, which is given back later. -/
def letGo (s : Node M n) (h : ℕ) : Node M n :=
  s.setService h { s.service h with grabbed := (s.service h).grabbed + 1 }

/-- `skynet_handle_retire`: the reference of the slot is given back by the caller. -/
def handleRetire (s : Node M n) (h : ℕ) : Except Fault (Node M n) :=
  if (s.service h).slot then do
    let c ← s.context h
    if c.handle = h then
      return s.setService h { s.service h with slot := false, grabbed := (s.service h).grabbed + 1 }
    else return s
  else return s

/-- The step of `skynet_context_new` that is next. -/
def launchStep (s : Node M n) (h : ℕ) : Option (Except Fault (Node M n)) :=
  match (s.service h).launch with
  | .idle | .init => none
  | .register => some do
      let c ← s.context h
      return s.setService h { s.service h with context := some { c with handle := h }, launch := .mqCreate }
  | .mqCreate => some do
      let c ← s.context h
      let s' := s.setQueue c.handle .create
      return s'.setService h { s'.service h with
        context := some { c with queue := some c.handle }, launch := .init }
  | .started => some do
      let (last, s') ← s.contextRelease h
      return s'.setLaunch h (if last then .push false else .mark)
  | .mark => some do
      let c ← s.context h
      return s.setService h { s.service h with context := some { c with init := true }, launch := .push true }
  | .push ret => some do
      let s' ← s.globalmqPush h
      return s'.setLaunch h (if ret then .log else .idle)
  | .log => some do
      let _ ← s.context h
      return s.setLaunch h .idle
  | .failed => some do
      let (_, s') ← s.contextRelease h
      return s'.setLaunch h .retire
  | .retire => some do
      let s' ← s.handleRetire h
      return s'.setLaunch h .orphan
  | .orphan => some do
      let (dropping, s') ← s.mqRelease h
      return s'.setLaunch h (if dropping then .drop else .idle)
  | .drop => some do
      let (more, s') ← s.dropRound h
      return s'.setLaunch h (if more then .drop else .idle)

/-- The step of `skynet_context_message_dispatch`, or of the loop of `thread_worker` around it, that is next. -/
def workerStep (weight : ℤ) (s : Node M n) (i : Fin n) : Except Fault (Node M n) :=
  match s.worker i with
  | .idle => do
      let (q, s') ← s.globalmqPop
      return s'.setWorker i (q.elim .idle .grab)
  | .grab q => do
      let _ ← s.queue q
      let (found, s') ← s.handleGrab q
      return s'.setWorker i (if found then .pop q 0 1 else .orphan q)
  | .orphan q => do
      let (dropping, s') ← s.mqRelease q
      return s'.setWorker i (if dropping then .drop q else .idle)
  | .drop q => do
      let (more, s') ← s.dropRound q
      return s'.setWorker i (if more then .drop q else .idle)
  | .pop q k rounds => do
      let mq ← s.queue q
      match mq.pop with
      | (some m, mq') =>
          return (s.setQueue q mq').setWorker i
            (if k = 0 ∧ 0 ≤ weight then .measure q m else .dispatch q m k rounds)
      | (none, mq') => return ((s.setQueue q mq').letGo q).setWorker i .idle
  | .measure q m => do
      let mq ← s.queue q
      return s.setWorker i (.dispatch q m 0 (mq.ring.length >>> weight.toNat))
  | .dispatch q _ k rounds => do
      let mq ← s.queue q
      let c ← s.context q
      if c.init then
        return (s.setQueue q { mq with overload := 0 }).setWorker i
          (if k + 1 < rounds then .pop q (k + 1) rounds else .leave q)
      else .error .notInit
  | .leave q => do
      let c ← s.context q
      if c.queue = some q then
        let (nq, s') ← s.globalmqPop
        match nq with
        | some nq => return s'.setWorker i (.handBack q nq)
        | none => return (s'.letGo q).setWorker i (.grab q)
      else .error .otherQueue
  | .handBack q nq => do
      let s' ← s.globalmqPush q
      return (s'.letGo q).setWorker i (.grab nq)

end Node

/-! ## Runs -/

/-- What happens in a node. -/
inductive Event (M : Type) (n : ℕ)
  /-- `skynet_handle_register` in `skynet_context_new` gives the handle `h`. -/
  | register (h : ℕ)
  /-- Its `skynet_module_instance_init` returns, with 0 or not. -/
  | initReturns (h : ℕ) (ok : Bool)
  /-- The thread that launches `h` goes on. -/
  | launch (h : ℕ)
  /-- `skynet_handle_retire` -/
  | retire (h : ℕ)
  /-- `skynet_handle_grab` -/
  | grab (h : ℕ)
  /-- `skynet_mq_push` by a thread that has grabbed the context. -/
  | push (h : ℕ) (m : M)
  /-- `skynet_context_release` by a thread other than a worker or one that launches `h`. -/
  | release (h : ℕ)
  /-- `delete_context` -/
  | delete (h : ℕ)
  /-- A worker goes on. -/
  | worker (i : Fin n)

namespace Node

variable {n : ℕ}

/-- `skynet_handle_register`, as long as the handles are enough. -/
def register (s : Node M n) (h : ℕ) : Option (Except Fault (Node M n)) :=
  if s.handleIndex ≤ h ∧ h < 2 ^ 24 then some (.ok { s with
    handleIndex := h + 1, service := Function.update s.service h .register })
  else none

/-- One event, if it can happen. -/
def perform (weight : Fin n → ℤ) (s : Node M n) : Event M n → Option (Except Fault (Node M n))
  | .register h => s.register h
  | .initReturns h ok =>
      if (s.service h).launch = .init then some (.ok (s.setLaunch h (if ok then .started else .failed)))
      else none
  | .launch h => s.launchStep h
  | .retire h => some (s.handleRetire h)
  | .grab h => some do
      let (found, s') ← s.handleGrab h
      return if found then s'.letGo h else s'
  | .push h m =>
      if 0 < (s.service h).grabbed then some do
        s.mqPush (← s.contextQueue h) m
      else none
  | .release h =>
      if 0 < (s.service h).grabbed then some do
        let (_, s') ← s.contextRelease h
        return s'.setService h { s'.service h with grabbed := (s'.service h).grabbed - 1 }
      else none
  | .delete h => if (s.service h).deleting then some (s.deleteContext h) else none
  | .worker i => some (s.workerStep (weight i) i)

/-- An event takes a queue from the global queue, if there is one. -/
def takes (s : Node M n) : Event M n → Bool
  | .worker i => (s.worker i).takes
  | _ => false

/-- One event, if it can happen and nothing goes wrong. -/
def step (weight : Fin n → ℤ) (s : Node M n) (e : Event M n) : Option (Node M n) :=
  (s.perform weight e).bind Except.toOption

end Node

end FrameSync.Skynet
