import FrameSync.Skynet.Workers

/-! # The order of the messages

The messages that are pushed to a service leave its queue in their order, each once: first to the workers,
and then, when the context is deleted, to be dropped. -/

namespace FrameSync.Skynet

variable {M : Type}

namespace Node

variable {n : ℕ}

/-- The messages that wait in the queue of a service. -/
def contents (s : Node M n) (h : ℕ) : List M := (s.service h).queue.elim [] MessageQueue.contents

/-- The message that would be popped next. -/
def nextMessage (s : Node M n) (h : ℕ) : Option M := (s.service h).queue.bind fun q => q.pop.1

/-- The message for `h` that an event pushes. -/
def pushed (h : ℕ) : Event M n → Option M
  | .push k m => if k = h then some m else none
  | _ => none

/-- The message for `h` that a worker takes to dispatch it. -/
def taken (s : Node M n) (h : ℕ) : Event M n → Option M
  | .worker i =>
      match s.worker i with
      | .pop q _ _ => if q = h then s.nextMessage h else none
      | _ => none
  | _ => none

/-- The message for `h` that is dropped, by a worker or by the thread that launched the service. -/
def dropped (s : Node M n) (h : ℕ) : Event M n → Option M
  | .worker i =>
      match s.worker i with
      | .drop q => if q = h then s.nextMessage h else none
      | _ => none
  | .launch k => if k = h ∧ (s.service h).launch = .drop then s.nextMessage h else none
  | _ => none

/-! ## What an event leaves alone -/

/-- The messages in the queues are those of `c` afterwards, and what was deleted stays deleted. -/
structure Effect (s s' : Node M n) (c : ℕ → List M) : Prop where
  /-- The messages. -/
  contents_eq : s'.contents = c
  /-- The contexts that are gone. -/
  gone : ∀ h, (s.service h).context = none → (s'.service h).context = none
  /-- The handles. -/
  index_eq : s'.handleIndex = s.handleIndex

/-- The messages in the queues are the same. -/
abbrev Frame (s s' : Node M n) : Prop := Effect s s' s.contents

variable {s s' s'' : Node M n} {c : ℕ → List M} {h : ℕ}

theorem Effect.trans (h₁ : Effect s s' c) (h₂ : Frame s' s'') : Effect s s'' c :=
  ⟨h₂.contents_eq.trans h₁.contents_eq, fun h hc => h₂.gone h (h₁.gone h hc), h₂.index_eq.trans h₁.index_eq⟩

theorem Effect.setService {sv : Service M}
    (hcontext : (s.service h).context = none → sv.context = none) :
    Effect s (s.setService h sv) (Function.update s.contents h (sv.queue.elim [] MessageQueue.contents)) where
  contents_eq := by
    funext k
    rcases eq_or_ne k h with rfl | hne
    · rw [contents, Node.setService, Function.update_self]
      simp only [Function.update_self]
    · rw [contents, Node.setService, Function.update_of_ne hne]
      simp only [Function.update_of_ne hne]
      rfl
  gone := by
    intro k hk
    rcases eq_or_ne k h with rfl | hne
    · simpa [Node.setService] using hcontext hk
    · simpa [Node.setService, hne] using hk
  index_eq := rfl

namespace Frame

theorem refl (s : Node M n) : Frame s s := ⟨rfl, fun _ => id, rfl⟩

theorem setService {sv : Service M} (hqueue : sv.queue.elim [] MessageQueue.contents = s.contents h)
    (hcontext : (s.service h).context = none → sv.context = none) : Frame s (s.setService h sv) := by
  have heffect := Effect.setService hcontext
  rwa [hqueue, Function.update_eq_self] at heffect

theorem setWorker (s : Node M n) (i : Fin n) (w : Worker M) : Frame s (s.setWorker i w) :=
    ⟨rfl, fun _ => id, rfl⟩

theorem setLaunch (s : Node M n) (h : ℕ) (x : Launch) : Frame s (s.setLaunch h x) := setService rfl id

theorem letGo (s : Node M n) (h : ℕ) : Frame s (s.letGo h) := setService rfl id

/-! ### The functions of the source -/

theorem exists_of_bind {α β : Type} {x : Except Fault α} {f : α → Except Fault β} {b : β} (h : x >>= f = .ok b) :
    ∃ a, x = .ok a ∧ f a = .ok b := by
  cases x with
  | ok a => exact ⟨a, rfl, h⟩
  | error e => cases h

theorem of_globalmqPush (hr : s.globalmqPush h = .ok s') : Frame s s' := by
  rw [Node.globalmqPush] at hr
  split_ifs at hr
  obtain rfl := Except.ok.inj hr
  exact ⟨rfl, fun _ => id, rfl⟩

theorem of_globalmqPop {q : Option ℕ} (hr : s.globalmqPop = .ok (q, s')) : Frame s s' := by
  rw [Node.globalmqPop] at hr
  split_ifs at hr
  obtain ⟨-, rfl⟩ := Prod.mk.inj (Except.ok.inj hr)
  exact ⟨rfl, fun _ => id, rfl⟩

theorem of_mqRelease {b : Bool} (hr : s.mqRelease h = .ok (b, s')) : Frame s s' := by
  obtain ⟨q, -, hr⟩ := exists_of_bind hr
  split_ifs at hr
  · obtain ⟨-, rfl⟩ := Prod.mk.inj (Except.ok.inj hr)
    exact refl s
  · obtain ⟨s₁, hpush, hr⟩ := exists_of_bind hr
    obtain ⟨-, rfl⟩ := Prod.mk.inj (Except.ok.inj hr)
    exact of_globalmqPush hpush

theorem of_handleGrab {b : Bool} (hr : s.handleGrab h = .ok (b, s')) : Frame s s' := by
  rw [Node.handleGrab] at hr
  split_ifs at hr
  · obtain ⟨c, hc, hr⟩ := exists_of_bind hr
    split_ifs at hr <;> obtain ⟨-, rfl⟩ := Prod.mk.inj (Except.ok.inj hr)
    · refine setService rfl fun hgone => ?_
      rw [context_eq_none hgone] at hc
      cases hc
    · exact refl s
  · obtain ⟨-, rfl⟩ := Prod.mk.inj (Except.ok.inj hr)
    exact refl s

theorem of_contextRelease {b : Bool} (hr : s.contextRelease h = .ok (b, s')) : Frame s s' := by
  obtain ⟨c, hc, hr⟩ := exists_of_bind hr
  obtain ⟨-, rfl⟩ := Prod.mk.inj (Except.ok.inj hr)
  refine setService rfl fun hgone => ?_
  rw [context_eq_none hgone] at hc
  cases hc

theorem of_handleRetire (hr : s.handleRetire h = .ok s') : Frame s s' := by
  rw [Node.handleRetire] at hr
  split_ifs at hr
  · obtain ⟨c, -, hr⟩ := exists_of_bind hr
    split_ifs at hr <;> obtain rfl := Except.ok.inj hr
    · exact setService rfl id
    · exact refl s
  · obtain rfl := Except.ok.inj hr
    exact refl s

theorem queue_of_eq_ok {q : MessageQueue M} (hq : s.queue h = .ok q) : (s.service h).queue = some q := by
  rw [Node.queue] at hq
  cases hqueue : (s.service h).queue with
  | none =>
      rw [hqueue] at hq
      cases hq
  | some q' =>
      rw [hqueue] at hq
      rw [Except.ok.inj hq]

theorem context_of_eq_ok {c : Context} (hc : s.context h = .ok c) : (s.service h).context = some c := by
  rw [Node.context] at hc
  cases hcontext : (s.service h).context with
  | none =>
      rw [hcontext] at hc
      cases hc
  | some c' =>
      rw [hcontext] at hc
      rw [Except.ok.inj hc]

theorem setQueue {q q' : MessageQueue M} (hq : (s.service h).queue = some q) (hring : q'.ring = q.ring) :
    Frame s (s.setQueue h q') := by
  refine setService ?_ id
  rw [contents, hq]
  exact congrArg Ring.contents hring

theorem of_mqMarkRelease (hr : s.mqMarkRelease h = .ok s') : Frame s s' := by
  obtain ⟨q, hq, hr⟩ := exists_of_bind hr
  have hset : Frame s (s.setQueue h { q with release := true }) := setQueue (queue_of_eq_ok hq) rfl
  split_ifs at hr
  · obtain rfl := Except.ok.inj hr
    exact hset
  · exact hset.trans (of_globalmqPush hr)

theorem of_deleteContext (hr : s.deleteContext h = .ok s') : Frame s s' := by
  obtain ⟨q, -, hr⟩ := exists_of_bind hr
  obtain ⟨s₁, hmark, hr⟩ := exists_of_bind hr
  obtain rfl := Except.ok.inj hr
  exact (of_mqMarkRelease hmark).trans (setService rfl fun _ => rfl)

theorem of_launchStep {l : List ℕ} (hs : s.Sound l) (hr : s.launchStep h = some (.ok s'))
    (hdrop : (s.service h).launch ≠ .drop) : Frame s s' := by
  rw [Node.launchStep] at hr
  cases hl : (s.service h).launch with
  | idle | init =>
      rw [hl] at hr
      exact absurd hr (Option.some_ne_none _).symm
  | drop => exact absurd hl hdrop
  | register =>
      rw [hl] at hr
      obtain ⟨c, hc, hr⟩ := exists_of_bind (Option.some.inj hr)
      obtain rfl := Except.ok.inj hr
      refine setService rfl fun hgone => ?_
      rw [context_eq_none hgone] at hc
      cases hc
  | mqCreate =>
      rw [hl] at hr
      obtain ⟨c, hc, hr⟩ := exists_of_bind (Option.some.inj hr)
      obtain rfl := Except.ok.inj hr
      have hcontext := context_of_eq_ok hc
      have hqueue : (s.service h).queue = none := (hs.made h).unmade (by rw [hl]; rfl)
      rw [(hs.made h).handle_eq_self hcontext (by rw [hl]; exact fun h => by cases h)]
      -- the new queue is empty, and there was none before
      have hset : Frame s (s.setQueue h .create) := by
        refine setService ?_ id
        rw [contents, hqueue]
        exact (Ring.stands_empty (by decide : 0 < 64) : (Ring.empty 64 : Ring M).Stands []).contents_eq
      refine hset.trans (setService rfl fun hgone => ?_)
      have hnone : (s.service h).context = none := by simpa [Node.setQueue, Node.setService] using hgone
      exact absurd (hcontext.symm.trans hnone) (Option.some_ne_none c)
  | started | failed =>
      rw [hl] at hr
      obtain ⟨⟨b, s₁⟩, hrelease, hr⟩ := exists_of_bind (Option.some.inj hr)
      obtain rfl := Except.ok.inj hr
      exact (of_contextRelease hrelease).trans (setLaunch _ _ _)
  | mark =>
      rw [hl] at hr
      obtain ⟨c, hc, hr⟩ := exists_of_bind (Option.some.inj hr)
      obtain rfl := Except.ok.inj hr
      refine setService rfl fun hgone => ?_
      rw [context_eq_none hgone] at hc
      cases hc
  | push ret =>
      rw [hl] at hr
      obtain ⟨s₁, hpush, hr⟩ := exists_of_bind (Option.some.inj hr)
      obtain rfl := Except.ok.inj hr
      exact (of_globalmqPush hpush).trans (setLaunch _ _ _)
  | log =>
      rw [hl] at hr
      obtain ⟨c, -, hr⟩ := exists_of_bind (Option.some.inj hr)
      obtain rfl := Except.ok.inj hr
      exact setLaunch _ _ _
  | retire =>
      rw [hl] at hr
      obtain ⟨s₁, hretire, hr⟩ := exists_of_bind (Option.some.inj hr)
      obtain rfl := Except.ok.inj hr
      exact (of_handleRetire hretire).trans (setLaunch _ _ _)
  | orphan =>
      rw [hl] at hr
      obtain ⟨⟨b, s₁⟩, hrelease, hr⟩ := exists_of_bind (Option.some.inj hr)
      obtain rfl := Except.ok.inj hr
      exact (of_mqRelease hrelease).trans (setLaunch _ _ _)

variable {weight : ℤ} {i : Fin n}

theorem of_workerStep (hr : s.workerStep weight i = .ok s')
    (hpop : ∀ q k rounds, s.worker i ≠ .pop q k rounds) (hdrop : ∀ q, s.worker i ≠ .drop q) : Frame s s' := by
  rw [Node.workerStep] at hr
  cases hw : s.worker i with
  | pop q k rounds => exact absurd hw (hpop q k rounds)
  | drop q => exact absurd hw (hdrop q)
  | idle =>
      rw [hw] at hr
      obtain ⟨⟨q, s₁⟩, hpop, hr⟩ := exists_of_bind hr
      obtain rfl := Except.ok.inj hr
      exact (of_globalmqPop hpop).trans (setWorker _ _ _)
  | grab q =>
      rw [hw] at hr
      obtain ⟨mq, -, hr⟩ := exists_of_bind hr
      obtain ⟨⟨b, s₁⟩, hgrab, hr⟩ := exists_of_bind hr
      obtain rfl := Except.ok.inj hr
      exact (of_handleGrab hgrab).trans (setWorker _ _ _)
  | orphan q =>
      rw [hw] at hr
      obtain ⟨⟨b, s₁⟩, hrelease, hr⟩ := exists_of_bind hr
      obtain rfl := Except.ok.inj hr
      exact (of_mqRelease hrelease).trans (setWorker _ _ _)
  | measure q m =>
      rw [hw] at hr
      obtain ⟨mq, -, hr⟩ := exists_of_bind hr
      obtain rfl := Except.ok.inj hr
      exact setWorker _ _ _
  | dispatch q m k rounds =>
      rw [hw] at hr
      obtain ⟨mq, hmq, hr⟩ := exists_of_bind hr
      obtain ⟨c, -, hr⟩ := exists_of_bind hr
      have hset : Frame s (s.setQueue q { mq with overload := 0 }) := setQueue (queue_of_eq_ok hmq) rfl
      split_ifs at hr <;> obtain rfl := Except.ok.inj hr
      all_goals exact hset.trans (setWorker _ _ _)
  | leave q =>
      rw [hw] at hr
      obtain ⟨c, -, hr⟩ := exists_of_bind hr
      split_ifs at hr
      obtain ⟨⟨nq, s₁⟩, hpop, hr⟩ := exists_of_bind hr
      cases nq with
      | none =>
          obtain rfl := Except.ok.inj hr
          exact ((of_globalmqPop hpop).trans (letGo _ _)).trans (setWorker _ _ _)
      | some nq =>
          obtain rfl := Except.ok.inj hr
          exact (of_globalmqPop hpop).trans (setWorker _ _ _)
  | handBack q nq =>
      rw [hw] at hr
      obtain ⟨s₁, hpush, hr⟩ := exists_of_bind hr
      obtain rfl := Except.ok.inj hr
      exact ((of_globalmqPush hpush).trans (letGo _ _)).trans (setWorker _ _ _)

end Frame

/-! ## What an event does to a queue -/

variable {l : List ℕ}

/-- The next message is the first one, and a pop leaves the others. -/
theorem Sound.pop_eq (hs : s.Sound l) {q : MessageQueue M} (hq : (s.service h).queue = some q) :
    q.pop.1 = (s.contents h).head? ∧ q.pop.2.contents = (s.contents h).tail := by
  have hring := (hs.ok h).ring q hq
  rw [contents, hq, Option.elim_some]
  cases hcontents : q.contents with
  | nil =>
      rw [hcontents] at hring
      rw [MessageQueue.pop_nil hring]
      exact ⟨rfl, hcontents⟩
  | cons m ms =>
      rw [hcontents] at hring
      obtain ⟨q', hpop, hring', -⟩ := MessageQueue.pop_cons hring
      rw [hpop]
      exact ⟨rfl, hring'.contents_eq⟩

theorem Sound.nextMessage_eq (hs : s.Sound l) (h : ℕ) : s.nextMessage h = (s.contents h).head? := by
  rw [nextMessage]
  cases hq : (s.service h).queue with
  | none => rw [contents, hq]; rfl
  | some q => exact (hs.pop_eq hq).1

/-- A message is dropped. -/
theorem Sound.dropRound_effect (hs : s.Sound l) {b : Bool} (hr : s.dropRound h = .ok (b, s')) :
    Effect s s' (Function.update s.contents h (s.contents h).tail) := by
  obtain ⟨q, hq, hr⟩ := Frame.exists_of_bind hr
  have hq := Frame.queue_of_eq_ok hq
  obtain ⟨hfst, hsnd⟩ := hs.pop_eq hq
  rw [← hsnd]
  cases hpop : q.pop.1 with
  | some m =>
      rw [show q.pop = (some m, q.pop.2) from Prod.ext hpop rfl] at hr
      obtain ⟨-, rfl⟩ := Prod.mk.inj (Except.ok.inj hr)
      exact Effect.setService id
  | none =>
      rw [show q.pop = (none, q.pop.2) from Prod.ext hpop rfl] at hr
      split_ifs at hr
      obtain ⟨-, rfl⟩ := Prod.mk.inj (Except.ok.inj hr)
      have hnil : (s.contents h).tail = [] := by
        rw [List.head?_eq_none_iff.mp (hfst.symm.trans hpop)]
        rfl
      rw [hsnd, hnil]
      exact Effect.setService id

/-- A message is taken. -/
theorem Sound.pop_effect (hs : s.Sound l) {weight : ℤ} {i : Fin n} {q k rounds : ℕ}
    (hw : s.worker i = .pop q k rounds)
    (hr : s.workerStep weight i = .ok s') : Effect s s' (Function.update s.contents q (s.contents q).tail) := by
  rw [Node.workerStep, hw] at hr
  obtain ⟨mq, hmq, hr⟩ := Frame.exists_of_bind hr
  obtain ⟨-, hsnd⟩ := hs.pop_eq (Frame.queue_of_eq_ok hmq)
  have hset : Effect s (s.setQueue q mq.pop.2) (Function.update s.contents q (s.contents q).tail) := by
    rw [← hsnd]
    exact Effect.setService id
  cases hpop : mq.pop.1 with
  | some m =>
      rw [show mq.pop = (some m, mq.pop.2) from Prod.ext hpop rfl] at hr
      obtain rfl := Except.ok.inj hr
      exact hset.trans (Frame.setWorker _ _ _)
  | none =>
      rw [show mq.pop = (none, mq.pop.2) from Prod.ext hpop rfl] at hr
      obtain rfl := Except.ok.inj hr
      exact (hset.trans (Frame.letGo _ _)).trans (Frame.setWorker _ _ _)

/-- A message is pushed. -/
theorem Sound.push_effect (hs : s.Sound l) {m : M} (hr : s.mqPush h m = .ok s') :
    Effect s s' (Function.update s.contents h (s.contents h ++ [m])) := by
  obtain ⟨q, hq, hr⟩ := Frame.exists_of_bind hr
  have hq := Frame.queue_of_eq_ok hq
  have hcontents : (q.pushMessage m).contents = s.contents h ++ [m] := by
    rw [contents, hq, Option.elim_some]
    exact (MessageQueue.pushMessage_stands ((hs.ok h).ring q hq) m).contents_eq
  rw [← hcontents]
  split_ifs at hr
  · obtain rfl := Except.ok.inj hr
    exact Effect.setService id
  · have hset : Effect s (s.setQueue h { q.pushMessage m with inGlobal := true })
        (Function.update s.contents h (q.pushMessage m).contents) := Effect.setService id
    exact hset.trans (Frame.of_globalmqPush hr)

/-- A context has its own queue. -/
theorem Sound.contextQueue_unique (hs : s.Sound l) {q : ℕ} (hq : s.contextQueue h = .ok q) : q = h := by
  obtain ⟨c, hc, hq⟩ := Frame.exists_of_bind hq
  have hqueue := (hs.made h).queue_eq c (Frame.context_of_eq_ok hc)
  cases hset : c.queue with
  | none =>
      rw [hset] at hq
      cases hq
  | some q' =>
      rw [hset] at hq hqueue
      obtain rfl := Except.ok.inj hq
      split_ifs at hqueue
      exact Option.some.inj hqueue

/-- A context that was deleted. -/
def Gone (s : Node M n) (h : ℕ) : Prop := h < s.handleIndex ∧ (s.service h).context = none

/-- What an event pushes, takes and drops. -/
structure Passes (s s' : Node M n) (e : Event M n) : Prop where
  /-- The messages. -/
  contents_eq : ∀ h, s.contents h ++ (pushed h e).toList =
    (s.taken h e).toList ++ (s.dropped h e).toList ++ s'.contents h
  /-- What was deleted stays deleted. -/
  gone : ∀ h, s.Gone h → s'.Gone h
  /-- A message is taken while the context is there. -/
  taken_ne : ∀ h m, s.taken h e = some m → (s.service h).context ≠ none
  /-- It is dropped when the context is deleted. -/
  dropped_ne : ∀ h m, s.dropped h e = some m → s.Gone h

theorem Effect.gone_of_gone (heffect : Effect s s' c) (hgone : s.Gone h) : s'.Gone h :=
  ⟨heffect.index_eq ▸ hgone.1, heffect.gone h hgone.2⟩

variable {e : Event M n}

/-- An event that leaves the messages alone. -/
theorem Frame.passes (hframe : Frame s s') (hpushed : ∀ h, pushed h e = none) (htaken : ∀ h, s.taken h e = none)
    (hdropped : ∀ h, s.dropped h e = none) : Passes s s' e where
  contents_eq := by
    intro h
    rw [hpushed, htaken, hdropped, hframe.contents_eq]
    exact List.append_nil _
  gone := fun h => hframe.gone_of_gone
  taken_ne := fun h m hm => absurd ((htaken h).symm.trans hm) (Option.some_ne_none m).symm
  dropped_ne := fun h m hm => absurd ((hdropped h).symm.trans hm) (Option.some_ne_none m).symm

theorem head?_append_tail {α : Type} (l : List α) : l = l.head?.toList ++ l.tail := by
  cases l <;> rfl

/-- An event that drops a message. -/
theorem Sound.passes_drop (hs : s.Sound l) {k : ℕ}
    (heffect : Effect s s' (Function.update s.contents k (s.contents k).tail)) (hpushed : ∀ h, pushed h e = none)
    (htaken : ∀ h, s.taken h e = none) (hdropped : ∀ h, s.dropped h e = if k = h then s.nextMessage h else none)
    (hgone : s.Gone k) : Passes s s' e where
  contents_eq := by
    intro h
    rw [hpushed, htaken, hdropped, heffect.contents_eq]
    split_ifs with hkh
    · subst hkh
      rw [Function.update_self, hs.nextMessage_eq]
      exact (List.append_nil _).trans (head?_append_tail _)
    · rw [Function.update_of_ne (Ne.symm hkh)]
      exact List.append_nil _
  gone := fun h => heffect.gone_of_gone
  taken_ne := fun h m hm => absurd ((htaken h).symm.trans hm) (Option.some_ne_none m).symm
  dropped_ne := by
    intro h m hm
    rw [hdropped] at hm
    split_ifs at hm with hkh
    exact hkh ▸ hgone

theorem Sound.passes_pop (hs : s.Sound l) {weight : Fin n → ℤ} {i : Fin n} {q k rounds : ℕ}
    (hw : s.worker i = .pop q k rounds) (hr : s.workerStep (weight i) i = .ok s') : Passes s s' (.worker i) := by
  have heffect := hs.pop_effect hw hr
  have htaken : ∀ h, s.taken h (.worker i) = if q = h then s.nextMessage h else none :=
    fun h => by rw [taken, hw]
  have hdropped : ∀ h, s.dropped h (.worker i) = none := fun h => by rw [dropped, hw]
  obtain ⟨c, hc, -⟩ := hs.grabbed hw List.mem_cons_self
  refine ⟨fun h => ?_, fun h => heffect.gone_of_gone, fun h m hm => ?_,
    fun h m hm => absurd ((hdropped h).symm.trans hm) (Option.some_ne_none m).symm⟩
  · rw [htaken, hdropped, heffect.contents_eq]
    split_ifs with hkh
    · subst hkh
      rw [Function.update_self, hs.nextMessage_eq, Option.toList_none, List.append_nil]
      exact (List.append_nil _).trans (head?_append_tail _)
    · rw [Function.update_of_ne (Ne.symm hkh)]
      exact List.append_nil _
  · rw [htaken] at hm
    split_ifs at hm with hkh
    exact hkh ▸ hc ▸ Option.some_ne_none c

theorem Sound.passes_worker (hs : s.Sound l) {weight : Fin n → ℤ} {i : Fin n}
    (hr : s.workerStep (weight i) i = .ok s') : Passes s s' (.worker i) := by
  by_cases hpop : ∃ q k rounds, s.worker i = .pop q k rounds
  · obtain ⟨q, k, rounds, hw⟩ := hpop
    exact hs.passes_pop hw hr
  have htaken : ∀ h, s.taken h (.worker i) = none := by
    intro h
    rw [taken]
    split
    · rename_i q k rounds hw
      exact absurd ⟨q, k, rounds, hw⟩ hpop
    · rfl
  by_cases hdrop : ∃ q, s.worker i = .drop q
  · obtain ⟨q, hw⟩ := hdrop
    have hpos : 0 < s.count Worker.dropping q := count_pos Worker.dropping s
      (by rw [hw]; exact List.mem_cons_self)
    have hdrops : s.drops q = s.count Worker.dropping q + (s.service q).launch.drops := rfl
    obtain ⟨mq, hmq⟩ := (hs.ok q).exists_queue (by omega)
    rw [Node.workerStep, hw] at hr
    obtain ⟨⟨b, s₁⟩, hround, hr⟩ := Frame.exists_of_bind hr
    obtain rfl := Except.ok.inj hr
    exact hs.passes_drop ((hs.dropRound_effect hround).trans (Frame.setWorker _ _ _)) (fun _ => rfl) htaken
      (fun h => by rw [dropped, hw]) ⟨hs.used (hmq ▸ Option.some_ne_none mq), (hs.ok q).dropping (by omega)⟩
  · have hframe := Frame.of_workerStep hr (fun q k rounds hw => hpop ⟨q, k, rounds, hw⟩)
      (fun q hw => hdrop ⟨q, hw⟩)
    refine hframe.passes (fun _ => rfl) htaken fun h => ?_
    rw [dropped]
    split
    · rename_i q hw
      exact absurd ⟨q, hw⟩ hdrop
    · rfl

theorem Sound.passes_launch (hs : s.Sound l) {k : ℕ} (hr : s.launchStep k = some (.ok s')) :
    Passes s s' (.launch k : Event M n) := by
  by_cases hl : (s.service k).launch = .drop
  · have hdrops : s.drops k = s.count Worker.dropping k + 1 := by
      rw [drops, hl]
      rfl
    obtain ⟨mq, hmq⟩ := (hs.ok k).exists_queue (by omega)
    rw [Node.launchStep, hl] at hr
    obtain ⟨⟨b, s₁⟩, hround, hr⟩ := Frame.exists_of_bind (Option.some.inj hr)
    obtain rfl := Except.ok.inj hr
    refine hs.passes_drop ((hs.dropRound_effect hround).trans (Frame.setLaunch _ _ _)) (fun _ => rfl)
      (fun _ => rfl)
      (fun h => ?_) ⟨hs.used (hmq ▸ Option.some_ne_none mq), (hs.ok k).dropping (by omega)⟩
    show (if k = h ∧ (s.service h).launch = .drop then s.nextMessage h else none) = _
    by_cases hkh : k = h
    · subst hkh
      rw [if_pos ⟨rfl, hl⟩, if_pos rfl]
    · rw [if_neg (fun h => hkh h.1), if_neg hkh]
  · refine (Frame.of_launchStep hs hr hl).passes (fun _ => rfl) (fun _ => rfl) fun h => if_neg ?_
    rintro ⟨rfl, hdrop⟩
    exact hl hdrop

theorem Sound.passes_push (hs : s.Sound l) {k : ℕ} {m : M} (hr : s.mqPush k m = .ok s') :
    Passes s s' (.push k m : Event M n) where
  contents_eq := by
    intro h
    rw [(hs.push_effect hr).contents_eq]
    show _ ++ (if k = h then some m else none).toList = [] ++ [] ++ _
    split_ifs with hkh
    · subst hkh
      rw [Function.update_self]
      rfl
    · rw [Function.update_of_ne (Ne.symm hkh)]
      exact List.append_nil _
  gone := fun h => (hs.push_effect hr).gone_of_gone
  taken_ne := fun h m hm => absurd hm (Option.some_ne_none m).symm
  dropped_ne := fun h m hm => absurd hm (Option.some_ne_none m).symm

theorem Sound.passes_register (hs : s.Sound l) {k : ℕ} (hr : s.register k = some (.ok s')) :
    Passes s s' (.register k : Event M n) := by
  rw [Node.register] at hr
  split_ifs at hr with hle
  obtain rfl := Except.ok.inj (Option.some.inj hr)
  have hcontents : ∀ h, s.contents h =
      contents { s with handleIndex := k + 1, service := Function.update s.service k .register } h := by
    intro h
    rcases eq_or_ne h k with rfl | hne
    · rw [contents, contents, hs.fresh h hle.1]
      simp only [Function.update_self]
      rfl
    · rw [contents, contents]
      simp only [Function.update_of_ne hne]
  refine ⟨fun h => ?_, fun h hgone => ?_, fun h m hm => absurd hm (Option.some_ne_none m).symm,
    fun h m hm => absurd hm (Option.some_ne_none m).symm⟩
  · rw [← hcontents]
    exact List.append_nil _
  · obtain ⟨hlt, hc⟩ := hgone
    refine ⟨by show h < k + 1; omega, ?_⟩
    show (Function.update s.service k .register h).context = none
    rwa [Function.update_of_ne (by omega)]

/-- **What an event does to the messages.** -/
theorem Sound.passes (hs : s.Sound l) {weight : Fin n → ℤ} (hr : s.perform weight e = some (.ok s')) :
    Passes s s' e := by
  cases e with
  | register k => exact hs.passes_register hr
  | launch k => exact hs.passes_launch hr
  | worker i => exact hs.passes_worker (Option.some.inj hr)
  | initReturns k ok =>
      rw [Node.perform] at hr
      by_cases hl : (s.service k).launch = .init
      · rw [if_pos hl] at hr
        obtain rfl := Except.ok.inj (Option.some.inj hr)
        exact (Frame.setLaunch _ _ _).passes (fun _ => rfl) (fun _ => rfl) (fun _ => rfl)
      · rw [if_neg hl] at hr
        exact absurd hr (Option.some_ne_none _).symm
  | retire k =>
      exact (Frame.of_handleRetire (Option.some.inj hr)).passes (fun _ => rfl) (fun _ => rfl) (fun _ => rfl)
  | grab k =>
      obtain ⟨⟨b, s₁⟩, hgrab, hr⟩ := Frame.exists_of_bind (Option.some.inj hr)
      obtain rfl := Except.ok.inj hr
      refine Frame.passes ?_ (fun _ => rfl) (fun _ => rfl) (fun _ => rfl)
      cases b with
      | true => exact (Frame.of_handleGrab hgrab).trans (Frame.letGo _ _)
      | false => exact Frame.of_handleGrab hgrab
  | push k m =>
      rw [Node.perform] at hr
      split_ifs at hr
      obtain ⟨q, hq, hpush⟩ := Frame.exists_of_bind (Option.some.inj hr)
      rw [hs.contextQueue_unique hq] at hpush
      exact hs.passes_push hpush
  | release k =>
      rw [Node.perform] at hr
      split_ifs at hr
      obtain ⟨⟨b, s₁⟩, hrelease, hr⟩ := Frame.exists_of_bind (Option.some.inj hr)
      obtain rfl := Except.ok.inj hr
      exact Frame.passes ((Frame.of_contextRelease hrelease).trans (Frame.setService rfl id)) (fun _ => rfl)
        (fun _ => rfl)
        (fun _ => rfl)
  | delete k =>
      rw [Node.perform] at hr
      split_ifs at hr
      exact (Frame.of_deleteContext (Option.some.inj hr)).passes (fun _ => rfl) (fun _ => rfl) (fun _ => rfl)

/-! ## Every run -/

/-- The messages that went through the queue of `h`, and whether some were dropped. -/
structure Passed (tr : List (Node M n × Event M n)) (s : Node M n) (h : ℕ) : Prop where
  /-- The messages. -/
  pushed_eq : tr.filterMap (fun x => pushed h x.2) =
    tr.filterMap (fun x => x.1.taken h x.2) ++ tr.filterMap (fun x => x.1.dropped h x.2) ++ s.contents h
  /-- None are dropped before the context is deleted. -/
  gone : tr.filterMap (fun x => x.1.dropped h x.2) ≠ [] → s.Gone h

theorem Passed.snoc {tr : List (Node M n × Event M n)} (hpassed : Passed tr s h) (hstep : Passes s s' e) :
    Passed (tr ++ [(s, e)]) s' h := by
  have hsnoc : ∀ f : Node M n × Event M n → Option M,
      (tr ++ [(s, e)]).filterMap f = tr.filterMap f ++ (f (s, e)).toList := by
    intro f
    rw [List.filterMap_append]
    cases hf : f (s, e) <;> simp [hf]
  have hcontents := hstep.contents_eq h
  refine ⟨?_, fun hne => ?_⟩
  · rw [hsnoc, hsnoc, hsnoc, hpassed.pushed_eq, List.append_assoc _ (s.contents h), hcontents]
    cases htaken : s.taken h e with
    | none => simp
    | some m =>
        have hnone : tr.filterMap (fun x => x.1.dropped h x.2) = [] := by
          by_contra hne
          exact hstep.taken_ne h m htaken (hpassed.gone hne).2
        simp [hnone]
  · rw [hsnoc] at hne
    by_cases hold : tr.filterMap (fun x => x.1.dropped h x.2) = []
    · rw [hold, List.nil_append] at hne
      have hsome : s.dropped h e ≠ none := fun hnone => hne (by simp [hnone])
      obtain ⟨m, hm⟩ := Option.ne_none_iff_exists'.mp hsome
      exact hstep.gone h (hstep.dropped_ne h m hm)
    · exact hstep.gone h (hpassed.gone hold)

/-- The queue that an event takes from the global queue. -/
def turn (s : Node M n) (e : Event M n) : Option ℕ := if s.takes e then s.globalmq.head else none

/-- The global queue after a turn. -/
theorem globalmq_of_takes {weight : Fin n → ℤ} (hr : s.perform weight e = some (.ok s'))
    (htakes : s.takes e = true) :
    s'.globalmq = s.globalmq.pop.2 := by
  have hpop : ∀ {q s₁}, s.globalmqPop = .ok (q, s₁) → s₁.globalmq = s.globalmq.pop.2 := by
    intro q s₁ hr
    rw [globalmqPop] at hr
    split_ifs at hr
    obtain ⟨-, rfl⟩ := Prod.mk.inj (Except.ok.inj hr)
    rfl
  cases e with
  | register | initReturns | launch | retire | grab | push | release | delete =>
      exact absurd htakes Bool.false_ne_true
  | worker i =>
      have htakes : (s.worker i).takes = true := htakes
      have hr := Option.some.inj hr
      rw [Node.workerStep] at hr
      cases hw : s.worker i with
      | idle =>
          rw [hw] at hr
          obtain ⟨⟨q, s₁⟩, hpop', hr⟩ := Frame.exists_of_bind hr
          obtain rfl := Except.ok.inj hr
          have hs₁ := hpop hpop'
          exact hs₁
      | leave q =>
          rw [hw] at hr
          obtain ⟨c, -, hr⟩ := Frame.exists_of_bind hr
          split_ifs at hr
          obtain ⟨⟨nq, s₁⟩, hpop', hr⟩ := Frame.exists_of_bind hr
          have hs₁ := hpop hpop'
          cases nq <;> obtain rfl := Except.ok.inj hr
          all_goals exact hs₁
      | grab | orphan | drop | pop | measure | dispatch | handBack =>
          rw [hw] at htakes
          exact absurd htakes Bool.false_ne_true

/-- While `h` waits behind the queues of `front`, a turn takes the first of them. -/
theorem Sound.turn_step {front back : List ℕ} (hs : s.Sound (front ++ h :: back)) {weight : Fin n → ℤ}
    (hstep : s.step weight e = some s') (hhas : s'.globalmq.Has h) :
    ∃ front' back', s'.Sound (front' ++ h :: back') ∧ (s.turn e).toList ++ front' = front := by
  obtain ⟨r, hr, hok⟩ := Option.bind_eq_some_iff.mp hstep
  rcases hs.perform weight hr with ⟨s'', l', rfl, hprefix, hs'⟩ | ⟨f, rfl, -⟩
  · obtain rfl := Option.some.inj hok
    cases htakes : s.takes e with
    | false =>
        rw [htakes] at hprefix
        obtain ⟨more, rfl⟩ := hprefix
        refine ⟨front, back ++ more, by rwa [if_neg Bool.false_ne_true, List.append_assoc] at hs', ?_⟩
        rw [turn, htakes]
        rfl
    | true =>
        have hstands := hs.stands.pop.2
        rw [← globalmq_of_takes hr htakes] at hstands
        have hmem := hstands.has_iff.mp hhas
        cases front with
        | nil => exact absurd hmem (List.nodup_cons.mp hs.stands.nodup).1
        | cons k front =>
            rw [htakes] at hprefix
            obtain ⟨more, rfl⟩ := hprefix
            rw [if_pos rfl, List.cons_append, List.tail_cons, List.append_assoc] at hs'
            refine ⟨front, back ++ more, hs', ?_⟩
            rw [turn, htakes, if_pos rfl, hs.stands.head_eq]
            rfl
  · exact absurd hok (Option.some_ne_none s').symm

/-- **Turns.** While a queue waits in the global queue, in any run, the workers take from it only queues
that stood before this one when it began to wait, each of them at most once, in their order. -/
theorem turns {weight : Fin n → ℤ} {tr tr' : List (Node M n × Event M n)} (hrun : Run (step weight) start tr s)
    (hrun' : Run (step weight) s tr' s') {front back : List ℕ} (hwaits : s.globalmq.Stands (front ++ h :: back))
    (hhas : ∀ x ∈ tr', x.1.globalmq.Has h) (hlast : s'.globalmq.Has h) :
    tr'.filterMap (fun x => x.1.turn x.2) <+: front := by
  have hfront : (∀ x ∈ tr', x.1.globalmq.Has h) → s'.globalmq.Has h →
      ∃ front' back', s'.Sound (front' ++ h :: back') ∧
        tr'.filterMap (fun x => x.1.turn x.2) ++ front' = front := by
    refine hrun'.invariant (P := fun tr' s' => (∀ x ∈ tr', x.1.globalmq.Has h) → s'.globalmq.Has h →
      ∃ front' back', s'.Sound (front' ++ h :: back') ∧
        tr'.filterMap (fun x => x.1.turn x.2) ++ front' = front) ?_ ?_
    · intro _ _
      obtain ⟨l, hs⟩ := sound_run hrun
      obtain rfl := hs.stands.unique hwaits
      exact ⟨front, back, hs, rfl⟩
    · intro tr' s e s' _ ih hstep hhas hlast
      have hs := hhas (s, e) (List.mem_append_right _ List.mem_cons_self)
      obtain ⟨front', back', hsound, heq⟩ := ih (fun x hx => hhas x (List.mem_append_left _ hx)) hs
      obtain ⟨front'', back'', hsound', heq'⟩ := hsound.turn_step hstep hlast
      refine ⟨front'', back'', hsound', ?_⟩
      rw [List.filterMap_append, List.append_assoc, ← heq, ← heq']
      cases hturn : s.turn e <;> simp [hturn]
  obtain ⟨front', -, -, heq⟩ := hfront hhas hlast
  exact ⟨front', heq⟩

/-- A worker takes the service 1, and 2 waits behind it. -/
theorem turns_two :
    ∃ tr tr' s s', Run (step fun _ => -1) (start : Node ℕ 1) tr s ∧ Run (step fun _ => -1) s tr' s' ∧
      tr'.filterMap (fun x => x.1.turn x.2) <+: [1] := by
  obtain ⟨s, hs, hglobal⟩ : ∃ s, runFrom (step fun _ => -1) (start : Node ℕ 1)
      [.register 1, .launch 1, .launch 1, .initReturns 1 true, .launch 1, .launch 1, .launch 1,
        .register 2, .launch 2, .launch 2, .initReturns 2 true, .launch 2, .launch 2, .launch 2] = some s ∧
      s.globalmq = (LinkedQueue.empty.push 1).push 2 := ⟨_, rfl, rfl⟩
  obtain ⟨s', hs', htail⟩ : ∃ s', s.step (fun _ => -1) (.worker 0) = some s' ∧ s'.globalmq.tail = some 2 := by
    obtain rfl := Option.some.inj hs
    exact ⟨_, rfl, rfl⟩
  have hstands := ((LinkedQueue.stands_empty.push (x := 1) List.not_mem_nil).push (x := 2) (by decide))
  rw [← hglobal] at hstands
  refine ⟨_, _, s, s', run_of_runFrom hs, Run.nil.snoc hs',
    turns (run_of_runFrom hs) (Run.nil.snoc hs') hstands ?_
    (Or.inr htail)⟩
  rintro x hx
  obtain rfl := List.mem_singleton.mp hx
  exact hstands.has_iff.mpr (by decide)

end Node

end FrameSync.Skynet
