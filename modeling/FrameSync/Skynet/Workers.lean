import FrameSync.Skynet.MessageQueue
import Mathlib.Algebra.Order.BigOperators.Group.Finset

/-! # Where the queues are

A queue that exists is in one place: with the thread that launches its service, in the global queue, in the
hands of one worker, or it rests, and then it is empty and its next message puts it into the global queue.
The count of a context is the number of its references, so that a context is deleted when nothing refers to
it, and its queue is freed after it (`Service.Ok`). This is kept by every event (`Node.Sound`). The events
find no failed assertion, and memory that was freed or is not set in two places only (`Node.Wrong`), both of
`skynet_context_new`: it looks at the context after it has given back its reference, and the handle is
registered before the queue is made. -/

namespace FrameSync.Skynet

variable {M : Type}

/-! ## One service -/

/-- What holds for a service whose queue is in `out` places, dropped by `drops` threads, and whose context
has `refs` references other than that of its slot. -/
structure Service.Ok (sv : Service M) (out refs drops : ℕ) : Prop where
  /-- The queue is in one place. -/
  places : out + drops ≤ 1
  /-- The references are counted. -/
  ref_eq : ∀ c, sv.context = some c → c.ref = sv.slot.toNat + refs
  /-- Nothing refers to a context that is gone. -/
  gone : sv.context = none → sv.slot = false ∧ refs = 0 ∧ sv.deleting = false
  /-- A context is deleted when its count is zero. -/
  deleting_iff : ∀ c, sv.context = some c → (sv.deleting = true ↔ c.ref = 0)
  /-- A queue is to be released when the context is gone. -/
  release_iff : ∀ q, sv.queue = some q → (q.release = true ↔ sv.context = none)
  /-- A queue that is not there is nowhere, and not the queue of a context. -/
  freed : sv.queue = none → (∀ c, sv.context = some c → c.queue = none) ∧ out + drops = 0
  /-- A queue that is nowhere rests. -/
  rests : ∀ q, sv.queue = some q → out + drops = 0 → q.inGlobal = false ∧ q.release = false ∧ q.contents = []
  /-- The flag of a queue that does not rest is set, unless it rested when the context was deleted. -/
  awake : ∀ q, sv.queue = some q → 0 < out + drops → q.inGlobal = true ∨ q.release = true
  /-- The messages are dropped when the context is gone. -/
  dropping : 0 < drops → sv.context = none
  /-- The ring of the queue. -/
  ring : ∀ q, sv.queue = some q → q.ring.Stands q.contents

namespace Service.Ok

variable {sv : Service M} {out refs drops : ℕ} {c : Context} {q : MessageQueue M}

theorem blank : (Service.blank : Service M).Ok 0 0 0 := by
  constructor <;> simp [Service.blank]

theorem register : (Service.register : Service M).Ok 0 1 0 := by
  constructor <;> simp [Service.register]

/-- Something refers to the context. -/
theorem exists_context (h : sv.Ok out refs drops) (hrefs : sv.slot = true ∨ 0 < refs ∨ sv.deleting = true) :
    ∃ c, sv.context = some c := by
  rw [← Option.ne_none_iff_exists']
  intro hgone
  obtain ⟨hslot, hnone, hdeleting⟩ := h.gone hgone
  rcases hrefs with hrefs | hrefs | hrefs
  · exact Bool.false_ne_true (hslot.symm.trans hrefs)
  · exact hrefs.ne' hnone
  · exact Bool.false_ne_true (hdeleting.symm.trans hrefs)

/-- The queue is somewhere. -/
theorem exists_queue (h : sv.Ok out refs drops) (hplace : 0 < out + drops) : ∃ q, sv.queue = some q := by
  rw [← Option.ne_none_iff_exists']
  exact fun hfreed => hplace.ne' (h.freed hfreed).2

/-- A queue is not released before the context is gone. -/
theorem release_eq_false (h : sv.Ok out refs drops) (hc : sv.context = some c) (hq : sv.queue = some q) :
    q.release = false :=
  Bool.eq_false_iff.mpr fun hrelease => Option.some_ne_none c (hc.symm.trans ((h.release_iff q hq).mp hrelease))

/-- A context has its queue, once that is set. -/
theorem queue_of_context (h : sv.Ok out refs drops) (hc : sv.context = some c) (hset : c.queue ≠ none) :
    ∃ q, sv.queue = some q ∧ q.release = false := by
  obtain ⟨q, hq⟩ := Option.ne_none_iff_exists'.mp fun hfreed => hset ((h.freed hfreed).1 c hc)
  exact ⟨q, hq, h.release_eq_false hc hq⟩

/-- A queue whose flag is not set rests. -/
theorem nowhere (h : sv.Ok out refs drops) (hq : sv.queue = some q) (hflag : q.inGlobal = false)
    (hrelease : q.release = false) : out + drops = 0 := by
  by_contra hplace
  rcases h.awake q hq (Nat.pos_of_ne_zero hplace) with h | h
  · exact Bool.false_ne_true (hflag.symm.trans h)
  · exact Bool.false_ne_true (hrelease.symm.trans h)

/-- A queue whose flag is set does not rest. -/
theorem somewhere (h : sv.Ok out refs drops) (hq : sv.queue = some q) (hflag : q.inGlobal = true) :
    0 < out + drops :=
  Nat.pos_of_ne_zero fun hplace => Bool.false_ne_true ((h.rests q hq hplace).1.symm.trans hflag)

/-- Where the launching thread is, and the number of the other references, are not seen here. -/
theorem congr (h : sv.Ok out refs drops) (l : Launch) (g : ℕ) :
    ({ sv with launch := l, grabbed := g } : Service M).Ok out refs drops :=
  { h with }

/-! ### References -/

/-- The number of references to a context, and whether it is marked. -/
theorem setContext (h : sv.Ok out refs drops) (hc : sv.context = some c) (c' : Context) (d : Bool) {refs' : ℕ}
    (hqueue : c'.queue = c.queue) (href : c'.ref = sv.slot.toNat + refs') (hd : d = true ↔ c'.ref = 0) :
    ({ sv with context := some c', deleting := d } : Service M).Ok out refs' drops :=
  have hsome : sv.context ≠ none := hc ▸ Option.some_ne_none c
  have hnone : some c' = none ↔ sv.context = none :=
    ⟨fun h => absurd h (Option.some_ne_none c'), fun h => absurd h hsome⟩
  { h with
    ref_eq := by
      rintro _ ⟨rfl⟩
      exact href
    gone := fun hgone => absurd hgone (Option.some_ne_none c')
    deleting_iff := by
      rintro _ ⟨rfl⟩
      exact hd
    release_iff := fun q hq => (h.release_iff q hq).trans hnone.symm
    freed := by
      intro hq
      refine ⟨?_, (h.freed hq).2⟩
      rintro _ ⟨rfl⟩
      exact hqueue.trans ((h.freed hq).1 c hc)
    dropping := fun hdrop => absurd (h.dropping hdrop) hsome }

/-- A new reference. -/
theorem grab (h : sv.Ok out refs drops) (hc : sv.context = some c) (hslot : sv.slot = true) :
    ({ sv with context := some { c with ref := c.ref + 1 } } : Service M).Ok out (refs + 1) drops := by
  have href := h.ref_eq c hc
  rw [hslot, Bool.toNat_true] at href
  refine h.setContext hc { c with ref := c.ref + 1 } sv.deleting rfl ?_ ((h.deleting_iff c hc).trans ?_)
  · rw [hslot, Bool.toNat_true]
    push_cast
    omega
  · show c.ref = 0 ↔ c.ref + 1 = 0
    omega

/-- A reference is given back. -/
theorem giveBack (h : sv.Ok out (refs + 1) drops) (hc : sv.context = some c) :
    ({ sv with
      context := some { c with ref := c.ref - 1 }
      deleting := sv.deleting || decide (c.ref - 1 = 0) } : Service M).Ok out refs drops := by
  have href := h.ref_eq c hc
  have hdel := h.deleting_iff c hc
  push_cast at href
  refine h.setContext hc { c with ref := c.ref - 1 } _ rfl (by push_cast; omega) ?_
  rw [Bool.or_eq_true, decide_eq_true_eq, hdel, or_iff_right]
  omega

/-- The context is marked as launched. -/
theorem mark (h : sv.Ok out refs drops) (hc : sv.context = some c) :
    ({ sv with context := some { c with init := true } } : Service M).Ok out refs drops :=
  h.setContext hc { c with init := true } sv.deleting rfl (h.ref_eq c hc) (h.deleting_iff c hc)

/-- The context gets its handle. -/
theorem setHandle (h : sv.Ok out refs drops) (hc : sv.context = some c) (k : ℕ) :
    ({ sv with context := some { c with handle := k } } : Service M).Ok out refs drops :=
  h.setContext hc { c with handle := k } sv.deleting rfl (h.ref_eq c hc) (h.deleting_iff c hc)

/-- The reference of the slot goes to a thread. -/
theorem retire (h : sv.Ok out refs drops) (hslot : sv.slot = true) :
    ({ sv with slot := false } : Service M).Ok out (refs + 1) drops :=
  { h with
    ref_eq := by
      intro c hc
      have hc := h.ref_eq c hc
      rw [hslot, Bool.toNat_true] at hc
      rw [Bool.toNat_false]
      push_cast at hc ⊢
      omega
    gone := fun hgone => absurd ((h.gone hgone).1.symm.trans hslot) Bool.false_ne_true }

/-! ### Queues -/

/-- The queue is made, and is in the hands of the launching thread. -/
theorem mqCreate (h : sv.Ok out refs drops) (hc : sv.context = some c) (hq : sv.queue = none) (k : ℕ) :
    ({ sv with context := some { c with queue := some k }, queue := some .create } : Service M).Ok (out + 1) refs
      drops :=
  have hring : (MessageQueue.create : MessageQueue M).ring.Stands [] := Ring.stands_empty (by decide)
  have hcontents : (MessageQueue.create : MessageQueue M).contents = [] := hring.contents_eq
  have hnowhere := (h.freed hq).2
  { h with
    places := by omega
    ref_eq := by
      rintro _ ⟨rfl⟩
      exact h.ref_eq c hc
    gone := fun hgone => absurd hgone (Option.some_ne_none _)
    deleting_iff := by
      rintro _ ⟨rfl⟩
      exact h.deleting_iff c hc
    release_iff := by
      rintro _ ⟨rfl⟩
      exact ⟨fun h => absurd h Bool.false_ne_true, fun h => absurd h (Option.some_ne_none _)⟩
    freed := fun hfreed => absurd hfreed (Option.some_ne_none _)
    rests := fun _ _ hnowhere => by omega
    awake := by
      rintro _ ⟨rfl⟩ _
      exact Or.inl rfl
    dropping := fun hdrop => by omega
    ring := by
      rintro _ ⟨rfl⟩
      rwa [hcontents] }

/-- The messages of a queue that does not rest. -/
theorem setQueue (h : sv.Ok out refs drops) (hq : sv.queue = some q) (hplace : 0 < out + drops)
    {q' : MessageQueue M}
    (hrelease : q'.release = q.release) (hflag : q'.inGlobal = q.inGlobal) (hring : q'.ring.Stands q'.contents) :
    ({ sv with queue := some q' } : Service M).Ok out refs drops :=
  { h with
    release_iff := by
      rintro _ ⟨rfl⟩
      rw [hrelease]
      exact h.release_iff q hq
    freed := fun hfreed => absurd hfreed (Option.some_ne_none q')
    rests := fun _ _ hnowhere => absurd hnowhere hplace.ne'
    awake := by
      rintro _ ⟨rfl⟩ _
      rw [hrelease, hflag]
      exact h.awake q hq hplace
    ring := by
      rintro _ ⟨rfl⟩
      exact hring }

/-- A message for a queue that rests. -/
theorem wake (h : sv.Ok 0 refs 0) (hc : sv.context = some c) {q' : MessageQueue M}
    (hrelease : q'.release = false)
    (hflag : q'.inGlobal = true) (hring : q'.ring.Stands q'.contents) :
    ({ sv with queue := some q' } : Service M).Ok 1 refs 0 :=
  { h with
    places := le_rfl
    release_iff := by
      rintro _ ⟨rfl⟩
      rw [hrelease, hc]
      exact ⟨fun h => absurd h Bool.false_ne_true, fun h => absurd h (Option.some_ne_none c)⟩
    freed := fun hfreed => absurd hfreed (Option.some_ne_none q')
    rests := fun _ _ hnowhere => absurd hnowhere Nat.one_ne_zero
    awake := by
      rintro _ ⟨rfl⟩ _
      exact Or.inl hflag
    ring := by
      rintro _ ⟨rfl⟩
      exact hring }

/-- A queue without messages comes to rest. -/
theorem rest (h : sv.Ok (out + 1) refs drops) (hc : sv.context = some c) {q' : MessageQueue M}
    (hrelease : q'.release = false) (hflag : q'.inGlobal = false) (hempty : q'.contents = [])
    (hring : q'.ring.Stands []) : ({ sv with queue := some q' } : Service M).Ok out refs drops :=
  have hplaces := h.places
  { h with
    places := by omega
    release_iff := by
      rintro _ ⟨rfl⟩
      rw [hrelease, hc]
      exact ⟨fun h => absurd h Bool.false_ne_true, fun h => absurd h (Option.some_ne_none c)⟩
    freed := fun hfreed => absurd hfreed (Option.some_ne_none q')
    rests := by
      rintro _ ⟨rfl⟩ _
      exact ⟨hflag, hrelease, hempty⟩
    awake := fun _ _ hplace => by omega
    ring := by
      rintro _ ⟨rfl⟩
      rwa [hempty] }

/-- The messages are going to be dropped. -/
theorem startDrop (h : sv.Ok (out + 1) refs drops) (hq : sv.queue = some q) (hrelease : q.release = true) :
    sv.Ok out refs (drops + 1) :=
  have hplaces := h.places
  { h with
    places := by omega
    freed := fun hfreed => absurd hfreed (hq ▸ Option.some_ne_none q)
    rests := fun _ _ hnowhere => by omega
    awake := fun q hq _ => h.awake q hq (by omega)
    dropping := fun _ => (h.release_iff q hq).mp hrelease }

/-- The queue is freed. -/
theorem free (h : sv.Ok out refs (drops + 1)) : ({ sv with queue := none } : Service M).Ok out refs drops :=
  have hplaces := h.places
  have hgone := h.dropping (Nat.succ_pos drops)
  { h with
    places := by omega
    release_iff := fun _ hq => absurd hq (Option.some_ne_none _).symm
    freed := fun _ => ⟨fun _ hc => absurd (hc.symm.trans hgone) (Option.some_ne_none _), by omega⟩
    rests := fun _ hq => absurd hq (Option.some_ne_none _).symm
    awake := fun _ hq => absurd hq (Option.some_ne_none _).symm
    dropping := fun _ => hgone
    ring := fun _ hq => absurd hq (Option.some_ne_none _).symm }

/-- The context is deleted. A queue that rested is put into the global queue. -/
theorem delete (h : sv.Ok out refs drops) (hc : sv.context = some c) (hq : sv.queue = some q)
    (hdel : sv.deleting = true) :
    ({ sv with context := none, queue := some { q with release := true }, deleting := false } : Service M).Ok
      (if q.inGlobal then out else out + 1) refs drops := by
  have href := h.ref_eq c hc
  rw [(h.deleting_iff c hc).mp hdel] at href
  -- a slot would be a reference, and there is none
  have hslot : sv.slot = false := by
    cases hs : sv.slot with
    | false => rfl
    | true =>
        rw [hs, Bool.toNat_true] at href
        omega
  have hrelease : q.release = false := Bool.eq_false_iff.mpr fun hrelease =>
    Option.some_ne_none c (hc.symm.trans ((h.release_iff q hq).mp hrelease))
  have hplaces := h.places
  have hplace : 0 < (if q.inGlobal then out else out + 1) + drops := by
    split_ifs with hflag
    · exact h.somewhere hq hflag
    · omega
  exact
    { h with
      places := by
        split_ifs with hflag
        · exact hplaces
        · have hnowhere := h.nowhere hq (Bool.eq_false_iff.mpr hflag) hrelease
          omega
      ref_eq := fun _ hc => absurd hc (Option.some_ne_none _).symm
      gone := fun _ => ⟨hslot, by omega, rfl⟩
      deleting_iff := fun _ hc => absurd hc (Option.some_ne_none _).symm
      release_iff := by
        rintro _ ⟨rfl⟩
        exact ⟨fun _ => rfl, fun _ => rfl⟩
      freed := fun hfreed => absurd hfreed (Option.some_ne_none _)
      rests := fun _ _ hnowhere => absurd hnowhere hplace.ne'
      awake := by
        rintro _ ⟨rfl⟩ _
        exact Or.inr rfl
      dropping := fun _ => rfl
      ring := by
        rintro _ ⟨rfl⟩
        exact h.ring q hq }

end Service.Ok

/-- What `skynet_context_new` has set, for the service of `h`. -/
structure Service.Made (sv : Service M) (h : ℕ) : Prop where
  /-- The handle. -/
  handle_eq : ∀ c, sv.context = some c → c.handle = if sv.launch = .register then 0 else h
  /-- The queue. -/
  queue_eq : ∀ c, sv.context = some c → c.queue = if sv.launch.unmade then none else some h
  /-- The queue is not there before. -/
  unmade : sv.launch.unmade = true → sv.queue = none
  /-- Nobody finds a context without its handle. -/
  register : sv.launch = .register → sv.grabbed = 0 ∧ h ≠ 0

namespace Service.Made

variable {sv sv' : Service M} {h : ℕ} {c : Context}

theorem blank (h : ℕ) : (Service.blank : Service M).Made h := by
  constructor <;> simp [Service.blank]

theorem registered (hh : h ≠ 0) : (Service.register : Service M).Made h := by
  constructor <;> simp [Service.register, Launch.unmade, hh]

/-- A service that is found has its handle. -/
theorem handle_eq_self (hm : sv.Made h) (hc : sv.context = some c) (hl : sv.launch ≠ .register) : c.handle = h :=
  (hm.handle_eq c hc).trans (if_neg hl)

/-- A service whose queue is made has it. -/
theorem queue_eq_some (hm : sv.Made h) (hc : sv.context = some c) (hl : sv.launch.unmade = false) :
    c.queue = some h :=
  (hm.queue_eq c hc).trans (if_neg (hl ▸ Bool.false_ne_true))

theorem made_of_queue (hm : sv.Made h) (hq : sv.queue ≠ none) : sv.launch.unmade = false :=
  Bool.eq_false_iff.mpr fun hl => hq (hm.unmade hl)

theorem ne_register (hl : sv.launch.unmade = false) : sv.launch ≠ .register := by
  intro hregister
  rw [hregister] at hl
  exact Bool.false_ne_true hl.symm

/-- The launching thread does not go on. -/
theorem congr (hm : sv.Made h) (hlaunch : sv'.launch = sv.launch) (hqueue : sv.queue = none → sv'.queue = none)
    (hgrabbed : sv.launch = .register → sv'.grabbed = sv.grabbed)
    (hcontext : ∀ c', sv'.context = some c' → ∃ c, sv.context = some c ∧ c'.handle = c.handle ∧
      c'.queue = c.queue) :
    sv'.Made h where
  handle_eq := by
    intro c' hc'
    obtain ⟨c, hc, hhandle, -⟩ := hcontext c' hc'
    rw [hhandle, hm.handle_eq c hc, hlaunch]
  queue_eq := by
    intro c' hc'
    obtain ⟨c, hc, -, hq⟩ := hcontext c' hc'
    rw [hq, hm.queue_eq c hc, hlaunch]
  unmade := by
    rw [hlaunch]
    exact fun hl => hqueue (hm.unmade hl)
  register := by
    rw [hlaunch]
    exact fun hl => ⟨(hgrabbed hl).trans (hm.register hl).1, (hm.register hl).2⟩

/-- The queue is made already. -/
theorem later (hm : sv.Made h) (hl : sv.launch.unmade = false) (hl' : sv'.launch.unmade = false)
    (hcontext : ∀ c', sv'.context = some c' → ∃ c, sv.context = some c ∧ c'.handle = c.handle ∧
      c'.queue = c.queue) :
    sv'.Made h where
  handle_eq := by
    intro c' hc'
    obtain ⟨c, hc, hhandle, -⟩ := hcontext c' hc'
    rw [hhandle, hm.handle_eq_self hc (ne_register hl), if_neg (ne_register hl')]
  queue_eq := by
    intro c' hc'
    obtain ⟨c, hc, -, hq⟩ := hcontext c' hc'
    rw [hq, hm.queue_eq_some hc hl, if_neg (hl' ▸ Bool.false_ne_true)]
  unmade := fun h => absurd (hl'.symm.trans h) Bool.false_ne_true
  register := fun h => absurd h (ne_register hl')

end Service.Made

namespace Node

variable {n : ℕ}

/-! ## All services -/

/-- How often a service is among those that the workers have in some way. -/
def count (has : Worker M → List ℕ) (s : Node M n) (h : ℕ) : ℕ := ∑ i, (has (s.worker i)).count h

/-- The places of the queue of `h` when the queues of `l` are in the global queue. -/
def out (s : Node M n) (l : List ℕ) (h : ℕ) : ℕ :=
  l.count h + s.count Worker.queues h + (s.service h).launch.holds

/-- The references to the context of `h`, other than that of its slot. -/
def refs (s : Node M n) (h : ℕ) : ℕ :=
  s.count Worker.contexts h + (s.service h).launch.refs + (s.service h).grabbed

/-- The threads that drop the messages of `h`. -/
def drops (s : Node M n) (h : ℕ) : ℕ := s.count Worker.dropping h + (s.service h).launch.drops

/-- What holds in every state, with the queues of `l` in the global queue. -/
structure Sound (s : Node M n) (l : List ℕ) : Prop where
  /-- The global queue. -/
  stands : s.globalmq.Stands l
  /-- The services. -/
  ok : ∀ h, (s.service h).Ok (s.out l h) (s.refs h) (s.drops h)
  /-- Their launch. -/
  made : ∀ h, (s.service h).Made h
  /-- A service that a worker can grab, or has grabbed, is launched. -/
  launched : ∀ h c, (s.service h).context = some c →
    (s.service h).slot = true ∧ (s.service h).launch.early = false ∨ 0 < s.count Worker.contexts h →
      c.init = true
  /-- The handles that are not used yet. -/
  fresh : ∀ h, s.handleIndex ≤ h → s.service h = .blank
  /-- No handle is 0. -/
  index_pos : 0 < s.handleIndex

theorem count_setWorker (has : Worker M → List ℕ) (s : Node M n) (i : Fin n) (w : Worker M) (h : ℕ) :
    (s.setWorker i w).count has h + (has (s.worker i)).count h = s.count has h + (has w).count h := by
  have hupdate : ∀ j, (has (Function.update s.worker i w j)).count h =
      Function.update (fun j => (has (s.worker j)).count h) i ((has w).count h) j :=
    fun j => Function.apply_update (fun _ w => (has w).count h) s.worker i w j
  show (∑ j, (has (Function.update s.worker i w j)).count h) + _ = _
  rw [Finset.sum_congr rfl fun j _ => hupdate j, Finset.sum_update_of_mem (Finset.mem_univ i), count,
    Finset.sum_eq_add_sum_sdiff_singleton_of_mem (Finset.mem_univ i)]
  omega

theorem count_pos (has : Worker M → List ℕ) (s : Node M n) {i : Fin n} {h : ℕ} (hmem : h ∈ has (s.worker i)) :
    0 < s.count has h := by
  have hle : (has (s.worker i)).count h ≤ ∑ j, (has (s.worker j)).count h :=
    Finset.single_le_sum (f := fun j => (has (s.worker j)).count h) (fun _ _ => Nat.zero_le _)
      (Finset.mem_univ i)
  exact Nat.lt_of_lt_of_le (List.count_pos_iff.mpr hmem) hle

variable {s s' : Node M n} {l l' : List ℕ} {h : ℕ}

/-- Only handles that are used have a queue. -/
theorem Sound.used (hs : s.Sound l) (hplace : (s.service h).queue ≠ none) : h < s.handleIndex := by
  by_contra hle
  rw [hs.fresh h (Nat.le_of_not_lt hle)] at hplace
  exact hplace rfl

/-- Only handles that are used have a context. -/
theorem Sound.used_of_context (hs : s.Sound l) {c : Context} (hc : (s.service h).context = some c) :
    h < s.handleIndex := by
  by_contra hle
  rw [hs.fresh h (Nat.le_of_not_lt hle)] at hc
  exact Option.some_ne_none c hc.symm

/-- A change of one service, and of the places of its queue. -/
theorem Sound.change (hs : s.Sound l) {k : ℕ} {sv' : Service M} (hk : k < s.handleIndex)
    (hservice : s'.service = Function.update s.service k sv') (hindex : s'.handleIndex = s.handleIndex)
    (hstands : s'.globalmq.Stands l')
    (hother : ∀ h, h ≠ k → l'.count h + s'.count Worker.queues h = l.count h + s.count Worker.queues h ∧
      s'.count Worker.contexts h = s.count Worker.contexts h ∧
      s'.count Worker.dropping h = s.count Worker.dropping h)
    (hok : sv'.Ok (l'.count k + s'.count Worker.queues k + sv'.launch.holds)
      (s'.count Worker.contexts k + sv'.launch.refs + sv'.grabbed)
      (s'.count Worker.dropping k + sv'.launch.drops))
    (hmade : sv'.Made k)
    (hlaunched : ∀ c, sv'.context = some c →
      sv'.slot = true ∧ sv'.launch.early = false ∨ 0 < s'.count Worker.contexts k → c.init = true) :
    s'.Sound l' where
  stands := hstands
  ok := by
    intro h
    rw [out, refs, drops, hservice]
    rcases eq_or_ne h k with rfl | hne
    · rwa [Function.update_self]
    · obtain ⟨hqueues, hcontexts, hdropping⟩ := hother h hne
      rw [Function.update_of_ne hne, hqueues, hcontexts, hdropping]
      exact hs.ok h
  made := by
    intro h
    rw [hservice]
    rcases eq_or_ne h k with rfl | hne
    · rwa [Function.update_self]
    · rw [Function.update_of_ne hne]
      exact hs.made h
  launched := by
    intro h
    rw [hservice]
    rcases eq_or_ne h k with rfl | hne
    · rwa [Function.update_self]
    · rw [Function.update_of_ne hne, (hother h hne).2.1]
      exact hs.launched h
  fresh := by
    intro h hle
    rw [hindex] at hle
    rw [hservice, Function.update_of_ne (Nat.lt_of_lt_of_le hk hle).ne']
    exact hs.fresh h hle
  index_pos := hindex ▸ hs.index_pos

/-- An event of a thread that is not a worker. -/
theorem Sound.other (hs : s.Sound l) {k : ℕ} {sv' : Service M} (hk : k < s.handleIndex)
    (hservice : s'.service = Function.update s.service k sv') (hindex : s'.handleIndex = s.handleIndex)
    (hworker : s'.worker = s.worker) (hstands : s'.globalmq.Stands l')
    (hother : ∀ h, h ≠ k → l'.count h = l.count h) {out refs drops : ℕ} (hok : sv'.Ok out refs drops)
    (hout : out + l.count k + (s.service k).launch.holds = s.out l k + l'.count k + sv'.launch.holds)
    (hrefs : refs + (s.service k).launch.refs + (s.service k).grabbed =
      s.refs k + sv'.launch.refs + sv'.grabbed)
    (hdrops : drops + (s.service k).launch.drops = s.drops k + sv'.launch.drops) (hmade : sv'.Made k)
    (hlaunched : ∀ c, sv'.context = some c →
      sv'.slot = true ∧ sv'.launch.early = false ∨ 0 < s.count Worker.contexts k → c.init = true) :
    s'.Sound l' := by
  have hcount : ∀ has h, s'.count has h = s.count has h := fun has h => by rw [count, hworker, count]
  rw [Node.out] at hout
  rw [Node.refs] at hrefs
  rw [Node.drops] at hdrops
  refine hs.change hk hservice hindex hstands (fun h hne => ⟨?_, hcount _ h, hcount _ h⟩) ?_ hmade ?_
  · rw [hother h hne, hcount]
  · rw [hcount, hcount, hcount, show l'.count k + s.count Worker.queues k + sv'.launch.holds = out by omega,
      show s.count Worker.contexts k + sv'.launch.refs + sv'.grabbed = refs by omega,
      show s.count Worker.dropping k + sv'.launch.drops = drops by omega]
    exact hok
  · rwa [hcount]

/-- An event of a worker, that is busy with the queue of `k`. -/
theorem Sound.work (hs : s.Sound l) {i : Fin n} {w w' : Worker M} (hw : s.worker i = w) {k : ℕ} {sv' : Service M}
    (hworker : s'.worker = Function.update s.worker i w')
    (hservice : s'.service = Function.update s.service k sv') (hindex : s'.handleIndex = s.handleIndex)
    (hstands : s'.globalmq.Stands l')
    (hother : ∀ h, h ≠ k → l'.count h + w'.queues.count h = l.count h + w.queues.count h ∧
      w'.contexts.count h = w.contexts.count h ∧ w'.dropping.count h = w.dropping.count h)
    (hlaunch : sv'.launch = (s.service k).launch) (hslot : sv'.slot = (s.service k).slot)
    (hqueue : (s.service k).queue ≠ none) {out refs drops : ℕ} (hok : sv'.Ok out refs drops)
    (hout : out + l.count k + w.queues.count k = s.out l k + l'.count k + w'.queues.count k)
    (hrefs : refs + w.contexts.count k + (s.service k).grabbed =
      s.refs k + w'.contexts.count k + sv'.grabbed)
    (hdrops : drops + w.dropping.count k = s.drops k + w'.dropping.count k)
    (hcontext : ∀ c', sv'.context = some c' → ∃ ref, (s.service k).context = some { c' with ref := ref })
    (hcontexts : w'.contexts.count k ≤ w.contexts.count k ∨
      (s.service k).slot = true ∧ (s.service k).launch.early = false) : s'.Sound l' := by
  have hcount : ∀ has h, s'.count has h + (has w).count h = s.count has h + (has w').count h := by
    intro has h
    have hset := count_setWorker has s i w' h
    rw [hw] at hset
    rwa [count, hworker]
  have hqueues := hcount Worker.queues k
  have hrefs' := hcount Worker.contexts k
  have hdrops' := hcount Worker.dropping k
  rw [Node.out] at hout
  rw [Node.refs] at hrefs
  rw [Node.drops] at hdrops
  have hunmade := (hs.made k).made_of_queue hqueue
  -- the counts of the other workers are as they were
  refine hs.change (hs.used hqueue) hservice hindex hstands (fun h hne => ?_) ?_
    ((hs.made k).later hunmade (hlaunch ▸ hunmade) fun c' hc' => ?_) ?_
  · obtain ⟨hq, hc, hd⟩ := hother h hne
    have hq' := hcount Worker.queues h
    have hc' := hcount Worker.contexts h
    have hd' := hcount Worker.dropping h
    exact ⟨by omega, by omega, by omega⟩
  · rw [hlaunch, show l'.count k + s'.count Worker.queues k + (s.service k).launch.holds = out by omega,
      show s'.count Worker.contexts k + (s.service k).launch.refs + sv'.grabbed = refs by omega,
      show s'.count Worker.dropping k + (s.service k).launch.drops = drops by omega]
    exact hok
  · obtain ⟨ref, hc⟩ := hcontext c' hc'
    exact ⟨_, hc, rfl, rfl⟩
  · intro c' hc' hready
    obtain ⟨ref, hc⟩ := hcontext c' hc'
    rw [hslot, hlaunch] at hready
    rcases hcontexts with hle | hgrab
    · exact hs.launched k { c' with ref := ref } hc (hready.imp_right fun hpos => by omega)
    · exact hs.launched k { c' with ref := ref } hc (Or.inl hgrab)

/-! ## What the events compute -/

theorem queue_eq {q : MessageQueue M} (hq : (s.service h).queue = some q) : s.queue h = .ok q := by
  rw [queue, hq]

theorem context_eq {c : Context} (hc : (s.service h).context = some c) : s.context h = .ok c := by
  rw [context, hc]

theorem context_eq_none (hc : (s.service h).context = none) : s.context h = .error .freedContext := by
  rw [context, hc]

theorem contextQueue_eq {c : Context} {q : ℕ} (hc : (s.service h).context = some c) (hq : c.queue = some q) :
    s.contextQueue h = .ok q := by
  rw [contextQueue, context_eq hc]
  dsimp only [bind, Except.bind]
  rw [hq]
  rfl

theorem contextQueue_eq_none {c : Context} (hc : (s.service h).context = some c) (hq : c.queue = none) :
    s.contextQueue h = .error .unsetQueue := by
  rw [contextQueue, context_eq hc]
  dsimp only [bind, Except.bind]
  rw [hq]

/-- A queue that is pushed is not in the global queue. -/
theorem globalmqPush_eq (hstands : s.globalmq.Stands l) (hmem : h ∉ l) :
    s.globalmqPush h = .ok { s with globalmq := s.globalmq.push h } := by
  rw [globalmqPush, if_pos (hstands.next_eq_none hmem)]

theorem globalmqPop_eq (hstands : s.globalmq.Stands l) :
    s.globalmqPop = .ok (l.head?, { s with globalmq := s.globalmq.pop.2 }) := by
  rw [globalmqPop, if_neg, hstands.pop.1]
  rw [Bool.not_eq_true]
  cases hhead : s.globalmq.head with
  | none => rfl
  | some q =>
      rw [Option.elim_some, decide_eq_false_iff_not]
      exact fun ⟨hnext, htail⟩ => htail (hstands.tail_of_next hhead hnext)

theorem mqRelease_of_release {q : MessageQueue M} (hq : (s.service h).queue = some q)
    (hrelease : q.release = true) :
    s.mqRelease h = .ok (true, s) := by
  rw [mqRelease, queue_eq hq]
  exact if_pos hrelease

theorem mqRelease_of_not_release {q : MessageQueue M} (hq : (s.service h).queue = some q)
    (hrelease : q.release = false)
    (hstands : s.globalmq.Stands l) (hmem : h ∉ l) :
    s.mqRelease h = .ok (false, { s with globalmq := s.globalmq.push h }) := by
  rw [mqRelease, queue_eq hq, globalmqPush_eq hstands hmem]
  exact if_neg (hrelease ▸ Bool.false_ne_true)

theorem dropRound_of_cons {q q' : MessageQueue M} {m : M} (hq : (s.service h).queue = some q)
    (hpop : q.pop = (some m, q')) : s.dropRound h = .ok (true, s.setQueue h q') := by
  rw [dropRound, queue_eq hq]
  dsimp only [bind, Except.bind]
  rw [hpop]
  rfl

theorem dropRound_of_nil {q q' : MessageQueue M} (hq : (s.service h).queue = some q) (hpop : q.pop = (none, q'))
    (hstands : s.globalmq.Stands l) (hmem : h ∉ l) :
    s.dropRound h = .ok (false, s.setService h { s.service h with queue := none }) := by
  rw [dropRound, queue_eq hq]
  dsimp only [bind, Except.bind]
  rw [hpop]
  exact if_pos (hstands.next_eq_none hmem)

theorem contextRelease_eq {c : Context} (hc : (s.service h).context = some c) :
    s.contextRelease h = .ok (decide (c.ref - 1 = 0), s.setService h { s.service h with
      context := some { c with ref := c.ref - 1 }
      deleting := (s.service h).deleting || decide (c.ref - 1 = 0) }) := by
  rw [contextRelease, context_eq hc]
  rfl

theorem handleGrab_of_handle {c : Context} (hc : (s.service h).context = some c)
    (hslot : (s.service h).slot = true)
    (hhandle : c.handle = h) :
    s.handleGrab h =
      .ok (true, s.setService h { s.service h with context := some { c with ref := c.ref + 1 } }) := by
  rw [handleGrab, if_pos hslot, context_eq hc]
  exact if_pos hhandle

theorem handleGrab_of_ne {c : Context} (hc : (s.service h).context = some c) (hslot : (s.service h).slot = true)
    (hhandle : c.handle ≠ h) : s.handleGrab h = .ok (false, s) := by
  rw [handleGrab, if_pos hslot, context_eq hc]
  exact if_neg hhandle

theorem handleGrab_of_not_slot (hslot : (s.service h).slot = false) : s.handleGrab h = .ok (false, s) := by
  rw [handleGrab, if_neg (hslot ▸ Bool.false_ne_true)]
  rfl

theorem handleRetire_of_handle {c : Context} (hc : (s.service h).context = some c)
    (hslot : (s.service h).slot = true)
    (hhandle : c.handle = h) : s.handleRetire h =
      .ok (s.setService h { s.service h with slot := false, grabbed := (s.service h).grabbed + 1 }) := by
  rw [handleRetire, if_pos hslot, context_eq hc]
  exact if_pos hhandle

theorem handleRetire_of_ne {c : Context} (hc : (s.service h).context = some c)
    (hslot : (s.service h).slot = true)
    (hhandle : c.handle ≠ h) : s.handleRetire h = .ok s := by
  rw [handleRetire, if_pos hslot, context_eq hc]
  exact if_neg hhandle

theorem handleRetire_of_not_slot (hslot : (s.service h).slot = false) : s.handleRetire h = .ok s := by
  rw [handleRetire, if_neg (hslot ▸ Bool.false_ne_true)]
  rfl

theorem count_le_out (s : Node M n) (l : List ℕ) (h : ℕ) : l.count h ≤ s.out l h :=
  (Nat.le_add_right _ _).trans (Nat.le_add_right _ _)

/-- A service whose queue is elsewhere is not in the global queue. -/
theorem Sound.not_mem (hs : s.Sound l) (hplace : l.count h < s.out l h + s.drops h) : h ∉ l := by
  intro hmem
  have hplaces := (hs.ok h).places
  have hcount := List.count_pos_iff.mpr hmem
  have hle := s.count_le_out l h
  omega

/-- The result of an event, when nothing goes wrong. The queues of `l` stay in front of the global queue. -/
def Good (l : List ℕ) (r : Except Fault (Node M n)) : Prop := ∃ s' l', r = .ok s' ∧ l <+: l' ∧ s'.Sound l'

/-! ## The workers -/

variable {i : Fin n} {weight : ℤ} {q : ℕ}

/-- The queue that a worker has. -/
theorem Sound.held (hs : s.Sound l) {w : Worker M} (hw : s.worker i = w) (hq : q ∈ w.queues) :
    l.count q < s.out l q ∧ ∃ mq, (s.service q).queue = some mq := by
  have hpos := count_pos Worker.queues s (i := i) (hw ▸ hq)
  have hout : s.out l q = l.count q + s.count Worker.queues q + (s.service q).launch.holds := rfl
  exact ⟨by omega, (hs.ok q).exists_queue (by omega)⟩

/-- The context that a worker has grabbed. -/
theorem Sound.grabbed (hs : s.Sound l) {w : Worker M} (hw : s.worker i = w) (hq : q ∈ w.contexts) :
    ∃ c, (s.service q).context = some c ∧ c.init = true ∧ 0 < s.refs q := by
  have hpos := count_pos Worker.contexts s (i := i) (hw ▸ hq)
  have hrefs : s.refs q = s.count Worker.contexts q + (s.service q).launch.refs + (s.service q).grabbed := rfl
  obtain ⟨c, hc⟩ := (hs.ok q).exists_context (Or.inr (Or.inl (by omega)))
  exact ⟨c, hc, hs.launched q c hc (Or.inr hpos), by omega⟩

theorem Sound.idle (hs : s.Sound l) (hw : s.worker i = .idle) : Good l.tail (s.workerStep weight i) := by
  rw [workerStep, hw]
  dsimp only
  rw [globalmqPop_eq hs.stands]
  have hstands := hs.stands.pop.2
  cases l with
  | nil =>
      have hpop : s.globalmq.pop.2 = s.globalmq := by
        rw [LinkedQueue.pop, show s.globalmq.head = none from hs.stands.head_eq]
      refine ⟨_, [], rfl, List.prefix_rfl, ?_⟩
      dsimp only
      rw [hpop, setWorker, List.head?_nil, Option.elim_none, ← hw, Function.update_eq_self]
      exact hs
  | cons q l =>
      refine ⟨_, l, rfl, List.prefix_rfl, ?_⟩
      obtain ⟨mq, hmq⟩ := (hs.ok q).exists_queue (by rw [out, List.count_cons_self]; omega)
      refine hs.work hw rfl (Function.update_eq_self q s.service).symm rfl hstands
        (fun h hne => ⟨?_, rfl, rfl⟩) rfl rfl
        (hmq ▸ Option.some_ne_none mq) (hs.ok q) ?_ rfl rfl (fun c hc => ⟨c.ref, hc⟩) (Or.inl le_rfl)
      · simp [Worker.queues, hne.symm]
      · simp [Worker.queues]
        omega

theorem Launch.holds_of_early {l : Launch} (h : l.early = true) (hmade : l.unmade = false) : l.holds = 1 := by
  cases l with
  | init | started | mark | failed | retire => rfl
  | register | mqCreate => exact absurd hmade.symm Bool.false_ne_true
  | idle | push | log | orphan | drop => exact absurd h Bool.false_ne_true

/-- A service whose queue a worker has is launched. -/
theorem Sound.not_early (hs : s.Sound l) {w : Worker M} (hw : s.worker i = w) (hq : q ∈ w.queues) :
    (s.service q).launch.early = false := by
  have hpos := count_pos Worker.queues s (i := i) (hw ▸ hq)
  have hout : s.out l q = l.count q + s.count Worker.queues q + (s.service q).launch.holds := rfl
  have hplaces := (hs.ok q).places
  obtain ⟨-, mq, hmq⟩ := hs.held hw hq
  by_contra hearly
  have hholds := Launch.holds_of_early (Bool.not_eq_false _ ▸ hearly)
    ((hs.made q).made_of_queue (hmq ▸ Option.some_ne_none mq))
  omega

theorem Sound.grab (hs : s.Sound l) (hw : s.worker i = .grab q) : Good l (s.workerStep weight i) := by
  obtain ⟨-, mq, hmq⟩ := hs.held hw List.mem_cons_self
  have hqueue : (s.service q).queue ≠ none := hmq ▸ Option.some_ne_none mq
  rw [workerStep, hw]
  dsimp only
  rw [queue_eq hmq]
  cases hslot : (s.service q).slot with
  | true =>
      obtain ⟨c, hc⟩ := (hs.ok q).exists_context (Or.inl hslot)
      have hmade := (hs.made q).made_of_queue hqueue
      rw [handleGrab_of_handle hc hslot ((hs.made q).handle_eq_self hc (Service.Made.ne_register hmade))]
      refine ⟨_, l, rfl, List.prefix_rfl, ?_⟩
      refine hs.work hw rfl rfl rfl hs.stands (fun h hne => ⟨rfl, ?_, rfl⟩) rfl rfl hqueue
        ((hs.ok q).grab hc hslot)
        rfl ?_ rfl ?_ (Or.inr ⟨hslot, hs.not_early hw List.mem_cons_self⟩)
      · simp [Worker.contexts, hne.symm]
      · simp [Worker.contexts]
      · rintro _ ⟨rfl⟩
        exact ⟨c.ref, hc⟩
  | false =>
      rw [handleGrab_of_not_slot hslot]
      refine ⟨_, l, rfl, List.prefix_rfl, ?_⟩
      exact hs.work hw rfl (Function.update_eq_self q s.service).symm rfl hs.stands
        (fun h hne => ⟨rfl, rfl, rfl⟩) rfl
        rfl hqueue (hs.ok q) rfl rfl rfl (fun c hc => ⟨c.ref, hc⟩) (Or.inl le_rfl)

theorem Sound.orphan (hs : s.Sound l) (hw : s.worker i = .orphan q) : Good l (s.workerStep weight i) := by
  obtain ⟨hplace, mq, hmq⟩ := hs.held hw List.mem_cons_self
  have hqueue : (s.service q).queue ≠ none := hmq ▸ Option.some_ne_none mq
  rw [workerStep, hw]
  dsimp only
  cases hrelease : mq.release with
  | true =>
      have hok := hs.ok q
      obtain ⟨out, hout⟩ : ∃ out, s.out l q = out + 1 := Nat.exists_eq_add_one.mpr (by omega)
      rw [hout] at hok
      rw [mqRelease_of_release hmq hrelease]
      refine ⟨_, l, rfl, List.prefix_rfl, hs.work hw rfl (Function.update_eq_self q s.service).symm rfl hs.stands
        (fun h hne => ⟨?_, rfl, ?_⟩) rfl rfl hqueue (hok.startDrop hmq hrelease) ?_ rfl ?_
          (fun c hc => ⟨c.ref, hc⟩)
        (Or.inl le_rfl)⟩
      · simp [Worker.queues, hne.symm]
      · simp [Worker.dropping, hne.symm]
      · simp [Worker.queues]
        omega
      · simp [Worker.dropping]
  | false =>
      have hstands := hs.stands.push (hs.not_mem (Nat.lt_add_right _ hplace))
      rw [mqRelease_of_not_release hmq hrelease hs.stands (hs.not_mem (Nat.lt_add_right _ hplace))]
      refine ⟨_, l ++ [q], rfl, List.prefix_append _ _, hs.work hw rfl
        (Function.update_eq_self q s.service).symm rfl hstands
        (fun h hne => ⟨?_, rfl, rfl⟩) rfl rfl hqueue (hs.ok q) ?_ rfl rfl (fun c hc => ⟨c.ref, hc⟩)
          (Or.inl le_rfl)⟩
      · simp [Worker.queues, hne.symm]
      · simp [Worker.queues]
        omega

theorem Sound.drop (hs : s.Sound l) (hw : s.worker i = .drop q) : Good l (s.workerStep weight i) := by
  have hpos : 0 < s.count Worker.dropping q := count_pos Worker.dropping s (by rw [hw]; exact List.mem_cons_self)
  have hdrops : s.drops q = s.count Worker.dropping q + (s.service q).launch.drops := rfl
  have hok := hs.ok q
  obtain ⟨mq, hmq⟩ := hok.exists_queue (by omega)
  have hqueue : (s.service q).queue ≠ none := hmq ▸ Option.some_ne_none mq
  have hring := hok.ring mq hmq
  rw [workerStep, hw]
  dsimp only
  cases hcontents : mq.contents with
  | cons m ms =>
      rw [hcontents] at hring
      obtain ⟨mq', hpop, hring', hrelease, hflag⟩ := MessageQueue.pop_cons hring
      have hcontents' : mq'.contents = ms := hring'.contents_eq
      rw [dropRound_of_cons hmq hpop]
      exact ⟨_, l, rfl, List.prefix_rfl, hs.work hw rfl rfl rfl hs.stands (fun h hne => ⟨rfl, rfl, rfl⟩)
        rfl rfl hqueue
        (hok.setQueue hmq (by omega) hrelease hflag (hcontents' ▸ hring')) rfl rfl rfl (fun c hc => ⟨c.ref, hc⟩)
        (Or.inl le_rfl)⟩
  | nil =>
      rw [hcontents] at hring
      obtain ⟨drops, hdrops'⟩ : ∃ drops, s.drops q = drops + 1 := Nat.exists_eq_add_one.mpr (by omega)
      have hmem : q ∉ l := hs.not_mem (Nat.lt_of_le_of_lt (s.count_le_out l q) (by omega))
      rw [hdrops'] at hok
      rw [dropRound_of_nil hmq (MessageQueue.pop_nil hring) hs.stands hmem]
      refine ⟨_, l, rfl, List.prefix_rfl, hs.work hw rfl rfl rfl hs.stands (fun h hne => ⟨rfl, rfl, ?_⟩) rfl
        rfl hqueue hok.free
        rfl rfl ?_ (fun c hc => ⟨c.ref, hc⟩) (Or.inl le_rfl)⟩
      · simp [Worker.dropping, hne.symm]
      · simp [Worker.dropping]
        omega

theorem Sound.pop {k rounds : ℕ} (hs : s.Sound l) (hw : s.worker i = .pop q k rounds) :
    Good l (s.workerStep weight i) := by
  obtain ⟨hplace, mq, hmq⟩ := hs.held hw List.mem_cons_self
  have hqueue : (s.service q).queue ≠ none := hmq ▸ Option.some_ne_none mq
  obtain ⟨c, hc, -, hrefs⟩ := hs.grabbed hw List.mem_cons_self
  have hok := hs.ok q
  have hring := hok.ring mq hmq
  rw [workerStep, hw]
  dsimp only
  rw [queue_eq hmq]
  dsimp only [bind, Except.bind]
  cases hcontents : mq.contents with
  | cons m ms =>
      -- the worker keeps the queue and the context, and has a message
      rw [hcontents] at hring
      obtain ⟨mq', hpop, hring', hrelease, hflag⟩ := MessageQueue.pop_cons hring
      have hcontents' : mq'.contents = ms := hring'.contents_eq
      rw [hpop]
      refine ⟨_, l, rfl, List.prefix_rfl, hs.work hw rfl rfl rfl hs.stands (fun h hne => ?_) rfl rfl hqueue
        (hok.setQueue hmq (by omega) hrelease hflag (hcontents' ▸ hring')) ?_ ?_ ?_ (fun c hc => ⟨c.ref, hc⟩)
        (Or.inl ?_)⟩
      all_goals split_ifs
      all_goals simp [Worker.queues, Worker.contexts, Worker.dropping]
  | nil =>
      -- the queue rests, and the worker lets the context go
      rw [hcontents] at hring
      obtain ⟨out, hout⟩ : ∃ out, s.out l q = out + 1 := Nat.exists_eq_add_one.mpr (by omega)
      have hrelease := hok.release_eq_false hc hmq
      rw [hout] at hok
      rw [MessageQueue.pop_nil hring]
      have hrest : ({ s.service q with
          queue := some { mq with overloadThreshold := 1024, inGlobal := false } } : Service M).Ok out (s.refs q)
            (s.drops q) := hok.rest hc hrelease rfl hring.contents_eq hring
      refine ⟨_, l, rfl, List.prefix_rfl, hs.work hw rfl ?_ rfl hs.stands (fun h hne => ⟨?_, ?_, rfl⟩)
        ?_ ?_ hqueue
        (hrest.congr (s.service q).launch ((s.service q).grabbed + 1)) ?_ ?_ rfl (fun c hc => ⟨c.ref, hc⟩)
          (Or.inl ?_)⟩
      · simp [setWorker, letGo, setQueue, setService]
      · simp [Worker.queues, hne.symm]
      · simp [Worker.contexts, hne.symm]
      · rfl
      · rfl
      · simp [Worker.queues]
        omega
      · simp [Worker.contexts]
        omega
      · simp [Worker.contexts]

theorem Sound.measure {m : M} (hs : s.Sound l) (hw : s.worker i = .measure q m) :
    Good l (s.workerStep weight i) := by
  obtain ⟨-, mq, hmq⟩ := hs.held hw List.mem_cons_self
  rw [workerStep, hw]
  dsimp only
  rw [queue_eq hmq]
  refine ⟨_, l, rfl, List.prefix_rfl, ?_⟩
  exact hs.work hw rfl (Function.update_eq_self q s.service).symm rfl hs.stands
    (fun h hne => ⟨rfl, rfl, rfl⟩) rfl rfl
    (hmq ▸ Option.some_ne_none mq) (hs.ok q) rfl rfl rfl (fun c hc => ⟨c.ref, hc⟩) (Or.inl le_rfl)

theorem Sound.dispatch {m : M} {k rounds : ℕ} (hs : s.Sound l) (hw : s.worker i = .dispatch q m k rounds) :
    Good l (s.workerStep weight i) := by
  obtain ⟨hplace, mq, hmq⟩ := hs.held hw List.mem_cons_self
  obtain ⟨c, hc, hinit, -⟩ := hs.grabbed hw List.mem_cons_self
  rw [workerStep, hw]
  dsimp only
  rw [queue_eq hmq, context_eq hc]
  have hok : ({ s.service q with queue := some { mq with overload := 0 } } : Service M).Ok (s.out l q) (s.refs q)
      (s.drops q) := (hs.ok q).setQueue hmq (by omega) rfl rfl ((hs.ok q).ring mq hmq)
  dsimp only [bind, Except.bind]
  rw [if_pos hinit]
  refine ⟨_, l, rfl, List.prefix_rfl, hs.work hw rfl rfl rfl hs.stands (fun h hne => ?_) rfl rfl
    (hmq ▸ Option.some_ne_none mq) hok
    ?_ ?_ ?_ (fun c hc => ⟨c.ref, hc⟩) (Or.inl ?_)⟩
  all_goals split_ifs
  all_goals simp [Worker.queues, Worker.contexts, Worker.dropping]

theorem Sound.leave (hs : s.Sound l) (hw : s.worker i = .leave q) : Good l.tail (s.workerStep weight i) := by
  obtain ⟨hplace, mq, hmq⟩ := hs.held hw List.mem_cons_self
  have hqueue : (s.service q).queue ≠ none := hmq ▸ Option.some_ne_none mq
  obtain ⟨c, hc, -⟩ := hs.grabbed hw List.mem_cons_self
  rw [workerStep, hw]
  dsimp only
  rw [context_eq hc]
  dsimp only [bind, Except.bind]
  rw [if_pos ((hs.made q).queue_eq_some hc ((hs.made q).made_of_queue hqueue)), globalmqPop_eq hs.stands]
  have hstands := hs.stands.pop.2
  cases l with
  | nil =>
      refine ⟨_, [], rfl, List.prefix_rfl, hs.work hw rfl rfl rfl hstands (fun h hne => ⟨rfl, ?_, rfl⟩)
        rfl rfl hqueue
        ((hs.ok q).congr _ _) rfl ?_ rfl (fun c hc => ⟨c.ref, hc⟩) (Or.inl ?_)⟩
      · simp [Worker.contexts, hne.symm]
      · simp [Worker.contexts]
        omega
      · simp [Worker.contexts]
  | cons nq l =>
      have hne : nq ≠ q := fun hnq => hs.not_mem (Nat.lt_add_right _ hplace) (hnq ▸ List.mem_cons_self)
      refine ⟨_, l, rfl, List.prefix_rfl, hs.work hw rfl (Function.update_eq_self q s.service).symm rfl hstands
        (fun h hh => ⟨?_, rfl, rfl⟩) rfl rfl hqueue (hs.ok q) ?_ rfl rfl (fun c hc => ⟨c.ref, hc⟩)
          (Or.inl le_rfl)⟩
      · simp [Worker.queues, hh.symm, List.count_cons]
      · simp [Worker.queues, hne]

theorem Sound.handBack {nq : ℕ} (hs : s.Sound l) (hw : s.worker i = .handBack q nq) :
    Good l (s.workerStep weight i) := by
  obtain ⟨hplace, mq, hmq⟩ := hs.held hw List.mem_cons_self
  have hmem : q ∉ l := hs.not_mem (Nat.lt_add_right _ hplace)
  rw [workerStep, hw]
  dsimp only
  rw [globalmqPush_eq hs.stands hmem]
  refine ⟨_, l ++ [q], rfl, List.prefix_append _ _, hs.work hw rfl rfl rfl (hs.stands.push hmem)
    (fun h hne => ⟨?_, ?_, rfl⟩) rfl rfl
    (hmq ▸ Option.some_ne_none mq) ((hs.ok q).congr _ _) ?_ ?_ rfl (fun c hc => ⟨c.ref, hc⟩) (Or.inl ?_)⟩
  · simp [Worker.queues, hne.symm, List.count_cons]
  · simp [Worker.contexts, hne.symm]
  · simp [Worker.queues, List.count_cons]
    omega
  · simp [Worker.contexts]
    omega
  · simp [Worker.contexts]

/-- **A worker's step.** -/
theorem Sound.workerStep (hs : s.Sound l) (weight : ℤ) (i : Fin n) :
    Good (if (s.worker i).takes then l.tail else l) (s.workerStep weight i) := by
  cases hw : s.worker i with
  | idle => exact hs.idle hw
  | grab q => exact hs.grab hw
  | orphan q => exact hs.orphan hw
  | drop q => exact hs.drop hw
  | pop q k rounds => exact hs.pop hw
  | measure q m => exact hs.measure hw
  | dispatch q m k rounds => exact hs.dispatch hw
  | leave q => exact hs.leave hw
  | handBack q nq => exact hs.handBack hw

/-! ## The other threads -/

/-- A handle that is not used. -/
theorem Sound.unused (hs : s.Sound l) (hle : s.handleIndex ≤ h) :
    l.count h = 0 ∧ s.count Worker.queues h = 0 ∧ s.count Worker.contexts h = 0 ∧
      s.count Worker.dropping h = 0 := by
  have hok := hs.ok h
  rw [out, refs, drops, hs.fresh h hle] at hok
  obtain ⟨-, hplace⟩ := hok.freed rfl
  obtain ⟨-, hrefs, -⟩ := hok.gone rfl
  omega

theorem Sound.register (hs : s.Sound l) (hle : s.handleIndex ≤ h) :
    ({ s with handleIndex := h + 1, service := Function.update s.service h .register } : Node M n).Sound l := by
  obtain ⟨hlist, hqueues, hcontexts, hdropping⟩ := hs.unused hle
  have hpos := hs.index_pos
  refine ⟨hs.stands, fun k => ?_, fun k => ?_, fun k => ?_, fun k hk => ?_, Nat.succ_pos h⟩
  · rcases eq_or_ne k h with rfl | hne
    · simp only [out, refs, drops, Function.update_self]
      change Service.register.Ok (l.count k + s.count Worker.queues k + 0) (s.count Worker.contexts k + 1 + 0)
        (s.count Worker.dropping k + 0)
      rw [hlist, hqueues, hcontexts, hdropping]
      exact Service.Ok.register
    · simp only [out, refs, drops, Function.update_of_ne hne]
      exact hs.ok k
  · rcases eq_or_ne k h with rfl | hne
    · simp only [Function.update_self]
      exact Service.Made.registered (by omega)
    · simp only [Function.update_of_ne hne]
      exact hs.made k
  · rcases eq_or_ne k h with rfl | hne
    · simp only [Function.update_self]
      rintro c - (⟨-, hearly⟩ | hpos)
      · exact absurd hearly.symm Bool.false_ne_true
      · exact absurd hcontexts hpos.ne'
    · simp only [Function.update_of_ne hne]
      exact hs.launched k
  · have hne : k ≠ h := by
      rintro rfl
      exact Nat.not_succ_le_self k hk
    show Function.update s.service h .register k = .blank
    rw [Function.update_of_ne hne]
    exact hs.fresh k (hle.trans (Nat.le_of_succ_le hk))

/-- The thread that launches a service, while it has the queue. -/
theorem Sound.launching (hs : s.Sound l) (hl : 0 < (s.service h).launch.holds) :
    h ∉ l ∧ (∃ mq, (s.service h).queue = some mq) ∧ h < s.handleIndex := by
  have hout : s.out l h = l.count h + s.count Worker.queues h + (s.service h).launch.holds := rfl
  obtain ⟨mq, hmq⟩ := (hs.ok h).exists_queue (by omega)
  exact ⟨hs.not_mem (by omega), ⟨mq, hmq⟩, hs.used (hmq ▸ Option.some_ne_none mq)⟩

/-- The queue of a service is made when the launching thread has it. -/
theorem Launch.made_of_holds {l : Launch} (h : l.holds = 1) : l.unmade = false := by
  cases l with
  | init | started | mark | push | failed | retire | orphan => rfl
  | idle | register | mqCreate | log | drop => cases h

/-- It goes on without a look at the service. -/
theorem Sound.setLaunch (hs : s.Sound l) (hk : h < s.handleIndex) {x : Launch}
    (hmade : (s.service h).launch.unmade = false) (hx : x.unmade = false)
    (hholds : x.holds = (s.service h).launch.holds) (hrefs : x.refs = (s.service h).launch.refs)
    (hdrops : x.drops = (s.service h).launch.drops)
    (hearly : x.early = false → (s.service h).slot = true → (s.service h).launch.early = false) :
    (s.setLaunch h x).Sound l := by
  refine hs.other hk rfl rfl rfl hs.stands (fun _ _ => rfl) ((hs.ok h).congr x (s.service h).grabbed) ?_ ?_ ?_
    ((hs.made h).later hmade hx fun c hc => ⟨c, hc, rfl, rfl⟩) ?_
  · rw [← hholds]
  · rw [← hrefs]
  · rw [← hdrops]
  · rintro c hc (⟨hslot, hx⟩ | hpos)
    · exact hs.launched h c hc (Or.inl ⟨hslot, hearly hx hslot⟩)
    · exact hs.launched h c hc (Or.inr hpos)

theorem Sound.initReturns (hs : s.Sound l) (hl : (s.service h).launch = .init) (ok : Bool) :
    (s.setLaunch h (if ok then .started else .failed)).Sound l := by
  obtain ⟨-, -, hk⟩ := hs.launching (h := h) (by rw [hl]; exact Nat.one_pos)
  cases ok with
  | true =>
      exact hs.setLaunch hk (by rw [hl]; rfl) rfl (by rw [hl]; rfl) (by rw [hl]; rfl) (by rw [hl]; rfl)
        (fun h => absurd h.symm Bool.false_ne_true)
  | false =>
      exact hs.setLaunch hk (by rw [hl]; rfl) rfl (by rw [hl]; rfl) (by rw [hl]; rfl) (by rw [hl]; rfl)
        (fun h => absurd h.symm Bool.false_ne_true)

/-- The reference of the launching thread is given back. -/
theorem Sound.launchRelease (hs : s.Sound l) (hrefs : (s.service h).launch.refs = 1)
    (hholds : (s.service h).launch.holds = 1) (hdrops : (s.service h).launch.drops = 0) (x : Bool → Launch)
    (hx : ∀ last, (x last).refs = 0 ∧ (x last).holds = 1 ∧ (x last).drops = 0)
    (hearly : (x false).early = true) :
    ∃ r, s.contextRelease h = .ok r ∧ (r.2.setLaunch h (x r.1)).Sound l := by
  have hrefs' : s.refs h = s.count Worker.contexts h + (s.service h).launch.refs + (s.service h).grabbed := rfl
  have hok := hs.ok h
  obtain ⟨c, hc⟩ := hok.exists_context (Or.inr (Or.inl (by omega)))
  obtain ⟨-, -, hk⟩ := hs.launching (h := h) (by omega)
  obtain ⟨refs, hrefs''⟩ : ∃ refs, s.refs h = refs + 1 := Nat.exists_eq_add_one.mpr (by omega)
  have href := hok.ref_eq c hc
  rw [hrefs''] at hok
  obtain ⟨hxr, hxh, hxd⟩ := hx (decide (c.ref - 1 = 0))
  refine ⟨_, contextRelease_eq hc, hs.other hk ?_ rfl rfl hs.stands (fun _ _ => rfl)
    ((hok.giveBack hc).congr (x (decide (c.ref - 1 = 0))) (s.service h).grabbed) ?_ ?_ ?_
    ((hs.made h).later (Launch.made_of_holds hholds) (Launch.made_of_holds hxh) ?_) ?_⟩
  · simp [Node.setLaunch, setService]
  · show _ = _ + _ + (x (decide (c.ref - 1 = 0))).holds
    omega
  · show _ = _ + (x (decide (c.ref - 1 = 0))).refs + (s.service h).grabbed
    omega
  · show _ = _ + (x (decide (c.ref - 1 = 0))).drops
    omega
  · rintro _ ⟨rfl⟩
    exact ⟨c, hc, rfl, rfl⟩
  · rintro _ ⟨rfl⟩ (⟨hslot, hlast⟩ | hpos)
    · -- the slot still refers to the context
      have hslot : (s.service h).slot = true := hslot
      rw [hslot, Bool.toNat_true] at href
      have hne : decide (c.ref - 1 = 0) = false := decide_eq_false (by omega)
      have hlast : (x (decide (c.ref - 1 = 0))).early = false := hlast
      rw [hne, hearly] at hlast
      exact absurd hlast.symm Bool.false_ne_true
    · exact hs.launched h c hc (Or.inr hpos)

/-- The queue goes to the global queue. -/
theorem Sound.launchPush (hs : s.Sound l) (hholds : (s.service h).launch.holds = 1)
    (hrefs : (s.service h).launch.refs = 0) (hdrops : (s.service h).launch.drops = 0) {x : Launch}
    (hx : x.holds = 0 ∧ x.refs = 0 ∧ x.drops = 0) (hmade : x.unmade = false)
    (hready : ∀ c, (s.service h).context = some c → (s.service h).slot = true → c.init = true) :
    (({ s with globalmq := s.globalmq.push h } : Node M n).setLaunch h x).Sound (l ++ [h]) := by
  obtain ⟨hmem, -, hk⟩ := hs.launching (h := h) (by omega)
  obtain ⟨hxh, hxr, hxd⟩ := hx
  refine hs.other hk rfl rfl rfl (hs.stands.push hmem) (fun k hne => ?_)
    ((hs.ok h).congr x (s.service h).grabbed) ?_ ?_ ?_
    ((hs.made h).later (Launch.made_of_holds hholds) hmade fun c hc => ⟨c, hc, rfl, rfl⟩) ?_
  · simp [hne.symm]
  · show _ = _ + _ + x.holds
    rw [List.count_append, List.count_singleton_self]
    omega
  · show _ = _ + x.refs + (s.service h).grabbed
    omega
  · show _ = _ + x.drops
    omega
  · rintro c hc (⟨hslot, -⟩ | hpos)
    · exact hready c hc hslot
    · exact hs.launched h c hc (Or.inr hpos)

variable {r : Except Fault (Node M n)}

theorem Sound.launchRegister (hs : s.Sound l) (hl : (s.service h).launch = .register)
    (hr : s.launchStep h = some r) : Good l r := by
  rw [Node.launchStep, hl] at hr
  obtain rfl := Option.some.inj hr
  have hrefs : s.refs h = s.count Worker.contexts h + 1 + (s.service h).grabbed := by
    rw [refs, hl]
    rfl
  obtain ⟨c, hc⟩ := (hs.ok h).exists_context (Or.inr (Or.inl (by omega)))
  have hqueue : c.queue = none := by
    rw [(hs.made h).queue_eq c hc, hl]
    rfl
  rw [context_eq hc]
  refine ⟨_, l, rfl, List.prefix_rfl, hs.other (hs.used_of_context hc) rfl rfl rfl hs.stands (fun _ _ => rfl)
    (((hs.ok h).setHandle hc h).congr .mqCreate (s.service h).grabbed) ?_ ?_ ?_ ⟨?_, ?_, ?_, ?_⟩ ?_⟩
  · rw [hl]
    rfl
  · rw [hl]
    rfl
  · rw [hl]
    rfl
  · rintro _ ⟨rfl⟩
    rfl
  · rintro _ ⟨rfl⟩
    exact hqueue
  · exact fun _ => (hs.made h).unmade (by rw [hl]; rfl)
  · exact fun h => by cases h
  · rintro _ ⟨rfl⟩ (⟨-, hearly⟩ | hpos)
    · exact absurd hearly.symm Bool.false_ne_true
    · exact hs.launched h c hc (Or.inr hpos)

theorem Sound.launchMqCreate (hs : s.Sound l) (hl : (s.service h).launch = .mqCreate)
    (hr : s.launchStep h = some r) : Good l r := by
  rw [Node.launchStep, hl] at hr
  obtain rfl := Option.some.inj hr
  have hrefs : s.refs h = s.count Worker.contexts h + 1 + (s.service h).grabbed := by
    rw [refs, hl]
    rfl
  obtain ⟨c, hc⟩ := (hs.ok h).exists_context (Or.inr (Or.inl (by omega)))
  have hqueue : (s.service h).queue = none := (hs.made h).unmade (by rw [hl]; rfl)
  have hhandle : c.handle = h := (hs.made h).handle_eq_self hc (by rw [hl]; exact fun h => by cases h)
  rw [context_eq hc]
  dsimp only [bind, Except.bind]
  rw [hhandle]
  refine ⟨_, l, rfl, List.prefix_rfl, hs.other (hs.used_of_context hc) ?_ rfl rfl hs.stands (fun _ _ => rfl)
    (((hs.ok h).mqCreate hc hqueue h).congr .init (s.service h).grabbed) ?_ ?_ ?_ ⟨?_, ?_, ?_, ?_⟩ ?_⟩
  · simp [setQueue, setService, hhandle]
  · rw [hl]
    show _ + 1 + _ + 0 = _ + _ + 1
    omega
  · rw [hl]
    rfl
  · rw [hl]
    rfl
  · rintro _ ⟨rfl⟩
    exact hhandle
  · rintro _ ⟨rfl⟩
    rfl
  · exact fun h => by cases h
  · exact fun h => by cases h
  · rintro _ ⟨rfl⟩ (⟨-, hearly⟩ | hpos)
    · exact absurd hearly.symm Bool.false_ne_true
    · exact hs.launched h c hc (Or.inr hpos)

theorem Sound.launchStarted (hs : s.Sound l) (hl : (s.service h).launch = .started)
    (hr : s.launchStep h = some r) : Good l r := by
  rw [Node.launchStep, hl] at hr
  obtain rfl := Option.some.inj hr
  obtain ⟨r, hrelease, hsound⟩ := hs.launchRelease (h := h) (by rw [hl]; rfl) (by rw [hl]; rfl) (by rw [hl]; rfl)
    (fun last => if last then .push false else .mark) (by intro last; cases last <;> exact ⟨rfl, rfl, rfl⟩) rfl
  rw [hrelease]
  exact ⟨_, l, rfl, List.prefix_rfl, hsound⟩

theorem Sound.launchMark (hs : s.Sound l) (hl : (s.service h).launch = .mark)
    (hr : s.launchStep h = some r) : Good l r ∨ r = .error .freedContext ∧ (s.service h).context = none := by
  rw [Node.launchStep, hl] at hr
  obtain rfl := Option.some.inj hr
  obtain ⟨-, -, hk⟩ := hs.launching (h := h) (by rw [hl]; exact Nat.one_pos)
  cases hc : (s.service h).context with
  | none =>
      rw [context_eq_none hc]
      exact Or.inr ⟨rfl, rfl⟩
  | some c =>
      rw [context_eq hc]
      refine Or.inl ⟨_, l, rfl, List.prefix_rfl, hs.other hk rfl rfl rfl hs.stands (fun _ _ => rfl)
        (((hs.ok h).mark hc).congr (.push true) (s.service h).grabbed) ?_ ?_ ?_
        ((hs.made h).later (by rw [hl]; rfl) rfl ?_) ?_⟩
      · rw [hl]
        rfl
      · rw [hl]
        rfl
      · rw [hl]
        rfl
      · rintro _ ⟨rfl⟩
        exact ⟨c, hc, rfl, rfl⟩
      · rintro _ ⟨rfl⟩ -
        rfl

theorem Sound.launchPushed (hs : s.Sound l) {ret : Bool} (hl : (s.service h).launch = .push ret)
    (hr : s.launchStep h = some r) : Good l r := by
  rw [Node.launchStep, hl] at hr
  obtain rfl := Option.some.inj hr
  obtain ⟨hmem, -, -⟩ := hs.launching (h := h) (by rw [hl]; exact Nat.one_pos)
  have hready : ∀ c, (s.service h).context = some c → (s.service h).slot = true → c.init = true :=
    fun c hc hslot => hs.launched h c hc (Or.inl ⟨hslot, by rw [hl]; rfl⟩)
  rw [globalmqPush_eq hs.stands hmem]
  exact ⟨_, _, rfl, List.prefix_append _ _, hs.launchPush (by rw [hl]; rfl) (by rw [hl]; rfl) (by rw [hl]; rfl)
    (by cases ret <;> exact ⟨rfl, rfl, rfl⟩) (by cases ret <;> rfl) hready⟩

theorem Sound.launchLog (hs : s.Sound l) (hl : (s.service h).launch = .log)
    (hr : s.launchStep h = some r) : Good l r ∨ r = .error .freedContext ∧ (s.service h).context = none := by
  rw [Node.launchStep, hl] at hr
  obtain rfl := Option.some.inj hr
  cases hc : (s.service h).context with
  | none =>
      rw [context_eq_none hc]
      exact Or.inr ⟨rfl, rfl⟩
  | some c =>
      rw [context_eq hc]
      exact Or.inl ⟨_, l, rfl, List.prefix_rfl, hs.setLaunch (hs.used_of_context hc) (by rw [hl]; rfl) rfl
        (by rw [hl]; rfl) (by rw [hl]; rfl) (by rw [hl]; rfl) (fun _ _ => by rw [hl]; rfl)⟩

theorem Sound.launchFailed (hs : s.Sound l) (hl : (s.service h).launch = .failed)
    (hr : s.launchStep h = some r) : Good l r := by
  rw [Node.launchStep, hl] at hr
  obtain rfl := Option.some.inj hr
  obtain ⟨r, hrelease, hsound⟩ := hs.launchRelease (h := h) (by rw [hl]; rfl) (by rw [hl]; rfl) (by rw [hl]; rfl)
    (fun _ => .retire) (fun _ => ⟨rfl, rfl, rfl⟩) rfl
  rw [hrelease]
  exact ⟨_, l, rfl, List.prefix_rfl, hsound⟩

theorem Sound.launchRetire (hs : s.Sound l) (hl : (s.service h).launch = .retire)
    (hr : s.launchStep h = some r) : Good l r := by
  rw [Node.launchStep, hl] at hr
  obtain rfl := Option.some.inj hr
  obtain ⟨-, -, hk⟩ := hs.launching (h := h) (by rw [hl]; exact Nat.one_pos)
  cases hslot : (s.service h).slot with
  | false =>
      rw [handleRetire_of_not_slot hslot]
      exact ⟨_, l, rfl, List.prefix_rfl, hs.setLaunch hk (by rw [hl]; rfl) rfl (by rw [hl]; rfl)
        (by rw [hl]; rfl)
        (by rw [hl]; rfl) (fun _ h => absurd (hslot.symm.trans h) Bool.false_ne_true)⟩
  | true =>
      obtain ⟨c, hc⟩ := (hs.ok h).exists_context (Or.inl hslot)
      rw [handleRetire_of_handle hc hslot
        ((hs.made h).handle_eq_self hc (by rw [hl]; exact fun h => by cases h))]
      refine ⟨_, l, rfl, List.prefix_rfl, hs.other hk (by simp [Node.setLaunch, setService]) rfl rfl hs.stands
        (fun _ _ => rfl) (((hs.ok h).retire hslot).congr .orphan ((s.service h).grabbed + 1)) ?_ ?_ ?_
        ((hs.made h).later (by rw [hl]; rfl) rfl fun c hc => ⟨c, hc, rfl, rfl⟩) ?_⟩
      · rw [hl]
        rfl
      · rw [hl]
        show s.refs h + 1 + 0 + _ = s.refs h + 0 + (_ + 1)
        omega
      · rw [hl]
        rfl
      · rintro c hc (⟨hslot, -⟩ | hpos)
        · exact absurd hslot Bool.false_ne_true
        · exact hs.launched h c hc (Or.inr hpos)

theorem Sound.launchOrphan (hs : s.Sound l) (hl : (s.service h).launch = .orphan)
    (hr : s.launchStep h = some r) : Good l r := by
  rw [Node.launchStep, hl] at hr
  obtain rfl := Option.some.inj hr
  obtain ⟨hmem, ⟨mq, hmq⟩, hk⟩ := hs.launching (h := h) (by rw [hl]; exact Nat.one_pos)
  have hready : ∀ c, (s.service h).context = some c → (s.service h).slot = true → c.init = true :=
    fun c hc hslot => hs.launched h c hc (Or.inl ⟨hslot, by rw [hl]; rfl⟩)
  cases hrelease : mq.release with
  | false =>
      rw [mqRelease_of_not_release hmq hrelease hs.stands hmem]
      exact ⟨_, _, rfl, List.prefix_append _ _, hs.launchPush (by rw [hl]; rfl) (by rw [hl]; rfl)
        (by rw [hl]; rfl)
        ⟨rfl, rfl, rfl⟩ rfl hready⟩
  | true =>
      have hout : s.out l h = l.count h + s.count Worker.queues h + 1 := by
        rw [out, hl]
        rfl
      have hok := hs.ok h
      rw [hout] at hok
      rw [mqRelease_of_release hmq hrelease]
      refine ⟨_, l, rfl, List.prefix_rfl, hs.other hk rfl rfl rfl hs.stands (fun _ _ => rfl)
        ((hok.startDrop hmq hrelease).congr .drop (s.service h).grabbed) ?_ ?_ ?_
        ((hs.made h).later (by rw [hl]; rfl) rfl fun c hc => ⟨c, hc, rfl, rfl⟩) ?_⟩
      · rw [hl, hout]
        show _ + _ + 1 = _ + _ + 0
        omega
      · rw [hl]
        rfl
      · rw [hl]
        rfl
      · rintro c hc (⟨hslot, -⟩ | hpos)
        · exact hready c hc hslot
        · exact hs.launched h c hc (Or.inr hpos)

theorem Sound.launchDrop (hs : s.Sound l) (hl : (s.service h).launch = .drop)
    (hr : s.launchStep h = some r) : Good l r := by
  rw [Node.launchStep, hl] at hr
  obtain rfl := Option.some.inj hr
  have hdrops : s.drops h = s.count Worker.dropping h + 1 := by
    rw [drops, hl]
    rfl
  have hok := hs.ok h
  obtain ⟨mq, hmq⟩ := hok.exists_queue (by omega)
  have hk := hs.used (hmq ▸ Option.some_ne_none mq)
  have hring := hok.ring mq hmq
  cases hcontents : mq.contents with
  | cons m ms =>
      rw [hcontents] at hring
      obtain ⟨mq', hpop, hring', hrelease, hflag⟩ := MessageQueue.pop_cons hring
      have hcontents' : mq'.contents = ms := hring'.contents_eq
      rw [dropRound_of_cons hmq hpop]
      refine ⟨_, l, rfl, List.prefix_rfl, hs.other hk (by simp [Node.setLaunch, setQueue, setService]) rfl
        rfl hs.stands
        (fun _ _ => rfl) ((hok.setQueue hmq (by omega) hrelease hflag (hcontents' ▸ hring')).congr .drop
        (s.service h).grabbed) ?_ ?_ ?_ ((hs.made h).later (by rw [hl]; rfl) rfl fun c hc => ⟨c, hc, rfl, rfl⟩)
        (fun c hc _ => ?_)⟩
      · rw [hl]
      · rw [hl]
      · rw [hl]
      · exact absurd (hok.dropping (by omega)) (hc ▸ Option.some_ne_none c)
  | nil =>
      have hmem : h ∉ l := hs.not_mem (Nat.lt_of_le_of_lt (s.count_le_out l h) (by omega))
      rw [hcontents] at hring
      rw [hdrops] at hok
      rw [dropRound_of_nil hmq (MessageQueue.pop_nil hring) hs.stands hmem]
      refine ⟨_, l, rfl, List.prefix_rfl, hs.other hk (by simp [Node.setLaunch, setService]) rfl rfl hs.stands
        (fun _ _ => rfl) (hok.free.congr .idle (s.service h).grabbed) ?_ ?_ ?_
        ((hs.made h).later (by rw [hl]; rfl) rfl fun c hc => ⟨c, hc, rfl, rfl⟩) (fun c hc _ => ?_)⟩
      · rw [hl]
        rfl
      · rw [hl]
        rfl
      · rw [hl, hdrops]
        rfl
      · exact absurd (hok.dropping (Nat.succ_pos _)) (hc ▸ Option.some_ne_none c)

/-- **A step of the thread that launches a service.** -/
theorem Sound.launchStep (hs : s.Sound l)
    (hr : s.launchStep h = some r) : Good l r ∨ r = .error .freedContext ∧ (s.service h).context = none ∧
      ((s.service h).launch = .mark ∨ (s.service h).launch = .log) := by
  cases hl : (s.service h).launch with
  | idle | init =>
      rw [Node.launchStep, hl] at hr
      exact absurd hr (Option.some_ne_none r).symm
  | register => exact Or.inl (hs.launchRegister hl hr)
  | mqCreate => exact Or.inl (hs.launchMqCreate hl hr)
  | started => exact Or.inl (hs.launchStarted hl hr)
  | mark => exact (hs.launchMark hl hr).imp_right fun ⟨hr, hc⟩ => ⟨hr, hc, Or.inl rfl⟩
  | push ret => exact Or.inl (hs.launchPushed hl hr)
  | log => exact (hs.launchLog hl hr).imp_right fun ⟨hr, hc⟩ => ⟨hr, hc, Or.inr rfl⟩
  | failed => exact Or.inl (hs.launchFailed hl hr)
  | retire => exact Or.inl (hs.launchRetire hl hr)
  | orphan => exact Or.inl (hs.launchOrphan hl hr)
  | drop => exact Or.inl (hs.launchDrop hl hr)

/-- What `skynet_handle_retire` and `skynet_handle_grab` find. -/
theorem Sound.found (hs : s.Sound l) {c : Context} (hc : (s.service h).context = some c) :
    c.handle = h ↔ (s.service h).launch ≠ .register := by
  constructor
  · intro hhandle hl
    have hzero := (hs.made h).handle_eq c hc
    rw [if_pos hl] at hzero
    exact ((hs.made h).register hl).2 (hhandle.symm.trans hzero)
  · exact (hs.made h).handle_eq_self hc

theorem Sound.retire (hs : s.Sound l) (h : ℕ) : Good l (s.handleRetire h) := by
  cases hslot : (s.service h).slot with
  | false =>
      rw [handleRetire_of_not_slot hslot]
      exact ⟨s, l, rfl, List.prefix_rfl, hs⟩
  | true =>
      obtain ⟨c, hc⟩ := (hs.ok h).exists_context (Or.inl hslot)
      by_cases hl : (s.service h).launch = .register
      · rw [handleRetire_of_ne hc hslot (fun hhandle => (hs.found hc).mp hhandle hl)]
        exact ⟨s, l, rfl, List.prefix_rfl, hs⟩
      rw [handleRetire_of_handle hc hslot ((hs.found hc).mpr hl)]
      refine ⟨_, l, rfl, List.prefix_rfl, hs.other (hs.used_of_context hc) rfl rfl rfl hs.stands (fun _ _ => rfl)
        (((hs.ok h).retire hslot).congr (s.service h).launch ((s.service h).grabbed + 1)) rfl ?_ rfl
        ((hs.made h).congr rfl id (fun h => absurd h hl) fun c hc => ⟨c, hc, rfl, rfl⟩) ?_⟩
      · show s.refs h + 1 + _ + _ = s.refs h + (s.service h).launch.refs + ((s.service h).grabbed + 1)
        omega
      · rintro c hc (⟨hslot, -⟩ | hpos)
        · exact absurd hslot Bool.false_ne_true
        · exact hs.launched h c hc (Or.inr hpos)

theorem Sound.grabOther (hs : s.Sound l) (weight : Fin n → ℤ) (h : ℕ)
    (hr : s.perform weight (.grab h) = some r) :
    Good l r := by
  obtain rfl := Option.some.inj hr
  cases hslot : (s.service h).slot with
  | false =>
      rw [handleGrab_of_not_slot hslot]
      exact ⟨s, l, rfl, List.prefix_rfl, hs⟩
  | true =>
      obtain ⟨c, hc⟩ := (hs.ok h).exists_context (Or.inl hslot)
      by_cases hl : (s.service h).launch = .register
      · rw [handleGrab_of_ne hc hslot (fun hhandle => (hs.found hc).mp hhandle hl)]
        exact ⟨s, l, rfl, List.prefix_rfl, hs⟩
      rw [handleGrab_of_handle hc hslot ((hs.found hc).mpr hl)]
      refine ⟨_, l, rfl, List.prefix_rfl, hs.other (hs.used_of_context hc) ?_ rfl rfl hs.stands (fun _ _ => rfl)
        (((hs.ok h).grab hc hslot).congr (s.service h).launch ((s.service h).grabbed + 1)) rfl ?_ rfl
        ((hs.made h).congr rfl id (fun h => absurd h hl) ?_) ?_⟩
      · simp [letGo, setService]
      · show s.refs h + 1 + _ + _ = s.refs h + (s.service h).launch.refs + ((s.service h).grabbed + 1)
        omega
      · rintro _ ⟨rfl⟩
        exact ⟨c, hc, rfl, rfl⟩
      · rintro _ ⟨rfl⟩ hready
        exact hs.launched h c hc hready

/-- A thread that has a reference to the context. -/
theorem Sound.referring (hs : s.Sound l) (hgrabbed : 0 < (s.service h).grabbed) :
    0 < s.refs h ∧ ∃ c, (s.service h).context = some c := by
  have hrefs : s.refs h = s.count Worker.contexts h + (s.service h).launch.refs + (s.service h).grabbed := rfl
  exact ⟨by omega, (hs.ok h).exists_context (Or.inr (Or.inl (by omega)))⟩

/-- The queue of a context that somebody has grabbed. -/
theorem Sound.contextQueue (hs : s.Sound l) (hl : (s.service h).launch.unmade = false) {c : Context}
    (hc : (s.service h).context = some c) :
    s.contextQueue h = .ok h ∧ ∃ mq, (s.service h).queue = some mq ∧ mq.release = false := by
  have hset := (hs.made h).queue_eq_some hc hl
  exact ⟨contextQueue_eq hc hset, (hs.ok h).queue_of_context hc (hset ▸ Option.some_ne_none h)⟩

theorem Sound.mqPush (hs : s.Sound l) (hl : (s.service h).launch.unmade = false) {c : Context}
    (hc : (s.service h).context = some c) (m : M) : Good l (s.mqPush h m) := by
  have hok := hs.ok h
  obtain ⟨-, mq, hmq, hrelease⟩ := hs.contextQueue hl hc
  have hk := hs.used_of_context hc
  have hring := MessageQueue.pushMessage_stands (hok.ring mq hmq) m
  have hcontents : (mq.pushMessage m).contents = mq.contents ++ [m] := hring.contents_eq
  have hmade : ∀ q, ({ s.service h with queue := some q } : Service M).Made h := fun q =>
    (hs.made h).later hl hl fun c hc => ⟨c, hc, rfl, rfl⟩
  rw [Node.mqPush, queue_eq hmq]
  dsimp only [bind, Except.bind]
  split_ifs with hflag
  · exact ⟨_, l, rfl, List.prefix_rfl, hs.other hk rfl rfl rfl hs.stands (fun _ _ => rfl)
      (hok.setQueue hmq (hok.somewhere hmq hflag) rfl rfl (hcontents ▸ hring)) rfl rfl rfl (hmade _)
      (hs.launched h)⟩
  · -- the queue rests
    have hnowhere := hok.nowhere hmq (Bool.eq_false_iff.mpr hflag) hrelease
    have hle := s.count_le_out l h
    have hmem : h ∉ l := List.count_eq_zero.mp (by omega)
    have hwake : s.out l h = 0 ∧ s.drops h = 0 := by omega
    rw [hwake.1, hwake.2] at hok
    rw [globalmqPush_eq (s := s.setQueue h { mq.pushMessage m with inGlobal := true }) hs.stands hmem]
    refine ⟨_, l ++ [h], rfl, List.prefix_append _ _, hs.other hk rfl rfl rfl (hs.stands.push hmem)
      (fun k hne => ?_)
      (hok.wake hc hrelease rfl (hcontents ▸ hring)) ?_ rfl ?_ (hmade _) (hs.launched h)⟩
    · simp [hne.symm]
    · rw [List.count_append, List.count_singleton_self, hwake.1]
      show 1 + _ + _ = 0 + (_ + 1) + (s.service h).launch.holds
      omega
    · rw [hwake.2]

/-- A launch at which nobody has grabbed the context. -/
theorem Sound.ne_register (hs : s.Sound l) (hgrabbed : 0 < (s.service h).grabbed) :
    (s.service h).launch ≠ .register :=
  fun hl => hgrabbed.ne' ((hs.made h).register hl).1

theorem Sound.push (hs : s.Sound l) (weight : Fin n → ℤ) {m : M} (hgrabbed : 0 < (s.service h).grabbed)
    (hr : s.perform weight (.push h m) = some r) :
    Good l r ∨ r = .error .unsetQueue ∧ (s.service h).launch = .mqCreate := by
  rw [perform, if_pos hgrabbed] at hr
  obtain rfl := Option.some.inj hr
  obtain ⟨-, c, hc⟩ := hs.referring hgrabbed
  cases hl : (s.service h).launch with
  | register => exact absurd hl (hs.ne_register hgrabbed)
  | mqCreate =>
      have hnone : c.queue = none := by
        rw [(hs.made h).queue_eq c hc, hl]
        rfl
      rw [contextQueue_eq_none hc hnone]
      exact Or.inr ⟨rfl, rfl⟩
  | idle | init | started | mark | push | log | failed | retire | orphan | drop =>
      have hmade : (s.service h).launch.unmade = false := by rw [hl]; rfl
      rw [(hs.contextQueue hmade hc).1]
      exact Or.inl (hs.mqPush hmade hc m)

theorem Sound.release (hs : s.Sound l) (weight : Fin n → ℤ) (hgrabbed : 0 < (s.service h).grabbed)
    (hr : s.perform weight (.release h) = some r) : Good l r := by
  rw [perform, if_pos hgrabbed] at hr
  obtain rfl := Option.some.inj hr
  obtain ⟨hpos, c, hc⟩ := hs.referring hgrabbed
  have hok := hs.ok h
  obtain ⟨refs, hrefs⟩ : ∃ refs, s.refs h = refs + 1 := Nat.exists_eq_add_one.mpr hpos
  rw [hrefs] at hok
  rw [contextRelease_eq hc]
  refine ⟨_, l, rfl, List.prefix_rfl, hs.other (hs.used_of_context hc) ?_ rfl rfl hs.stands (fun _ _ => rfl)
    ((hok.giveBack hc).congr (s.service h).launch ((s.service h).grabbed - 1)) rfl ?_ rfl
    ((hs.made h).congr rfl id (fun hl => absurd hl (hs.ne_register hgrabbed)) ?_) ?_⟩
  · simp [setService]
  · show _ = _ + (s.service h).launch.refs + ((s.service h).grabbed - 1)
    omega
  · rintro _ ⟨rfl⟩
    exact ⟨c, hc, rfl, rfl⟩
  · rintro _ ⟨rfl⟩ hready
    exact hs.launched h c hc hready

/-- A context that is deleted has a queue: the thread that launches it has given back its reference. -/
theorem Sound.made_of_deleting (hs : s.Sound l) (hdel : (s.service h).deleting = true) :
    (s.service h).launch.unmade = false := by
  obtain ⟨c, hc⟩ := (hs.ok h).exists_context (Or.inr (Or.inr hdel))
  have hzero := ((hs.ok h).deleting_iff c hc).mp hdel
  rw [(hs.ok h).ref_eq c hc] at hzero
  have hrefs : s.refs h = s.count Worker.contexts h + (s.service h).launch.refs + (s.service h).grabbed := rfl
  cases hl : (s.service h).launch with
  | register | mqCreate =>
      rw [hl] at hrefs
      dsimp only [Launch.refs] at hrefs
      omega
  | idle | init | started | mark | push | log | failed | retire | orphan | drop => rfl

theorem Sound.delete (hs : s.Sound l) (hdel : (s.service h).deleting = true) : Good l (s.deleteContext h) := by
  have hok := hs.ok h
  obtain ⟨c, hc⟩ := hok.exists_context (Or.inr (Or.inr hdel))
  have hl := hs.made_of_deleting hdel
  obtain ⟨hset, mq, hmq, hrelease⟩ := hs.contextQueue hl hc
  have hk := hs.used_of_context hc
  have hdelete := hok.delete hc hmq hdel
  have hmade : ∀ q,
      ({ s.service h with context := none, queue := some q, deleting := false } : Service M).Made h :=
    fun q => (hs.made h).later hl hl fun c hc => absurd hc (Option.some_ne_none c).symm
  rw [deleteContext, hset]
  dsimp only [bind, Except.bind]
  rw [mqMarkRelease, queue_eq hmq]
  dsimp only [bind, Except.bind]
  rw [if_neg (hrelease ▸ Bool.false_ne_true)]
  split_ifs with hflag
  · rw [if_pos hflag] at hdelete
    exact ⟨_, l, rfl, List.prefix_rfl, hs.other hk (by simp [setQueue, setService]) rfl rfl hs.stands
      (fun _ _ => rfl)
      hdelete rfl rfl rfl (hmade _) (fun c hc => absurd hc (Option.some_ne_none c).symm)⟩
  · -- the queue rests
    have hnowhere := hok.nowhere hmq (Bool.eq_false_iff.mpr hflag) hrelease
    have hle := s.count_le_out l h
    have hmem : h ∉ l := List.count_eq_zero.mp (by omega)
    rw [if_neg hflag] at hdelete
    rw [globalmqPush_eq (s := s.setQueue h { mq with release := true }) hs.stands hmem]
    refine ⟨_, l ++ [h], rfl, List.prefix_append _ _, hs.other hk (by simp [setQueue, setService]) rfl rfl
      (hs.stands.push hmem) (fun k hne => ?_) hdelete ?_ rfl rfl (hmade _)
      (fun c hc => absurd hc (Option.some_ne_none c).symm)⟩
    · simp [hne.symm]
    · rw [List.count_append, List.count_singleton_self]
      show _ + 1 + _ + _ = _ + (_ + 1) + (s.service h).launch.holds
      omega

/-- An event that goes wrong. -/
inductive Wrong (s : Node M n) : Event M n → Fault → Prop
  /-- `skynet_context_new` looks at the context that it has launched, when that is deleted. -/
  | deleted {h : ℕ} (hc : (s.service h).context = none)
      (hl : (s.service h).launch = .mark ∨ (s.service h).launch = .log) : Wrong s (.launch h) .freedContext
  /-- A message is pushed to a service that is registered, and whose queue is not made yet. -/
  | unset {h : ℕ} {m : M} (hgrabbed : 0 < (s.service h).grabbed) (hl : (s.service h).launch = .mqCreate) :
      Wrong s (.push h m) .unsetQueue

/-- **Every event keeps what holds**, or it goes wrong in one of two ways. -/
theorem Sound.perform (hs : s.Sound l) (weight : Fin n → ℤ) {e : Event M n} (hr : s.perform weight e = some r) :
    Good (if s.takes e then l.tail else l) r ∨ ∃ f, r = .error f ∧ s.Wrong e f := by
  cases e with
  | launch h => exact (hs.launchStep hr).imp_right fun ⟨hr, hc, hl⟩ => ⟨_, hr, .deleted hc hl⟩
  | register h =>
      rw [Node.perform, Node.register] at hr
      split_ifs at hr with hle
      obtain rfl := Option.some.inj hr
      exact Or.inl ⟨_, l, rfl, List.prefix_rfl, hs.register hle.1⟩
  | initReturns h ok =>
      have hl : (s.service h).launch = .init := by
        by_contra hl
        rw [Node.perform, if_neg hl] at hr
        exact absurd hr (Option.some_ne_none r).symm
      rw [Node.perform, if_pos hl] at hr
      obtain rfl := Option.some.inj hr
      exact Or.inl ⟨_, l, rfl, List.prefix_rfl, hs.initReturns hl ok⟩
  | retire h =>
      obtain rfl := Option.some.inj hr
      exact Or.inl (hs.retire h)
  | grab h => exact Or.inl (hs.grabOther weight h hr)
  | push h m =>
      have hgrabbed : 0 < (s.service h).grabbed := by
        by_contra hnone
        rw [Node.perform, if_neg hnone] at hr
        exact absurd hr (Option.some_ne_none r).symm
      exact (hs.push weight hgrabbed hr).imp_right fun ⟨hr, hl⟩ => ⟨_, hr, .unset hgrabbed hl⟩
  | release h =>
      have hgrabbed : 0 < (s.service h).grabbed := by
        by_contra hnone
        rw [Node.perform, if_neg hnone] at hr
        exact absurd hr (Option.some_ne_none r).symm
      exact Or.inl (hs.release weight hgrabbed hr)
  | delete h =>
      rw [Node.perform] at hr
      split_ifs at hr with hdel
      obtain rfl := Option.some.inj hr
      exact Or.inl (hs.delete hdel)
  | worker i =>
      obtain rfl := Option.some.inj hr
      exact Or.inl (hs.workerStep (weight i) i)

/-! ## Every run -/

theorem sound_start : (start : Node M n).Sound [] := by
  have hcount : ∀ has : Worker M → List ℕ, has .idle = [] → ∀ h, (start : Node M n).count has h = 0 :=
    fun has hidle h => Finset.sum_eq_zero fun i _ => by
      rw [show (start : Node M n).worker i = .idle from rfl, hidle]; rfl
  refine ⟨LinkedQueue.stands_empty, fun h => ?_, Service.Made.blank,
    fun h c hc => absurd hc (Option.some_ne_none c).symm, fun _ _ => rfl, Nat.one_pos⟩
  rw [out, refs, drops, hcount _ rfl, hcount _ rfl, hcount _ rfl]
  exact Service.Ok.blank

theorem sound_run {weight : Fin n → ℤ} {tr : List (Node M n × Event M n)} (hrun : Run (step weight) start tr s) :
    ∃ l, s.Sound l := by
  refine hrun.invariant (P := fun _ s => ∃ l, s.Sound l) ⟨[], sound_start⟩ ?_
  rintro - s e s' - ⟨l, hs⟩ hstep
  obtain ⟨r, hr, hok⟩ := Option.bind_eq_some_iff.mp hstep
  rcases hs.perform weight hr with ⟨s'', l', rfl, -, hs'⟩ | ⟨f, rfl, -⟩
  · obtain rfl := Option.some.inj hok
    exact ⟨l', hs'⟩
  · exact absurd hok (Option.some_ne_none s').symm

end Node

/-! ## One place -/

/-- The queues that a worker has. -/
def Worker.hands (w : Worker M) : List ℕ := w.queues ++ w.dropping

/-- Where the queue of a service may be. -/
inductive Place (n : ℕ)
  /-- With the thread that launches the service. -/
  | launch
  /-- In the global queue. -/
  | globalmq
  /-- With a worker. -/
  | worker (i : Fin n)

namespace Node

variable {n : ℕ} {s : Node M n} {l : List ℕ} {h : ℕ}

/-- The queue of `h` is in a place. -/
def At (s : Node M n) (h : ℕ) : Place n → Prop
  | .launch => 0 < (s.service h).launch.holds + (s.service h).launch.drops
  | .globalmq => s.globalmq.Has h
  | .worker i => h ∈ (s.worker i).hands

theorem out_add_drops (s : Node M n) (l : List ℕ) (h : ℕ) :
    s.out l h + s.drops h =
      l.count h + s.count Worker.hands h + ((s.service h).launch.holds + (s.service h).launch.drops) := by
  have hhands : s.count Worker.hands h = s.count Worker.queues h + s.count Worker.dropping h := by
    rw [count, count, count, ← Finset.sum_add_distrib]
    exact Finset.sum_congr rfl fun i _ => List.count_append
  rw [out, drops, hhands]
  omega

/-- What two workers have. -/
theorem count_pair (has : Worker M → List ℕ) (s : Node M n) {i j : Fin n} (hij : i ≠ j)
    (hi : h ∈ has (s.worker i))
    (hj : h ∈ has (s.worker j)) : 2 ≤ s.count has h := by
  have hpair : ∑ k ∈ {i, j}, (has (s.worker k)).count h ≤ s.count has h :=
    Finset.sum_le_sum_of_subset (Finset.subset_univ _)
  rw [Finset.sum_pair hij] at hpair
  have hi := List.count_pos_iff.mpr hi
  have hj := List.count_pos_iff.mpr hj
  omega

/-- A queue has no second place. -/
theorem Sound.at_unique (hs : s.Sound l) {p p' : Place n} (hp : s.At h p) (hp' : s.At h p') : p = p' := by
  -- all places together are one at most
  have hplaces := (hs.ok h).places
  rw [out_add_drops] at hplaces
  have hglobal : s.At h .globalmq → 0 < l.count h := fun h => List.count_pos_iff.mpr (hs.stands.has_iff.mp h)
  have hworker : ∀ i, s.At h (.worker i) → 0 < s.count Worker.hands h := fun i => s.count_pos Worker.hands
  cases p with
  | launch =>
      have hp : 0 < (s.service h).launch.holds + (s.service h).launch.drops := hp
      cases p' with
      | launch => rfl
      | globalmq =>
          have hp' := hglobal hp'
          omega
      | worker i =>
          have hp' := hworker i hp'
          omega
  | globalmq =>
      have hp := hglobal hp
      cases p' with
      | launch =>
          have hp' : 0 < (s.service h).launch.holds + (s.service h).launch.drops := hp'
          omega
      | globalmq => rfl
      | worker i =>
          have hp' := hworker i hp'
          omega
  | worker i =>
      cases p' with
      | launch =>
          have hp' : 0 < (s.service h).launch.holds + (s.service h).launch.drops := hp'
          have hp := hworker i hp
          omega
      | globalmq =>
          have hp' := hglobal hp'
          have hp := hworker i hp
          omega
      | worker j =>
          by_contra hne
          have hpair := count_pair Worker.hands s (fun hij => hne (congrArg _ hij)) hp hp'
          omega

/-- A queue that has a place. -/
theorem Sound.exists_at (hs : s.Sound l) (hplace : 0 < s.out l h + s.drops h) : ∃ p, s.At h p := by
  rw [out_add_drops] at hplace
  by_cases hlaunch : 0 < (s.service h).launch.holds + (s.service h).launch.drops
  · exact ⟨.launch, hlaunch⟩
  by_cases hglobal : 0 < l.count h
  · exact ⟨.globalmq, hs.stands.has_iff.mpr (List.count_pos_iff.mp hglobal)⟩
  · have hworkers : 0 < ∑ i, ((s.worker i).hands).count h := by
      have hcount : s.count Worker.hands h = ∑ i, ((s.worker i).hands).count h := rfl
      omega
    obtain ⟨i, -, hi⟩ := Finset.exists_ne_zero_of_sum_ne_zero hworkers.ne'
    exact ⟨.worker i, List.count_pos_iff.mp (Nat.pos_of_ne_zero hi)⟩

end Node

end FrameSync.Skynet
