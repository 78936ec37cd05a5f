import FrameSync.Foundations.Run
import FrameSync.Server.TimerObject
import Mathlib.Data.List.Nodup

/-! # Timer registrations

The runs of a timer object: its methods are called in any order, also by callbacks, which `f` calls
last, and the timeouts under way fire in any order. A registration is numbered by `m_TimerNo`, so the
log of the registrations of a run tells for each closure what it was made for, and the log of all calls
tells which registration of a handle is the latest and was not removed (`current`). The table, the
timeouts under way and the number of times each callback ran are determined by these logs (`Kept`), from
which the laws of the registrations are read off (`timer_laws`). The timers of a service
(`globaldefines.lua`) are a second copy of the same functions; they do the same on every sequence of
calls and timeouts (`toTimers_runFrom`). -/

namespace FrameSync

/-- What happens to a timer object. -/
inductive TimerEvent (ν φ : Type)
  /-- `AddTimer` is called. -/
  | addTimer (ti : ℤ) (func : φ) (handle : Option (Handle ν)) (count : Option ℤ)
  /-- `RemoveTimer` is called. -/
  | removeTimer (handle : Handle ν)
  /-- `RemoveAllTimers` is called. -/
  | removeAllTimers
  /-- A timeout fires. -/
  | fire (t : Timeout ν φ)

/-- What `AddTimer` registers. -/
structure Registration (ν φ : Type) where
  /-- The handle that it returns. -/
  handle : Handle ν
  /-- `func` -/
  func : φ
  /-- How often it runs; unset for ever. -/
  count : Option ℕ

namespace Timers

variable {ν φ : Type} [DecidableEq ν]

/-- `RemoveAllTimers` -/
def removeAllTimers (s : Timers ν φ) : Timers ν φ := { s with object := s.object.removeAllTimers }

/-- What an event registers. `AddTimer` asserts that the time is not negative. -/
def registering (s : Timers ν φ) : TimerEvent ν φ → Option (Registration ν φ)
  | .addTimer ti func handle count =>
      if 0 ≤ ti then
        some ⟨handle.getD (.default s.object.timerDefaultHdl), func, TimerObject.countOf count⟩
      else none
  | .removeTimer _ | .removeAllTimers | .fire _ => none

/-- The registrations of a run, by number. -/
def registered (tr : List (Timers ν φ × TimerEvent ν φ)) : List (Registration ν φ) :=
  tr.flatMap fun x => (x.1.registering x.2).toList

/-- The numbers of the latest registrations after an event, unless they were removed. -/
def track (current : Handle ν → Option ℕ) (x : Timers ν φ × TimerEvent ν φ) : Handle ν → Option ℕ :=
  match x.1.registering x.2 with
  | some r => Function.update current r.handle (some x.1.object.timerNo)
  | none =>
      match x.2 with
      | .removeTimer handle => Function.update current handle none
      | .removeAllTimers => fun _ => none
      | .addTimer .. | .fire _ => current

/-- The number of the latest registration on each handle, unless it was removed. -/
def current (tr : List (Timers ν φ × TimerEvent ν φ)) : Handle ν → Option ℕ :=
  tr.foldl track fun _ => none

/-- The callback of the registration `k` runs. -/
def ran (k : ℕ) (x : Timers ν φ × TimerEvent ν φ) : Bool :=
  match x.2 with
  | .fire t => t.tno = k && !(x.1.runs t).isEmpty
  | .addTimer .. | .removeTimer _ | .removeAllTimers => false

/-- How often the callback of the registration `k` ran. -/
def runsOf (tr : List (Timers ν φ × TimerEvent ν φ)) (k : ℕ) : ℕ := tr.countP (ran k)

/-- One event. A timeout fires when it is under way. -/
def step [DecidableEq φ] (s : Timers ν φ) : TimerEvent ν φ → Option (Timers ν φ)
  | .addTimer ti func handle count => some (s.addTimer ti func handle count)
  | .removeTimer handle => some (s.removeTimer handle)
  | .removeAllTimers => some s.removeAllTimers
  | .fire t => if t ∈ s.pending then some (s.fire t) else none

/-! ## What a timeout does -/

/-- **A timeout fires**: nothing happens if its registration is not the one in the table. Else the
callback runs, and the timeout is asked for again unless the count is used up. -/
theorem fire_cases [DecidableEq φ] (s : Timers ν φ) (t : Timeout ν φ) :
    (∀ entry, s.object.timerList t.handle = some entry → entry.tno ≠ t.tno) ∧ s.runs t = [] ∧
        s.fire t = ⟨s.object, s.pending.erase t⟩ ∨
      s.object.timerList t.handle = some ⟨t.tno, none⟩ ∧ s.runs t = [t.func] ∧
        s.fire t = ⟨s.object, s.pending.erase t ++ [t]⟩ ∨
      ∃ count, s.object.timerList t.handle = some ⟨t.tno, some count⟩ ∧ s.runs t = [t.func] ∧
        (1 < count ∧ s.fire t = ⟨s.object.setEntry t.handle ⟨t.tno, some (count - 1)⟩,
            s.pending.erase t ++ [t]⟩ ∨
          count ≤ 1 ∧ s.fire t = ⟨s.object.removeTimer t.handle, s.pending.erase t⟩) := by
  rw [fire, runs]
  cases hentry : s.object.timerList t.handle with
  | none =>
      left
      -- removed, or never registered: the closure finds no entry
      rw [TimerObject.fire_of_removed hentry]
      exact ⟨fun entry h => (Option.some_ne_none entry h.symm).elim, rfl, congrArg _ (List.append_nil _)⟩
  | some entry =>
      obtain ⟨tno, count⟩ := entry
      by_cases htno : tno = t.tno
      · -- the entry is the one this timeout was asked for
        subst htno
        right
        cases count with
        | none =>
            left
            rw [TimerObject.fire_forever hentry]
            exact ⟨rfl, rfl, rfl⟩
        | some count =>
            right
            refine ⟨count, rfl, ?_⟩
            rw [TimerObject.fire, hentry]
            dsimp only
            rw [if_neg (not_not.mpr rfl)]
            by_cases hcount : 1 < count
            · rw [if_pos (Nat.sub_pos_of_lt hcount)]
              exact ⟨rfl, Or.inl ⟨hcount, rfl⟩⟩
            · rw [if_neg fun h => hcount (Nat.lt_of_sub_pos h)]
              exact ⟨rfl, Or.inr ⟨Nat.not_lt.mp hcount, congrArg _ (List.append_nil _)⟩⟩
      · left
        rw [TimerObject.fire, hentry]
        dsimp only
        -- the handle was registered again since, under another number
        rw [if_pos htno]
        refine ⟨fun entry h => ?_, rfl, congrArg _ (List.append_nil _)⟩
        obtain rfl := Option.some.inj h
        exact htno

/-! ## The logs -/

section Logs

variable {tr : List (Timers ν φ × TimerEvent ν φ)} {s : Timers ν φ} {e : TimerEvent ν φ}

omit [DecidableEq ν] in
theorem registered_snoc : registered (tr ++ [(s, e)]) = registered tr ++ (s.registering e).toList := by
  rw [registered, List.flatMap_append, List.flatMap_singleton]
  rfl

theorem current_snoc : current (tr ++ [(s, e)]) = track (current tr) (s, e) := by
  rw [current, List.foldl_append]
  rfl

theorem runsOf_snoc (k : ℕ) : runsOf (tr ++ [(s, e)]) k = runsOf tr k + if ran k (s, e) then 1 else 0 := by
  rw [runsOf, List.countP_append, List.countP_singleton]
  rfl

/-- Only a timeout makes a callback run. -/
theorem runsOf_snoc_of_not_fire (h : ∀ t, e ≠ .fire t) (k : ℕ) :
    runsOf (tr ++ [(s, e)]) k = runsOf tr k := by
  have hran : ran k (s, e) = false := by
    cases e with
    | fire t => exact absurd rfl (h t)
    | addTimer | removeTimer | removeAllTimers => rfl
  rw [runsOf_snoc, hran]
  rfl

end Logs

/-- A registration with `count` that has run `runs` times is to run `left` times more. -/
def Remains (count : Option ℕ) (runs : ℕ) (left : Option ℕ) : Prop :=
  count = none ∧ left = none ∨ ∃ c, 0 < c ∧ left = some c ∧ count = some (runs + c)

/-- A new registration is to run as often as it says. -/
theorem remains_countOf (count : Option ℤ) :
    Remains (TimerObject.countOf count) 0 (TimerObject.countOf count) := by
  rw [TimerObject.countOf]
  split_ifs with hpos
  · right
    refine ⟨(count.getD 0).toNat, ?_, rfl, ?_⟩
    · omega
    · rw [Nat.zero_add]
  · exact Or.inl ⟨rfl, rfl⟩

namespace Remains

variable {count left : Option ℕ} {runs : ℕ}

/-- One more run. -/
theorem next (h : Remains count runs left) {left' : Option ℕ}
    (hstep : left = none ∧ left' = none ∨ ∃ c, 0 < c ∧ left = some (c + 1) ∧ left' = some c) :
    Remains count (runs + 1) left' := by
  rcases h with ⟨hcount, hleft⟩ | ⟨c, hpos, hleft, hcount⟩
  · rcases hstep with ⟨-, hleft'⟩ | ⟨c', -, hc', -⟩
    · exact Or.inl ⟨hcount, hleft'⟩
    · exact (Option.some_ne_none _ (hc'.symm.trans hleft)).elim
  · rcases hstep with ⟨hnone, -⟩ | ⟨c', hpos', hc', hleft'⟩
    · exact (Option.some_ne_none _ (hleft.symm.trans hnone)).elim
    · obtain rfl := Option.some.inj (hleft.symm.trans hc')
      refine Or.inr ⟨c', hpos', hleft', ?_⟩
      rw [hcount, Nat.add_right_comm, Nat.add_assoc]

/-- The last run. -/
theorem count_eq (h : Remains count runs left) (hlast : left = some 1) : count = some (runs + 1) := by
  rcases h with ⟨-, hleft⟩ | ⟨c, -, hleft, hcount⟩
  · exact (Option.some_ne_none _ (hlast.symm.trans hleft)).elim
  · obtain rfl := Option.some.inj (hleft.symm.trans hlast)
    exact hcount

/-- There is a run left. -/
theorem succ_le (h : Remains count runs left) {n : ℕ} (hn : count = some n) : runs + 1 ≤ n := by
  rcases h with ⟨hcount, -⟩ | ⟨c, hpos, -, hcount⟩
  · exact (Option.some_ne_none _ (hn.symm.trans hcount)).elim
  · obtain rfl := Option.some.inj (hn.symm.trans hcount)
    exact Nat.add_le_add_left hpos runs

end Remains

/-- A call of `AddTimer` that its assertion lets through. -/
theorem addTimer_eq (s : Timers ν φ) {ti : ℤ} (hti : 0 ≤ ti) (func : φ) (handle : Option (Handle ν))
    (count : Option ℤ) : ∃ hdl, s.addTimer ti func handle count =
      ⟨⟨Function.update s.object.timerList (handle.getD (.default s.object.timerDefaultHdl))
          (some ⟨s.object.timerNo, TimerObject.countOf count⟩), s.object.timerNo + 1, hdl⟩,
        s.pending ++
          [⟨ti, func, handle.getD (.default s.object.timerDefaultHdl), s.object.timerNo⟩]⟩ := by
  rw [Timers.addTimer]
  cases handle with
  | none =>
      rw [TimerObject.addTimer, if_pos hti]
      exact ⟨s.object.timerDefaultHdl + 1, rfl⟩
  | some handle =>
      rw [TimerObject.addTimer, if_pos hti]
      exact ⟨s.object.timerDefaultHdl, rfl⟩

/-- **What the logs of a run say of the object.** -/
structure Kept (tr : List (Timers ν φ × TimerEvent ν φ)) (s : Timers ν φ) : Prop where
  /-- The registrations are numbered one after the other. -/
  timerNo : s.object.timerNo = (registered tr).length
  /-- An entry is the latest registration on its handle, and its timeout is under way. -/
  entry : ∀ h e, s.object.timerList h = some e → current tr h = some e.tno ∧
    (∃ r, (registered tr)[e.tno]? = some r ∧ Remains r.count (runsOf tr e.tno) e.count) ∧
      ∃ t ∈ s.pending, t.tno = e.tno
  /-- A latest registration is one on its handle. If it is not in the table any more it has run as often
  as it should, and no timeout is under way. -/
  latest : ∀ h k, current tr h = some k → ∃ r, (registered tr)[k]? = some r ∧ r.handle = h ∧
    (s.object.timerList h = none →
      r.count = some (runsOf tr k) ∧ ∀ t ∈ s.pending, t.tno ≠ k)
  /-- A timeout under way was asked for by its registration. -/
  closure : ∀ t ∈ s.pending,
    ∃ r, (registered tr)[t.tno]? = some r ∧ r.handle = t.handle ∧ r.func = t.func
  /-- No registration has two timeouts under way. -/
  nodup : (s.pending.map Timeout.tno).Nodup
  /-- No callback runs more often than it should. -/
  atMost : ∀ k r n, (registered tr)[k]? = some r → r.count = some n → runsOf tr k ≤ n
  /-- No callback runs before its registration. -/
  unrun : ∀ k, (registered tr).length ≤ k → runsOf tr k = 0

theorem kept_init : Kept ([] : List (Timers ν φ × TimerEvent ν φ)) init where
  timerNo := rfl
  entry _ e he := (Option.some_ne_none e he.symm).elim
  latest _ k hk := (Option.some_ne_none k hk.symm).elim
  closure _ ht := absurd ht List.not_mem_nil
  nodup := List.nodup_nil
  atMost _ r _ hr := (Option.some_ne_none r (hr.symm.trans List.getElem?_nil)).elim
  unrun _ _ := rfl

namespace Kept

variable {tr : List (Timers ν φ × TimerEvent ν φ)} {s : Timers ν φ}

/-- The number of an entry is that of a registration on its handle. -/
theorem handle_of_entry (hs : Kept tr s) {h : Handle ν} {e : TimerEntry}
    (he : s.object.timerList h = some e) {r : Registration ν φ} (hr : (registered tr)[e.tno]? = some r) :
    r.handle = h := by
  obtain ⟨r', hr', hhandle, -⟩ := hs.latest h e.tno (hs.entry h e he).1
  rw [hr] at hr'
  obtain rfl := Option.some.inj hr'
  exact hhandle

/-- Entries on two handles have two numbers. -/
theorem tno_ne (hs : Kept tr s) {t : Timeout ν φ} (ht : t ∈ s.pending) {h : Handle ν} {e : TimerEntry}
    (he : s.object.timerList h = some e) (hne : h ≠ t.handle) : e.tno ≠ t.tno := by
  obtain ⟨r, hr, hhandle, -⟩ := hs.closure t ht
  intro heq
  rw [← heq] at hr
  exact hne ((hs.handle_of_entry he hr).symm.trans hhandle)

/-- A call of `AddTimer` that its assertion lets through. -/
theorem addTimer (hs : Kept tr s) {ti : ℤ} (hti : 0 ≤ ti) (func : φ) (handle : Option (Handle ν))
    (count : Option ℤ) :
    Kept (tr ++ [(s, .addTimer ti func handle count)]) (s.addTimer ti func handle count) := by
  obtain ⟨h₀, hh₀⟩ : ∃ h₀, h₀ = handle.getD (.default s.object.timerDefaultHdl) := ⟨_, rfl⟩
  have hreg : s.registering (.addTimer ti func handle count)
      = some ⟨h₀, func, TimerObject.countOf count⟩ := by
    rw [hh₀]
    exact if_pos hti
  have hregistered : registered (tr ++ [(s, .addTimer ti func handle count)])
      = registered tr ++ [⟨h₀, func, TimerObject.countOf count⟩] := by
    rw [registered_snoc, hreg]
    rfl
  have hcurrent : current (tr ++ [(s, .addTimer ti func handle count)])
      = Function.update (current tr) h₀ (some s.object.timerNo) := by
    rw [current_snoc, track, hreg]
  have hruns : ∀ k, runsOf (tr ++ [(s, .addTimer ti func handle count)]) k = runsOf tr k :=
    runsOf_snoc_of_not_fire fun _ h => by cases h
  obtain ⟨hdl, hadd⟩ := addTimer_eq s hti func handle count
  rw [← hh₀] at hadd
  -- the old registrations keep their numbers, and the new one gets the next
  have hold : ∀ {k : ℕ} {r : Registration ν φ}, (registered tr)[k]? = some r →
      (registered tr ++ [⟨h₀, func, TimerObject.countOf count⟩])[k]? = some r := by
    intro k r hr
    rw [List.getElem?_append_left (List.getElem?_eq_some_iff.mp hr).1]
    exact hr
  have hnew : (registered tr ++ [⟨h₀, func, TimerObject.countOf count⟩])[s.object.timerNo]?
      = some ⟨h₀, func, TimerObject.countOf count⟩ := by
    rw [hs.timerNo]
    exact List.getElem?_concat_length
  -- so no timeout under way has the new number
  have hlt : ∀ t ∈ s.pending, t.tno < s.object.timerNo := by
    intro t ht
    obtain ⟨r, hr, -⟩ := hs.closure t ht
    rw [hs.timerNo]
    exact (List.getElem?_eq_some_iff.mp hr).1
  rw [hadd]
  refine ⟨?_, fun h e he => ?_, fun h k hk => ?_, fun t ht => ?_, ?_, fun k r n hr hn => ?_, fun k hk => ?_⟩
  · -- `timerNo`
    rw [hregistered, List.length_append, ← hs.timerNo]
    rfl
  · -- `entry`: on the handle `h₀` there is the new one, which has not run yet
    rw [hregistered, hcurrent, hruns]
    dsimp only at he
    by_cases hh : h = h₀
    · subst hh
      rw [Function.update_self] at he ⊢
      obtain rfl := Option.some.inj he
      refine ⟨rfl, ⟨_, hnew, ?_⟩, ⟨ti, func, h, s.object.timerNo⟩, List.mem_append_right _
        List.mem_cons_self, rfl⟩
      rw [hs.unrun _ (Nat.le_of_eq hs.timerNo.symm)]
      exact remains_countOf count
    · rw [Function.update_of_ne hh] at he ⊢
      obtain ⟨hcur, ⟨r, hr, hleft⟩, t, ht, htno⟩ := hs.entry h e he
      exact ⟨hcur, ⟨r, hold hr, hleft⟩, t, List.mem_append_left _ ht, htno⟩
  · -- `latest`: a registration that was replaced has no claim any more
    rw [hregistered, hruns]
    rw [hcurrent] at hk
    by_cases hh : h = h₀
    · subst hh
      rw [Function.update_self] at hk
      obtain rfl := Option.some.inj hk
      refine ⟨_, hnew, rfl, fun hnone => ?_⟩
      dsimp only at hnone
      rw [Function.update_self] at hnone
      exact (Option.some_ne_none _ hnone).elim
    · rw [Function.update_of_ne hh] at hk
      obtain ⟨r, hr, hhandle, hgone⟩ := hs.latest h k hk
      refine ⟨r, hold hr, hhandle, fun hnone => ?_⟩
      dsimp only at hnone
      rw [Function.update_of_ne hh] at hnone
      refine ⟨(hgone hnone).1, fun t ht => ?_⟩
      rcases List.mem_append.mp ht with ht | ht
      · exact (hgone hnone).2 t ht
      · obtain rfl := List.mem_singleton.mp ht
        rw [hs.timerNo]
        exact Nat.ne_of_gt (List.getElem?_eq_some_iff.mp hr).1
  · -- `closure`
    rw [hregistered]
    rcases List.mem_append.mp ht with ht | ht
    · obtain ⟨r, hr, hparts⟩ := hs.closure t ht
      exact ⟨r, hold hr, hparts⟩
    · obtain rfl := List.mem_singleton.mp ht
      exact ⟨_, hnew, rfl, rfl⟩
  · -- `nodup`
    show ((s.pending ++ [_]).map Timeout.tno).Nodup
    rw [List.map_append, List.nodup_append]
    refine ⟨hs.nodup, List.pairwise_singleton _ _, fun k hk k' hk' => ?_⟩
    obtain ⟨t, ht, rfl⟩ := List.mem_map.mp hk
    obtain rfl := List.mem_singleton.mp hk'
    exact Nat.ne_of_lt (hlt t ht)
  · -- `atMost`: the new one has run zero times
    rw [hregistered] at hr
    rw [hruns]
    by_cases hk : k < (registered tr).length
    · rw [List.getElem?_append_left hk] at hr
      exact hs.atMost k r n hr hn
    · rw [hs.unrun k (Nat.not_lt.mp hk)]
      exact Nat.zero_le n
  · -- `unrun`
    rw [hregistered, List.length_append] at hk
    rw [hruns]
    exact hs.unrun k (Nat.le_of_add_right_le hk)

/-- A call that takes entries out of the table, and the latest registrations with them. -/
theorem clear (hs : Kept tr s) {e : TimerEvent ν φ} (hreg : s.registering e = none)
    (hfire : ∀ t, e ≠ .fire t) {s' : Timers ν φ} (hpending : s'.pending = s.pending)
    (hno : s'.object.timerNo = s.object.timerNo)
    (hclear : ∀ h, s'.object.timerList h = s.object.timerList h ∧
        current (tr ++ [(s, e)]) h = current tr h ∨
      s'.object.timerList h = none ∧ current (tr ++ [(s, e)]) h = none) :
    Kept (tr ++ [(s, e)]) s' := by
  have hregistered : registered (tr ++ [(s, e)]) = registered tr := by
    rw [registered_snoc, hreg]
    exact List.append_nil _
  have hruns : ∀ k, runsOf (tr ++ [(s, e)]) k = runsOf tr k := runsOf_snoc_of_not_fire hfire
  refine ⟨?_, fun h entry he => ?_, fun h k hk => ?_, fun t ht => ?_, ?_, fun k r n hr hn => ?_,
    fun k hk => ?_⟩
  · rw [hregistered, hno, hs.timerNo]
  · -- `entry`: an entry that is left is as it was
    rw [hregistered, hruns, hpending]
    rcases hclear h with ⟨htable, hcur⟩ | ⟨htable, -⟩
    · rw [hcur]
      exact hs.entry h entry (htable ▸ he)
    · rw [htable] at he
      exact (Option.some_ne_none entry he.symm).elim
  · -- `latest`: where the entry was taken out, the log forgets the registration as well
    rw [hregistered, hruns, hpending]
    rcases hclear h with ⟨htable, hcur⟩ | ⟨-, hcur⟩
    · rw [htable]
      exact hs.latest h k (hcur ▸ hk)
    · rw [hcur] at hk
      exact (Option.some_ne_none k hk.symm).elim
  · rw [hregistered]
    exact hs.closure t (hpending ▸ ht)
  · rw [hpending]
    exact hs.nodup
  · rw [hregistered] at hr
    rw [hruns]
    exact hs.atMost k r n hr hn
  · rw [hregistered] at hk
    rw [hruns]
    exact hs.unrun k hk

/-- `RemoveTimer` -/
theorem removeTimer (hs : Kept tr s) (handle : Handle ν) :
    Kept (tr ++ [(s, .removeTimer handle)]) (s.removeTimer handle) := by
  refine hs.clear rfl (fun _ h => by cases h) rfl rfl fun h => ?_
  rw [current_snoc]
  show Function.update s.object.timerList handle none h = _ ∧
    Function.update (current tr) handle none h = _ ∨ Function.update s.object.timerList handle none h = _ ∧
      Function.update (current tr) handle none h = _
  by_cases hh : h = handle
  · subst hh
    exact Or.inr ⟨Function.update_self .., Function.update_self ..⟩
  · exact Or.inl ⟨Function.update_of_ne hh .., Function.update_of_ne hh ..⟩

/-- `RemoveAllTimers` -/
theorem removeAllTimers (hs : Kept tr s) :
    Kept (tr ++ [(s, .removeAllTimers)]) s.removeAllTimers := by
  refine hs.clear rfl (fun _ h => by cases h) rfl rfl fun h => Or.inr ⟨rfl, ?_⟩
  rw [current_snoc]
  rfl

/-- A call of `AddTimer` that its assertion stops. -/
theorem addTimer_neg (hs : Kept tr s) {ti : ℤ} (hti : ¬ 0 ≤ ti) (func : φ) (handle : Option (Handle ν))
    (count : Option ℤ) :
    Kept (tr ++ [(s, .addTimer ti func handle count)]) (s.addTimer ti func handle count) := by
  have hsame : s.addTimer ti func handle count = s := by
    rw [Timers.addTimer]
    cases handle with
    | none =>
        rw [TimerObject.addTimer, if_neg hti]
        exact congrArg (Timers.mk s.object) (List.append_nil _)
    | some handle =>
        rw [TimerObject.addTimer, if_neg hti]
        exact congrArg (Timers.mk s.object) (List.append_nil _)
  have hreg : s.registering (.addTimer ti func handle count) = none := if_neg hti
  rw [hsame]
  refine hs.clear hreg (fun _ h => by cases h) rfl rfl fun h => Or.inl ⟨rfl, ?_⟩
  rw [current_snoc, track, hreg]

section Fire

variable [DecidableEq φ] {t : Timeout ν φ}

omit [DecidableEq φ] in
/-- The logs after a timeout. -/
theorem logs_fire (tr : List (Timers ν φ × TimerEvent ν φ)) (s : Timers ν φ) (t : Timeout ν φ) :
    registered (tr ++ [(s, .fire t)]) = registered tr ∧
      current (tr ++ [(s, .fire t)]) = current tr := by
  refine ⟨?_, ?_⟩
  · rw [registered_snoc]
    exact List.append_nil _
  · rw [current_snoc]
    rfl

/-- The other timeouts under way are of other registrations. -/
theorem tno_ne_of_mem_erase (hs : Kept tr s) (ht : t ∈ s.pending) {t' : Timeout ν φ}
    (ht' : t' ∈ s.pending.erase t) : t'.tno ≠ t.tno := by
  have hnodup := ((List.perm_cons_erase ht).map Timeout.tno).nodup hs.nodup
  rw [List.map_cons, List.nodup_cons] at hnodup
  exact fun heq => hnodup.1 (heq ▸ List.mem_map_of_mem ht')

/-- A timeout whose registration is not in the table any more. -/
theorem fire_stale (hs : Kept tr s) (ht : t ∈ s.pending)
    (hstale : ∀ entry, s.object.timerList t.handle = some entry → entry.tno ≠ t.tno)
    (hruns : s.runs t = []) :
    Kept (tr ++ [(s, .fire t)]) ⟨s.object, s.pending.erase t⟩ := by
  obtain ⟨hregistered, hcurrent⟩ := logs_fire tr s t
  have hran : ∀ k, runsOf (tr ++ [(s, .fire t)]) k = runsOf tr k := by
    intro k
    simp [runsOf_snoc, ran, hruns]
  refine ⟨?_, fun h entry he => ?_, fun h k hk => ?_, fun t' ht' => ?_, ?_, fun k r n hr hn => ?_,
    fun k hk => ?_⟩
  · rw [hregistered]
    exact hs.timerNo
  · -- `entry`: the timeout of an entry is not this one, whose entry is gone
    rw [hregistered, hcurrent, hran]
    obtain ⟨hcur, hleft, t', ht', htno⟩ := hs.entry h entry he
    refine ⟨hcur, hleft, t', (List.mem_erase_of_ne fun heq => ?_).mpr ht', htno⟩
    subst heq
    by_cases hh : h = t'.handle
    · subst hh
      exact hstale entry he htno.symm
    · exact hs.tno_ne ht he hh htno.symm
  · -- `latest`: there are fewer timeouts under way than before
    rw [hregistered, hran]
    rw [hcurrent] at hk
    obtain ⟨r, hr, hhandle, hgone⟩ := hs.latest h k hk
    refine ⟨r, hr, hhandle, fun hnone => ⟨(hgone hnone).1, fun t' ht' => ?_⟩⟩
    exact (hgone hnone).2 t' (List.mem_of_mem_erase ht')
  · rw [hregistered]
    exact hs.closure t' (List.mem_of_mem_erase ht')
  · exact hs.nodup.sublist (List.erase_sublist.map _)
  · rw [hregistered] at hr
    rw [hran]
    exact hs.atMost k r n hr hn
  · rw [hregistered] at hk
    rw [hran]
    exact hs.unrun k hk

/-- A timeout whose callback runs: its entry had `left` runs left, and is left with one less in the table
and the timeout under way again, or is gone. -/
theorem fire_run (hs : Kept tr s) (ht : t ∈ s.pending) (hruns : s.runs t = [t.func])
    {left : Option ℕ} (hentry : s.object.timerList t.handle = some ⟨t.tno, left⟩) {s' : Timers ν φ}
    (hno : s'.object.timerNo = s.object.timerNo)
    (hother : ∀ h, h ≠ t.handle → s'.object.timerList h = s.object.timerList h)
    (hnext : (∃ left', s'.object.timerList t.handle = some ⟨t.tno, left'⟩ ∧
        s'.pending = s.pending.erase t ++ [t] ∧
          (left = none ∧ left' = none ∨ ∃ c, 0 < c ∧ left = some (c + 1) ∧ left' = some c)) ∨
      s'.object.timerList t.handle = none ∧ s'.pending = s.pending.erase t ∧ left = some 1) :
    Kept (tr ++ [(s, .fire t)]) s' := by
  obtain ⟨hregistered, hcurrent⟩ := logs_fire tr s t
  -- one callback has run more often than before, that of this registration
  have hran : ∀ k, runsOf (tr ++ [(s, .fire t)]) k = runsOf tr k + if k = t.tno then 1 else 0 := by
    intro k
    by_cases hk : k = t.tno
    · simp [runsOf_snoc, ran, hruns, hk]
    · simp [runsOf_snoc, ran, hk, Ne.symm hk]
  obtain ⟨hcur, ⟨r, hr, hleft⟩, -⟩ := hs.entry t.handle _ hentry
  dsimp only at hr hleft
  -- nothing new is under way
  have hpending : ∀ t' ∈ s'.pending, t' ∈ s.pending := by
    intro t' ht'
    rcases hnext with ⟨-, -, heq, -⟩ | ⟨-, heq, -⟩
    · rw [heq] at ht'
      rcases List.mem_append.mp ht' with ht' | ht'
      · exact List.mem_of_mem_erase ht'
      · exact List.mem_singleton.mp ht' ▸ ht
    · rw [heq] at ht'
      exact List.mem_of_mem_erase ht'
  refine ⟨?_, fun h entry he => ?_, fun h k hk => ?_, fun t' ht' => ?_, ?_, fun k r' n hr' hn => ?_,
    fun k hk => ?_⟩
  · rw [hregistered, hno]
    exact hs.timerNo
  · -- `entry`: on the handle of `t` one run less is left, and `t` is under way again
    rw [hregistered, hcurrent, hran]
    by_cases hh : h = t.handle
    · subst hh
      rcases hnext with ⟨left', htable, hsent, hstep⟩ | ⟨htable, -, -⟩
      · rw [htable] at he
        obtain rfl := Option.some.inj he
        refine ⟨hcur, ⟨r, hr, ?_⟩, t, ?_, rfl⟩
        · dsimp only
          rw [if_pos rfl]
          exact hleft.next hstep
        · rw [hsent]
          exact List.mem_append_right _ List.mem_cons_self
      · rw [htable] at he
        exact (Option.some_ne_none entry he.symm).elim
    · -- an entry on another handle is of another registration, so its timeout is still there
      rw [hother h hh] at he
      obtain ⟨hcur', hleft', t', ht', htno⟩ := hs.entry h entry he
      have hne := hs.tno_ne ht he hh
      rw [if_neg hne, Nat.add_zero]
      have hmem : t' ∈ s.pending.erase t :=
        (List.mem_erase_of_ne fun heq => hne (htno.symm.trans (congrArg Timeout.tno heq))).mpr ht'
      refine ⟨hcur', hleft', t', ?_, htno⟩
      rcases hnext with ⟨-, -, heq, -⟩ | ⟨-, heq, -⟩
      · rw [heq]
        exact List.mem_append_left _ hmem
      · rw [heq]
        exact hmem
  · -- `latest`: if the entry of `t` went out of the table, that was its last run
    rw [hregistered, hran]
    rw [hcurrent] at hk
    obtain ⟨r', hr', hhandle, hgone⟩ := hs.latest h k hk
    refine ⟨r', hr', hhandle, fun hnone => ?_⟩
    by_cases hh : h = t.handle
    · subst hh
      rcases hnext with ⟨left', htable, -, -⟩ | ⟨-, hsent, hlast⟩
      · rw [htable] at hnone
        exact (Option.some_ne_none _ hnone).elim
      · -- the only timeout of this registration was `t` itself
        obtain rfl : k = t.tno := Option.some.inj (hk.symm.trans hcur)
        obtain rfl : r' = r := Option.some.inj (hr'.symm.trans hr)
        rw [if_pos rfl]
        refine ⟨hleft.count_eq hlast, fun t' ht' htno => ?_⟩
        rw [hsent] at ht'
        exact hs.tno_ne_of_mem_erase ht ht' htno
    · rw [hother h hh] at hnone
      -- a registration has one handle
      have hne : k ≠ t.tno := by
        rintro rfl
        obtain ⟨r₁, hr₁, hhandle₁, -⟩ := hs.closure t ht
        obtain rfl : r' = r₁ := Option.some.inj (hr'.symm.trans hr₁)
        exact hh (hhandle.symm.trans hhandle₁)
      rw [if_neg hne, Nat.add_zero]
      exact ⟨(hgone hnone).1, fun t' ht' => (hgone hnone).2 t' (hpending t' ht')⟩
  · rw [hregistered]
    exact hs.closure t' (hpending t' ht')
  · -- `nodup`: `t` was taken out before it was put in again
    have herase : ((s.pending.erase t).map Timeout.tno).Nodup := hs.nodup.sublist (List.erase_sublist.map _)
    rcases hnext with ⟨-, -, heq, -⟩ | ⟨-, heq, -⟩
    · rw [heq, List.map_append, List.nodup_append]
      refine ⟨herase, List.pairwise_singleton _ _, fun k hk k' hk' htno => ?_⟩
      obtain ⟨t', ht', rfl⟩ := List.mem_map.mp hk
      obtain rfl := List.mem_singleton.mp hk'
      exact hs.tno_ne_of_mem_erase ht ht' htno
    · rw [heq]
      exact herase
  · -- `atMost`: there was a run left
    rw [hregistered] at hr'
    rw [hran]
    split_ifs with hk
    · subst hk
      obtain rfl : r' = r := Option.some.inj (hr'.symm.trans hr)
      exact hleft.succ_le hn
    · exact hs.atMost k r' n hr' hn
  · -- `unrun`: `t` was registered
    rw [hregistered] at hk
    rw [hran, hs.unrun k hk, if_neg]
    rintro rfl
    exact Nat.not_lt.mpr hk (List.getElem?_eq_some_iff.mp hr).1

/-- A timeout fires. -/
theorem fire (hs : Kept tr s) (ht : t ∈ s.pending) : Kept (tr ++ [(s, .fire t)]) (s.fire t) := by
  rcases fire_cases s t with ⟨hstale, hruns, heq⟩ | ⟨hentry, hruns, heq⟩ |
    ⟨count, hentry, hruns, ⟨hcount, heq⟩ | ⟨hcount, heq⟩⟩
  · rw [heq]
    exact hs.fire_stale ht hstale hruns
  · rw [heq]
    exact hs.fire_run ht hruns hentry rfl (fun _ _ => rfl)
      (Or.inl ⟨none, hentry, rfl, Or.inl ⟨rfl, rfl⟩⟩)
  · rw [heq]
    refine hs.fire_run ht hruns hentry rfl (fun h hh => Function.update_of_ne hh ..)
      (Or.inl ⟨some (count - 1), Function.update_self .., rfl, Or.inr ⟨count - 1, ?_, ?_, rfl⟩⟩)
    · exact Nat.sub_pos_of_lt hcount
    · rw [Nat.sub_add_cancel (Nat.le_of_lt hcount)]
  · rw [heq]
    refine hs.fire_run ht hruns hentry rfl (fun h hh => Function.update_of_ne hh ..)
      (Or.inr ⟨Function.update_self .., rfl, ?_⟩)
    -- an entry that is in the table has a run left
    obtain ⟨-, ⟨r, -, hleft⟩, -⟩ := hs.entry t.handle _ hentry
    rcases hleft with ⟨-, hnone⟩ | ⟨c, hpos, hc, -⟩
    · exact (Option.some_ne_none count hnone).elim
    · obtain rfl := Option.some.inj hc
      exact congrArg some (Nat.le_antisymm hcount hpos)

end Fire

/-- **One event keeps what the logs say.** -/
theorem step [DecidableEq φ] (hs : Kept tr s) {e : TimerEvent ν φ} {s' : Timers ν φ}
    (hstep : s.step e = some s') : Kept (tr ++ [(s, e)]) s' := by
  cases e with
  | addTimer ti func handle count =>
      obtain rfl := Option.some.inj hstep
      by_cases hti : 0 ≤ ti
      · exact hs.addTimer hti func handle count
      · exact hs.addTimer_neg hti func handle count
  | removeTimer handle =>
      obtain rfl := Option.some.inj hstep
      exact hs.removeTimer handle
  | removeAllTimers =>
      obtain rfl := Option.some.inj hstep
      exact hs.removeAllTimers
  | fire t =>
      rw [Timers.step] at hstep
      split_ifs at hstep with ht
      obtain rfl := Option.some.inj hstep
      exact hs.fire ht

end Kept

/-- The logs tell what the object is in every run. -/
theorem kept_run [DecidableEq φ] {tr : List (Timers ν φ × TimerEvent ν φ)} {s : Timers ν φ}
    (h : Run step init tr s) : Kept tr s :=
  h.invariant kept_init fun _ _ _ _ _ hs hstep => hs.step hstep

/-! ## The laws -/

/-- The registration `k` is the latest on its handle, was not removed and has a run left. -/
def Live (tr : List (Timers ν φ × TimerEvent ν φ)) (h : Handle ν) (k : ℕ) : Prop :=
  current tr h = some k ∧
    ∃ r, (registered tr)[k]? = some r ∧ ∀ n, r.count = some n → runsOf tr k < n

/-- The laws of the registrations after a run. -/
structure Lawful (tr : List (Timers ν φ × TimerEvent ν φ)) (s : Timers ν φ) : Prop where
  /-- A callback runs only if its registration is the latest on its handle and was not removed. -/
  latest : ∀ t ∈ s.pending, s.runs t ≠ [] → current tr t.handle = some t.tno
  /-- Then it does run. -/
  runs : ∀ t ∈ s.pending, current tr t.handle = some t.tno →
    ∃ r, (registered tr)[t.tno]? = some r ∧ r.handle = t.handle ∧ s.runs t = [r.func]
  /-- A live registration has one timeout under way. -/
  onePending : ∀ h k, Live tr h k → s.pending.countP (fun t => t.tno = k) = 1
  /-- A callback with a count runs at most so often. -/
  atMost : ∀ (k : ℕ) r n, (registered tr)[k]? = some r → r.count = some n → runsOf tr k ≤ n
  /-- It runs so often if it is neither removed nor replaced and all its timeouts fire. -/
  exactly : ∀ h k r n, current tr h = some k → (registered tr)[k]? = some r → r.count = some n →
    (∀ t ∈ s.pending, t.tno ≠ k) → runsOf tr k = n
  /-- A callback without a count goes on until it is removed or replaced. -/
  goesOn : ∀ h k r, current tr h = some k → (registered tr)[k]? = some r → r.count = none →
    ∃ t ∈ s.pending, t.tno = k ∧ t.handle = h ∧ s.runs t = [r.func]

/-- The callbacks that ran, in order. -/
def calls (tr : List (Timers ν φ × TimerEvent ν φ)) : List φ :=
  tr.flatMap fun x =>
    match x.2 with
    | .fire t => x.1.runs t
    | .addTimer .. | .removeTimer _ | .removeAllTimers => []

namespace Kept

variable {tr : List (Timers ν φ × TimerEvent ν φ)} {s : Timers ν φ}

/-- A latest registration that is not in the table has no run left. -/
theorem entry_of_live (hs : Kept tr s) {h : Handle ν} {k : ℕ} (hlive : Live tr h k) :
    ∃ left, s.object.timerList h = some ⟨k, left⟩ := by
  obtain ⟨hcur, r, hr, hless⟩ := hlive
  cases htable : s.object.timerList h with
  | none =>
      obtain ⟨r', hr', -, hgone⟩ := hs.latest h k hcur
      obtain rfl := Option.some.inj (hr.symm.trans hr')
      exact absurd (hless _ (hgone htable).1) (Nat.lt_irrefl _)
  | some e =>
      obtain ⟨tno, left⟩ := e
      obtain rfl : k = tno := Option.some.inj (hcur.symm.trans (hs.entry h _ htable).1)
      exact ⟨left, rfl⟩

/-- The timeout of an entry runs the callback of its registration. -/
theorem runs_of_entry [DecidableEq φ] (hs : Kept tr s) {t : Timeout ν φ} (ht : t ∈ s.pending)
    {left : Option ℕ} (hentry : s.object.timerList t.handle = some ⟨t.tno, left⟩) :
    ∃ r, (registered tr)[t.tno]? = some r ∧ r.handle = t.handle ∧ s.runs t = [r.func] := by
  obtain ⟨r, hr, hhandle, hfunc⟩ := hs.closure t ht
  refine ⟨r, hr, hhandle, ?_⟩
  rw [hfunc]
  rcases fire_cases s t with ⟨hstale, -, -⟩ | ⟨-, hruns, -⟩ | ⟨-, -, hruns, -⟩
  · exact absurd rfl (hstale _ hentry)
  · exact hruns
  · exact hruns

/-- **The laws follow from what the logs say of the object.** -/
theorem lawful [DecidableEq φ] (hs : Kept tr s) : Lawful tr s := by
  -- a live registration has its entry, and with it a timeout under way
  have hone : ∀ h k, Live tr h k → ∃ t ∈ s.pending, t.tno = k ∧ t.handle = h ∧
      ∃ left, s.object.timerList h = some ⟨k, left⟩ := by
    intro h k hlive
    obtain ⟨left, htable⟩ := hs.entry_of_live hlive
    obtain ⟨-, ⟨r, hr, -⟩, t, ht, htno⟩ := hs.entry h _ htable
    obtain ⟨r', hr', hhandle, -⟩ := hs.closure t ht
    rw [htno] at hr'
    obtain rfl := Option.some.inj (hr.symm.trans hr')
    exact ⟨t, ht, htno, hhandle.symm.trans (hs.handle_of_entry htable hr), left, htable⟩
  refine ⟨fun t ht hruns => ?_, fun t ht hcur => ?_, fun h k hlive => ?_, hs.atMost,
    fun h k r n hcur hr hn hpending => ?_, fun h k r hcur hr hn => ?_⟩
  · -- `latest`: a callback runs only from its own entry
    rcases fire_cases s t with ⟨-, hnone, -⟩ | ⟨hentry, -, -⟩ | ⟨count, hentry, -⟩
    · exact absurd hnone hruns
    · exact (hs.entry _ _ hentry).1
    · exact (hs.entry _ _ hentry).1
  · -- `runs`: without the entry nothing of this registration would be under way
    cases htable : s.object.timerList t.handle with
    | none =>
        obtain ⟨r, -, -, hgone⟩ := hs.latest _ _ hcur
        exact absurd rfl ((hgone htable).2 t ht)
    | some e =>
        obtain ⟨tno, left⟩ := e
        obtain rfl : t.tno = tno := Option.some.inj (hcur.symm.trans (hs.entry _ _ htable).1)
        exact hs.runs_of_entry ht htable
  · -- `onePending`
    obtain ⟨t, ht, rfl, -⟩ := hone h k hlive
    have hcount : (s.pending.map Timeout.tno).count t.tno = 1 :=
      List.count_eq_one_of_mem hs.nodup (List.mem_map_of_mem ht)
    rw [← hcount, List.count, List.countP_map]
    rfl
  · -- `exactly`: were a run left, the registration would be live
    by_contra hne
    have hless : runsOf tr k < n := Nat.lt_of_le_of_ne (hs.atMost k r n hr hn) hne
    have hlive : Live tr h k := by
      refine ⟨hcur, r, hr, fun n' hn' => ?_⟩
      obtain rfl := Option.some.inj (hn.symm.trans hn')
      exact hless
    obtain ⟨t, ht, htno, -⟩ := hone h k hlive
    exact hpending t ht htno
  · -- `goesOn`: without a count it is live
    have hlive : Live tr h k :=
      ⟨hcur, r, hr, fun n hn' => (Option.some_ne_none n (hn'.symm.trans hn)).elim⟩
    obtain ⟨t, ht, rfl, rfl, left, htable⟩ := hone h k hlive
    obtain ⟨r', hr', -, hruns⟩ := hs.runs_of_entry ht htable
    obtain rfl := Option.some.inj (hr.symm.trans hr')
    exact ⟨t, ht, rfl, rfl, hruns⟩

end Kept

end Timers

/-! ## The timers of a service -/

/-- The variables of the timers in `globaldefines.lua`. -/
structure GlobalTimers (ν : Type) where
  /-- `timer_no` -/
  timerNo : ℕ
  /-- `timer_list` -/
  timerList : Handle ν → Option TimerEntry
  /-- `timer_default_hdl` -/
  timerDefaultHdl : ℕ

namespace GlobalTimers

variable {ν φ : Type} [DecidableEq ν]

/-- The variables at the start of a service. -/
def init : GlobalTimers ν := ⟨0, fun _ => none, 0⟩

/-- The rest of `AddTimer` when the handle is known. -/
def register (s : GlobalTimers ν) (ti : ℤ) (func : φ) (handle : Handle ν) (count : Option ℕ) :
    Outcome (GlobalTimers ν) (TimerEffect ν φ) :=
  .done
    { s with
      timerNo := s.timerNo + 1
      timerList := Function.update s.timerList handle (some ⟨s.timerNo, count⟩) }
    [.timeout ⟨ti, func, handle, s.timerNo⟩]

/-- `AddTimer` -/
def addTimer (s : GlobalTimers ν) (ti : ℤ) (func : φ) (handle : Option (Handle ν)) (count : Option ℤ) :
    Outcome (GlobalTimers ν) (TimerEffect ν φ) :=
  if 0 ≤ ti then
    let count := if 0 < count.getD 0 then some (count.getD 0).toNat else none
    match handle with
    | none =>
        register { s with timerDefaultHdl := s.timerDefaultHdl + 1 } ti func
          (.default s.timerDefaultHdl) count
    | some handle => s.register ti func handle count
  else .raise s

/-- `RemoveTimer` -/
def removeTimer (s : GlobalTimers ν) (handle : Handle ν) : GlobalTimers ν :=
  { s with timerList := Function.update s.timerList handle none }

/-- `RemoveAllTimers` -/
def removeAllTimers (s : GlobalTimers ν) : GlobalTimers ν := { s with timerList := fun _ => none }

/-- The closure `f` of the timeout `t`. -/
def fire (s : GlobalTimers ν) (t : Timeout ν φ) : Outcome (GlobalTimers ν) (TimerEffect ν φ) :=
  match s.timerList t.handle with
  | none => .done s []
  | some ⟨tno, count⟩ =>
      if tno ≠ t.tno then .done s []
      else
        match count with
        | none => .done s [.timeout t, .call t.func]
        | some count =>
            if 0 < count - 1 then
              .done { s with
                  timerList := Function.update s.timerList t.handle (some ⟨tno, some (count - 1)⟩) }
                [.timeout t, .call t.func]
            else .done (s.removeTimer t.handle) [.call t.func]

/-- The variables as a timer object. -/
def toObject (s : GlobalTimers ν) : TimerObject ν := ⟨s.timerList, s.timerNo, s.timerDefaultHdl⟩

theorem toObject_addTimer (s : GlobalTimers ν) (ti : ℤ) (func : φ) (handle : Option (Handle ν))
    (count : Option ℤ) :
    (s.addTimer ti func handle count).mapState toObject = s.toObject.addTimer ti func handle count := by
  by_cases hti : 0 ≤ ti
  · rw [addTimer, if_pos hti]
    cases handle with
    | none =>
        rw [TimerObject.addTimer, if_pos hti]
        rfl
    | some handle =>
        rw [TimerObject.addTimer, if_pos hti]
        rfl
  · rw [addTimer, if_neg hti]
    cases handle with
    | none =>
        rw [TimerObject.addTimer, if_neg hti]
        rfl
    | some handle =>
        rw [TimerObject.addTimer, if_neg hti]
        rfl

theorem toObject_fire (s : GlobalTimers ν) (t : Timeout ν φ) :
    (s.fire t).mapState toObject = s.toObject.fire t := by
  rw [fire, TimerObject.fire, show s.toObject.timerList = s.timerList from rfl]
  cases s.timerList t.handle with
  | none => rfl
  | some entry =>
      obtain ⟨tno, count⟩ := entry
      dsimp only
      split_ifs
      · rfl
      · cases count with
        | none => rfl
        | some count =>
            dsimp only
            split_ifs
            · rfl
            · rfl

end GlobalTimers

/-- The timers of a service with its timeouts under way. -/
structure ServiceTimers (ν φ : Type) where
  /-- The variables. -/
  vars : GlobalTimers ν
  /-- What Skynet will call. -/
  pending : List (Timeout ν φ)

namespace ServiceTimers

variable {ν φ : Type} [DecidableEq ν]

/-- A service starts. -/
def init : ServiceTimers ν φ := ⟨GlobalTimers.init, []⟩

/-- One event. -/
def step [DecidableEq φ] (s : ServiceTimers ν φ) : TimerEvent ν φ → Option (ServiceTimers ν φ)
  | .addTimer ti func handle count =>
      let o := s.vars.addTimer ti func handle count
      some ⟨o.state, s.pending ++ timeoutsIn o.sent⟩
  | .removeTimer handle => some { s with vars := s.vars.removeTimer handle }
  | .removeAllTimers => some { s with vars := s.vars.removeAllTimers }
  | .fire t =>
      if t ∈ s.pending then
        some ⟨(s.vars.fire t).state, s.pending.erase t ++ timeoutsIn (s.vars.fire t).sent⟩
      else none

/-- The callbacks that ran, in order. -/
def calls (tr : List (ServiceTimers ν φ × TimerEvent ν φ)) : List φ :=
  tr.flatMap fun x =>
    match x.2 with
    | .fire t => callsIn (x.1.vars.fire t).sent
    | .addTimer .. | .removeTimer _ | .removeAllTimers => []

/-- The timers of a service as those of an object. -/
def toTimers (s : ServiceTimers ν φ) : Timers ν φ := ⟨s.vars.toObject, s.pending⟩

/-- **One event does the same.** -/
theorem toTimers_step [DecidableEq φ] (s : ServiceTimers ν φ) (e : TimerEvent ν φ) :
    (s.step e).map toTimers = s.toTimers.step e := by
  cases e with
  | addTimer ti func handle count =>
      show some (Timers.mk _ _) = some (Timers.commit _ (s.vars.toObject.addTimer ti func handle count))
      rw [← GlobalTimers.toObject_addTimer]
      rfl
  | removeTimer handle => rfl
  | removeAllTimers => rfl
  | fire t =>
      rw [step, Timers.step]
      show Option.map _ (if t ∈ s.pending then _ else _) = if t ∈ s.pending then
        some (Timers.commit _ (s.vars.toObject.fire t)) else none
      rw [← GlobalTimers.toObject_fire]
      split_ifs
      · rfl
      · rfl

/-- A sequence of events does the same. -/
theorem toTimers_runFrom [DecidableEq φ] (s : ServiceTimers ν φ) (es : List (TimerEvent ν φ)) :
    (runFrom step s es).map toTimers = runFrom Timers.step s.toTimers es :=
  runFrom_map toTimers_step s es

/-- It runs the same callbacks. -/
theorem calls_traceFrom [DecidableEq φ] (s : ServiceTimers ν φ) (es : List (TimerEvent ν φ)) :
    calls (traceFrom step s es) = Timers.calls (traceFrom Timers.step s.toTimers es) := by
  rw [← traceFrom_map toTimers_step, calls, Timers.calls, List.flatMap_map]
  refine congrArg (List.flatMap · _) (funext fun x => ?_)
  obtain ⟨s, e⟩ := x
  cases e with
  | fire t =>
      show callsIn _ = callsIn (s.vars.toObject.fire t).sent
      rw [← GlobalTimers.toObject_fire]
      rfl
  | addTimer | removeTimer | removeAllTimers => rfl

end ServiceTimers

/-- **Timer registrations.** A run of a timer object satisfies the laws, and on the same sequence of calls
and timeouts the timers of a service are in the same state and have run the same callbacks. -/
theorem timer_laws {ν φ : Type} [DecidableEq ν] [DecidableEq φ] (es : List (TimerEvent ν φ)) :
    (∀ s, runFrom Timers.step Timers.init es = some s →
      Timers.Lawful (traceFrom Timers.step Timers.init es) s) ∧
    (runFrom ServiceTimers.step ServiceTimers.init es).map ServiceTimers.toTimers
      = runFrom Timers.step Timers.init es ∧
    ServiceTimers.calls (traceFrom ServiceTimers.step ServiceTimers.init es)
      = Timers.calls (traceFrom Timers.step Timers.init es) :=
  ⟨fun _ hs => (Timers.kept_run (run_of_runFrom hs)).lawful, ServiceTimers.toTimers_runFrom _ es,
    ServiceTimers.calls_traceFrom _ es⟩

/-- A callback with a count of two runs once, is registered again from its callback, and runs twice. The
timeout of the first registration fires in between. -/
def replaced : List (TimerEvent Unit Unit) :=
  let first : Timeout Unit Unit := ⟨5, (), .named (), 0⟩
  let second : Timeout Unit Unit := ⟨7, (), .named (), 1⟩
  [.addTimer 5 () (some (.named ())) (some 2), .fire first,
   .addTimer 7 () (some (.named ())) (some 2), .fire second, .fire first, .fire second]

/-- The run `replaced`. -/
theorem timer_laws_replaced : ∃ s, runFrom Timers.step Timers.init replaced = some s ∧
    Timers.Lawful (traceFrom Timers.step Timers.init replaced) s := by
  have hrun : (runFrom Timers.step Timers.init replaced).isSome = true := by decide +kernel
  obtain ⟨s, hs⟩ := Option.isSome_iff_exists.mp hrun
  exact ⟨s, hs, (timer_laws replaced).1 s hs⟩

end FrameSync
