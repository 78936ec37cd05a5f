import FrameSync.Foundations.Outcome
import Mathlib.Data.Int.Order.Basic
import Mathlib.Logic.Function.Basic

/-! # Timers

`lualib/object.lua`. A `TimerObject` keeps its registrations in a table, but a timeout that Skynet was
asked for cannot be taken back: it fires, and the closure `f` looks into the table to find out whether
its registration is still there. So the state of a timer is the table together with the timeouts under
way (`Timers`). A registration without a count goes on until it is removed or replaced (`Armed`), and
one that was removed never runs again (`Timers.fire_of_removed`). -/

namespace FrameSync

/-- A key of `m_TimerList`. The code does not tell an integer of the caller from one that `AddTimer`
drew. -/
inductive Handle (ν : Type)
  /-- A name. -/
  | named (name : ν)
  /-- An integer: drawn from `m_TimerDefaultHdl`, or the `handle` of the caller. -/
  | default (hdl : ℕ)
  deriving Repr, DecidableEq

/-- An entry `{tno, count}` of `m_TimerList`. -/
structure TimerEntry where
  /-- The number of the registration. -/
  tno : ℕ
  /-- How often it still runs; unset for `true`, which is for ever. -/
  count : Option ℕ
  deriving Repr, DecidableEq

/-- A timeout under way, with what its closure `f` remembers. -/
structure Timeout (ν φ : Type) where
  /-- `ti` -/
  ti : ℤ
  /-- `func` -/
  func : φ
  /-- `handle` -/
  handle : Handle ν
  /-- `tno` -/
  tno : ℕ
  deriving Repr, DecidableEq

/-- What the methods of a timer object ask for. -/
inductive TimerEffect (ν φ : Type)
  /-- `Skynet.timeout(ti, f)` -/
  | timeout (t : Timeout ν φ)
  /-- `func()` -/
  | call (func : φ)
  deriving Repr, DecidableEq

/-- `TimerObject` -/
structure TimerObject (ν : Type) where
  /-- `m_TimerList` -/
  timerList : Handle ν → Option TimerEntry
  /-- `m_TimerNo` -/
  timerNo : ℕ
  /-- `m_TimerDefaultHdl` -/
  timerDefaultHdl : ℕ

namespace TimerObject

variable {ν φ : Type} [DecidableEq ν]

/-- `TimerObject:init` -/
def init : TimerObject ν := ⟨fun _ => none, 0, 0⟩

/-- The second part of a new entry: a positive number, or `true`. -/
def countOf (count : Option ℤ) : Option ℕ :=
  if 0 < count.getD 0 then some (count.getD 0).toNat else none

/-- `TimerObject:AddTimer` after its assertion, with the handle it uses. -/
def register (s : TimerObject ν) (ti : ℤ) (func : φ) (handle : Handle ν) (count : Option ℤ) :
    Outcome (TimerObject ν) (TimerEffect ν φ) :=
  .done
    { s with
      timerList := Function.update s.timerList handle (some ⟨s.timerNo, countOf count⟩)
      timerNo := s.timerNo + 1 }
    [.timeout ⟨ti, func, handle, s.timerNo⟩]

/-- `TimerObject:AddTimer` -/
def addTimer (s : TimerObject ν) (ti : ℤ) (func : φ) (handle : Option (Handle ν)) (count : Option ℤ) :
    Outcome (TimerObject ν) (TimerEffect ν φ) :=
  if 0 ≤ ti then
    match handle with
    | some handle => s.register ti func handle count
    | none =>
        { s with timerDefaultHdl := s.timerDefaultHdl + 1 }.register ti func
          (.default s.timerDefaultHdl) count
  else .raise s

/-- `TimerObject:RemoveTimer` -/
def removeTimer (s : TimerObject ν) (handle : Handle ν) : TimerObject ν :=
  { s with timerList := Function.update s.timerList handle none }

/-- `TimerObject:RemoveAllTimers` -/
def removeAllTimers (s : TimerObject ν) : TimerObject ν := { s with timerList := fun _ => none }

/-- `TimerObject:FindTimer` -/
def findTimer (s : TimerObject ν) (handle : Handle ν) : Option TimerEntry := s.timerList handle

/-- The assignment to a count in `f`. -/
def setEntry (s : TimerObject ν) (handle : Handle ν) (entry : TimerEntry) : TimerObject ν :=
  { s with timerList := Function.update s.timerList handle (some entry) }

/-- The closure `f` of the timeout `t`. -/
def fire (s : TimerObject ν) (t : Timeout ν φ) : Outcome (TimerObject ν) (TimerEffect ν φ) :=
  match s.timerList t.handle with
  | none => .done s []
  | some entry =>
      if entry.tno ≠ t.tno then .done s []
      else
        match entry.count with
        | none => .done s [.timeout t, .call t.func]
        | some count =>
            if 0 < count - 1 then
              .done (s.setEntry t.handle ⟨entry.tno, some (count - 1)⟩) [.timeout t, .call t.func]
            else .done (s.removeTimer t.handle) [.call t.func]

/-! ### What the methods do to the table -/

@[simp] theorem register_timerList (s : TimerObject ν) (ti : ℤ) (func : φ) (handle : Handle ν)
    (count : Option ℤ) : (s.register ti func handle count).state.timerList
      = Function.update s.timerList handle (some ⟨s.timerNo, countOf count⟩) := rfl

@[simp] theorem removeTimer_timerList (s : TimerObject ν) (handle : Handle ν) :
    (s.removeTimer handle).timerList = Function.update s.timerList handle none := rfl

/-- A name is registered as it is. -/
theorem addTimer_named (s : TimerObject ν) {ti : ℤ} (hti : 0 ≤ ti) (func : φ) (handle : Handle ν)
    (count : Option ℤ) : s.addTimer ti func (some handle) count = s.register ti func handle count :=
  if_pos hti

/-- A timeout whose registration goes on for ever asks for its next and runs. -/
theorem fire_forever {s : TimerObject ν} {t : Timeout ν φ}
    (h : s.timerList t.handle = some ⟨t.tno, none⟩) : s.fire t = .done s [.timeout t, .call t.func] := by
  rw [fire, h]
  exact if_neg (not_not.mpr rfl)

/-- A timeout whose registration was removed does nothing. -/
theorem fire_of_removed {s : TimerObject ν} {t : Timeout ν φ} (h : s.timerList t.handle = none) :
    s.fire t = .done s [] := by
  rw [fire, h]

/-- A timeout does not touch the registrations on other handles. -/
theorem fire_timerList_ne (s : TimerObject ν) (t : Timeout ν φ) {handle : Handle ν}
    (h : handle ≠ t.handle) : (s.fire t).state.timerList handle = s.timerList handle := by
  unfold fire
  split
  · rfl
  · split
    · rfl
    · split
      · rfl
      · split
        · exact Function.update_of_ne h _ _
        · exact Function.update_of_ne h _ _

/-- No timeout touches a registration that goes on for ever. -/
theorem fire_timerList_forever {s : TimerObject ν} (t : Timeout ν φ) {handle : Handle ν} {tno : ℕ}
    (h : s.timerList handle = some ⟨tno, none⟩) :
    (s.fire t).state.timerList handle = some ⟨tno, none⟩ := by
  by_cases hne : handle = t.handle
  · subst hne
    rw [fire, h]
    dsimp only
    split
    · exact h
    · exact h
  · rw [fire_timerList_ne s t hne, h]

/-- A timeout registers nothing. -/
theorem fire_timerList_none {s : TimerObject ν} (t : Timeout ν φ) {handle : Handle ν}
    (h : s.timerList handle = none) : (s.fire t).state.timerList handle = none := by
  by_cases hne : handle = t.handle
  · subst hne
    rw [fire_of_removed h]
    exact h
  · rw [fire_timerList_ne s t hne, h]

end TimerObject

/-! ## The timeouts under way -/

/-- The timeouts that were asked for. -/
def timeoutsIn {ν φ : Type} (effects : List (TimerEffect ν φ)) : List (Timeout ν φ) :=
  effects.filterMap fun
    | .timeout t => some t
    | .call _ => none

/-- The callbacks that ran. -/
def callsIn {ν φ : Type} (effects : List (TimerEffect ν φ)) : List φ :=
  effects.filterMap fun
    | .timeout _ => none
    | .call func => some func

/-- A timer object with its timeouts under way. -/
structure Timers (ν φ : Type) where
  /-- The object. -/
  object : TimerObject ν
  /-- What Skynet will call. -/
  pending : List (Timeout ν φ)

namespace Timers

variable {ν φ : Type} [DecidableEq ν]

/-- A new object. -/
def init : Timers ν φ := ⟨TimerObject.init, []⟩

/-- A method of the object ended, with the other timeouts still under way. -/
def commit (pending : List (Timeout ν φ)) (o : Outcome (TimerObject ν) (TimerEffect ν φ)) : Timers ν φ :=
  ⟨o.state, pending ++ timeoutsIn o.sent⟩

/-- `AddTimer` -/
def addTimer (s : Timers ν φ) (ti : ℤ) (func : φ) (handle : Option (Handle ν)) (count : Option ℤ) :
    Timers ν φ :=
  commit s.pending (s.object.addTimer ti func handle count)

/-- `RemoveTimer` -/
def removeTimer (s : Timers ν φ) (handle : Handle ν) : Timers ν φ :=
  { s with object := s.object.removeTimer handle }

/-- A timeout under way fires. -/
def fire [DecidableEq φ] (s : Timers ν φ) (t : Timeout ν φ) : Timers ν φ :=
  commit (s.pending.erase t) (s.object.fire t)

/-- The callbacks that a timeout runs. -/
def runs (s : Timers ν φ) (t : Timeout ν φ) : List φ := callsIn (s.object.fire t).sent

/-- The callback `func` is registered under `handle` for ever, and its timeout is under way. -/
def Armed (s : Timers ν φ) (handle : Handle ν) (func : φ) : Prop :=
  ∃ t ∈ s.pending, t.handle = handle ∧ t.func = func ∧
    s.object.timerList handle = some ⟨t.tno, none⟩

/-- A registration without a count. -/
theorem armed_addTimer (s : Timers ν φ) {ti : ℤ} (hti : 0 ≤ ti) (func : φ) (handle : Handle ν) :
    (s.addTimer ti func (some handle) none).Armed handle func := by
  rw [addTimer, TimerObject.addTimer_named _ hti]
  refine ⟨⟨ti, func, handle, s.object.timerNo⟩, List.mem_append_right _ List.mem_cons_self, rfl, rfl, ?_⟩
  exact Function.update_self ..

section Armed

variable {s : Timers ν φ} {handle : Handle ν} {func : φ}

/-- A registration on another handle changes nothing. -/
theorem Armed.addTimer (h : s.Armed handle func) {ti : ℤ} (hti : 0 ≤ ti) (func' : φ)
    {handle' : Handle ν} (hne : handle ≠ handle') (count : Option ℤ) :
    (s.addTimer ti func' (some handle') count).Armed handle func := by
  obtain ⟨t, ht, hhandle, hfunc, hentry⟩ := h
  rw [Timers.addTimer, TimerObject.addTimer_named _ hti]
  refine ⟨t, List.mem_append_left _ ht, hhandle, hfunc, ?_⟩
  rw [← hentry]
  exact Function.update_of_ne hne ..

/-- So does the removal of another. -/
theorem Armed.removeTimer (h : s.Armed handle func) {handle' : Handle ν} (hne : handle ≠ handle') :
    (s.removeTimer handle').Armed handle func := by
  obtain ⟨t, ht, hhandle, hfunc, hentry⟩ := h
  refine ⟨t, ht, hhandle, hfunc, ?_⟩
  rw [← hentry]
  exact Function.update_of_ne hne ..

/-- A timer that goes on for ever goes on, whatever fires. -/
theorem Armed.fire [DecidableEq φ] (h : s.Armed handle func) (t : Timeout ν φ) :
    (s.fire t).Armed handle func := by
  obtain ⟨t', ht', rfl, hfunc, hentry⟩ := h
  refine ⟨t', ?_, rfl, hfunc, TimerObject.fire_timerList_forever t hentry⟩
  by_cases heq : t' = t
  · -- it is the timeout that fires, and it asks for the next
    subst heq
    rw [Timers.fire, TimerObject.fire_forever hentry]
    exact List.mem_append_right _ List.mem_cons_self
  · exact List.mem_append_left _ ((List.mem_erase_of_ne heq).mpr ht')

/-- There is a timeout under way that runs the callback. -/
theorem Armed.exists_runs (h : s.Armed handle func) :
    ∃ t ∈ s.pending, t.handle = handle ∧ s.runs t = [func] := by
  obtain ⟨t, ht, rfl, rfl, hentry⟩ := h
  refine ⟨t, ht, rfl, ?_⟩
  rw [runs, TimerObject.fire_forever hentry]
  rfl

end Armed

/-- A timer that was removed stays so, whatever fires. -/
theorem fire_removed [DecidableEq φ] {s : Timers ν φ} {handle : Handle ν} (h : s.object.timerList handle = none)
    (t : Timeout ν φ) : (s.fire t).object.timerList handle = none :=
  TimerObject.fire_timerList_none t h

/-- The timeouts of a timer that was removed run nothing. -/
theorem runs_of_removed {s : Timers ν φ} {t : Timeout ν φ} (h : s.object.timerList t.handle = none) :
    s.runs t = [] := by
  rw [runs, TimerObject.fire_of_removed h]
  rfl

end Timers

end FrameSync
