import FrameSync.Foundations.StepArea
import FrameSync.Scene.FighterWar
import Mathlib.Data.Rat.Floor
import Mathlib.Order.Bounds.Basic

/-! # The RTT statistics of a player

`FWPlayer:sync_data("rtt", val)`, called with the values an agent reports and by `gs2c_rtt_data` with
the present value. The sum is the area under the values when each holds until the next one
(`sumRtt_syncs`), with the 0 of `init` up to the first. That 0 is no value of a report, so the average
lies under the greatest value, but above the least one only as far as the first report came early
(`avgRtt_between`). The quotients are of integers far below `2^53`, where Lua's division of doubles and
`math.floor` give the quotient of integers. -/

namespace FrameSync

/-! ## Extremes of a list -/

section Extremes

variable {α : Type*} [LinearOrder α]

theorem isGreatest_foldl_max (a : α) (l : List α) : IsGreatest {x | x ∈ a :: l} (l.foldl max a) := by
  induction l generalizing a with
  | nil => exact ⟨List.mem_singleton_self a, fun x hx => (List.mem_singleton.mp hx).le⟩
  | cons b l ih =>
      obtain ⟨hmem, hle⟩ := ih (max a b)
      rw [List.foldl_cons]
      have hmax : max a b ≤ l.foldl max (max a b) := hle List.mem_cons_self
      refine ⟨?_, fun x hx => ?_⟩
      · rcases List.mem_cons.mp hmem with heq | hmem
        · rw [heq]
          rcases max_choice a b with h | h
          · rw [h]
            exact List.mem_cons_self
          · rw [h]
            exact List.mem_cons_of_mem _ List.mem_cons_self
        · exact List.mem_cons_of_mem _ (List.mem_cons_of_mem _ hmem)
      · rcases List.mem_cons.mp hx with rfl | hx
        · exact (le_max_left _ b).trans hmax
        · rcases List.mem_cons.mp hx with rfl | hx
          · exact (le_max_right a _).trans hmax
          · exact hle (List.mem_cons_of_mem _ hx)

/-- A start that is not above the values does not count. -/
theorem isGreatest_foldl_max_of_le {a : α} {l : List α} (hne : l ≠ []) (h : ∀ x ∈ l, a ≤ x) :
    IsGreatest {x | x ∈ l} (l.foldl max a) := by
  obtain ⟨b, l, rfl⟩ := List.exists_cons_of_ne_nil hne
  rw [List.foldl_cons, max_eq_right (h b List.mem_cons_self)]
  exact isGreatest_foldl_max b l

theorem isLeast_foldl_min_of_le {a : α} {l : List α} (hne : l ≠ []) (h : ∀ x ∈ l, x ≤ a) :
    IsLeast {x | x ∈ l} (l.foldl min a) :=
  isGreatest_foldl_max_of_le (α := αᵒᵈ) hne h

end Extremes

/-! ## The calls -/

/-- A call of `sync_data("rtt", val)` on a player. -/
inductive RttCall
  /-- By `command.sync_data`. -/
  | sample (val : ℤ)
  /-- By `gs2c_rtt_data`, with the present value. -/
  | report
  deriving Repr, DecidableEq

namespace FWPlayer

/-- One call at the time `ti`. Before the first value `gs2c_rtt_data` makes none. -/
def rttCall (p : FWPlayer) (ti : ℕ) : RttCall → FWPlayer
  | .sample val => p.syncData val ti
  | .report => if p.rttLastCS = none then p else p.syncData p.rtt ti

/-- A sequence of calls. -/
def rttCalls (p : FWPlayer) (calls : List (RttCall × ℕ)) : FWPlayer :=
  calls.foldl (fun p c => p.rttCall c.2 c.1) p

end FWPlayer

namespace FighterWar

/-- `command.sync_data` is a call on the player. -/
theorem lookup_syncData (g : FighterWar) (pid : Pid) (val : ℤ) (now : ℕ) :
    (g.syncData pid val now).players.lookup pid
      = (g.players.lookup pid).map fun p => p.rttCall now (.sample val) := by
  rw [syncData]
  split
  · rename_i p hp
    rw [AList.lookup_replace_eq, if_pos rfl, hp]
    rfl
  · rename_i hp
    rw [hp]
    rfl

/-- `gs2c_rtt_data` is a call on the player. -/
theorem lookup_gs2cRttData [Wire] (g : FighterWar) (pid : Pid) (clk : Clock) :
    (gs2cRttData pid clk g).state.players.lookup pid
      = (g.players.lookup pid).map fun p => p.rttCall clk.now .report := by
  rw [gs2cRttData]
  split
  · rename_i hp
    rw [Outcome.done_state, hp]
    rfl
  · rename_i p hp
    split
    · rename_i hlast
      rw [Outcome.done_state, hp, Option.map_some, FWPlayer.rttCall, if_pos hlast]
    · rename_i hlast
      rw [send2Player_state, AList.lookup_replace_eq, if_pos rfl, hp]
      simp only [Option.map_some, FWPlayer.rttCall, if_neg hlast]

end FighterWar

namespace FWPlayer

/-! ## The values that count -/

/-- The values passed to `sync_data`, with their times; `cur` is the present value once there is one. -/
def passed (cur : Option ℤ) : List (RttCall × ℕ) → List (ℤ × ℕ)
  | [] => []
  | (.sample val, ti) :: calls => (val, ti) :: passed (some val) calls
  | (.report, ti) :: calls => (cur.toList.map fun val => (val, ti)) ++ passed cur calls

/-- The values one after the other. -/
def syncs (p : FWPlayer) (xs : List (ℤ × ℕ)) : FWPlayer := xs.foldl (fun p x => p.syncData x.1 x.2) p

@[simp] theorem syncs_nil (p : FWPlayer) : p.syncs [] = p := rfl

@[simp] theorem syncs_cons (p : FWPlayer) (x : ℤ × ℕ) (xs : List (ℤ × ℕ)) :
    p.syncs (x :: xs) = (p.syncData x.1 x.2).syncs xs := rfl

/-- The present value, unset before the first. -/
def current (p : FWPlayer) : Option ℤ := p.rttLastCS.map fun _ => p.rtt

/-- **Calls are the values they pass.** -/
theorem rttCalls_eq (p : FWPlayer) (calls : List (RttCall × ℕ)) :
    p.rttCalls calls = p.syncs (passed p.current calls) := by
  induction calls generalizing p with
  | nil => rfl
  | cons c calls ih =>
      obtain ⟨c, ti⟩ := c
      show (p.rttCall ti c).rttCalls calls = _
      rw [ih]
      cases c with
      | sample val => rfl
      | report =>
          rw [passed, rttCall]
          cases hlast : p.rttLastCS with
          | none => simp [current, hlast]
          | some last =>
              rw [if_neg (by simp)]
              simp [current, hlast, syncData]

/-- The values with their times as integers. -/
def timed (xs : List (ℤ × ℕ)) : List (ℤ × ℤ) := xs.map fun x => (x.1, (x.2 : ℤ))

/-! ## What the statistics are -/

/-- The time up to which the sum is made. -/
def since (p : FWPlayer) : ℕ := p.rttLastCS.getD p.rttStartCS

/-- **The sum is the area under the values**, each of which holds until the next one. -/
theorem sumRtt_syncs (p : FWPlayer) (xs : List (ℤ × ℕ)) :
    (p.syncs xs).sumRtt = p.sumRtt + heldArea p.rtt p.since (timed xs) := by
  induction xs generalizing p with
  | nil => simp [timed]
  | cons x xs ih =>
      have hsince : (p.syncData x.1 x.2).since = x.2 := rfl
      have hsum : (p.syncData x.1 x.2).sumRtt = p.sumRtt + ((x.2 : ℤ) - p.since) * p.rtt := rfl
      rw [syncs_cons, ih, hsince, hsum]
      show _ = p.sumRtt + (p.rtt * ((x.2 : ℤ) - p.since) + heldArea x.1 x.2 (timed xs))
      rw [mul_comm, add_assoc]
      rfl

theorem maxRtt_syncs (p : FWPlayer) (xs : List (ℤ × ℕ)) :
    (p.syncs xs).maxRtt = (xs.map Prod.fst).foldl max p.maxRtt := by
  induction xs generalizing p with
  | nil => rfl
  | cons x xs ih =>
      have hmax : (p.syncData x.1 x.2).maxRtt = max p.maxRtt x.1 := by
        rw [max_def']
        show (if p.maxRtt < x.1 then x.1 else p.maxRtt) = _
        split_ifs <;> omega
      rw [syncs_cons, ih, hmax]
      rfl

theorem minRtt_syncs (p : FWPlayer) (xs : List (ℤ × ℕ)) :
    (p.syncs xs).minRtt = (xs.map Prod.fst).foldl min p.minRtt := by
  induction xs generalizing p with
  | nil => rfl
  | cons x xs ih =>
      have hmin : (p.syncData x.1 x.2).minRtt = min p.minRtt x.1 := by
        rw [min_def]
        show (if x.1 < p.minRtt then x.1 else p.minRtt) = _
        split_ifs <;> omega
      rw [syncs_cons, ih, hmin]
      rfl

/-- The average is the floor of the sum over the time since the start. -/
theorem avgRtt_syncs (p : FWPlayer) {xs : List (ℤ × ℕ)} (hne : xs ≠ [])
    (hlast : (p.rttStartCS : ℤ) < lastTime (p.since : ℤ) (timed xs)) : (p.syncs xs).avgRtt
      = (p.syncs xs).sumRtt / (lastTime (p.since : ℤ) (timed xs) - p.rttStartCS) := by
  induction xs generalizing p with
  | nil => exact absurd rfl hne
  | cons x xs ih =>
      have htime : lastTime (p.since : ℤ) (timed (x :: xs)) = lastTime (x.2 : ℤ) (timed xs) :=
        lastTime_cons ..
      rw [htime] at hlast ⊢
      cases xs with
      | nil =>
          have hpos : (0 : ℤ) < (x.2 : ℤ) - p.rttStartCS := sub_pos.mpr hlast
          exact if_pos hpos
      | cons y ys => exact ih (p.syncData x.1 x.2) (List.cons_ne_nil y ys) hlast

/-! ## The average -/

theorem passed_times (cur : Option ℤ) (calls : List (RttCall × ℕ)) :
    ((passed cur calls).map Prod.snd).Sublist (calls.map Prod.snd) := by
  induction calls generalizing cur with
  | nil => exact List.Sublist.refl _
  | cons c calls ih =>
      obtain ⟨c, ti⟩ := c
      cases c with
      | sample val => exact (ih (some val)).cons_cons ti
      | report =>
          cases cur with
          | none => exact (ih none).cons ti
          | some val => exact (ih (some val)).cons_cons ti

/-- The values that count are among those of the samples. -/
theorem passed_of_samples {P : ℤ → Prop} {cur : Option ℤ} {calls : List (RttCall × ℕ)}
    (hcur : ∀ val ∈ cur, P val) (h : ∀ c ∈ calls, ∀ val, c.1 = .sample val → P val) :
    ∀ x ∈ passed cur calls, P x.1 := by
  induction calls generalizing cur with
  | nil => exact fun x hx => absurd hx List.not_mem_nil
  | cons c calls ih =>
      obtain ⟨c, ti⟩ := c
      have htail : ∀ c ∈ calls, ∀ val, c.1 = .sample val → P val :=
        fun c hc => h c (List.mem_cons_of_mem _ hc)
      intro x hx
      cases c with
      | sample val =>
          have hval : P val := h _ List.mem_cons_self val rfl
          rcases List.mem_cons.mp hx with rfl | hx
          · exact hval
          · refine ih (fun v hv => ?_) htail x hx
            obtain rfl := Option.some.inj hv
            exact hval
      | report =>
          rcases List.mem_append.mp hx with hx | hx
          · obtain ⟨val, hval, rfl⟩ := List.mem_map.mp hx
            exact hcur val (Option.mem_toList.mp hval)
          · exact ih hcur htail x hx

theorem timely_timed {t : ℕ} {xs : List (ℤ × ℕ)} (h : (t :: xs.map Prod.snd).Pairwise (· ≤ ·)) :
    Timely (t : ℤ) (timed xs) := by
  induction xs generalizing t with
  | nil => exact timely_nil _
  | cons x xs ih =>
      obtain ⟨hle, hrest⟩ := List.pairwise_cons.mp h
      exact timely_cons.mpr ⟨Int.ofNat_le.mpr (hle x.2 List.mem_cons_self), ih hrest⟩

/-- **The average RTT lies below the greatest value, and above the least as far as there were values.**
The time before the first value counts with the value 0, so it is the least value times the time since
the first one, spread over the time since the start, that bounds the average from below. -/
theorem avgRtt_between (args : PlayerArgs) (spawn : Spawn) (start : ℕ) {calls : List (RttCall × ℕ)}
    {x : ℤ × ℕ} {xs : List (ℤ × ℕ)} (hxs : passed none calls = x :: xs)
    (hrange : ∀ c ∈ calls, ∀ val, c.1 = .sample val → 0 ≤ val ∧ val ≤ 10000)
    (htimes : (start :: calls.map Prod.snd).Pairwise (· ≤ ·))
    (hlast : (start : ℤ) < lastTime (x.2 : ℤ) (timed xs)) :
    let p := (FWPlayer.init args spawn start).rttCalls calls
    IsGreatest {v | v ∈ (x :: xs).map Prod.fst} p.maxRtt ∧
      IsLeast {v | v ∈ (x :: xs).map Prod.fst} p.minRtt ∧
      p.minRtt * (lastTime (x.2 : ℤ) (timed xs) - x.2) / (lastTime (x.2 : ℤ) (timed xs) - start)
        ≤ p.avgRtt ∧
      p.avgRtt ≤ p.maxRtt ∧ (x.2 = start → p.minRtt ≤ p.avgRtt) := by
  have hvalues : ∀ y ∈ x :: xs, 0 ≤ y.1 ∧ y.1 ≤ 10000 := by
    rw [← hxs]
    exact passed_of_samples (fun _ h => absurd h (Option.not_mem_none _)) hrange
  have hpairs : (start :: (x :: xs).map Prod.snd).Pairwise (· ≤ ·) := by
    rw [← hxs]
    exact htimes.sublist ((passed_times none calls).cons_cons start)
  have htimely := timely_timed hpairs
  obtain ⟨hfirst, hrest⟩ := timely_cons.mp htimely
  have hcalls : (FWPlayer.init args spawn start).rttCalls calls
      = (FWPlayer.init args spawn start).syncs (x :: xs) := by
    rw [rttCalls_eq, ← hxs]
    rfl
  intro p
  have hmax : IsGreatest {v | v ∈ (x :: xs).map Prod.fst} p.maxRtt := by
    show IsGreatest _ ((FWPlayer.init args spawn start).rttCalls calls).maxRtt
    rw [hcalls, maxRtt_syncs]
    refine isGreatest_foldl_max_of_le (by simp) fun v hv => ?_
    obtain ⟨y, hy, rfl⟩ := List.mem_map.mp hv
    exact (by decide : (-1 : ℤ) ≤ 0).trans (hvalues y hy).1
  have hmin : IsLeast {v | v ∈ (x :: xs).map Prod.fst} p.minRtt := by
    show IsLeast _ ((FWPlayer.init args spawn start).rttCalls calls).minRtt
    rw [hcalls, minRtt_syncs]
    refine isLeast_foldl_min_of_le (by simp) fun v hv => ?_
    obtain ⟨y, hy, rfl⟩ := List.mem_map.mp hv
    exact (hvalues y hy).2
  have hle : ∀ y ∈ timed (x :: xs), y.1 ≤ p.maxRtt := by
    intro y hy
    obtain ⟨z, hz, rfl⟩ := List.mem_map.mp hy
    exact hmax.2 (show z.1 ∈ (x :: xs).map Prod.fst from List.mem_map_of_mem hz)
  have hge : ∀ y ∈ timed (x :: xs), p.minRtt ≤ y.1 := by
    intro y hy
    obtain ⟨z, hz, rfl⟩ := List.mem_map.mp hy
    exact hmin.2 (show z.1 ∈ (x :: xs).map Prod.fst from List.mem_map_of_mem hz)
  have hnonneg : 0 ≤ p.maxRtt := (hvalues x List.mem_cons_self).1.trans
    (hmax.2 (List.mem_map_of_mem List.mem_cons_self))
  -- the sum holds the 0 of `init` up to the first value
  have hsum : p.sumRtt = heldArea (0 : ℤ) start (timed (x :: xs)) := by
    show ((FWPlayer.init args spawn start).rttCalls calls).sumRtt = _
    rw [hcalls, sumRtt_syncs]
    exact zero_add _
  have hsince : (FWPlayer.init args spawn start).since = start := rfl
  have hend : lastTime (start : ℤ) (timed (x :: xs)) = lastTime (x.2 : ℤ) (timed xs) := lastTime_cons ..
  have havg : p.avgRtt = p.sumRtt / (lastTime (x.2 : ℤ) (timed xs) - start) := by
    have h := avgRtt_syncs (FWPlayer.init args spawn start) (List.cons_ne_nil x xs)
      (by rw [hsince, hend]; exact hlast)
    rwa [hsince, hend, ← hcalls] at h
  have hpos : 0 < lastTime (x.2 : ℤ) (timed xs) - start := sub_pos.mpr hlast
  have hlower : p.minRtt * (lastTime (x.2 : ℤ) (timed xs) - x.2)
      / (lastTime (x.2 : ℤ) (timed xs) - start) ≤ p.avgRtt := by
    rw [havg, hsum]
    refine Int.ediv_le_ediv hpos ?_
    have harea := le_heldArea (hge _ List.mem_cons_self)
      (fun y hy => hge y (List.mem_cons_of_mem _ hy)) hrest
    calc p.minRtt * (lastTime (x.2 : ℤ) (timed xs) - x.2)
        ≤ heldArea x.1 (x.2 : ℤ) (timed xs) := harea
      _ = heldArea (0 : ℤ) start (timed (x :: xs)) := by
          show _ = 0 * ((x.2 : ℤ) - start) + heldArea x.1 (x.2 : ℤ) (timed xs)
          rw [zero_mul, zero_add]
  refine ⟨hmax, hmin, hlower, ?_, fun hstart => ?_⟩
  · rw [havg, hsum]
    refine Int.ediv_le_of_le_mul hpos ?_
    rw [← hend]
    exact heldArea_le hnonneg hle htimely
  · calc p.minRtt
        = p.minRtt * (lastTime (x.2 : ℤ) (timed xs) - start) / (lastTime (x.2 : ℤ) (timed xs) - start) :=
          (Int.mul_ediv_cancel _ hpos.ne').symm
      _ = p.minRtt * (lastTime (x.2 : ℤ) (timed xs) - x.2) / (lastTime (x.2 : ℤ) (timed xs) - start) := by
          rw [hstart]
      _ ≤ p.avgRtt := hlower

/-- **The average is below every value.** The one report is 100 after 10 hundredths of a second; the
average is 0. -/
theorem avgRtt_below_minRtt :
    ((FWPlayer.init ⟨[], 1, 1, ⟨some 1, some 2, some 3⟩⟩ Spawn.corner 0).rttCalls
      [(.sample 100, 10)]).avgRtt = 0 ∧
    ((FWPlayer.init ⟨[], 1, 1, ⟨some 1, some 2, some 3⟩⟩ Spawn.corner 0).rttCalls
      [(.sample 100, 10)]).minRtt = 100 := by
  decide

/-- Two reports of 100 and one call of `gs2c_rtt_data`. -/
theorem avgRtt_between_three :
    let p := (FWPlayer.init ⟨[], 1, 1, ⟨some 1, some 2, some 3⟩⟩ Spawn.corner 0).rttCalls
      [(.sample 100, 10), (.report, 15), (.sample 100, 20)]
    50 ≤ p.avgRtt ∧ p.avgRtt ≤ p.maxRtt := by
  have hxs : passed none [(.sample 100, 10), (.report, 15), (.sample 100, 20)]
      = (100, 10) :: [(100, 15), (100, 20)] := rfl
  have h := avgRtt_between ⟨[], 1, 1, ⟨some 1, some 2, some 3⟩⟩ Spawn.corner 0 hxs (by simp) (by decide)
    (by decide)
  exact ⟨le_of_eq_of_le (by decide) h.2.2.1, h.2.2.2.1⟩

end FWPlayer

/-! ## The statistics over exact numbers -/

/-- The statistics of `FWPlayer`, for values and times that need not be integers. -/
structure RttStats where
  /-- `m_RTT` -/
  rtt : ℚ
  /-- `m_MaxRTT` -/
  maxRtt : ℚ
  /-- `m_MinRTT` -/
  minRtt : ℚ
  /-- `m_AvgRTT` -/
  avgRtt : ℤ
  /-- `m_SumRTT` -/
  sumRtt : ℚ
  /-- `m_RTTStartCS` -/
  rttStartCS : ℚ
  /-- `m_RTTLastCS` -/
  rttLastCS : Option ℚ

namespace RttStats

/-- The statistics after `FWPlayer:init`. -/
def init (start : ℚ) : RttStats := ⟨0, -1, 10000, 0, 0, start, none⟩

/-- `FWPlayer:sync_data("rtt", val)` at time `ti`. -/
def syncData (s : RttStats) (val ti : ℚ) : RttStats :=
  let dt := ti - s.rttLastCS.getD s.rttStartCS
  let sumRtt := s.sumRtt + dt * s.rtt
  let dtAll := ti - s.rttStartCS
  { s with
    rttLastCS := some ti
    sumRtt := sumRtt
    rtt := val
    maxRtt := if s.maxRtt < val then val else s.maxRtt
    minRtt := if val < s.minRtt then val else s.minRtt
    avgRtt := if 0 < dtAll then ⌊sumRtt / dtAll⌋ else s.avgRtt }

/-- The values one after the other. -/
def syncs (s : RttStats) (xs : List (ℚ × ℚ)) : RttStats := xs.foldl (fun s x => s.syncData x.1 x.2) s

@[simp] theorem syncs_nil (s : RttStats) : s.syncs [] = s := rfl

@[simp] theorem syncs_cons (s : RttStats) (x : ℚ × ℚ) (xs : List (ℚ × ℚ)) :
    s.syncs (x :: xs) = (s.syncData x.1 x.2).syncs xs := rfl

/-- The time up to which the sum is made. -/
def since (s : RttStats) : ℚ := s.rttLastCS.getD s.rttStartCS

theorem sumRtt_syncs (s : RttStats) (xs : List (ℚ × ℚ)) :
    (s.syncs xs).sumRtt = s.sumRtt + heldArea s.rtt s.since xs := by
  induction xs generalizing s with
  | nil => simp
  | cons x xs ih =>
      have hsince : (s.syncData x.1 x.2).since = x.2 := rfl
      have hsum : (s.syncData x.1 x.2).sumRtt = s.sumRtt + (x.2 - s.since) * s.rtt := rfl
      have hrtt : (s.syncData x.1 x.2).rtt = x.1 := rfl
      rw [syncs_cons, ih, hsince, hsum, hrtt, heldArea_cons]
      ring

theorem maxRtt_syncs (s : RttStats) (xs : List (ℚ × ℚ)) :
    (s.syncs xs).maxRtt = (xs.map Prod.fst).foldl max s.maxRtt := by
  induction xs generalizing s with
  | nil => rfl
  | cons x xs ih =>
      have hmax : (s.syncData x.1 x.2).maxRtt = max s.maxRtt x.1 := (max_def_lt ..).symm
      rw [syncs_cons, ih, hmax]
      rfl

theorem minRtt_syncs (s : RttStats) (xs : List (ℚ × ℚ)) :
    (s.syncs xs).minRtt = (xs.map Prod.fst).foldl min s.minRtt := by
  induction xs generalizing s with
  | nil => rfl
  | cons x xs ih =>
      have hmin : (s.syncData x.1 x.2).minRtt = min s.minRtt x.1 := by
        rw [min_comm]
        exact (min_def_lt ..).symm
      rw [syncs_cons, ih, hmin]
      rfl

/-- The average is the floor of the sum over the time since the start, once time has passed. -/
theorem avgRtt_syncs {s : RttStats} {xs : List (ℚ × ℚ)} (h : Timely s.since xs)
    (hstart : s.rttStartCS ≤ s.since) (havg : s.avgRtt = if s.rttStartCS < s.since then
      ⌊s.sumRtt / (s.since - s.rttStartCS)⌋ else 0) :
    (s.syncs xs).avgRtt = if s.rttStartCS < lastTime s.since xs then
      ⌊(s.syncs xs).sumRtt / (lastTime s.since xs - s.rttStartCS)⌋ else 0 := by
  induction xs generalizing s with
  | nil => exact havg
  | cons x xs ih =>
      obtain ⟨hle, hrest⟩ := timely_cons.mp h
      rw [syncs_cons, lastTime_cons]
      refine ih (s := s.syncData x.1 x.2) hrest (hstart.trans hle) ?_
      show (if 0 < x.2 - s.rttStartCS then _ else s.avgRtt) = if s.rttStartCS < x.2 then _ else 0
      by_cases hpos : s.rttStartCS < x.2
      · rw [if_pos (sub_pos.mpr hpos), if_pos hpos]
        rfl
      · rw [if_neg (sub_pos.not.mpr hpos), if_neg hpos, havg, if_neg]
        exact fun hlt => hpos (hlt.trans_le hle)

end RttStats

/-- The statistics of a player. -/
def FWPlayer.stats (p : FWPlayer) : RttStats where
  rtt := p.rtt
  maxRtt := p.maxRtt
  minRtt := p.minRtt
  avgRtt := p.avgRtt
  sumRtt := p.sumRtt
  rttStartCS := p.rttStartCS
  rttLastCS := p.rttLastCS.map Nat.cast

/-- **A player's statistics are those over exact numbers**, for the integers it is called with. -/
theorem FWPlayer.stats_syncData (p : FWPlayer) (val : ℤ) (ti : ℕ) :
    (p.syncData val ti).stats = p.stats.syncData val ti := by
  have hsince : (p.rttLastCS.map Nat.cast).getD (p.rttStartCS : ℚ)
      = ((p.rttLastCS.getD p.rttStartCS : ℕ) : ℚ) := by
    cases p.rttLastCS with
    | none => rfl
    | some t => rfl
  have hdiff : ∀ a b : ℕ, (a : ℚ) - b = (((a : ℤ) - b : ℤ) : ℚ) := fun a b => by push_cast; rfl
  simp only [stats, syncData, RttStats.syncData, hsince, hdiff, Option.map_some, ← Int.cast_mul,
    ← Int.cast_add]
  rw [RttStats.mk.injEq]
  refine ⟨rfl, ?_, ?_, ?_, rfl, rfl, rfl⟩
  · rw [apply_ite (Int.cast : ℤ → ℚ)]
    exact if_congr Int.cast_lt.symm rfl rfl
  · rw [apply_ite (Int.cast : ℤ → ℚ)]
    exact if_congr Int.cast_lt.symm rfl rfl
  · by_cases hpos : 0 < (ti : ℤ) - p.rttStartCS
    · rw [if_pos hpos, if_pos (Int.cast_pos.mpr hpos)]
      obtain ⟨n, hn⟩ := Int.eq_ofNat_of_zero_le hpos.le
      rw [hn]
      exact (Rat.floor_intCast_div_natCast _ n).symm
    · rw [if_neg hpos, if_neg fun h => hpos (Int.cast_pos.mp h)]

end FrameSync
