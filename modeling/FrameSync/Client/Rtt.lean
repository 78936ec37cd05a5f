import FrameSync.Client.GameObj
import FrameSync.Scene.RttStats

/-! # The client's RTT

`server_ping` and `refresh_rtt` of `game.py`, with the readings of `time.time()` as exact numbers.
`refresh_rtt` is a second copy of `FWPlayer:sync_data`, but its caller has already overwritten `m_RTT`,
so a value counts for the time before it where on the server it counts for the time after it. The two
sums are the same exactly when the jumps of the values, each times the wait before it, add up to 0
(`sameStats_iff`). -/

namespace FrameSync.Client

/-- `CGameObj`, as far as it measures. -/
structure RttMeter where
  /-- `m_lRTTValues` -/
  rttValues : List ℚ
  /-- `m_dRTTSessions` -/
  rttSessions : ℕ → Option ℚ
  /-- `m_RTT` -/
  rtt : ℚ
  /-- `m_OldRTT` -/
  oldRtt : ℚ
  /-- `m_MaxRTT` -/
  maxRtt : ℚ
  /-- `m_MinRTT` -/
  minRtt : ℚ
  /-- `m_AvgRTT` -/
  avgRtt : ℚ
  /-- `m_SumRTT` -/
  sumRtt : ℚ
  /-- `m_RTTStartMS` -/
  rttStartMS : ℚ
  /-- `m_RTTLastMS` -/
  rttLastMS : ℚ

namespace RttMeter

/-- `CGameObj.__init__` at the time `start`. -/
def init (start : ℚ) : RttMeter where
  rttValues := []
  rttSessions := fun _ => none
  rtt := 0
  oldRtt := 0
  maxRtt := -1
  minRtt := 10000
  avgRtt := 0
  sumRtt := 0
  rttStartMS := start
  rttLastMS := start

/-- `refresh_rtt` at the time `ti`. -/
def refreshRtt (m : RttMeter) (val ti : ℚ) : RttMeter :=
  let dt := ti - m.rttLastMS
  let sumRtt := m.sumRtt + dt * m.rtt
  let dtAll := ti - m.rttStartMS
  { m with
    rttLastMS := ti
    sumRtt := sumRtt
    rtt := val
    maxRtt := if m.maxRtt < val then val else m.maxRtt
    minRtt := if val < m.minRtt then val else m.minRtt
    avgRtt := if 0 < dtAll then sumRtt / dtAll else m.avgRtt }

/-- `m_lRTTValues` with one more value; at most five are kept. -/
def keepFive (values : List ℚ) (dt : ℚ) : List ℚ :=
  if 5 < (values ++ [dt]).length then (values ++ [dt]).tail else values ++ [dt]

/-- What `server_ping` does with a new value of `m_RTT`: it overwrites it, and reports a change of a
twentieth of a second or more to `refresh_rtt`. -/
def setRtt (m : RttMeter) (val ti : ℚ) : RttMeter :=
  if 1 / 20 ≤ |m.oldRtt - val| then { m with rtt := val, oldRtt := val }.refreshRtt val ti
  else { m with rtt := val }

/-- `server_ping`, with the readings `now` and `ti` of the clock, the second in `refresh_rtt`, and the
sessions for which it sends `c2gs_ping`. An answer for a session that is not held raises. -/
def serverPing (m : RttMeter) (session : ℕ) (isResp : Bool) (now ti : ℚ) :
    Except PyError (RttMeter × List ℕ) :=
  if isResp then
    match m.rttSessions session with
    | none => .error .keyError
    | some last =>
        let values := keepFive m.rttValues (now - last)
        .ok ({ m with
            rttSessions := Function.update m.rttSessions session none
            rttValues := values }.setRtt (values.sum / values.length) ti, [])
  else if m.rttSessions session = none then
    .ok ({ m with rttSessions := Function.update m.rttSessions session (some now) }, [session])
  else .ok (m, [])

/-! ## Reports -/

/-- A report of `val` at the time `ti`, the way `server_ping` makes it. -/
def report (m : RttMeter) (val ti : ℚ) : RttMeter := { m with rtt := val }.refreshRtt val ti

/-- The reports one after the other. -/
def reports (m : RttMeter) (xs : List (ℚ × ℚ)) : RttMeter := xs.foldl (fun m x => m.report x.1 x.2) m

@[simp] theorem reports_nil (m : RttMeter) : m.reports [] = m := rfl

@[simp] theorem reports_cons (m : RttMeter) (x : ℚ × ℚ) (xs : List (ℚ × ℚ)) :
    m.reports (x :: xs) = (m.report x.1 x.2).reports xs := rfl

/-- **On the client a value counts for the time before it.** -/
theorem sumRtt_reports (m : RttMeter) (xs : List (ℚ × ℚ)) :
    (m.reports xs).sumRtt = m.sumRtt + ledArea m.rttLastMS xs := by
  induction xs generalizing m with
  | nil => simp
  | cons x xs ih =>
      have hlast : (m.report x.1 x.2).rttLastMS = x.2 := rfl
      have hsum : (m.report x.1 x.2).sumRtt = m.sumRtt + (x.2 - m.rttLastMS) * x.1 := rfl
      rw [reports_cons, ih, hlast, hsum, ledArea_cons]
      ring

theorem maxRtt_reports (m : RttMeter) (xs : List (ℚ × ℚ)) :
    (m.reports xs).maxRtt = (xs.map Prod.fst).foldl max m.maxRtt := by
  induction xs generalizing m with
  | nil => rfl
  | cons x xs ih =>
      have hmax : (m.report x.1 x.2).maxRtt = max m.maxRtt x.1 := (max_def_lt ..).symm
      rw [reports_cons, ih, hmax]
      rfl

theorem minRtt_reports (m : RttMeter) (xs : List (ℚ × ℚ)) :
    (m.reports xs).minRtt = (xs.map Prod.fst).foldl min m.minRtt := by
  induction xs generalizing m with
  | nil => rfl
  | cons x xs ih =>
      have hmin : (m.report x.1 x.2).minRtt = min m.minRtt x.1 := by
        rw [min_comm]
        exact (min_def_lt ..).symm
      rw [reports_cons, ih, hmin]
      rfl

@[simp] theorem rttStartMS_reports (m : RttMeter) (xs : List (ℚ × ℚ)) :
    (m.reports xs).rttStartMS = m.rttStartMS := by
  induction xs generalizing m with
  | nil => rfl
  | cons x xs ih => rw [reports_cons, ih]; rfl

/-- The average is the sum over the time since the start, once time has passed. -/
theorem avgRtt_reports {m : RttMeter} {xs : List (ℚ × ℚ)} (h : Timely m.rttLastMS xs)
    (hstart : m.rttStartMS ≤ m.rttLastMS) (havg : m.avgRtt = if m.rttStartMS < m.rttLastMS then
      m.sumRtt / (m.rttLastMS - m.rttStartMS) else 0) :
    (m.reports xs).avgRtt = if m.rttStartMS < lastTime m.rttLastMS xs then
      (m.reports xs).sumRtt / (lastTime m.rttLastMS xs - m.rttStartMS) else 0 := by
  induction xs generalizing m with
  | nil => exact havg
  | cons x xs ih =>
      obtain ⟨hle, hrest⟩ := timely_cons.mp h
      rw [reports_cons, lastTime_cons]
      refine ih (m := m.report x.1 x.2) hrest (hstart.trans hle) ?_
      show (if 0 < x.2 - m.rttStartMS then _ else m.avgRtt) = if m.rttStartMS < x.2 then _ else 0
      by_cases hpos : m.rttStartMS < x.2
      · rw [if_pos (sub_pos.mpr hpos), if_pos hpos]
        rfl
      · rw [if_neg (sub_pos.not.mpr hpos), if_neg hpos, havg, if_neg]
        exact fun hlt => hpos (hlt.trans_le hle)

/-! ## Client and server -/

/-- The client's statistics are the server's, whose average is a floor. -/
structure SameStats (m : RttMeter) (s : RttStats) : Prop where
  /-- The sums. -/
  sumRtt : m.sumRtt = s.sumRtt
  /-- The greatest values. -/
  maxRtt : m.maxRtt = s.maxRtt
  /-- The least values. -/
  minRtt : m.minRtt = s.minRtt
  /-- The averages. -/
  avgRtt : ⌊m.avgRtt⌋ = s.avgRtt

/-- **Client and server compute the same statistics** of the same samples exactly when the jumps of the
values, from 0 at the start, each times the wait before it, add up to 0. -/
theorem sameStats_iff (start : ℚ) {xs : List (ℚ × ℚ)} (h : Timely start xs) :
    SameStats ((init start).reports xs) ((RttStats.init start).syncs xs) ↔ jumpArea 0 start xs = 0 := by
  have hclient : ((init start).reports xs).sumRtt = ledArea start xs := by
    rw [sumRtt_reports]
    exact zero_add _
  have hserver : ((RttStats.init start).syncs xs).sumRtt = heldArea 0 start xs := by
    rw [RttStats.sumRtt_syncs]
    exact zero_add _
  -- The client weighs a value by the wait before it, the server by the one after: the sums differ
  -- by the jumps.
  have hdiff := ledArea_eq 0 start xs
  constructor
  · intro hsame
    have hsum := hsame.sumRtt
    rw [hclient, hserver, hdiff] at hsum
    exact left_eq_add.mp hsum.symm
  · intro hjump
    have hsum : ((init start).reports xs).sumRtt = ((RttStats.init start).syncs xs).sumRtt := by
      rw [hclient, hserver, hdiff, hjump, add_zero]
    -- The largest and the smallest value do not depend on the weights, the average only through the
    -- sum.
    refine ⟨hsum, ?_, ?_, ?_⟩
    · rw [maxRtt_reports, RttStats.maxRtt_syncs]
      rfl
    · rw [minRtt_reports, RttStats.minRtt_syncs]
      rfl
    · have hm : ((init start).reports xs).avgRtt = if start < lastTime start xs then
          ((init start).reports xs).sumRtt / (lastTime start xs - start) else 0 :=
        avgRtt_reports (m := init start) h le_rfl (if_neg (lt_irrefl start)).symm
      have hs : ((RttStats.init start).syncs xs).avgRtt = if start < lastTime start xs then
          ⌊((RttStats.init start).syncs xs).sumRtt / (lastTime start xs - start)⌋ else 0 :=
        RttStats.avgRtt_syncs (s := RttStats.init start) h le_rfl (if_neg (lt_irrefl start)).symm
      rw [hm, hs, hsum]
      split_ifs
      · rfl
      · exact Int.floor_zero

/-- **The statistics differ.** After one sample of 100 at the time 10 the client's sum is 1000 and its
average 100, the server's are 0. -/
theorem stats_differ :
    ((init 0).reports [(100, 10)]).sumRtt = 1000 ∧
      ((RttStats.init 0).syncs [(100, 10)]).sumRtt = 0 ∧
      ((init 0).reports [(100, 10)]).avgRtt = 100 ∧ ((RttStats.init 0).syncs [(100, 10)]).avgRtt = 0 := by
  decide +kernel

/-- Samples that are all 5, the first of them at the start. -/
theorem sameStats_steady :
    SameStats ((init 0).reports [(5, 0), (5, 7), (5, 9)])
      ((RttStats.init 0).syncs [(5, 0), (5, 7), (5, 9)]) :=
  (sameStats_iff 0 (by norm_num [timely_cons, timely_nil])).mpr (by decide +kernel)

end RttMeter

end FrameSync.Client
