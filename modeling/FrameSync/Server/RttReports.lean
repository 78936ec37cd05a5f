import FrameSync.Foundations.Run
import FrameSync.Server.Ping

/-! # What the scene is told of the RTT

The run of one `Player` from `login` on: ticks of `ServerPing`, acknowledgements of the client, and at
some point the return of `enterwar`, with which the scene becomes known. `calc_rtt` overwrites
`m_OldRTT` before it reports the value, and the report raises while there is no scene. So the scene is
told of every change and no call fails half way exactly when no round trips of five hundredths of a
second on average are measured before `enterwar` returns (`reported_iff`). -/

namespace FrameSync

/-- What happens to a player. -/
inductive PlayerEvent
  /-- A call that has to do with pings. -/
  | call (c : PingCall)
  /-- `enterwar` returns, with `mt.game_id` and `mt.agent`. -/
  | entered (gameId : GameId) (scene : ℕ)
  deriving Repr, DecidableEq

namespace Player

section Step

variable [Wire]

/-- What a handler does at the time `clk`. -/
def handle (p : Player) (e : Clock × PlayerEvent) : Outcome Player (Letter Msg) :=
  match e.2 with
  | .call c => p.pingCall (e.1, c)
  | .entered gameId scene => .done { p with war := some (gameId, scene) } []

/-- One event. The one call of `enterwar` returns once. -/
def playerStep (p : Player) (e : Clock × PlayerEvent) : Option Player :=
  match e.2 with
  | .call _ => some (p.handle e).state
  | .entered .. => if p.war = none then some (p.handle e).state else none

/-- The values of `sync_data` among letters. -/
def reported (ls : List (Letter Msg)) : List ℤ :=
  ls.filterMap fun
    | ⟨.scene _, .syncData _ _ val⟩ => some val
    | _ => none

/-- The values that a run reported to the scene. -/
def reports (tr : List (Player × (Clock × PlayerEvent))) : List ℤ :=
  tr.flatMap fun x => reported (x.1.handle x.2).sent

/-- The last value that a run reported, 0 before the first. -/
def lastReport (tr : List (Player × (Clock × PlayerEvent))) : ℤ := (reports tr).getLastD 0

end Step

/-- The event calls `calc_rtt`. -/
def measures (p : Player) : PlayerEvent → Bool
  | .call .tick => p.pingSession ≠ p.lastPingSession
  | .call (.ack session) => session = some p.pingSession ∧ p.lastPingSession ≠ p.pingSession
  | .entered .. => false

/-- The round trips in the window, with the present one. -/
def roundTrips (p : Player) (now : ℕ) : List ℤ := (keepFive (p.putRtt now)).map Prod.snd

/-- Nothing is measured before `enterwar` returns, or the round trips are short: on average they take
less than five hundredths of a second. -/
def short (p : Player) (e : Clock × PlayerEvent) : Bool :=
  p.war ≠ none ∨ p.measures e.2 = false ∨
    (-4 * (p.roundTrips e.1.now).length ≤ (p.roundTrips e.1.now).sum ∧
      (p.roundTrips e.1.now).sum < 5 * (p.roundTrips e.1.now).length)

/-! ## One measurement -/

/-- The window is not empty after a measurement. -/
theorem roundTrips_ne_nil (p : Player) (now : ℕ) : p.roundTrips now ≠ [] := by
  have hput : p.putRtt now ≠ [] := by
    rw [putRtt]
    split
    · split_ifs
      · simp
      · simp
    · simp
  rw [roundTrips, keepFive]
  split_ifs with hlong
  · obtain ⟨x, xs, hxs⟩ := List.exists_cons_of_ne_nil hput
    rw [hxs] at hlong ⊢
    obtain ⟨y, ys, rfl⟩ := List.exists_cons_of_length_pos (l := xs) (by rw [List.length_cons] at hlong; omega)
    simp
  · rwa [ne_eq, List.map_eq_nil_iff]

/-- The mean of short round trips is near 0. -/
theorem natAbs_measure_lt (p : Player) (now : ℕ) : (p.measure now).rtt.natAbs < 5 ↔
    -4 * (p.roundTrips now).length ≤ (p.roundTrips now).sum ∧
      (p.roundTrips now).sum < 5 * (p.roundTrips now).length := by
  have hpos : (0 : ℤ) < (p.roundTrips now).length := by
    exact_mod_cast List.length_pos_of_ne_nil (roundTrips_ne_nil p now)
  have hrtt : (p.measure now).rtt = (p.roundTrips now).sum / (p.roundTrips now).length := by
    rw [roundTrips, List.length_map]
    rfl
  rw [hrtt, ← Int.ediv_lt_iff_lt_mul hpos, ← Int.le_ediv_iff_mul_le hpos]
  omega

/-- `calc_rtt` with a change that is too small to report. -/
theorem calcRtt_of_lt {p : Player} (now : ℕ) (h : ((p.measure now).rtt - p.oldRTT).natAbs < 5) :
    p.calcRtt now = .done (p.measure now) [] := by
  rw [calcRtt, reportRtt]
  exact if_neg (not_le.mpr h)

/-- `calc_rtt` with a change to report, when the scene is known. -/
theorem calcRtt_of_le {p : Player} (now : ℕ) {w : GameId × ℕ} (hwar : p.war = some w)
    (h : 5 ≤ ((p.measure now).rtt - p.oldRTT).natAbs) :
    p.calcRtt now = .done { p.measure now with oldRTT := (p.measure now).rtt }
      [⟨.scene w.2, .syncData w.1 p.id (p.measure now).rtt⟩] := by
  rw [calcRtt, reportRtt]
  refine (if_pos h).trans ?_
  split
  · rename_i heq
    obtain rfl := Option.some.inj (hwar.symm.trans heq)
    rfl
  · rename_i heq
    cases hwar.symm.trans heq

/-- `calc_rtt` with a change to report, before `enterwar` returned. -/
theorem calcRtt_of_pending {p : Player} (now : ℕ) (hwar : p.war = none)
    (h : 5 ≤ ((p.measure now).rtt - p.oldRTT).natAbs) :
    p.calcRtt now = .raise { p.measure now with oldRTT := (p.measure now).rtt } := by
  rw [calcRtt, reportRtt]
  refine (if_pos h).trans ?_
  split
  · rename_i heq
    cases hwar.symm.trans heq
  · rfl

/-! ## One event -/

section Wired

variable [Wire]

/-- Every ping packs. -/
def PingsPack : Prop := ∀ session timestamp isResp sec,
  Wire.packs (.gs2cPing session timestamp isResp) sec = true

/-- A ping goes out and reports nothing. -/
theorem sendPing_done (hwire : PingsPack) (clk : Clock) (isResp : Bool) (p : Player) :
    (sendPing clk isResp p).raised = false ∧ reported (sendPing clk isResp p).sent = [] := by
  rw [sendPing, if_pos (hwire ..)]
  exact ⟨rfl, rfl⟩

/-- What an event that measures does: `calc_rtt` of an object with the same window, and a ping. -/
theorem handle_of_measures {p : Player} {e : Clock × PlayerEvent} (h : p.measures e.2 = true) :
    ∃ q : Player, ∃ isResp, q.oldRTT = p.oldRTT ∧ q.war = p.war ∧ q.measure e.1.now =
        { p.measure e.1.now with lastPingSession := q.lastPingSession } ∧
      p.handle e = (q.calcRtt e.1.now).andThen (sendPing e.1 isResp) := by
  obtain ⟨clk, e⟩ := e
  cases e with
  | call c =>
      cases c with
      | tick =>
          refine ⟨p, false, rfl, rfl, rfl, ?_⟩
          have hne : p.pingSession ≠ p.lastPingSession := of_decide_eq_true h
          show p.checkGsPing clk = _
          rw [checkGsPing, if_neg hne]
      | ack session =>
          obtain ⟨hsession, hne⟩ : session = some p.pingSession ∧ p.lastPingSession ≠ p.pingSession :=
            of_decide_eq_true h
          refine ⟨{ p with lastPingSession := p.pingSession }, true, rfl, rfl, rfl, ?_⟩
          show p.clientPing session clk = _
          rw [clientPing, if_neg (not_not.mpr hsession), if_neg hne]
  | entered => cases h

/-- Any other event reports nothing and does not touch the values. -/
theorem handle_of_not_measures (hwire : PingsPack) {p : Player} {e : Clock × PlayerEvent}
    (h : p.measures e.2 = false) :
    (p.handle e).raised = false ∧ reported (p.handle e).sent = [] ∧
      (p.handle e).state.oldRTT = p.oldRTT ∧ (p.war ≠ none → (p.handle e).state.war ≠ none) := by
  obtain ⟨clk, e⟩ := e
  cases e with
  | call c =>
      cases c with
      | tick =>
          have heq : p.pingSession = p.lastPingSession := not_not.mp (of_decide_eq_false h)
          have hhandle : p.handle (clk, .call .tick) = sendPing clk false
              { p with pingSession := p.pingSession + 1, pingTime := clk.now } := if_pos heq
          obtain ⟨hraised, hreported⟩ := sendPing_done hwire clk false
            { p with pingSession := p.pingSession + 1, pingTime := clk.now }
          rw [hhandle, sendPing_state]
          exact ⟨hraised, hreported, rfl, fun h => h⟩
      | ack session =>
          have hnot : ¬ (session = some p.pingSession ∧ p.lastPingSession ≠ p.pingSession) :=
            of_decide_eq_false h
          have hhandle : p.handle (clk, .call (.ack session)) = .done p [] := by
            show p.clientPing session clk = _
            rw [clientPing]
            -- It acknowledges another session, or the one that was already acknowledged.
            by_cases hsession : session = some p.pingSession
            · have hlast : p.lastPingSession = p.pingSession :=
                not_not.mp fun hne => hnot ⟨hsession, hne⟩
              rw [if_neg (not_not.mpr hsession), if_pos hlast]
            · rw [if_pos hsession]
          rw [hhandle]
          exact ⟨rfl, rfl, rfl, fun h => h⟩
  | entered gameId scene => exact ⟨rfl, rfl, rfl, fun _ => Option.some_ne_none _⟩

/-- A measurement that changes little reports nothing. -/
theorem measured_of_lt (hwire : PingsPack) {p : Player} {e : Clock × PlayerEvent} (h : p.measures e.2 = true)
    (hlt : ((p.measure e.1.now).rtt - p.oldRTT).natAbs < 5) :
    (p.handle e).raised = false ∧ reported (p.handle e).sent = [] ∧
      (p.handle e).state.oldRTT = p.oldRTT ∧ (p.handle e).state.war = p.war ∧
      (p.handle e).state.rtt = (p.measure e.1.now).rtt := by
  obtain ⟨q, isResp, hold, hwar, hq, hhandle⟩ := handle_of_measures h
  have hrtt : (q.measure e.1.now).rtt = (p.measure e.1.now).rtt := by rw [hq]
  have hcalc := calcRtt_of_lt (p := q) e.1.now (by rw [hrtt, hold]; exact hlt)
  obtain ⟨hraised, hreported⟩ := sendPing_done hwire e.1 isResp (q.measure e.1.now)
  rw [hhandle, hcalc, Outcome.done_andThen, sendPing_state]
  exact ⟨hraised, hreported, hold, hwar, hrtt⟩

/-- A measurement that changes much is reported, when the scene is known. -/
theorem measured_of_le (hwire : PingsPack) {p : Player} {e : Clock × PlayerEvent} (h : p.measures e.2 = true)
    (hknown : p.war ≠ none) (hle : 5 ≤ ((p.measure e.1.now).rtt - p.oldRTT).natAbs) :
    (p.handle e).raised = false ∧ reported (p.handle e).sent = [(p.measure e.1.now).rtt] ∧
      (p.handle e).state.oldRTT = (p.measure e.1.now).rtt ∧ (p.handle e).state.war = p.war ∧
      (p.handle e).state.rtt = (p.measure e.1.now).rtt := by
  obtain ⟨q, isResp, hold, hwar, hq, hhandle⟩ := handle_of_measures h
  obtain ⟨w, hw⟩ := Option.ne_none_iff_exists'.mp hknown
  have hrtt : (q.measure e.1.now).rtt = (p.measure e.1.now).rtt := by rw [hq]
  have hcalc := calcRtt_of_le e.1.now (hwar.trans hw) (by rw [hrtt, hold]; exact hle)
  obtain ⟨hraised, hreported⟩ := sendPing_done hwire e.1 isResp
    { q.measure e.1.now with oldRTT := (q.measure e.1.now).rtt }
  rw [hhandle, hcalc, Outcome.done_andThen, sendPing_state]
  refine ⟨hraised, ?_, hrtt, hwar, hrtt⟩
  rw [← hrtt]
  exact congrArg ((q.measure e.1.now).rtt :: ·) hreported

/-- It raises before `enterwar` returned. -/
theorem measured_of_pending {p : Player} {e : Clock × PlayerEvent} (h : p.measures e.2 = true)
    (hpending : p.war = none) (hle : 5 ≤ ((p.measure e.1.now).rtt - p.oldRTT).natAbs) :
    (p.handle e).raised = true := by
  obtain ⟨q, isResp, hold, hwar, hq, hhandle⟩ := handle_of_measures h
  have hrtt : (q.measure e.1.now).rtt = (p.measure e.1.now).rtt := by rw [hq]
  have hcalc := calcRtt_of_pending e.1.now (hwar.trans hpending) (by rw [hrtt, hold]; exact hle)
  rw [hhandle, hcalc]
  rfl

/-! ## Runs -/

/-- In every step of the run no handler fails half way, and a measurement with a known scene leaves the
last reported value near `m_RTT`. -/
def Told (tr : List (Player × (Clock × PlayerEvent))) : Prop :=
  ∀ pre p e post, tr = pre ++ (p, e) :: post → (p.handle e).raised = false ∧
    (p.war ≠ none → p.measures e.2 = true →
      (lastReport (pre ++ [(p, e)]) - (p.handle e).state.rtt).natAbs < 5)

theorem told_snoc {tr : List (Player × (Clock × PlayerEvent))} {p : Player} {e : Clock × PlayerEvent} :
    Told (tr ++ [(p, e)]) ↔ Told tr ∧ (p.handle e).raised = false ∧
      (p.war ≠ none → p.measures e.2 = true →
        (lastReport (tr ++ [(p, e)]) - (p.handle e).state.rtt).natAbs < 5) := by
  constructor
  · intro h
    refine ⟨fun pre q e' post heq => h pre q e' (post ++ [(p, e)]) ?_, h tr p e [] rfl⟩
    rw [heq, List.append_assoc, List.cons_append]
  · rintro ⟨h, hlast⟩ pre q e' post heq
    rcases List.eq_nil_or_concat post with rfl | ⟨post, y, rfl⟩
    · obtain ⟨rfl, hy⟩ := List.append_inj' heq rfl
      obtain ⟨rfl, rfl⟩ := Prod.mk.inj (List.cons.inj hy).1
      exact hlast
    · rw [List.concat_eq_append, ← List.cons_append, ← List.append_assoc] at heq
      exact h pre q e' post (List.append_inj_left' heq rfl)

theorem reports_snoc (tr : List (Player × (Clock × PlayerEvent))) (p : Player)
    (e : Clock × PlayerEvent) : reports (tr ++ [(p, e)]) = reports tr ++ reported (p.handle e).sent := by
  simp [reports]

theorem lastReport_snoc_nil {tr : List (Player × (Clock × PlayerEvent))} {p : Player}
    {e : Clock × PlayerEvent} (h : reported (p.handle e).sent = []) :
    lastReport (tr ++ [(p, e)]) = lastReport tr := by
  rw [lastReport, reports_snoc, h, List.append_nil]
  rfl

theorem lastReport_snoc_singleton {tr : List (Player × (Clock × PlayerEvent))} {p : Player}
    {e : Clock × PlayerEvent} {val : ℤ} (h : reported (p.handle e).sent = [val]) :
    lastReport (tr ++ [(p, e)]) = val := by
  rw [lastReport, reports_snoc, h, List.getLastD_eq_getLast?, List.getLast?_append]
  rfl

/-- The scene was told of `m_OldRTT`, which is 0 until it is known. -/
def Kept (tr : List (Player × (Clock × PlayerEvent))) (p : Player) : Prop :=
  lastReport tr = p.oldRTT ∧ (p.war = none → p.oldRTT = 0)

/-- A short measurement changes nothing that is not reported. -/
theorem Kept.step (hwire : PingsPack) {tr : List (Player × (Clock × PlayerEvent))} {p : Player}
    (h : Kept tr p) {e : Clock × PlayerEvent} (hshort : p.short e = true) :
    ((p.handle e).raised = false ∧ (p.war ≠ none → p.measures e.2 = true →
      (lastReport (tr ++ [(p, e)]) - (p.handle e).state.rtt).natAbs < 5)) ∧
    Kept (tr ++ [(p, e)]) (p.handle e).state := by
  obtain ⟨hlast, hzero⟩ := h
  cases hm : p.measures e.2 with
  | false =>
      obtain ⟨hraised, hsent, hold, hwar⟩ := handle_of_not_measures hwire hm
      refine ⟨⟨hraised, fun _ h => nomatch h⟩, ?_, fun hnone => ?_⟩
      · rw [lastReport_snoc_nil hsent, hold, hlast]
      · rw [hold]
        by_contra hne
        exact hwar (fun h => hne (hzero h)) hnone
  | true =>
      by_cases hlt : ((p.measure e.1.now).rtt - p.oldRTT).natAbs < 5
      · obtain ⟨hraised, hsent, hold, hwar, hrtt⟩ := measured_of_lt hwire hm hlt
        refine ⟨⟨hraised, fun _ _ => ?_⟩, ?_, fun hnone => ?_⟩
        · rw [lastReport_snoc_nil hsent, hlast, hrtt, ← Int.natAbs_neg, neg_sub]
          exact hlt
        · rw [lastReport_snoc_nil hsent, hold, hlast]
        · rw [hold]
          exact hzero (hwar.symm.trans hnone)
      · -- the change is reported, so the scene is known
        have hknown : p.war ≠ none := by
          intro hnone
          rw [hzero hnone, sub_zero] at hlt
          simp only [short, hnone, hm, decide_eq_true_eq] at hshort
          refine hlt ((natAbs_measure_lt p e.1.now).mpr ?_)
          simpa using hshort
        obtain ⟨hraised, hsent, hold, hwar, hrtt⟩ := measured_of_le hwire hm hknown (not_lt.mp hlt)
        refine ⟨⟨hraised, fun _ _ => ?_⟩, ?_, fun hnone => absurd (hwar.symm.trans hnone) hknown⟩
        · rw [lastReport_snoc_singleton hsent, hrtt, sub_self]
          decide
        · rw [lastReport_snoc_singleton hsent, hold]

/-- A measurement that is not short raises. -/
theorem Kept.raised {tr : List (Player × (Clock × PlayerEvent))} {p : Player} (h : Kept tr p)
    {e : Clock × PlayerEvent} (hshort : p.short e = false) : (p.handle e).raised = true := by
  obtain ⟨hpending, hm, hlong⟩ : p.war = none ∧ p.measures e.2 = true ∧
      ¬ (-4 * (p.roundTrips e.1.now).length ≤ (p.roundTrips e.1.now).sum ∧
        (p.roundTrips e.1.now).sum < 5 * (p.roundTrips e.1.now).length) := by
    have hnot := of_decide_eq_false hshort
    rw [not_or, not_or] at hnot
    exact ⟨not_not.mp hnot.1, by simpa using hnot.2.1, hnot.2.2⟩
  refine measured_of_pending hm hpending ?_
  rw [h.2 hpending, sub_zero]
  exact not_lt.mp fun hlt => hlong ((natAbs_measure_lt p e.1.now).mp hlt)

/-- The runs in which the scene is told. -/
theorem told_iff (hwire : PingsPack) {id : Pid} {mArgs : LoginArgs} {now : ℕ}
    {tr : List (Player × (Clock × PlayerEvent))} {p : Player}
    (h : Run playerStep (Player.init id mArgs now) tr p) :
    (Told tr ↔ ∀ x ∈ tr, x.1.short x.2 = true) ∧ (Told tr → Kept tr p) := by
  refine h.invariant (P := fun tr p => (Told tr ↔ ∀ x ∈ tr, short x.1 x.2 = true) ∧ (Told tr → Kept tr p))
    ?_ ?_
  · refine ⟨⟨fun _ x hx => absurd hx List.not_mem_nil, fun _ pre q e post heq => ?_⟩,
      fun _ => ⟨rfl, fun _ => rfl⟩⟩
    exact absurd heq.symm (by simp)
  · intro tr p e p' _ hp hstep
    obtain ⟨hiff, hkept⟩ := hp
    obtain rfl : (p.handle e).state = p' := by
      obtain ⟨clk, e⟩ := e
      cases e with
      | call c => exact Option.some.inj hstep
      | entered gameId scene =>
          rw [playerStep] at hstep
          dsimp only at hstep
          split_ifs at hstep
          exact Option.some.inj hstep
    rw [told_snoc]
    refine ⟨⟨fun htold x hx => ?_, fun hall => ?_⟩, fun htold => ?_⟩
    · rcases List.mem_append.mp hx with hx | hx
      · exact hiff.mp htold.1 x hx
      · obtain rfl := List.mem_singleton.mp hx
        by_contra hlong
        have hraised := (hkept htold.1).raised (Bool.not_eq_true _ ▸ hlong)
        rw [htold.2.1] at hraised
        cases hraised
    · have htold := hiff.mpr fun x hx => hall x (List.mem_append_left _ hx)
      have hshort := hall (p, e) (List.mem_append_right _ (List.mem_singleton_self _))
      exact ⟨htold, ((hkept htold).step hwire hshort).1⟩
    · -- a step that did not raise was short
      have hshort : p.short e = true := by
        by_contra hlong
        have hraised := (hkept htold.1).raised (Bool.not_eq_true _ ▸ hlong)
        rw [htold.2.1] at hraised
        cases hraised
      exact ((hkept htold.1).step hwire hshort).2

end Wired

section Sproto

attribute [local instance] sprotoWire

/-- **The scene is told of the RTT** in a run exactly when every measurement before `enterwar` returns is
of short round trips. -/
theorem reported_iff {id : Pid} {mArgs : LoginArgs} {now : ℕ}
    {tr : List (Player × (Clock × PlayerEvent))} {p : Player}
    (h : Run playerStep (Player.init id mArgs now) tr p) :
    Told tr ↔ ∀ x ∈ tr, x.1.short x.2 = true :=
  (told_iff packs_gs2cPing h).1

/-- A player that logs in at the time 0. -/
def newcomer : Player := Player.init 1 ⟨1, 1, [97], ⟨some 1, some 2, some 3⟩, 1⟩ 0

/-- The session that is opened at the time `t` is acknowledged `rtt` later. -/
def roundTrip (session : ℤ) (t rtt : ℕ) : List (Clock × PlayerEvent) :=
  [(⟨t, t / 100⟩, .call .tick), (⟨t + rtt, (t + rtt) / 100⟩, .call (.ack (some session)))]

/-- **The scene is not told.** `ServerPing` opens the first session 100 hundredths after the login, and a
round trip of seven is over before `enterwar` returns: `client_ping` raises, and after the next round
trip of seven the last reported value is still 0. -/
theorem report_lost :
    ∃ tr p, Run playerStep newcomer tr p ∧ (∃ x ∈ tr, (x.1.handle x.2).raised = true) ∧
      p.war ≠ none ∧ p.rtt = 7 ∧ lastReport tr = 0 := by
  have hrun : (runFrom playerStep newcomer
      (roundTrip 1 100 7 ++ (⟨110, 1⟩, .entered 1 1) :: roundTrip 2 200 7)).any (fun p =>
        p.war.isSome && p.rtt = 7) = true := by decide +kernel
  obtain ⟨p, hp, hstate⟩ := Option.any_eq_true _ _ |>.mp hrun
  simp only [Bool.and_eq_true, decide_eq_true_eq] at hstate
  refine ⟨_, p, run_of_runFrom hp, ?_, Option.isSome_iff_ne_none.mp hstate.1, hstate.2, ?_⟩
  · have hraised : (traceFrom playerStep newcomer
        (roundTrip 1 100 7 ++ (⟨110, 1⟩, .entered 1 1) :: roundTrip 2 200 7)).any (fun x =>
          (x.1.handle x.2).raised) = true := by decide +kernel
    exact List.any_eq_true.mp hraised
  · decide +kernel

/-- A round trip of three hundredths while `enterwar` is pending, and one of twenty afterwards. -/
theorem reported_later :
    Told (traceFrom playerStep newcomer
      (roundTrip 1 100 3 ++ (⟨110, 1⟩, .entered 1 1) :: roundTrip 2 200 20)) := by
  have hrun : (runFrom playerStep newcomer
      (roundTrip 1 100 3 ++ (⟨110, 1⟩, .entered 1 1) :: roundTrip 2 200 20)).isSome = true := by
    decide +kernel
  obtain ⟨p, hp⟩ := Option.isSome_iff_exists.mp hrun
  exact (reported_iff (run_of_runFrom hp)).mpr (by decide +kernel)

end Sproto

end Player

end FrameSync
