import FrameSync.Server.Agent
import Mathlib.Data.Rat.Floor

/-! # The RTT window of a player

`check_gs_ping` and `client_ping` of one `Player`, in any order and with any sessions. The clock at
which each session was opened and the clock at which it was acknowledged are two logs of a sequence of
calls (`opened`, `acked`), and `Windowed` says how the object depends on them: the two counters are the
lengths of the logs, and the entry of an acknowledged session is the difference of its two clocks
(`pingWindow`). -/

namespace FrameSync

/-- A longer list has the elements of a first part where they were. -/
theorem getElem?_of_part {α : Type*} {l l' : List α} (h : l <+: l') {n : ℕ} {a : α}
    (ha : l[n]? = some a) : l'[n]? = some a := by
  obtain ⟨hlt, rfl⟩ := List.getElem?_eq_some_iff.mp ha
  exact List.prefix_iff_getElem?.mp h n hlt

/-- Increasing integers below a bound are as far below it as there are of them. -/
theorem add_length_le_of_pairwise_lt {a b : ℤ} {l : List ℤ} (h : (a :: l).Pairwise (· < ·))
    (hb : ∀ x ∈ a :: l, x < b) : a + (l.length + 1) ≤ b := by
  induction l generalizing a with
  | nil =>
      have ha := hb a List.mem_cons_self
      simp only [List.length_nil, Nat.cast_zero]
      omega
  | cons c l ih =>
      obtain ⟨hfirst, hrest⟩ := List.pairwise_cons.mp h
      have hac := hfirst c List.mem_cons_self
      have hc := ih hrest fun x hx => hb x (List.mem_cons_of_mem a hx)
      rw [List.length_cons]
      omega

/-- A call that has to do with pings. -/
inductive PingCall
  /-- `check_gs_ping`, by the timer `ServerPing`. -/
  | tick
  /-- `client_ping(session)` -/
  | ack (session : Option ℤ)
  deriving Repr, DecidableEq

namespace Player

variable [Wire]

/-- One call. -/
def pingCall (p : Player) (c : Clock × PingCall) : Outcome Player (Letter Msg) :=
  match c.2 with
  | .tick => p.checkGsPing c.1
  | .ack session => p.clientPing session c.1

/-- The call opens a session: its clock. -/
def opening (p : Player) (c : Clock × PingCall) : List ℕ :=
  if (p.pingCall c).state.pingSession = p.pingSession then [] else [c.1.now]

/-- The call acknowledges a session: its clock. -/
def acking (p : Player) (c : Clock × PingCall) : List ℕ :=
  if (p.pingCall c).state.lastPingSession = p.lastPingSession then [] else [c.1.now]

/-- A sequence of calls. -/
def pingCalls (p : Player) (calls : List (Clock × PingCall)) : Outcome Player (Letter Msg) :=
  Outcome.after pingCall p calls

/-- The clocks at which the sessions 1, 2, … were opened. -/
def opened (p : Player) (calls : List (Clock × PingCall)) : List ℕ :=
  Outcome.observed pingCall p opening calls

/-- The clocks at which the sessions 1, 2, … were acknowledged. -/
def acked (p : Player) (calls : List (Clock × PingCall)) : List ℕ :=
  Outcome.observed pingCall p acking calls

/-- The logs of a sequence of calls only grow. -/
theorem acked_append (p : Player) (calls calls' : List (Clock × PingCall)) :
    p.acked calls <+: p.acked (calls ++ calls') := by
  induction calls' using List.reverseRecOn with
  | nil => simp
  | append_singleton calls' c ih =>
      rw [← List.append_assoc, acked, acked, Outcome.observed_snoc]
      exact ih.trans (List.prefix_append _ _)

theorem opened_append (p : Player) (calls calls' : List (Clock × PingCall)) :
    p.opened calls <+: p.opened (calls ++ calls') := by
  induction calls' using List.reverseRecOn with
  | nil => simp
  | append_singleton calls' c ih =>
      rw [← List.append_assoc, opened, opened, Outcome.observed_snoc]
      exact ih.trans (List.prefix_append _ _)

/-! ## The calls on the object -/

/-- What `calc_rtt` leaves, whether it raises or not. -/
def calculated (p : Player) (now : ℕ) : Player :=
  { p.measure now with
    oldRTT := if 5 ≤ ((p.measure now).rtt - p.oldRTT).natAbs then (p.measure now).rtt else p.oldRTT }

omit [Wire] in
@[simp] theorem calcRtt_state (p : Player) (now : ℕ) : (p.calcRtt now).state = p.calculated now := by
  rw [calcRtt, reportRtt, calculated]
  show (if 5 ≤ ((p.measure now).rtt - p.oldRTT).natAbs then _ else _ : Outcome _ _).state = _
  split_ifs with hdiff
  · split
    · rfl
    · rfl
  · rfl

@[simp] theorem sendPing_state (clk : Clock) (isResp : Bool) (p : Player) :
    (sendPing clk isResp p).state = p := by
  rw [sendPing]
  split
  · rfl
  · rfl

theorem andThen_sendPing_state (r : Outcome Player (Letter Msg)) (clk : Clock) (isResp : Bool) :
    (r.andThen (sendPing clk isResp)).state = r.state := by
  rw [Outcome.andThen]
  split
  · rfl
  · exact sendPing_state clk isResp r.state

/-- The object after `check_gs_ping`: a new session, or another value for the one that is open. -/
theorem checkGsPing_state (p : Player) (clk : Clock) : (p.checkGsPing clk).state =
    if p.pingSession = p.lastPingSession then
      { p with pingSession := p.pingSession + 1, pingTime := clk.now }
    else p.calculated clk.now := by
  rw [checkGsPing]
  split_ifs
  · exact sendPing_state ..
  · rw [andThen_sendPing_state, calcRtt_state]

/-- The object after `client_ping`: only the first acknowledgement of the open session counts. -/
theorem clientPing_state (p : Player) (session : Option ℤ) (clk : Clock) :
    (p.clientPing session clk).state =
      if session = some p.pingSession ∧ p.lastPingSession ≠ p.pingSession then
        { p with lastPingSession := p.pingSession }.calculated clk.now
      else p := by
  rw [clientPing]
  by_cases hsession : session = some p.pingSession
  · by_cases hlast : p.lastPingSession = p.pingSession
    · rw [if_neg (not_not.mpr hsession), if_pos hlast, if_neg fun h => h.2 hlast]
      rfl
    · rw [if_neg (not_not.mpr hsession), if_neg hlast, if_pos ⟨hsession, hlast⟩,
        andThen_sendPing_state, calcRtt_state]
  · rw [if_pos hsession, if_neg fun h => hsession h.1]
    rfl

/-! ## The window -/

/-- How the object depends on the logs. -/
structure Windowed (opened acked : List ℕ) (p : Player) : Prop where
  /-- The sessions are opened one after the other. -/
  ping : p.pingSession = opened.length
  /-- They are acknowledged one after the other. -/
  last : p.lastPingSession = acked.length
  /-- One session at most is open. -/
  open_le : acked.length ≤ opened.length ∧ opened.length ≤ acked.length + 1
  /-- `m_PingTime` is the clock of the last session. -/
  pingTime : ∀ o ∈ opened.getLast?, p.pingTime = o
  /-- The window is short. -/
  length_le : p.rttValues.length ≤ 5
  /-- Its sessions increase. -/
  sorted : (p.rttValues.map Prod.fst).Pairwise (· < ·)
  /-- They were opened. -/
  mem : ∀ x ∈ p.rttValues, 1 ≤ x.1 ∧ x.1 ≤ p.pingSession
  /-- An acknowledged session has an entry, if it is one of the last five that were opened. -/
  covers : ∀ n : ℤ, 1 ≤ n → n ≤ p.lastPingSession → p.pingSession < n + 5 → ∃ x ∈ p.rttValues, x.1 = n
  /-- The entry of an acknowledged session. -/
  entry : ∀ x ∈ p.rttValues, ∀ (n : ℕ) (o a : ℕ), x.1 = n + 1 → opened[n]? = some o →
    acked[n]? = some a → x.2 = (a : ℤ) - o
  /-- `m_RTT` is the mean. -/
  rtt : p.rtt = avgRtt p.rttValues
  /-- `m_OldRTT` is near it. -/
  near : (p.rtt - p.oldRTT).natAbs < 5

omit [Wire] in
/-- **What `calc_rtt` does to the window**: it keeps entries of earlier sessions, at most four, and puts
the value of the present session behind them. The entry that it drops is five sessions old. -/
theorem rttValues_measure {p : Player} (hlen : p.rttValues.length ≤ 5)
    (hsorted : (p.rttValues.map Prod.fst).Pairwise (· < ·))
    (hmem : ∀ x ∈ p.rttValues, x.1 ≤ p.pingSession) (now : ℕ) :
    ∃ others : List (ℤ × ℤ), others.Sublist p.rttValues ∧ others.length ≤ 4 ∧
      (∀ x ∈ others, x.1 < p.pingSession) ∧
      (∀ x ∈ p.rttValues, x.1 < p.pingSession → p.pingSession < x.1 + 5 → x ∈ others) ∧
      (p.measure now).rttValues = others ++ [(p.pingSession, (now : ℤ) - p.pingTime)] := by
  have hput : ∃ others : List (ℤ × ℤ), others.Sublist p.rttValues ∧
      (∀ x ∈ others, x.1 < p.pingSession) ∧ (∀ x ∈ p.rttValues, x.1 < p.pingSession → x ∈ others) ∧
      p.putRtt now = others ++ [(p.pingSession, (now : ℤ) - p.pingTime)] := by
    rw [putRtt]
    cases hlast : p.rttValues.getLast? with
    | none =>
        rw [List.getLast?_eq_none_iff.mp hlast]
        exact ⟨[], List.nil_sublist _, fun x hx => absurd hx List.not_mem_nil, fun x hx _ => hx, rfl⟩
    | some last =>
        obtain ⟨init, hinit⟩ := List.getLast?_eq_some_iff.mp hlast
        have hbelow : ∀ x ∈ init, x.1 < last.1 := by
          rw [hinit, List.map_append, List.pairwise_append] at hsorted
          intro x hx
          exact hsorted.2.2 x.1 (List.mem_map_of_mem hx) last.1 List.mem_cons_self
        have hle : last.1 ≤ p.pingSession := hmem last (by rw [hinit]; simp)
        dsimp only
        split_ifs with heq
        · -- the entry of the open session is replaced
          refine ⟨p.rttValues.dropLast, List.dropLast_sublist _, fun x hx => ?_, fun x hx hlt => ?_, rfl⟩
          · rw [hinit, List.dropLast_concat] at hx
            rw [← heq]
            exact hbelow x hx
          · rw [hinit] at hx
            rw [hinit, List.dropLast_concat]
            rcases List.mem_append.mp hx with hx | hx
            · exact hx
            · obtain rfl := List.mem_singleton.mp hx
              exact absurd heq hlt.ne
        · refine ⟨p.rttValues, List.Sublist.refl _, fun x hx => ?_, fun x hx _ => hx, rfl⟩
          rw [hinit] at hx
          rcases List.mem_append.mp hx with hx | hx
          · exact (hbelow x hx).trans_le hle
          · obtain rfl := List.mem_singleton.mp hx
            exact lt_of_le_of_ne hle heq
  obtain ⟨others, hsub, hlt, hall, heq⟩ := hput
  show ∃ others' : List (ℤ × ℤ), _ ∧ _ ∧ _ ∧ _ ∧ keepFive (p.putRtt now) = _
  have hle := hsub.length_le
  rw [heq, keepFive, List.length_append, List.length_singleton]
  split_ifs with hlong
  · -- the oldest entry goes
    obtain ⟨y, others, rfl⟩ := List.exists_cons_of_length_pos (l := others) (by omega)
    rw [List.length_cons] at hle
    refine ⟨others, (List.sublist_cons_self y others).trans hsub, by omega,
      fun x hx => hlt x (List.mem_cons_of_mem _ hx), fun x hx hbelow hnear => ?_, rfl⟩
    rcases List.mem_cons.mp (hall x hx hbelow) with rfl | hx
    · -- four later sessions are between the oldest one and the present one
      have hbefore : ∀ n ∈ (x :: others).map Prod.fst, n < p.pingSession := by
        intro n hn
        obtain ⟨z, hz, rfl⟩ := List.mem_map.mp hn
        exact hlt z hz
      have hfar := add_length_le_of_pairwise_lt (hsorted.sublist (hsub.map Prod.fst)) hbefore
      rw [List.length_map] at hfar
      rw [List.length_cons] at hlong
      omega
    · exact hx
  · exact ⟨others, hsub, by omega, hlt, fun x hx hbelow _ => hall x hx hbelow, rfl⟩

namespace Windowed

variable {opened acked : List ℕ} {p : Player}

omit [Wire] in
theorem init (id : Pid) (mArgs : LoginArgs) (now : ℕ) (war : Option (GameId × ℕ)) :
    Windowed [] [] { Player.init id mArgs now with war } where
  ping := rfl
  last := rfl
  open_le := ⟨le_rfl, Nat.zero_le _⟩
  pingTime o ho := absurd ho (Option.not_mem_none o)
  length_le := Nat.zero_le _
  sorted := List.Pairwise.nil
  mem x hx := absurd hx List.not_mem_nil
  covers n hpos hle := absurd (hpos.trans hle) (show ¬ (1 : ℤ) ≤ 0 by decide)
  entry x hx := absurd hx List.not_mem_nil
  rtt := (Int.zero_ediv _).symm
  near := by simp [Player.init]

omit [Wire] in
/-- A session is opened when the last one was acknowledged. -/
theorem open_session (h : Windowed opened acked p) (hlast : p.pingSession = p.lastPingSession)
    (now : ℕ) : Windowed (opened ++ [now]) acked
      { p with pingSession := p.pingSession + 1, pingTime := now } := by
  have hlen : opened.length = acked.length := by
    have := h.ping
    have := h.last
    omega
  refine ⟨?_, h.last, ?_, ?_, h.length_le, h.sorted, fun x hx => ?_, fun n hpos hle hnear => ?_, ?_,
    h.rtt, h.near⟩
  · show p.pingSession + 1 = ((opened ++ [now]).length : ℤ)
    rw [h.ping, List.length_append]
    simp
  · rw [List.length_append, List.length_singleton]
    omega
  · intro o ho
    rw [List.getLast?_append, List.getLast?_singleton] at ho
    exact Option.some.inj ho
  · have hx := h.mem x hx
    exact ⟨hx.1, hx.2.trans (Int.le_of_lt (Int.lt_succ _))⟩
  · exact h.covers n hpos hle ((Int.lt_succ _).trans hnear)
  · intro x hx n o a hn ho ha
    have hlt : n < acked.length := (List.getElem?_eq_some_iff.mp ha).1
    rw [List.getElem?_append_left (by omega)] at ho
    exact h.entry x hx n o a hn ho ha

section Measured

variable {others : List (ℤ × ℤ)} {now : ℕ} {acked' : List ℕ}

omit [Wire] in
/-- The entries of the acknowledged sessions, with a value for the open session behind those of others. It
is acknowledged by it, or stays open. -/
theorem entry_measured (h : Windowed opened acked p) (hopen : opened.length = acked.length + 1)
    (hacked : acked' = acked ∨ acked' = acked ++ [now]) (hsub : others.Sublist p.rttValues)
    (hlt : ∀ x ∈ others, x.1 < p.pingSession) {x : ℤ × ℤ}
    (hx : x ∈ others ++ [(p.pingSession, (now : ℤ) - p.pingTime)]) {n o a : ℕ} (hn : x.1 = n + 1)
    (ho : opened[n]? = some o) (ha : acked'[n]? = some a) : x.2 = (a : ℤ) - o := by
  have hping := h.ping
  rcases List.mem_append.mp hx with hx | hx
  · -- an earlier session: its clocks are those of before
    have hbefore : n < acked.length := by
      have hn' : x.1 < p.pingSession := hlt x hx
      omega
    refine h.entry x (hsub.subset hx) n o a hn ho ?_
    rcases hacked with rfl | rfl
    · exact ha
    · rwa [List.getElem?_append_left hbefore] at ha
  · -- the open session, if it is acknowledged now
    obtain rfl := List.mem_singleton.mp hx
    have hn' : n = acked.length := by
      change p.pingSession = n + 1 at hn
      omega
    subst hn'
    rcases hacked with rfl | rfl
    · rw [List.getElem?_eq_none le_rfl] at ha
      cases ha
    · rw [List.getElem?_append_right le_rfl, Nat.sub_self] at ha
      obtain rfl := Option.some.inj ha
      have hlast : opened.getLast? = some o := by
        rw [List.getLast?_eq_getElem?, hopen]
        exact ho
      show (now : ℤ) - p.pingTime = now - o
      rw [h.pingTime o hlast]

omit [Wire] in
/-- The last five sessions have their entries, as far as they are acknowledged. -/
theorem covers_measured (h : Windowed opened acked p) (hopen : opened.length = acked.length + 1)
    (hacked : acked' = acked ∨ acked' = acked ++ [now])
    (hkept : ∀ x ∈ p.rttValues, x.1 < p.pingSession → p.pingSession < x.1 + 5 → x ∈ others) {n : ℤ}
    (hn : 1 ≤ n) (hle : n ≤ acked'.length) (hnear : p.pingSession < n + 5) :
    ∃ x ∈ others ++ [(p.pingSession, (now : ℤ) - p.pingTime)], x.1 = n := by
  have hping := h.ping
  have hlast := h.last
  by_cases hnow : n = p.pingSession
  · exact ⟨_, List.mem_append_right _ (List.mem_singleton_self _), hnow.symm⟩
  · -- an earlier session: its entry was there, and stays
    have hbefore : n ≤ p.lastPingSession := by
      rcases hacked with rfl | rfl
      · omega
      · rw [List.length_append, List.length_singleton] at hle
        omega
    obtain ⟨x, hx, rfl⟩ := h.covers n hn hbefore hnear
    have hbelow : x.1 < p.pingSession := lt_of_le_of_ne (h.mem x hx).2 hnow
    exact ⟨x, List.mem_append_left _ (hkept x hx hbelow hnear), rfl⟩

omit [Wire] in
/-- A value for the open session, which is acknowledged by it (`acked'`) or stays open. -/
theorem calculated (h : Windowed opened acked p) (hopen : opened.length = acked.length + 1)
    (hacked : acked' = acked ∨ acked' = acked ++ [now]) {p' : Player}
    (hp' : p' = { p with lastPingSession := acked'.length }) :
    Windowed opened acked' (p'.calculated now) := by
  subst hp'
  obtain ⟨others, hsub, hlen, hlt, hkept, hvalues⟩ :=
    rttValues_measure (p := { p with lastPingSession := acked'.length }) h.length_le h.sorted
      (fun x hx => (h.mem x hx).2) now
  have hpos : 1 ≤ p.pingSession := by
    have := h.ping
    omega
  refine ⟨h.ping, rfl, ?_, h.pingTime, ?_, ?_, fun x hx => ?_, fun n hn hle hnear => ?_,
    fun x hx n o a hn ho ha => ?_, rfl, ?_⟩
  · rcases hacked with rfl | rfl
    · exact h.open_le
    · rw [List.length_append, List.length_singleton]
      omega
  · show (Player.measure _ now).rttValues.length ≤ 5
    rw [hvalues, List.length_append, List.length_singleton]
    omega
  · show ((Player.measure _ now).rttValues.map Prod.fst).Pairwise _
    rw [hvalues, List.map_append, List.pairwise_append]
    refine ⟨h.sorted.sublist (hsub.map _), List.pairwise_singleton _ _, ?_⟩
    intro s hs s' hs'
    obtain ⟨x, hx, rfl⟩ := List.mem_map.mp hs
    rw [List.map_singleton, List.mem_singleton] at hs'
    rw [hs']
    exact hlt x hx
  · change x ∈ (Player.measure _ now).rttValues at hx
    rw [hvalues] at hx
    rcases List.mem_append.mp hx with hx | hx
    · exact h.mem x (hsub.subset hx)
    · obtain rfl := List.mem_singleton.mp hx
      exact ⟨hpos, le_rfl⟩
  · show ∃ x ∈ (Player.measure _ now).rttValues, x.1 = n
    rw [hvalues]
    exact h.covers_measured hopen hacked hkept hn hle hnear
  · change x ∈ (Player.measure _ now).rttValues at hx
    rw [hvalues] at hx
    exact h.entry_measured hopen hacked hsub hlt hx hn ho ha
  · show ((Player.measure _ now).rtt - if 5 ≤ _ then _ else _ : ℤ).natAbs < 5
    split_ifs with hdiff
    · rw [sub_self]
      decide
    · exact not_le.mp hdiff

end Measured

/-- A call keeps the window. -/
theorem pingCall (h : Windowed opened acked p) (c : Clock × PingCall) :
    Windowed (opened ++ p.opening c) (acked ++ p.acking c) (p.pingCall c).state := by
  obtain ⟨clk, c⟩ := c
  have hping := h.ping
  have hlast := h.last
  have hle := h.open_le
  cases c with
  | tick =>
      have hstate : (p.pingCall (clk, .tick)).state = _ := checkGsPing_state p clk
      by_cases heq : p.pingSession = p.lastPingSession
      · rw [if_pos heq] at hstate
        have hopening : p.opening (clk, .tick) = [clk.now] := by
          rw [opening, hstate]
          exact if_neg (Int.lt_succ p.pingSession).ne'
        have hacking : p.acking (clk, .tick) = [] := by
          rw [acking, hstate]
          exact if_pos rfl
        rw [hopening, hacking, hstate, List.append_nil]
        exact h.open_session heq clk.now
      · rw [if_neg heq] at hstate
        have hopening : p.opening (clk, .tick) = [] := by
          rw [opening, hstate]
          exact if_pos rfl
        have hacking : p.acking (clk, .tick) = [] := by
          rw [acking, hstate]
          exact if_pos rfl
        rw [hopening, hacking, hstate, List.append_nil, List.append_nil]
        refine h.calculated (by omega) (Or.inl rfl) ?_
        rw [← hlast]
  | ack session =>
      have hstate : (p.pingCall (clk, .ack session)).state = _ := clientPing_state p session clk
      by_cases hfirst : session = some p.pingSession ∧ p.lastPingSession ≠ p.pingSession
      · rw [if_pos hfirst] at hstate
        have hopening : p.opening (clk, .ack session) = [] := by
          rw [opening, hstate]
          exact if_pos rfl
        have hacking : p.acking (clk, .ack session) = [clk.now] := by
          rw [acking, hstate]
          exact if_neg hfirst.2.symm
        have hne := hfirst.2
        rw [hopening, hacking, hstate, List.append_nil]
        refine h.calculated (by omega) (Or.inr rfl) ?_
        rw [List.length_append, List.length_singleton, show p.pingSession = (acked.length + 1 : ℕ) by omega]
      · rw [if_neg hfirst] at hstate
        have hopening : p.opening (clk, .ack session) = [] := by
          rw [opening, hstate]
          exact if_pos rfl
        have hacking : p.acking (clk, .ack session) = [] := by
          rw [acking, hstate]
          exact if_pos rfl
        rwa [hopening, hacking, hstate, List.append_nil, List.append_nil]

/-- **The window of every sequence of calls.** -/
theorem calls (h : Windowed [] [] p) (calls : List (Clock × PingCall)) :
    Windowed (p.opened calls) (p.acked calls) (p.pingCalls calls).state := by
  induction calls using List.reverseRecOn with
  | nil => exact h
  | append_singleton calls c ih =>
      rw [Player.opened, Player.acked, pingCalls, Outcome.observed_snoc, Outcome.observed_snoc,
        Outcome.after_snoc_state]
      exact ih.pingCall c

omit [Wire] in
/-- The clocks of an entry that was acknowledged. -/
theorem clocks (h : Windowed opened acked p) {x : ℤ × ℤ} (hx : x ∈ p.rttValues)
    (hle : x.1 ≤ p.lastPingSession) : ∃ n o a : ℕ, x.1 = n + 1 ∧ opened[n]? = some o ∧
      acked[n]? = some a ∧ x.2 = (a : ℤ) - o := by
  have hlast := h.last
  have hopen := h.open_le
  obtain ⟨n, hn⟩ := Int.eq_ofNat_of_zero_le (sub_nonneg.mpr (h.mem x hx).1)
  have hn' : x.1 = n + 1 := by omega
  have hlt : n < acked.length := by omega
  refine ⟨n, opened[n], acked[n], hn', List.getElem?_eq_getElem (by omega), List.getElem?_eq_getElem hlt, ?_⟩
  exact h.entry x hx n _ _ hn' (List.getElem?_eq_getElem (by omega)) (List.getElem?_eq_getElem hlt)

end Windowed

/-- **The RTT window of a player**, after any calls with any sessions. One session at most is open; the
window has five entries at most, of increasing sessions; an acknowledged session has an entry as long as
it is one of the last five; the entry is the time from when the session was opened to when it was
acknowledged, and no later call changes it; `m_RTT` is the floor of the mean, of one entry at least after
`calc_rtt`, and `m_OldRTT` is near it. -/
theorem pingWindow (id : Pid) (mArgs : LoginArgs) (now : ℕ) (war : Option (GameId × ℕ))
    (calls : List (Clock × PingCall)) :
    let p₀ : Player := { Player.init id mArgs now with war }
    let p := (p₀.pingCalls calls).state
    (p.lastPingSession ≤ p.pingSession ∧ p.pingSession ≤ p.lastPingSession + 1) ∧
    (p.rttValues.length ≤ 5 ∧ (p.rttValues.map Prod.fst).Pairwise (· < ·) ∧
      ∀ x ∈ p.rttValues, x.1 ≤ p.pingSession) ∧
    (∀ n, 1 ≤ n → n ≤ p.lastPingSession → p.pingSession < n + 5 → ∃ x ∈ p.rttValues, x.1 = n) ∧
    (∀ x ∈ p.rttValues, x.1 ≤ p.lastPingSession →
      (∃ n o a : ℕ, x.1 = n + 1 ∧ (p₀.opened calls)[n]? = some o ∧ (p₀.acked calls)[n]? = some a ∧
        x.2 = (a : ℤ) - o) ∧
      ∀ calls', ∀ y ∈ (p₀.pingCalls (calls ++ calls')).state.rttValues, y.1 = x.1 → y.2 = x.2) ∧
    (p.rtt = ⌊((p.rttValues.map Prod.snd).sum : ℚ) / p.rttValues.length⌋ ∧
      |p.rtt - p.oldRTT| < 5) ∧
    ∀ clk : ℕ, (p.calcRtt clk).state.rttValues ≠ [] := by
  intro p₀ p
  have hstart : Windowed [] [] p₀ := Windowed.init id mArgs now war
  have h : Windowed (p₀.opened calls) (p₀.acked calls) p := hstart.calls calls
  have hping := h.ping
  have hlast := h.last
  have hle := h.open_le
  refine ⟨⟨by omega, by omega⟩, ⟨h.length_le, h.sorted, fun x hx => (h.mem x hx).2⟩,
    h.covers, fun x hx hacked => ?_, ⟨?_, ?_⟩, fun clk => ?_⟩
  · obtain ⟨n, o, a, hn, ho, ha, hvalue⟩ := h.clocks hx hacked
    refine ⟨⟨n, o, a, hn, ho, ha, hvalue⟩, fun calls' y hy heq => ?_⟩
    -- the clocks of the session are in the longer logs, too
    have hlonger := hstart.calls (calls ++ calls')
    rw [hvalue]
    exact hlonger.entry y hy n o a (heq.trans hn) (getElem?_of_part (opened_append p₀ calls calls') ho)
      (getElem?_of_part (acked_append p₀ calls calls') ha)
  · rw [Rat.floor_intCast_div_natCast]
    exact h.rtt
  · rw [Int.abs_eq_natAbs]
    exact Int.ofNat_lt.mpr h.near
  · obtain ⟨others, -, -, -, -, hvalues⟩ :=
      rttValues_measure h.length_le h.sorted (fun x hx => (h.mem x hx).2) clk
    rw [calcRtt_state]
    show (Player.measure _ clk).rttValues ≠ []
    rw [hvalues]
    exact List.concat_ne_nil _ _

end Player

end FrameSync
