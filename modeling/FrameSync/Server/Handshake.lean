import FrameSync.Client.Rtt
import FrameSync.Server.RttReports
import FrameSync.Server.TimedAgent

/-! # The ping handshake

An agent, the clients of all its logins and the channels between them. Each login is one `Player` and
one fresh client with a channel in either direction; what is sent to a pid goes to the client of the
login that is in `playerlist`, and a `c2gs_ping` is handled by that player, whichever client sent it.
A client never handles an answer for a session it does not hold, whatever the timers do
(`answers_run`). The timer of a player that was replaced may tell the new client of a session that the
new player has not opened, and the new client will not acknowledge that session when it is opened. In
the runs without such a ping an unanswered session that the client holds always has its `c2gs_ping` on
the way (`unstuck_run`). -/

namespace FrameSync

open Client (RttMeter)

/-! ## The system -/

/-- The client of a login and its channels. -/
structure PingLink where
  /-- The client. -/
  client : RttMeter
  /-- The `gs2c_ping` messages on the way to the client: `session` and `is_resp`. -/
  down : List (ℕ × Bool)
  /-- The `c2gs_ping` messages on the way to the agent: `session`. -/
  up : List ℕ

namespace PingLink

/-- The client handles a `gs2c_ping`, and `rest` stays on the way. If it raises it leaves everything as
it was. -/
def read (k : PingLink) (m : ℕ × Bool) (rest : List (ℕ × Bool)) (now ti : ℚ) : PingLink :=
  match k.client.serverPing m.1 m.2 now ti with
  | .ok (client, sent) => ⟨client, rest, k.up ++ sent⟩
  | .error _ => { k with down := rest }

/-- More is on the way to the client. -/
def push (k : PingLink) (ms : List (ℕ × Bool)) : PingLink := { k with down := k.down ++ ms }

/-- What is on the way to the agent. -/
def setUp (k : PingLink) (up : List ℕ) : PingLink := { k with up }

end PingLink

/-- The `gs2c_ping` in a request, if it is one for the player `pid`. -/
def pingTo (pid : Pid) : BcMsg → Option (ℕ × Bool)
  | .sendToPlayer uuid (.gs2cPing session _ isResp) => if uuid = pid then some (session, isResp) else none
  | _ => none

/-- The `gs2c_ping` messages for the player `pid` among letters; they go through `PUB_BC`. -/
def pings (pid : Pid) (ls : List (Letter Msg)) : List (ℕ × Bool) :=
  (lettersTo (.broadcast 0) ls).filterMap (pingTo pid)

/-- What letters add to the channel of the client of an object: only the one in `playerlist` is
reached. -/
def Agent.reaching (a : Agent) (ls : List (Letter Msg)) (obj : ℕ) : List (ℕ × Bool) :=
  match a.objs[obj]? with
  | some p => if a.playerlist p.id = some obj then pings p.id ls else []
  | none => []

/-- The session of the ping that `check_gs_ping` sends. -/
def Player.nextSession (p : Player) : ℤ :=
  if p.pingSession = p.lastPingSession then p.pingSession + 1 else p.pingSession

/-- An agent and the clients of its logins, by the object that the login made. -/
structure Handshake where
  /-- The agent and its timers. -/
  timed : TimedAgent
  /-- The clients and their channels. -/
  links : ℕ → PingLink

/-- What happens next. -/
inductive HandshakeEvent
  /-- The agent handles a letter, or a timeout of an object fires. -/
  | agent (e : AgentEvent)
  /-- The client of an object handles the next message, with two readings of its clock. -/
  | down (obj : ℕ) (now ti : ℚ)
  /-- The agent handles the next message of the client of an object. -/
  | up (obj : ℕ) (clk : Clock)

namespace Handshake

/-- Before any login. The client of the object `obj` will be started at the time `start obj`. -/
def init (start : ℕ → ℚ) : Handshake := ⟨TimedAgent.init, fun obj => ⟨RttMeter.init (start obj), [], []⟩⟩

section Step

variable [Wire] [ServerConfig] (n : ℕ)

/-- An event of the agent, and its pings on their way. -/
def agentStep (s : Handshake) (e : AgentEvent) : Option Handshake :=
  (s.timed.step n e).map fun timed =>
    ⟨timed, fun obj => (s.links obj).push (timed.agent.reaching (s.timed.handle n e).sent obj)⟩

/-- The state without the first message of a client. -/
def popUp (s : Handshake) (obj : ℕ) (rest : List ℕ) : Handshake :=
  { s with links := Function.update s.links obj ((s.links obj).setUp rest) }

/-- One event. -/
def step (s : Handshake) (e : HandshakeEvent) : Option Handshake :=
  match e with
  | .agent e => s.agentStep n e
  | .down obj now ti =>
      match (s.links obj).down with
      | [] => none
      | m :: rest =>
          some { s with links := Function.update s.links obj ((s.links obj).read m rest now ti) }
  | .up obj clk =>
      match (s.links obj).up, s.timed.agent.objs[obj]? with
      | session :: rest, some p =>
          (s.popUp obj rest).agentStep n (.letter clk (.unpack p.id (.c2gsPing (some (session : ℤ)))))
      | _, _ => none

/-- The timer of the object `obj` would announce a session to the client of the present player of its
pid, which that player has not opened. -/
def ahead (a : Agent) (obj : ℕ) : Bool :=
  (a.objs[obj]?).any fun p => (a.getPlayer p.id).any fun x =>
    x.1 ≠ obj && decide (x.2.pingSession < p.nextSession)

/-- If a timer fires, it does not announce such a session. -/
def noneAhead (s : Handshake) : HandshakeEvent → Bool
  | .agent (.timeout _ obj _) => !ahead s.timed.agent obj
  | .agent (.letter ..) | .down .. | .up .. => true

end Step

end Handshake

/-! ## What the client holds -/

/-- The keys of `m_dRTTSessions`. -/
def Client.RttMeter.held (m : RttMeter) : Set ℕ := {session | m.rttSessions session ≠ none}

/-- The keys after a `gs2c_ping`. -/
def told (held : Set ℕ) (m : ℕ × Bool) : Set ℕ := if m.2 then held \ {m.1} else insert m.1 held

/-- Every answer among messages is for a session that is held when it is handled. -/
def Answerable : Set ℕ → List (ℕ × Bool) → Prop
  | _, [] => True
  | held, m :: ms => (m.2 = true → m.1 ∈ held) ∧ Answerable (told held m) ms

theorem mem_told_question {held : Set ℕ} {s t : ℕ} : t ∈ told held (s, false) ↔ t = s ∨ t ∈ held :=
  Set.mem_insert_iff

theorem mem_told_answer {held : Set ℕ} {s t : ℕ} : t ∈ told held (s, true) ↔ t ∈ held ∧ t ≠ s :=
  Iff.rfl

/-- A message behind others. -/
theorem answerable_snoc {held : Set ℕ} {ms : List (ℕ × Bool)} {m : ℕ × Bool} :
    Answerable held (ms ++ [m]) ↔ Answerable held ms ∧ (m.2 = true → m.1 ∈ ms.foldl told held) := by
  induction ms generalizing held with
  | nil => simp [Answerable]
  | cons m' ms ih =>
      rw [List.cons_append, Answerable, Answerable, ih, List.foldl_cons, and_assoc]

/-- The keys do not depend on the statistics. -/
theorem Client.RttMeter.held_setRtt (m : RttMeter) (val ti : ℚ) : (m.setRtt val ti).held = m.held := by
  rw [setRtt]
  split
  · rfl
  · rfl

/-- **What `server_ping` does to the keys**, when it does not raise. A key that is new was
acknowledged. -/
theorem Client.RttMeter.serverPing_eq {m : RttMeter} {msg : ℕ × Bool}
    (h : msg.2 = true → msg.1 ∈ m.held) (now ti : ℚ) :
    ∃ m' sent, m.serverPing msg.1 msg.2 now ti = .ok (m', sent) ∧ m'.held = told m.held msg ∧
      ∀ s ∈ m'.held, s ∈ m.held ∨ s ∈ sent := by
  obtain ⟨session, isResp⟩ := msg
  cases isResp with
  | true =>
      obtain ⟨last, hlast⟩ := Option.ne_none_iff_exists'.mp (h rfl)
      -- An answer closes its session; recording the value keeps the keys.
      have hheld : ∀ values val, ({ m with
          rttSessions := Function.update m.rttSessions session none
          rttValues := values }.setRtt val ti).held = told m.held (session, true) := by
        intro values val
        ext s
        rw [mem_told_answer, held_setRtt]
        show Function.update m.rttSessions session none s ≠ none ↔ _
        by_cases hs : s = session
        · subst hs
          simp
        · rw [Function.update_of_ne hs]
          exact ⟨fun hne => ⟨hne, hs⟩, fun hmem => hmem.1⟩
      refine ⟨_, [], by rw [serverPing, if_pos rfl, hlast], hheld _ _, fun s hs => ?_⟩
      rw [hheld] at hs
      exact Or.inl (mem_told_answer.mp hs).1
  | false =>
      by_cases hnone : m.rttSessions session = none
      · have hheld : ({ m with
            rttSessions := Function.update m.rttSessions session (some now) } : RttMeter).held
              = told m.held (session, false) := by
          ext s
          rw [mem_told_question]
          show Function.update m.rttSessions session (some now) s ≠ none ↔ _
          by_cases hs : s = session
          · subst hs
            simp
          · rw [Function.update_of_ne hs]
            exact ⟨Or.inr, fun hmem => hmem.resolve_left hs⟩
        refine ⟨_, [session], by rw [serverPing, if_neg (by simp), if_pos hnone], hheld, fun s hs => ?_⟩
        rw [hheld] at hs
        rcases mem_told_question.mp hs with rfl | hs
        · exact Or.inr List.mem_cons_self
        · exact Or.inl hs
      · -- A question that is repeated changes nothing.
        refine ⟨m, [], by rw [serverPing, if_neg (by simp), if_neg hnone], ?_, fun s hs => Or.inl hs⟩
        ext s
        rw [mem_told_question]
        constructor
        · exact Or.inr
        · rintro (rfl | hs)
          · exact hnone
          · exact hs

/-! ## What a player sends -/

@[simp] theorem pings_nil (pid : Pid) : pings pid [] = [] := rfl

@[simp] theorem pings_append (pid : Pid) (ls ls' : List (Letter Msg)) :
    pings pid (ls ++ ls') = pings pid ls ++ pings pid ls' := by
  rw [pings, lettersTo_append, List.filterMap_append]
  rfl

/-- Letters that hold no ping for the player. -/
theorem pings_eq_nil {pid : Pid} {ls : List (Letter Msg)}
    (h : ∀ m, (⟨.broadcast 0, m⟩ : Letter Msg) ∈ ls → pingTo pid m = none) : pings pid ls = [] :=
  List.filterMap_eq_nil_iff.mpr fun m hm => h m (mem_lettersTo.mp hm)

namespace Player

@[simp] theorem pings_calcRtt (p : Player) (now : ℕ) (pid : Pid) : pings pid (p.calcRtt now).sent = [] := by
  refine pings_eq_nil fun m hm => ?_
  rw [calcRtt, reportRtt] at hm
  split at hm
  · split at hm
    · cases List.mem_singleton.mp hm
    · cases hm
  · cases hm

variable [Wire]

theorem pings_sendPing (hwire : PingsPack) (clk : Clock) (isResp : Bool) (p : Player) (pid : Pid) :
    pings pid (sendPing clk isResp p).sent
      = if p.id = pid then [(p.pingSession.toNat, isResp)] else [] := by
  rw [sendPing, if_pos (hwire ..)]
  show List.filterMap (pingTo pid) [_] = _
  rw [List.filterMap_cons, pingTo]
  split_ifs
  · rfl
  · rfl

/-- A ping behind `calc_rtt` is sent or not. -/
theorem pings_calcRtt_sendPing (hwire : PingsPack) (clk : Clock) (isResp : Bool) (p : Player) (pid : Pid) :
    pings pid ((p.calcRtt clk.now).andThen (sendPing clk isResp)).sent = [] ∨ p.id = pid ∧
      pings pid ((p.calcRtt clk.now).andThen (sendPing clk isResp)).sent
        = [(p.pingSession.toNat, isResp)] := by
  rw [Outcome.andThen]
  split_ifs
  · exact Or.inl (pings_calcRtt ..)
  · rw [pings_append, pings_calcRtt, List.nil_append, pings_sendPing hwire, calcRtt_state]
    show (if p.id = pid then _ else _) = _ ∨ _ ∧ (if p.id = pid then _ else _) = _
    split_ifs with hid
    · exact Or.inr ⟨hid, rfl⟩
    · exact Or.inl rfl

/-- **What `check_gs_ping` does to the sessions.** -/
theorem checkGsPing_sessions (p : Player) (clk : Clock) :
    (p.checkGsPing clk).state.pingSession = p.nextSession ∧
      (p.checkGsPing clk).state.lastPingSession = p.lastPingSession := by
  rw [checkGsPing_state, nextSession]
  split_ifs
  · exact ⟨rfl, rfl⟩
  · exact ⟨rfl, rfl⟩

/-- **What `check_gs_ping` sends.** A new session is always announced. -/
theorem pings_checkGsPing (hwire : PingsPack) (p : Player) (clk : Clock) (pid : Pid) :
    pings pid (p.checkGsPing clk).sent = [] ∧ (p.id = pid → p.pingSession ≠ p.lastPingSession) ∨
      p.id = pid ∧ pings pid (p.checkGsPing clk).sent = [(p.nextSession.toNat, false)] := by
  rw [checkGsPing, nextSession]
  by_cases hopen : p.pingSession = p.lastPingSession
  · rw [if_pos hopen, if_pos hopen, pings_sendPing hwire]
    show (if p.id = pid then _ else _) = _ ∧ _ ∨ _ ∧ (if p.id = pid then _ else _) = _
    by_cases hid : p.id = pid
    · rw [if_pos hid]
      exact Or.inr ⟨hid, rfl⟩
    · rw [if_neg hid]
      exact Or.inl ⟨rfl, fun h => absurd h hid⟩
  · rw [if_neg hopen, if_neg hopen]
    rcases pings_calcRtt_sendPing hwire clk false p pid with h | h
    · exact Or.inl ⟨h, fun _ => hopen⟩
    · exact Or.inr h

/-- **What `client_ping` sends**: nothing, or the answer for the session. -/
theorem pings_clientPing (hwire : PingsPack) (p : Player) (session : Option ℤ) (clk : Clock) (pid : Pid) :
    pings pid (p.clientPing session clk).sent = [] ∨ p.id = pid ∧ session = some p.pingSession ∧
      p.lastPingSession ≠ p.pingSession ∧
        pings pid (p.clientPing session clk).sent = [(p.pingSession.toNat, true)] := by
  rw [clientPing]
  split_ifs with hsession hlast
  · exact Or.inl rfl
  · exact Or.inl rfl
  · rcases pings_calcRtt_sendPing hwire clk true { p with lastPingSession := p.pingSession } pid
      with h | ⟨hid, h⟩
    · exact Or.inl h
    · exact Or.inr ⟨hid, not_not.mp hsession, hlast, h⟩

end Player

/-! ## A player and its client -/

/-- What the client has read stays answerable. -/
theorem PingLink.answerable_read {k : PingLink} {m : ℕ × Bool} {rest : List (ℕ × Bool)}
    (hdown : k.down = m :: rest) (hk : Answerable k.client.held k.down) (now ti : ℚ) :
    Answerable (k.read m rest now ti).client.held (k.read m rest now ti).down := by
  rw [hdown] at hk
  obtain ⟨client, sent, hping, hheld, -⟩ := RttMeter.serverPing_eq hk.1 now ti
  have hread : k.read m rest now ti = ⟨client, rest, k.up ++ sent⟩ := by rw [PingLink.read, hping]
  rw [hread]
  show Answerable client.held rest
  rw [hheld]
  exact hk.2

/-- A player and the client of its login. In the runs that satisfy `C` no session is known to the
client before the player has opened it. -/
structure Talks (C : Prop) (p : Player) (k : PingLink) : Prop where
  /-- The sessions are opened one after the other. -/
  order : 0 ≤ p.lastPingSession ∧ p.lastPingSession ≤ p.pingSession ∧
    p.pingSession ≤ p.lastPingSession + 1
  /-- The client holds every session for which it reads an answer. -/
  answerable : Answerable k.client.held k.down
  /-- The client will hold an open session when it has read everything. -/
  told : p.lastPingSession ≠ p.pingSession → p.pingSession.toNat ∈ k.down.foldl told k.client.held
  /-- The client knows of no later session. -/
  bound : C → ∀ s, s ∈ k.client.held ∨ (s, false) ∈ k.down → (s : ℤ) ≤ p.pingSession
  /-- An open session that the client holds is being acknowledged. -/
  onWay : C → p.lastPingSession ≠ p.pingSession → p.pingSession.toNat ∈ k.client.held →
    p.pingSession.toNat ∈ k.up

namespace Talks

variable {C : Prop} {p p' : Player} {k : PingLink}

/-- Only the sessions matter. -/
theorem congr (h : Talks C p k) (hping : p'.pingSession = p.pingSession)
    (hlast : p'.lastPingSession = p.lastPingSession) : Talks C p' k := by
  refine ⟨?_, h.answerable, ?_, ?_, ?_⟩
  · rw [hping, hlast]
    exact h.order
  · rw [hping, hlast]
    exact h.told
  · rw [hping]
    exact h.bound
  · rw [hping, hlast]
    exact h.onWay

/-- A login with a fresh client. -/
theorem init (pid : Pid) (mArgs : LoginArgs) (now : ℕ) (hheld : k.client.held = ∅)
    (hdown : k.down = []) : Talks C (Player.init pid mArgs now) k where
  order := ⟨le_rfl, le_rfl, Int.one_nonneg⟩
  answerable := by
    rw [hdown]
    exact trivial
  told hne := absurd rfl hne
  bound _ s hs := by
    rw [hheld, hdown] at hs
    exact absurd hs (by simp)
  onWay _ hne := absurd rfl hne

/-- More may be on the way to the agent. -/
theorem setUp (h : Talks C p k) {up : List ℕ} (hup : k.up ⊆ up) : Talks C p (k.setUp up) where
  order := h.order
  answerable := h.answerable
  told := h.told
  bound := h.bound
  onWay hC hne hheld := hup (h.onWay hC hne hheld)

/-- A message of the client that is not about the open session. -/
theorem popUp (h : Talks C p k) {session : ℕ} {rest : List ℕ} (hup : k.up = session :: rest)
    (hother : (session : ℤ) ≠ p.pingSession ∨ p.lastPingSession = p.pingSession) :
    Talks C p (k.setUp rest) where
  order := h.order
  answerable := h.answerable
  told := h.told
  bound := h.bound
  onWay hC hne hheld := by
    have hmem := h.onWay hC hne hheld
    rw [hup] at hmem
    refine (List.mem_cons.mp hmem).resolve_left fun heq => ?_
    have hping : (p.pingSession.toNat : ℤ) = p.pingSession :=
      Int.toNat_of_nonneg (h.order.1.trans h.order.2.1)
    rcases hother with hother | hother
    · rw [← heq] at hother
      exact hother hping
    · exact hne hother

/-- A new session is announced. -/
theorem opened (h : Talks C p k) (hclosed : p.pingSession = p.lastPingSession)
    (hping : p'.pingSession = p.pingSession + 1) (hlast : p'.lastPingSession = p.lastPingSession) :
    Talks C p' (k.push [(p'.pingSession.toNat, false)]) := by
  have hnat : ((p.pingSession + 1).toNat : ℤ) = p.pingSession + 1 := by
    have := h.order
    omega
  rw [hping]
  refine ⟨?_, answerable_snoc.mpr ⟨h.answerable, Bool.noConfusion⟩, fun _ => ?_, fun hC s hs => ?_,
    fun hC _ hheld => ?_⟩
  · have := h.order
    omega
  · show _ ∈ (k.down ++ [_]).foldl _ k.client.held
    rw [List.foldl_append, hping]
    exact mem_told_question.mpr (Or.inl rfl)
  · rw [hping]
    rcases hs with hs | hs
    · exact (h.bound hC s (Or.inl hs)).trans (Int.le_of_lt (Int.lt_succ _))
    · rcases List.mem_append.mp hs with hs | hs
      · exact (h.bound hC s (Or.inr hs)).trans (Int.le_of_lt (Int.lt_succ _))
      · obtain rfl := (Prod.mk.inj (List.mem_singleton.mp hs)).1
        exact hnat.le
  · -- the client cannot hold a session that is new
    rw [hping] at hheld
    have := h.bound hC _ (Or.inl hheld)
    omega

/-- An announcement of a session that is not ahead. -/
theorem announced (h : Talks C p k) {session : ℕ} (hle : C → (session : ℤ) ≤ p.pingSession) :
    Talks C p (k.push [(session, false)]) where
  order := h.order
  answerable := answerable_snoc.mpr ⟨h.answerable, Bool.noConfusion⟩
  told hne := by
    show _ ∈ (k.down ++ [_]).foldl _ k.client.held
    rw [List.foldl_append]
    exact mem_told_question.mpr (Or.inr (h.told hne))
  bound hC s hs := by
    rcases hs with hs | hs
    · exact h.bound hC s (Or.inl hs)
    · rcases List.mem_append.mp hs with hs | hs
      · exact h.bound hC s (Or.inr hs)
      · obtain rfl := (Prod.mk.inj (List.mem_singleton.mp hs)).1
        exact hle hC
  onWay := h.onWay

/-- The open session is acknowledged, with or without an answer. -/
theorem acked (h : Talks C p k) (hopen : p.lastPingSession ≠ p.pingSession)
    (hping : p'.pingSession = p.pingSession) (hlast : p'.lastPingSession = p.pingSession)
    {ms : List (ℕ × Bool)} (hms : ms = [] ∨ ms = [(p.pingSession.toNat, true)]) (up : List ℕ) :
    Talks C p' ((k.push ms).setUp up) where
  order := by
    have := h.order
    omega
  answerable := by
    show Answerable k.client.held (k.down ++ ms)
    rcases hms with rfl | rfl
    · rw [List.append_nil]
      exact h.answerable
    · exact answerable_snoc.mpr ⟨h.answerable, fun _ => h.told hopen⟩
  told hne := absurd (hlast.trans hping.symm) hne
  bound hC s hs := by
    rw [hping]
    refine h.bound hC s (hs.imp_right fun hs => ?_)
    rcases List.mem_append.mp hs with hs | hs
    · exact hs
    · rcases hms with rfl | rfl
      · cases hs
      · exact absurd (Prod.mk.inj (List.mem_singleton.mp hs)).2 Bool.false_ne_true
  onWay _ hne := absurd (hlast.trans hping.symm) hne

/-- The client reads a message. -/
theorem read (h : Talks C p k) {m : ℕ × Bool} {rest : List (ℕ × Bool)} (hdown : k.down = m :: rest)
    (now ti : ℚ) : Talks C p (k.read m rest now ti) := by
  have hrest := PingLink.answerable_read hdown h.answerable now ti
  have hk := h.answerable
  rw [hdown] at hk
  obtain ⟨client, sent, hping, hheld, hnew⟩ := RttMeter.serverPing_eq hk.1 now ti
  have hread : k.read m rest now ti = ⟨client, rest, k.up ++ sent⟩ := by rw [PingLink.read, hping]
  rw [hread] at hrest ⊢
  refine ⟨h.order, hrest, fun hne => ?_, fun hC s hs => ?_, fun hC hne hs => ?_⟩
  · have hmem := h.told hne
    rw [hdown, List.foldl_cons, ← hheld] at hmem
    exact hmem
  · refine h.bound hC s ?_
    rw [hdown]
    rcases hs with hs | hs
    · obtain ⟨t, isResp⟩ := m
      rw [hheld] at hs
      cases isResp with
      | false =>
          rcases mem_told_question.mp hs with rfl | hs
          · exact Or.inr List.mem_cons_self
          · exact Or.inl hs
      | true => exact Or.inl (mem_told_answer.mp hs).1
    · exact Or.inr (List.mem_cons_of_mem _ hs)
  · rcases hnew _ hs with hs | hs
    · exact List.mem_append_left _ (h.onWay hC hne hs)
    · exact List.mem_append_right _ hs

end Talks

/-! ## The players in `playerlist` -/

namespace Agent

/-- The object is in `playerlist`. -/
def Live (a : Agent) (obj : ℕ) (p : Player) : Prop := a.getPlayer p.id = some (obj, p)

variable {a : Agent} {obj : ℕ} {p : Player}

theorem live_of_getPlayer {pid : Pid} (h : a.getPlayer pid = some (obj, p)) : a.Live obj p := by
  obtain rfl := id_getPlayer h
  exact h

theorem Live.objs (h : a.Live obj p) : a.objs[obj]? = some p := (getPlayer_eq_some.mp h).2

theorem Live.lt (h : a.Live obj p) : obj < a.objs.length := (List.getElem?_eq_some_iff.mp h.objs).1

/-- What is sent to a player in `playerlist` reaches its client. -/
theorem Live.reaching (h : a.Live obj p) (ls : List (Letter Msg)) : a.reaching ls obj = pings p.id ls := by
  rw [Agent.reaching, h.objs]
  exact if_pos (getPlayer_eq_some.mp h).1

/-- Nothing reaches the client of another object. -/
theorem reaching_eq_nil (h : ∀ p, ¬ a.Live obj p) (ls : List (Letter Msg)) : a.reaching ls obj = [] := by
  rw [reaching]
  split
  · rename_i p hp
    exact if_neg fun hobj => h p (getPlayer_eq_some.mpr ⟨hobj, hp⟩)
  · rfl

/-- After a change of an object. -/
theorem live_setObj {o : ℕ} {f : Player → Player} (hf : ∀ p, (f p).id = p.id) {p' : Player}
    (h : (a.setObj o f hf).Live obj p') : ∃ p, a.Live obj p ∧ p' = if obj = o then f p else p := by
  rw [Live, getPlayer_setObj, Option.map_eq_some_iff] at h
  obtain ⟨⟨obj', p⟩, hp, heq⟩ := h
  by_cases ho : obj' = o
  · rw [if_pos ho] at heq
    obtain ⟨rfl, rfl⟩ := Prod.mk.inj heq
    exact ⟨p, live_of_getPlayer hp, (if_pos ho).symm⟩
  · rw [if_neg ho] at heq
    obtain ⟨rfl, rfl⟩ := Prod.mk.inj heq
    exact ⟨p, live_of_getPlayer hp, (if_neg ho).symm⟩

/-- The object that changes stays in `playerlist`. -/
theorem Live.setObj (h : a.Live obj p) {f : Player → Player} (hf : ∀ p, (f p).id = p.id) :
    (a.setObj obj f hf).Live obj (f p) := by
  rw [Live, getPlayer_setObj, hf, h, Option.map_some, if_pos rfl]

/-- After a login: the new player, or another one. -/
theorem live_setPlayer {pid : Pid} {mArgs : LoginArgs} {now : ℕ} (h : (a.setPlayer pid mArgs now).Live obj p) :
    obj = a.objs.length ∧ p = Player.init pid mArgs now ∨ a.Live obj p := by
  rw [Live, getPlayer_setPlayer] at h
  split_ifs at h
  · obtain ⟨rfl, rfl⟩ := Prod.mk.inj (Option.some.inj h)
    exact Or.inl ⟨rfl, rfl⟩
  · exact Or.inr h

/-- After `quit`. -/
theorem live_delPlayer {pid : Pid} (h : (a.delPlayer pid).Live obj p) : a.Live obj p := by
  rw [Live, getPlayer_delPlayer] at h
  split_ifs at h
  exact h

end Agent

/-! ## The invariant -/

namespace Handshake

/-- Nothing has happened to the client of a login to come, and every client can read what is on its
way. -/
structure Clean (s : Handshake) : Prop where
  /-- The clients to come. -/
  fresh : ∀ obj, s.timed.agent.objs.length ≤ obj →
    (s.links obj).down = [] ∧ (s.links obj).client.held = ∅
  /-- What is on the way. -/
  answerable : ∀ obj, Answerable (s.links obj).client.held (s.links obj).down

/-- The invariant: every player in `playerlist` talks to its client. -/
structure Inv (C : Prop) (s : Handshake) : Prop where
  /-- All clients. -/
  clean : s.Clean
  /-- The players in `playerlist`. -/
  talks : ∀ obj p, s.timed.agent.Live obj p → Talks C p (s.links obj)

theorem inv_init (C : Prop) (start : ℕ → ℚ) : Inv C (init start) where
  clean :=
    ⟨fun _ _ => ⟨rfl, Set.eq_empty_of_forall_notMem fun _ hmem => hmem rfl⟩, fun _ => trivial⟩
  talks obj p hlive := by cases hlive.objs

/-- The state after the agent has ended a handler, with its timers. -/
def after (s : Handshake) (r : Outcome Agent (Letter Msg)) (timers : ℕ → Timers PlayerTimer PlayerCallback) :
    Handshake :=
  ⟨⟨r.state, timers⟩, fun obj => (s.links obj).push (r.state.reaching r.sent obj)⟩

section Steps

variable {C : Prop} {s : Handshake} {r : Outcome Agent (Letter Msg)}
  {timers : ℕ → Timers PlayerTimer PlayerCallback}

/-- The invariant after an event of the agent, from the players in `playerlist` and what is sent to
them. -/
theorem Clean.inv_after (h : s.Clean) (hlen : s.timed.agent.objs.length ≤ r.state.objs.length)
    (hlive : ∀ obj p, r.state.Live obj p → Talks C p ((s.links obj).push (pings p.id r.sent))) :
    Inv C (s.after r timers) where
  clean := by
    refine ⟨fun obj hobj => ?_, fun obj => ?_⟩
    · have hnot : ∀ p, ¬ r.state.Live obj p := fun p hp => hp.lt.not_ge hobj
      show (s.links obj).down ++ r.state.reaching r.sent obj = [] ∧ _
      rw [Agent.reaching_eq_nil hnot, List.append_nil]
      exact h.fresh obj (hlen.trans hobj)
    · show Answerable (s.links obj).client.held ((s.links obj).down ++ r.state.reaching r.sent obj)
      by_cases hlive' : ∃ p, r.state.Live obj p
      · obtain ⟨p, hp⟩ := hlive'
        rw [hp.reaching]
        exact (hlive obj p hp).answerable
      · rw [Agent.reaching_eq_nil (not_exists.mp hlive'), List.append_nil]
        exact h.answerable obj
  talks obj p hp := by
    change r.state.Live obj p at hp
    show Talks C p ((s.links obj).push (r.state.reaching r.sent obj))
    rw [hp.reaching]
    exact hlive obj p hp

/-- An event after which the players in `playerlist` are some of those before, with the same sessions,
and that sends no pings. -/
theorem Inv.quiet (h : Inv C s) (hlen : s.timed.agent.objs.length ≤ r.state.objs.length)
    (hsent : ∀ pid, pings pid r.sent = []) (hlive : ∀ obj p', r.state.Live obj p' →
      ∃ p, s.timed.agent.Live obj p ∧ p'.pingSession = p.pingSession ∧
        p'.lastPingSession = p.lastPingSession) : Inv C (s.after r timers) := by
  refine h.clean.inv_after hlen fun obj p' hp' => ?_
  obtain ⟨p, hp, hping, hlast⟩ := hlive obj p' hp'
  rw [hsent, PingLink.push, List.append_nil]
  exact (h.talks obj p hp).congr hping hlast

/-- So is a change of an object that keeps its sessions. -/
theorem Inv.quiet_setObj (h : Inv C s) {obj : ℕ} {f : Player → Player} (hf : ∀ p, (f p).id = p.id)
    (hstate : r.state = s.timed.agent.setObj obj f hf) (hsent : ∀ pid, pings pid r.sent = [])
    (hping : ∀ p, (f p).pingSession = p.pingSession)
    (hlast : ∀ p, (f p).lastPingSession = p.lastPingSession) : Inv C (s.after r timers) := by
  refine h.quiet ?_ hsent fun obj' p' hp' => ?_
  · rw [hstate]
    exact (List.length_modify ..).ge
  · rw [hstate] at hp'
    obtain ⟨p, hp, rfl⟩ := Agent.live_setObj hf hp'
    refine ⟨p, hp, ?_⟩
    split_ifs
    · exact ⟨hping p, hlast p⟩
    · exact ⟨rfl, rfl⟩

/-- Nothing happens. -/
theorem Inv.idle (h : Inv C s) : Inv C (s.after (.done s.timed.agent []) timers) :=
  h.quiet le_rfl pings_nil fun _ p hp => ⟨p, hp, rfl, rfl⟩

/-- The sessions of the present player are not behind. -/
theorem le_of_ahead_eq_false {obj cur : ℕ} {p q : Player} (h : ahead s.timed.agent obj = false)
    (hp : s.timed.agent.objs[obj]? = some p) (hq : s.timed.agent.getPlayer p.id = some (cur, q))
    (hne : cur ≠ obj) : p.nextSession ≤ q.pingSession := by
  rw [ahead, hp, Option.any_some, hq, Option.any_some, Bool.and_eq_false_iff] at h
  rcases h with h | h
  · exact absurd hne (of_decide_eq_false h)
  · exact not_lt.mp (of_decide_eq_false h)

/-- The client of an object reads the next message. -/
theorem Inv.down (h : Inv C s) {obj : ℕ} {m : ℕ × Bool} {rest : List (ℕ × Bool)}
    (hdown : (s.links obj).down = m :: rest) (now ti : ℚ) : Inv C
      { s with links := Function.update s.links obj ((s.links obj).read m rest now ti) } := by
  have hlinks : ∀ obj', Function.update s.links obj ((s.links obj).read m rest now ti) obj' =
      if obj' = obj then (s.links obj).read m rest now ti else s.links obj' := by
    intro obj'
    exact Function.update_apply ..
  refine ⟨⟨fun obj' hobj' => ?_, fun obj' => ?_⟩, fun obj' p hp => ?_⟩
  · have hfresh := h.clean.fresh obj' hobj'
    dsimp only
    rw [hlinks, if_neg]
    · exact hfresh
    · rintro rfl
      rw [hdown] at hfresh
      cases hfresh.1
  · dsimp only
    rw [hlinks]
    split_ifs with heq
    · exact PingLink.answerable_read hdown (h.clean.answerable obj) now ti
    · exact h.clean.answerable obj'
  · have htalks := h.talks obj' p hp
    dsimp only
    rw [hlinks]
    split_ifs with heq
    · subst heq
      exact htalks.read hdown now ti
    · exact htalks

section Logins

variable [ServerConfig]

/-- Requests that are no pings. -/
theorem pings_registerFd (pid uuid : Pid) (fd : Fd) : pings pid (Agent.registerFd uuid fd) = [] := by
  refine pings_eq_nil fun m hm => ?_
  obtain ⟨b, -, heq⟩ := List.mem_map.mp hm
  cases heq
  rfl

/-- `quit`, or nothing if the pid has no player. -/
theorem Inv.kick (h : Inv C s) (pid : Pid) : Inv C (s.after (s.timed.agent.kick pid) timers) := by
  rw [Agent.kick]
  split
  · refine h.quiet le_rfl (fun q => pings_eq_nil fun m hm => ?_) fun obj p hp => ?_
    · rcases List.mem_append.mp hm with hm | hm
      · obtain ⟨w, -, heq⟩ := List.mem_map.mp hm
        cases heq
      · obtain ⟨b, -, heq⟩ := List.mem_map.mp hm
        cases heq
        rfl
    · exact ⟨p, Agent.live_delPlayer hp, rfl, rfl⟩
  · exact h.idle

/-- A login. -/
theorem Inv.start (h : Inv C s) (n : ℕ) (pid : Pid) (mArgs : LoginArgs) (now : ℕ) :
    Inv C (s.after (s.timed.agent.start n pid mArgs now) timers) := by
  refine h.clean.inv_after ?_ fun obj p hp => ?_
  · show _ ≤ (s.timed.agent.objs ++ [_]).length
    rw [List.length_append]
    exact Nat.le_add_right _ _
  · have hsent : pings p.id (s.timed.agent.start n pid mArgs now).sent = [] := by
      rw [Agent.start, Outcome.done_sent, pings_append, pings_registerFd]
      rfl
    rw [hsent, PingLink.push, List.append_nil]
    rcases Agent.live_setPlayer hp with ⟨rfl, rfl⟩ | hp
    · obtain ⟨hdown, hheld⟩ := h.clean.fresh _ le_rfl
      exact Talks.init pid mArgs now hheld hdown
    · exact h.talks obj p hp

end Logins

variable [Wire] (hwire : Player.PingsPack)

include hwire in
/-- **A `c2gs_ping` is handled.** It may just have been taken from the channel of a client. -/
theorem Clean.unpack_ping (h : s.Clean) {pid : Pid} {session : Option ℤ}
    (hopen : ∀ obj p, s.timed.agent.Live obj p → p.id = pid → session = some p.pingSession →
      p.lastPingSession ≠ p.pingSession → ∃ up, Talks C p ((s.links obj).setUp up))
    (hother : ∀ obj p, s.timed.agent.Live obj p →
      ¬ (p.id = pid ∧ session = some p.pingSession ∧ p.lastPingSession ≠ p.pingSession) →
        Talks C p (s.links obj)) (clk : Clock) :
    Inv C (s.after (s.timed.agent.unpack pid (.c2gsPing session) clk) timers) := by
  rw [Agent.unpack]
  split
  · rename_i cur p hcur
    have hp : s.timed.agent.Live cur p := Agent.live_of_getPlayer hcur
    have hid : p.id = pid := Agent.id_getPlayer hcur
    refine h.inv_after (List.length_modify ..).ge fun obj p' hp' => ?_
    obtain ⟨p₀, hp₀, rfl⟩ := Agent.live_setObj (fun p => (p.keeps_clientPing session clk).id) hp'
    by_cases hobj : obj = cur
    · -- the player of the pid
      subst hobj
      obtain rfl : p₀ = p := Option.some.inj (hp₀.objs.symm.trans hp.objs)
      rw [if_pos rfl]
      show Talks C (p₀.clientPing session clk).state ((s.links obj).push
        (pings (p₀.clientPing session clk).state.id (p₀.clientPing session clk).sent))
      rw [(p₀.keeps_clientPing session clk).id]
      have hpings := p₀.pings_clientPing hwire session clk p₀.id
      by_cases hack : session = some p₀.pingSession ∧ p₀.lastPingSession ≠ p₀.pingSession
      · obtain ⟨up, hup⟩ := hopen obj p₀ hp₀ hid hack.1 hack.2
        have hstate : (p₀.clientPing session clk).state
            = { p₀ with lastPingSession := p₀.pingSession }.calculated clk.now := by
          rw [Player.clientPing_state, if_pos hack]
        refine hup.acked hack.2 ?_ ?_ (hpings.imp_right fun hsent => hsent.2.2.2) (s.links obj).up
        · rw [hstate]
          rfl
        · rw [hstate]
          rfl
      · have hstate : (p₀.clientPing session clk).state = p₀ := by
          rw [Player.clientPing_state, if_neg hack]
        rw [hpings.resolve_right fun hsent => hack ⟨hsent.2.1, hsent.2.2.1⟩, hstate, PingLink.push,
          List.append_nil]
        exact hother obj p₀ hp₀ fun hyes => hack hyes.2
    · -- the player of another pid
      rw [if_neg hobj]
      have hne : p.id ≠ p₀.id := by
        intro heq
        have hsame : some (cur, p) = some (obj, p₀) := by
          rw [← hp, ← hp₀, heq]
        exact hobj (Prod.mk.inj (Option.some.inj hsame)).1.symm
      have hpings : pings p₀.id (p.clientPing session clk).sent = [] :=
        (p.pings_clientPing hwire session clk p₀.id).resolve_right fun hsent => hne hsent.1
      show Talks C p₀ ((s.links obj).push (pings p₀.id (p.clientPing session clk).sent))
      rw [hpings, PingLink.push, List.append_nil]
      exact hother obj p₀ hp₀ fun hyes => hne (hid.trans hyes.1.symm)
  · rename_i hnone
    refine h.inv_after le_rfl fun obj p hp => ?_
    show Talks C p ((s.links obj).push [])
    rw [PingLink.push, List.append_nil]
    refine hother obj p hp fun hyes => ?_
    have hlive : s.timed.agent.getPlayer p.id = some (obj, p) := hp
    rw [hyes.1, hnone] at hlive
    cases hlive

include hwire in
/-- **A timer `ServerPing` fires.** Where `C` holds, one of a player that was replaced tells the client
of no session that the present player has not opened. -/
theorem Inv.serverPing (h : Inv C s) {obj : ℕ}
    (hahead : C → ∀ p cur q, s.timed.agent.objs[obj]? = some p →
      s.timed.agent.getPlayer p.id = some (cur, q) → cur ≠ obj → p.nextSession ≤ q.pingSession)
    (clk : Clock) : Inv C (s.after (s.timed.agent.serverPing obj clk) timers) := by
  rw [Agent.serverPing]
  split
  · rename_i p hp
    refine h.clean.inv_after (List.length_modify ..).ge fun obj' p' hp' => ?_
    obtain ⟨p₀, hp₀, rfl⟩ := Agent.live_setObj (fun p => (p.keeps_checkGsPing clk).id) hp'
    have htalks := h.talks obj' p₀ hp₀
    by_cases hobj : obj' = obj
    · -- the object is in `playerlist`
      subst hobj
      obtain rfl : p₀ = p := Option.some.inj (hp₀.objs.symm.trans hp)
      rw [if_pos rfl]
      show Talks C (p₀.checkGsPing clk).state ((s.links obj').push
        (pings (p₀.checkGsPing clk).state.id (p₀.checkGsPing clk).sent))
      rw [(p₀.keeps_checkGsPing clk).id]
      obtain ⟨hping, hlast⟩ := p₀.checkGsPing_sessions clk
      by_cases hclosed : p₀.pingSession = p₀.lastPingSession
      · have hnext : p₀.nextSession = p₀.pingSession + 1 := if_pos hclosed
        rcases p₀.pings_checkGsPing hwire clk p₀.id with hsent | ⟨-, hsent⟩
        · exact absurd hclosed (hsent.2 rfl)
        · rw [hsent, ← hping]
          exact htalks.opened hclosed (hping.trans hnext) hlast
      · have hnext : p₀.nextSession = p₀.pingSession := if_neg hclosed
        refine Talks.congr ?_ (hping.trans hnext) hlast
        rcases p₀.pings_checkGsPing hwire clk p₀.id with ⟨hsent, -⟩ | ⟨-, hsent⟩
        · rw [hsent, PingLink.push, List.append_nil]
          exact htalks
        · rw [hsent, hnext]
          refine htalks.announced fun _ => (Int.toNat_of_nonneg ?_).le
          exact htalks.order.1.trans htalks.order.2.1
    · rw [if_neg hobj]
      show Talks C p₀ ((s.links obj').push (pings p₀.id (p.checkGsPing clk).sent))
      rcases p.pings_checkGsPing hwire clk p₀.id with ⟨hsent, -⟩ | ⟨hid, hsent⟩
      · rw [hsent, PingLink.push, List.append_nil]
        exact htalks
      · -- the object was replaced, and its ping reaches the client of the present player
        rw [hsent]
        refine htalks.announced fun hC => ?_
        have hle := hahead hC p obj' p₀ hp (hid ▸ hp₀) hobj
        have := htalks.order
        omega
  · exact h.idle

/-- A packet other than `c2gs_ping`. -/
theorem Inv.unpack_other (h : Inv C s) {pid : Pid} {msg : ClientMsg}
    (hmsg : ∀ session, msg ≠ .c2gsPing session) (clk : Clock) :
    Inv C (s.after (s.timed.agent.unpack pid msg clk) timers) := by
  -- Only `c2gs_ping` touches the sessions of the player or answers a ping.
  have hstate : ∀ p : Player, (p.analysis clk msg).state = p := by
    intro p
    cases msg with
    | c2gsPing session => exact absurd rfl (hmsg session)
    | c2gsRttData _ _ _ _ =>
        rw [Player.analysis, Player.syncRttData]
        split
        · rfl
        · rfl
    | c2gsLogin _ | c2gsCtrlData _ | other => rfl
  have hsent : ∀ (p : Player) pid, pings pid (p.analysis clk msg).sent = [] := by
    intro p pid
    refine pings_eq_nil fun m hm => ?_
    cases msg with
    | c2gsPing session => exact absurd rfl (hmsg session)
    | c2gsCtrlData ctrlData =>
        obtain ⟨w, -, heq⟩ := List.mem_map.mp hm
        cases heq
    | c2gsRttData _ _ _ _ =>
        rw [Player.analysis, Player.syncRttData] at hm
        split at hm
        · cases List.mem_singleton.mp hm
        · cases hm
    | c2gsLogin _ | other => cases hm
  rw [Agent.unpack]
  split
  · rename_i obj p hp
    refine h.quiet_setObj (fun p => (p.keeps_analysis clk msg).id) rfl (hsent p) (fun p => ?_) fun p => ?_
    · rw [hstate]
    · rw [hstate]
  · exact h.idle

variable [ServerConfig]

/-- What an event of the agent leaves. -/
theorem agentStep_eq_some {n : ℕ} {e : AgentEvent} {s' : Handshake} (h : s.agentStep n e = some s') :
    s' = s.after (s.timed.handle n e) (s.timed.nextTimers e) := by
  obtain ⟨timed, hstep, rfl⟩ := Option.map_eq_some_iff.mp h
  obtain rfl := TimedAgent.step_eq_some hstep
  rfl

include hwire in
/-- **An event of the agent keeps the invariant.** -/
theorem Inv.agentStep (h : Inv C s) {n : ℕ} {e : AgentEvent} (hahead : C → s.noneAhead (.agent e) = true)
    {s' : Handshake} (hstep : s.agentStep n e = some s') : Inv C s' := by
  obtain rfl := agentStep_eq_some hstep
  cases e with
  | letter clk m =>
      cases m with
      | start pid mArgs => exact h.start n pid mArgs clk.now
      | kick pid => exact h.kick pid
      | unpack pid msg =>
          cases msg with
          | c2gsPing session =>
              refine h.clean.unpack_ping hwire (fun obj p hp _ _ _ => ?_) (fun obj p hp _ => ?_) clk
              · exact ⟨(s.links obj).up, h.talks obj p hp⟩
              · exact h.talks obj p hp
          | c2gsLogin | c2gsCtrlData | c2gsRttData | other =>
              exact h.unpack_other (fun _ => ClientMsg.noConfusion) clk
      | entered obj gameId scene =>
          exact h.quiet_setObj (f := fun p => { p with war := some (gameId, scene) }) (fun _ => rfl) rfl
            pings_nil (fun _ => rfl) fun _ => rfl
  | timeout clk obj t =>
      rw [TimedAgent.handle]
      split
      · refine h.serverPing hwire (fun hC p cur q hp hq hne => ?_) clk
        have hnone : (!ahead s.timed.agent obj) = true := hahead hC
        rw [Bool.not_eq_true'] at hnone
        exact le_of_ahead_eq_false hnone hp hq hne
      · exact h.idle

include hwire in
/-- The agent handles the next message of a client. -/
theorem Inv.up (h : Inv C s) {n obj session : ℕ} {rest : List ℕ} {p : Player}
    (hup : (s.links obj).up = session :: rest) (hp : s.timed.agent.objs[obj]? = some p) {clk : Clock}
    {s' : Handshake} (hstep : (s.popUp obj rest).agentStep n
      (.letter clk (.unpack p.id (.c2gsPing (some (session : ℤ))))) = some s') : Inv C s' := by
  obtain rfl := agentStep_eq_some hstep
  have hlinks : ∀ obj', (s.popUp obj rest).links obj' =
      if obj' = obj then (s.links obj).setUp rest else s.links obj' := by
    intro obj'
    exact Function.update_apply ..
  have hclean : (s.popUp obj rest).Clean := by
    refine ⟨fun obj' hobj' => ?_, fun obj' => ?_⟩
    · rw [hlinks]
      split_ifs with heq
      · exact heq ▸ h.clean.fresh obj' hobj'
      · exact h.clean.fresh obj' hobj'
    · rw [hlinks]
      split_ifs with heq
      · exact h.clean.answerable obj
      · exact h.clean.answerable obj'
  refine hclean.unpack_ping hwire (fun obj' q hq _ _ _ => ?_) (fun obj' q hq hno => ?_) clk
  · -- the message that was taken is the acknowledgement
    refine ⟨(s.links obj').up, ?_⟩
    rw [hlinks]
    have htalks := h.talks obj' q hq
    split_ifs with heq
    · subst heq
      exact htalks
    · exact htalks
  · rw [hlinks]
    have htalks := h.talks obj' q hq
    split_ifs with heq
    · subst heq
      obtain rfl : p = q := Option.some.inj (hp.symm.trans hq.objs)
      refine htalks.popUp hup ?_
      by_contra hopen
      obtain ⟨hsession, hlast⟩ := not_or.mp hopen
      exact hno ⟨rfl, congrArg some (not_not.mp hsession), hlast⟩
    · exact htalks

include hwire in
/-- **One event keeps the invariant.** -/
theorem Inv.step (h : Inv C s) {n : ℕ} {e : HandshakeEvent} (hahead : C → s.noneAhead e = true)
    {s' : Handshake} (hstep : s.step n e = some s') : Inv C s' := by
  cases e with
  | agent e => exact h.agentStep hwire hahead hstep
  | down obj now ti =>
      rw [Handshake.step] at hstep
      split at hstep
      · cases hstep
      · rename_i m rest hdown
        obtain rfl := Option.some.inj hstep
        exact h.down hdown now ti
  | up obj clk =>
      rw [Handshake.step] at hstep
      split at hstep
      · rename_i session rest p hup hp
        exact h.up hwire hup hp hstep
      · cases hstep

include hwire in
/-- **The invariant holds along every run**, with what is said of the runs that satisfy `C` where none of
the timers announces a session of a player that was replaced. -/
theorem inv_run {n : ℕ} {start : ℕ → ℚ} {tr : List (Handshake × HandshakeEvent)}
    (h : Run (Handshake.step n) (init start) tr s)
    (hahead : C → ∀ x ∈ tr, x.1.noneAhead x.2 = true) : Inv C s := by
  refine h.invariant_of_steps (C := fun s e => C → s.noneAhead e = true) (P := fun _ s => Inv C s)
    (inv_init C start) (fun tr s e s' _ hs hC hstep => hs.step hwire hC hstep) fun x hx hC => ?_
  exact hahead hC x hx

end Steps

/-! ## No session is stuck -/

section Unstuck

variable [Wire] [ServerConfig] (n : ℕ)

/-- The handshake cannot get stuck. -/
structure Unstuck (s : Handshake) : Prop where
  /-- An answer that a client handles next is for a session it holds. -/
  answers : ∀ obj session rest, (s.links obj).down = (session, true) :: rest →
    session ∈ (s.links obj).client.held
  /-- An unanswered session that the client holds is on its way to the agent. -/
  onWay : ∀ obj p (session : ℕ), s.timed.agent.Live obj p → p.pingSession = session →
    p.lastPingSession ≠ session → session ∈ (s.links obj).client.held → session ∈ (s.links obj).up
  /-- It is answered when the agent handles what is on its way. -/
  arrives : ∀ obj p (session : ℕ), s.timed.agent.Live obj p → p.pingSession = session →
    p.lastPingSession ≠ session → session ∈ (s.links obj).client.held → ∀ clk, ∃ k s' p',
      runFrom (step n) s (List.replicate k (.up obj clk)) = some s' ∧ s'.timed.agent.Live obj p' ∧
        p'.pingSession = session ∧ p'.lastPingSession = session

variable {n} {s : Handshake} {obj : ℕ} {p : Player}

/-- The agent handles the next message of the client of a player in `playerlist`. -/
theorem step_up (h : s.timed.agent.Live obj p) {session : ℕ} {rest : List ℕ}
    (hup : (s.links obj).up = session :: rest) (clk : Clock) : ∃ s', s.step n (.up obj clk) = some s' ∧
      (s'.links obj).up = rest ∧
        s'.timed.agent.Live obj (p.clientPing (some (session : ℤ)) clk).state := by
  have hlive : (s.popUp obj rest).timed.agent.Live obj p := h
  have hplayer : (s.popUp obj rest).timed.agent.getPlayer p.id = some (obj, p) := h
  refine ⟨(s.popUp obj rest).after
      ((s.popUp obj rest).timed.agent.unpack p.id (.c2gsPing (some (session : ℤ))) clk)
      (s.popUp obj rest).timed.timers, ?_, ?_, ?_⟩
  · rw [step, hup, h.objs]
    rfl
  · show (Function.update s.links obj ((s.links obj).setUp rest) obj).up = rest
    rw [Function.update_self]
    rfl
  · show ((s.popUp obj rest).timed.agent.unpack p.id _ clk).state.Live obj _
    rw [Agent.unpack, hplayer]
    exact hlive.setObj fun p => (p.keeps_clientPing (some (session : ℤ)) clk).id

/-- **A session whose `c2gs_ping` is on its way is answered** when the agent has handled it. -/
theorem exists_answered {session : ℕ} (hping : p.pingSession = session)
    (hopen : p.lastPingSession ≠ session) (clk : Clock) {up : List ℕ} (hmem : session ∈ up)
    (h : s.timed.agent.Live obj p) (hup : (s.links obj).up = up) :
    ∃ k s' p', runFrom (step n) s (List.replicate k (.up obj clk)) = some s' ∧
      s'.timed.agent.Live obj p' ∧ p'.pingSession = session ∧ p'.lastPingSession = session := by
  induction up generalizing s with
  | nil => cases hmem
  | cons first rest ih =>
      obtain ⟨s₁, hstep, hup₁, hlive⟩ := step_up (n := n) h hup clk
      by_cases hfirst : session = first
      · have hstate : (p.clientPing (some (first : ℤ)) clk).state
            = { p with lastPingSession := p.pingSession }.calculated clk.now := by
          rw [Player.clientPing_state, if_pos ⟨by rw [hping, hfirst], hping ▸ hopen⟩]
        refine ⟨1, s₁, _, ?_, hlive, ?_, ?_⟩
        · rw [List.replicate_one, runFrom, hstep]
          rfl
        · rw [hstate]
          exact hping
        · rw [hstate]
          exact hping
      · -- an acknowledgement of another session is ignored
        have hstate : (p.clientPing (some (first : ℤ)) clk).state = p := by
          rw [Player.clientPing_state, if_neg]
          rintro ⟨heq, -⟩
          rw [hping] at heq
          exact hfirst (Int.ofNat.inj (Option.some.inj heq)).symm
        rw [hstate] at hlive
        obtain ⟨k, s', p', hrun, hp'⟩ := ih ((List.mem_cons.mp hmem).resolve_left hfirst) hlive hup₁
        refine ⟨k + 1, s', p', ?_, hp'⟩
        rw [List.replicate_succ, runFrom, hstep]
        exact hrun

/-- What the invariant says where no timer announces a session of a player that was replaced. -/
theorem Inv.unstuck (h : Inv True s) : s.Unstuck n := by
  have honWay : ∀ obj p (session : ℕ), s.timed.agent.Live obj p → p.pingSession = session →
      p.lastPingSession ≠ session → session ∈ (s.links obj).client.held →
        session ∈ (s.links obj).up := by
    intro obj p session hp hping hopen hheld
    have hnat : p.pingSession.toNat = session := by
      rw [hping]
      exact Int.toNat_natCast session
    have hup := (h.talks obj p hp).onWay trivial (hping ▸ hopen)
    rw [hnat] at hup
    exact hup hheld
  refine ⟨fun obj session rest hdown => ?_, honWay, fun obj p session hp hping hopen hheld clk => ?_⟩
  · have hanswerable := h.clean.answerable obj
    rw [hdown] at hanswerable
    exact hanswerable.1 rfl
  · exact exists_answered hping hopen clk (honWay obj p session hp hping hopen hheld) hp rfl

end Unstuck

section Sproto

attribute [local instance] sprotoWire

/-- **The handshake does not get stuck** in any run in which no timer of a player that was replaced
announces a session that the present player of its pid has not opened. -/
theorem unstuck_run [ServerConfig] {n : ℕ} {start : ℕ → ℚ} {tr : List (Handshake × HandshakeEvent)}
    {s : Handshake} (h : Run (step n) (init start) tr s)
    (hahead : ∀ x ∈ tr, x.1.noneAhead x.2 = true) : s.Unstuck n :=
  (inv_run packs_gs2cPing h fun _ => hahead).unstuck

/-- **An answer is never for a session that the client does not hold**, in any run. -/
theorem answers_run [ServerConfig] {n : ℕ} {start : ℕ → ℚ} {tr : List (Handshake × HandshakeEvent)}
    {s : Handshake} (h : Run (step n) (init start) tr s) {obj session : ℕ} {rest : List (ℕ × Bool)}
    (hdown : (s.links obj).down = (session, true) :: rest) : session ∈ (s.links obj).client.held := by
  have hanswerable := (inv_run (C := False) packs_gs2cPing h False.elim).clean.answerable obj
  rw [hdown] at hanswerable
  exact hanswerable.1 rfl

attribute [local instance] gameConfig

/-- A timeout of the object `obj` at the time `now`. -/
def pingTimer (obj now : ℕ) : HandshakeEvent :=
  .agent (.timeout ⟨now, 1⟩ obj ⟨100, .checkGsPing, .named .serverPing, 0⟩)

/-- Player 1 logs in again, the timer of its first object fires, and its new client acknowledges. Then
the timer of the second object fires. -/
def staleTimer : List HandshakeEvent :=
  TimedAgent.loginAgain.map .agent ++
    [pingTimer 0 100, .down 1 1 1, .up 1 ⟨110, 1⟩, pingTimer 1 160]

/-- **A session can be stuck.** The second object of player 1 has opened the session 1, which its client
holds since the timer of the first object fired; no `c2gs_ping` is on its way. -/
theorem session_stuck : ∃ tr s p, Run (step 1) (init fun _ => 0) tr s ∧ s.timed.agent.Live 1 p ∧
    p.pingSession = 1 ∧ p.lastPingSession ≠ 1 ∧ 1 ∈ (s.links 1).client.held ∧ (s.links 1).up = [] ∧
      ¬ s.Unstuck 1 := by
  have hrun : (runFrom (step 1) (init fun _ => 0) staleTimer).any (fun s =>
      (s.timed.agent.getPlayer 1).any (fun x => x.1 = 1 && x.2.pingSession = 1 &&
        x.2.lastPingSession = 0) && ((s.links 1).client.rttSessions 1).isSome &&
          (s.links 1).up = []) = true := by
    decide +kernel
  obtain ⟨s, hs, hstate⟩ := Option.any_eq_true _ _ |>.mp hrun
  simp only [Bool.and_eq_true, decide_eq_true_eq] at hstate
  obtain ⟨⟨hplayer, hheld⟩, hup⟩ := hstate
  obtain ⟨⟨obj, p⟩, hp, hx⟩ := Option.any_eq_true _ _ |>.mp hplayer
  simp only [Bool.and_eq_true, decide_eq_true_eq] at hx
  obtain ⟨⟨rfl, hping⟩, hlast⟩ := hx
  have hlive : s.timed.agent.Live 1 p := Agent.live_of_getPlayer hp
  have hne : p.lastPingSession ≠ 1 := by
    rw [hlast]
    decide
  have hmem : 1 ∈ (s.links 1).client.held := Option.isSome_iff_ne_none.mp hheld
  refine ⟨_, s, p, run_of_runFrom hs, hlive, hping, hne, hmem, hup, fun hunstuck => ?_⟩
  have hway := hunstuck.onWay 1 p 1 hlive hping hne hmem
  rw [hup] at hway
  cases hway

/-- Player 1 opens a session, quits and logs in again; the new client acknowledges the first session of
the second object. The first object announces that session once more. -/
def secondLogin : List HandshakeEvent :=
  [.agent (.letter ⟨0, 0⟩ (.start 1 ⟨1, 1, [97], ⟨some 1, some 2, some 3⟩, 1⟩)), pingTimer 0 100,
   .agent (.letter ⟨150, 1⟩ (.kick 1)),
   .agent (.letter ⟨160, 1⟩ (.start 1 ⟨1, 1, [97], ⟨some 1, some 2, some 3⟩, 2⟩)),
   .agent (.letter ⟨170, 1⟩ (.entered 0 1 1)), .agent (.letter ⟨180, 1⟩ (.entered 1 1 1)),
   pingTimer 1 190, pingTimer 0 200, .down 1 2 2]

/-- The run `secondLogin`. -/
theorem unstuck_secondLogin : ∃ s, Run (step 1) (init fun _ => 0)
    (traceFrom (step 1) (init fun _ => 0) secondLogin) s ∧ s.Unstuck 1 := by
  have hrun : (runFrom (step 1) (init fun _ => 0) secondLogin).isSome = true := by decide +kernel
  obtain ⟨s, hs⟩ := Option.isSome_iff_exists.mp hrun
  have hahead : ∀ x ∈ traceFrom (step 1) (init fun _ => 0) secondLogin, x.1.noneAhead x.2 = true := by
    decide +kernel
  exact ⟨s, run_of_runFrom hs, unstuck_run (run_of_runFrom hs) hahead⟩

end Sproto

end Handshake

end FrameSync
