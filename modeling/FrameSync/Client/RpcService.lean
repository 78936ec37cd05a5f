import FrameSync.Foundations.Framing
import Mathlib.Data.List.Sublists

/-! # The client's socket

`AsyncRpcService` of `rpcservice.py`: `_write` and `_send` on one side, `_read` and `recv` on the
other, over a non-blocking socket. A packet is two bytes with its length and the encoded message.

What is sent stays framed exactly as long as nothing follows a packet that was torn (`framed_iff`).
What is received is deframed in order, but each `_read` reads the socket once and dispatches one packet
at most, and the read that finds the connection closed dispatches none: the packets that were complete
are all dispatched exactly when the last reads before the close did not complete more packets than
they were (`dispatches_all_iff`). -/

namespace FrameSync.Client

open Framing

/-- Bytes on the socket. -/
abbrev Octets := List UInt8

/-! ## Sending -/

/-- A call of `_send`, with what `sendall` does in it: it transmits some bytes, and raises
`socket.error` if these are not all. -/
structure Sending where
  /-- The encoded message. -/
  data : Octets
  /-- The number of bytes that are transmitted. -/
  sent : ℕ
  /-- `struct.pack("!H", ..)` takes the length. -/
  short : data.length < 65536
  /-- They are bytes of the packet. -/
  sent_le : sent ≤ (frame data).length

namespace Sending

/-- `sendall` on a socket over which `wire` has gone. -/
def sendall (wire packet : Octets) (sent : ℕ) : Octets × Bool :=
  (wire ++ packet.take sent, decide (sent < packet.length))

/-- `AsyncRpcService._write`: an error is logged, and nothing else. -/
def write (wire packet : Octets) (sent : ℕ) : Octets := (sendall wire packet sent).1

/-- `AsyncRpcService._send` -/
def send (wire : Octets) (x : Sending) : Octets :=
  write wire (packU16 x.data.length ++ x.data) x.sent

/-- The bytes that reach the server. -/
def wire (xs : List Sending) : Octets := xs.foldl send []

/-- What a call adds to them. -/
def piece (x : Sending) : Octets := (frame x.data).take x.sent

/-- The call transmitted a part of its packet, and not all of it. -/
def Torn (x : Sending) : Prop := 0 < x.sent ∧ x.sent < (frame x.data).length

instance (x : Sending) : Decidable x.Torn := inferInstanceAs (Decidable (_ ∧ _))

/-- What was transmitted is the beginning of some of the packets, whole and in order, and each call
that transmits anything starts behind whole packets. -/
def Framed (xs : List Sending) : Prop :=
  (∃ messages, messages.Sublist (xs.map data) ∧ wire xs <+: frames messages) ∧
    ∀ before x later, xs = before ++ x :: later → 0 < x.sent →
      ∃ messages, messages.Sublist (before.map data) ∧ wire before = frames messages

/-! ### Pieces -/

/-- The bytes are the pieces, one after another. -/
theorem wire_eq (xs : List Sending) : wire xs = xs.flatMap piece := by
  have main : ∀ start : Octets, xs.foldl send start = start ++ xs.flatMap piece := by
    intro start
    induction xs generalizing start with
    | nil => simp
    | cons x xs ih =>
        rw [List.foldl_cons, ih, List.flatMap_cons, ← List.append_assoc]
        rfl
  exact main []

@[simp] theorem wire_cons (x : Sending) (xs : List Sending) :
    wire (x :: xs) = x.piece ++ wire xs := by
  rw [wire_eq, wire_eq, List.flatMap_cons]

/-- A piece is nothing, a whole packet, or torn. -/
theorem piece_cases (x : Sending) :
    x.sent = 0 ∧ x.piece = [] ∨
      x.sent = (frame x.data).length ∧ x.piece = frame x.data ∨ x.Torn := by
  rcases Nat.eq_zero_or_pos x.sent with h | hpos
  · exact Or.inl ⟨h, by rw [piece, h, List.take_zero]⟩
  · rcases Nat.lt_or_eq_of_le x.sent_le with hlt | heq
    · exact Or.inr (Or.inr ⟨hpos, hlt⟩)
    · exact Or.inr (Or.inl ⟨heq, by rw [piece, heq, List.take_length]⟩)

/-- Calls that transmit nothing. -/
theorem wire_eq_nil {xs : List Sending} (h : ∀ x ∈ xs, x.sent = 0) : wire xs = [] := by
  rw [wire_eq, List.flatMap_eq_nil_iff]
  intro x hx
  rw [piece, h x hx, List.take_zero]

/-! ### When the stream stays framed -/

/-- The condition: after a packet that was torn nothing is transmitted. -/
def Clean (xs : List Sending) : Prop := xs.Pairwise fun x y => x.Torn → y.sent = 0

/-- Then the bytes are the beginning of whole packets. -/
theorem Clean.isPrefix {xs : List Sending} (h : Clean xs) :
    ∃ messages, messages.Sublist (xs.map data) ∧ wire xs <+: frames messages := by
  induction xs with
  | nil => exact ⟨[], List.nil_sublist _, List.nil_prefix⟩
  | cons x xs ih =>
      obtain ⟨hlater, hrest⟩ := List.pairwise_cons.mp h
      obtain ⟨messages, hsub, hprefix⟩ := ih hrest
      rw [wire_cons, List.map_cons]
      rcases x.piece_cases with ⟨-, hpiece⟩ | ⟨-, hpiece⟩ | htorn
      · exact ⟨messages, hsub.cons _, by rwa [hpiece]⟩
      · refine ⟨x.data :: messages, hsub.cons_cons _, ?_⟩
        rw [hpiece, frames_cons]
        exact (List.prefix_append_right_inj _).mpr hprefix
      · -- nothing comes after the part of the packet
        refine ⟨[x.data], List.singleton_sublist.mpr List.mem_cons_self, ?_⟩
        rw [wire_eq_nil fun y hy => hlater y hy htorn, List.append_nil, frames_cons, frames_nil,
          List.append_nil]
        exact List.take_prefix _ _

/-- And whatever is transmitted starts behind whole packets. -/
theorem Clean.starts {xs before later : List Sending} {x : Sending} (h : Clean xs)
    (heq : xs = before ++ x :: later) (hx : 0 < x.sent) :
    ∃ messages, messages.Sublist (before.map data) ∧ wire before = frames messages := by
  induction before generalizing xs with
  | nil => exact ⟨[], List.nil_sublist _, rfl⟩
  | cons y before ih =>
      subst heq
      obtain ⟨hlater, hrest⟩ := List.pairwise_cons.mp h
      obtain ⟨messages, hsub, hwire⟩ := ih hrest rfl
      rw [wire_cons, List.map_cons, hwire]
      rcases y.piece_cases with ⟨-, hpiece⟩ | ⟨-, hpiece⟩ | htorn
      · exact ⟨messages, hsub.cons _, by rw [hpiece, List.nil_append]⟩
      · exact ⟨y.data :: messages, hsub.cons_cons _, by rw [hpiece, frames_cons]⟩
      · have hzero := hlater x (List.mem_append_right _ List.mem_cons_self) htorn
        omega

/-- If whatever is transmitted starts behind whole packets, then none follows a torn one. -/
theorem clean_of_starts {xs : List Sending}
    (h : ∀ before x later, xs = before ++ x :: later → 0 < x.sent →
      ∃ messages, (∀ m ∈ messages, m.length < 65536) ∧ wire before = frames messages) :
    Clean xs := by
  induction xs with
  | nil => exact List.Pairwise.nil
  | cons x xs ih =>
      rcases x.piece_cases with ⟨hsent, hpiece⟩ | ⟨hsent, hpiece⟩ | htorn
      · refine List.pairwise_cons.mpr ⟨fun y _ htorn => ?_, ih fun before y later heq hy => ?_⟩
        · have hpos := htorn.1
          omega
        · obtain ⟨messages, hshort, hwire⟩ := h (x :: before) y later (by rw [heq]; rfl) hy
          rw [wire_cons, hpiece, List.nil_append] at hwire
          exact ⟨messages, hshort, hwire⟩
      · refine List.pairwise_cons.mpr ⟨fun y _ htorn => ?_, ih fun before y later heq hy => ?_⟩
        · have hlt := htorn.2
          omega
        · obtain ⟨messages, hshort, hwire⟩ := h (x :: before) y later (by rw [heq]; rfl) hy
          rw [wire_cons, hpiece] at hwire
          cases messages with
          | nil =>
              have hlength := congrArg List.length hwire
              simp at hlength
          | cons m messages =>
              obtain ⟨hm, hmessages⟩ := List.forall_mem_cons.mp hshort
              exact ⟨messages, hmessages, (frame_append_inj x.short hm hwire).2⟩
      · -- the first call after it that transmits anything would start behind a part of a packet
        have hnone : ∀ y ∈ xs, y.sent = 0 := by
          cases hfind : xs.find? fun y => decide (0 < y.sent) with
          | none =>
              intro y hy
              simpa using List.find?_eq_none.mp hfind y hy
          | some y =>
              obtain ⟨hy, before, later, rfl, hbefore⟩ := List.find?_eq_some_iff_append.mp hfind
              obtain ⟨messages, hshort, hwire⟩ :=
                h (x :: before) y later rfl (of_decide_eq_true hy)
              have hquiet : wire before = [] := by
                refine wire_eq_nil fun z hz => ?_
                simpa using hbefore z hz
              rw [wire_cons, hquiet, List.append_nil] at hwire
              exact absurd hwire (take_frame_ne_frames x.short htorn.1 htorn.2 hshort)
        refine List.pairwise_cons.mpr ⟨fun y hy _ => hnone y hy, ?_⟩
        exact List.pairwise_of_forall_mem_list fun y _ z hz _ => hnone z hz

/-- **When the output stream stays framed**: exactly if no call transmits a byte after a packet was
torn. -/
theorem framed_iff (xs : List Sending) :
    Framed xs ↔ xs.Pairwise fun x y => x.Torn → y.sent = 0 := by
  constructor
  · intro h
    refine clean_of_starts fun before x later heq hx => ?_
    obtain ⟨messages, hsub, hwire⟩ := h.2 before x later heq hx
    refine ⟨messages, fun m hm => ?_, hwire⟩
    obtain ⟨y, -, rfl⟩ := List.mem_map.mp (hsub.subset hm)
    exact y.short
  · exact fun h => ⟨Clean.isPrefix h, fun before x later heq hx => Clean.starts h heq hx⟩

/-- The first packet is cut after one byte, and the second goes out whole. -/
def tornThenWhole : List Sending :=
  [⟨[7], 1, by decide, by decide⟩, ⟨[9], 3, by decide, by decide⟩]

/-- The server reads a length of 0 and then one of 265. -/
theorem not_prefix_of_packets : ¬ ∃ messages : List Octets,
    messages.Sublist (tornThenWhole.map data) ∧ wire tornThenWhole <+: frames messages := by
  have hall : ∀ messages ∈ (tornThenWhole.map data).sublists,
      ¬ wire tornThenWhole <+: frames messages := by
    decide
  rintro ⟨messages, hsub, hprefix⟩
  exact hall messages (List.mem_sublists.mpr hsub) hprefix

end Sending

/-! ## Receiving -/

/-- What `sock.recv(4*1024)` does: it returns bytes, none if the peer has closed, or raises
`socket.error`. -/
inductive SockResult
  /-- `buf` -/
  | arrived (buf : Octets)
  /-- No bytes are there yet. -/
  | error
  deriving Repr, DecidableEq

namespace SockResult

/-- The bytes that were received. -/
def bytes : SockResult → Octets
  | arrived buf => buf
  | error => []

/-- A result before the peer has closed. -/
def Open : SockResult → Prop
  | arrived buf => buf ≠ [] ∧ buf.length ≤ 4 * 1024
  | error => True

instance : DecidablePred Open
  | .arrived _ => inferInstanceAs (Decidable (_ ∧ _))
  | .error => inferInstanceAs (Decidable True)

/-- The bytes of the results. -/
def received (rs : List SockResult) : Octets := rs.flatMap bytes

end SockResult

/-- The fields that receiving reads and writes, and the packets that went to `_dispatch`. -/
structure Receiver where
  /-- `self.close` -/
  close : Bool
  /-- `self.buf` -/
  buf : Octets
  /-- The arguments of `_dispatch` so far. -/
  dispatched : List Octets
  deriving Repr, DecidableEq

namespace Receiver

/-- `AsyncRpcService.__init__` -/
def init : Receiver := ⟨false, [], []⟩

/-- The second half of `_read`. -/
def parse (s : Receiver) : Option Octets × Receiver :=
  match unframe s.buf with
  | some (data, rest) => (some data, { s with buf := rest })
  | none => (none, s)

/-- `AsyncRpcService._read`. The results `None` and `False` are `none`. -/
def read (s : Receiver) (r : SockResult) : Option Octets × Receiver :=
  if s.close then (none, s)
  else
    match r with
    | .arrived buf =>
        if buf = [] then (none, { s with close := true }) else parse { s with buf := s.buf ++ buf }
    | .error => parse s

/-- `AsyncRpcService._dispatch`, as far as it is called. -/
def dispatch (s : Receiver) (data : Octets) : Receiver :=
  { s with dispatched := s.dispatched ++ [data] }

/-- `AsyncRpcService.recv` on a socket with results to come; when there are none left the peer has
closed. Also what is left of them. An empty string is false. -/
def recv (s : Receiver) : List SockResult → Bool × Receiver × List SockResult
  | [] => (!(s.read (.arrived [])).2.close, (s.read (.arrived [])).2, [])
  | r :: rs =>
      match s.read r with
      | (some (b :: data), s') => recv (s'.dispatch (b :: data)) rs
      | (_, s') => (!s'.close, s', rs)

/-- Calls of `recv`, until it returns `False` as in `network_loop`. -/
def session (s : Receiver) (rs : List SockResult) : ℕ → Bool × Receiver
  | 0 => (true, s)
  | n + 1 =>
      match s.recv rs with
      | (true, s', rs') => session s' rs' n
      | (false, s', _) => (false, s')

/-! ### One turn of the loop -/

/-- A call of `_read`, and of `_dispatch` if it returned a packet. -/
def turn (s : Receiver) (r : SockResult) : Receiver :=
  match s.read r with
  | (some (b :: data), s') => s'.dispatch (b :: data)
  | (_, s') => s'

/-- What is not dispatched stays in the buffer, and the socket stays open. -/
theorem parse_close (s : Receiver) : s.parse.2.close = s.close := by
  unfold parse
  split
  · rfl
  · rfl

theorem read_close {s : Receiver} {r : SockResult} (h : s.close = false) (hr : r.Open) :
    (s.read r).2.close = false := by
  unfold read
  rw [if_neg (by rw [h]; exact Bool.false_ne_true)]
  cases r with
  | error => rw [parse_close, h]
  | arrived buf =>
      dsimp only
      rw [if_neg hr.1, parse_close]
      exact h

theorem turn_close {s : Receiver} {r : SockResult} (h : s.close = false) (hr : r.Open) :
    (s.turn r).close = false := by
  have hread := read_close h hr
  unfold turn
  split
  · rename_i heq
    rw [heq] at hread
    exact hread
  · rename_i heq
    rw [heq] at hread
    exact hread

theorem foldl_turn_close {s : Receiver} {rs : List SockResult} (h : s.close = false)
    (hrs : ∀ r ∈ rs, r.Open) : (rs.foldl turn s).close = false := by
  induction rs generalizing s with
  | nil => exact h
  | cons r rs ih =>
      obtain ⟨hr, hrest⟩ := List.forall_mem_cons.mp hrs
      exact ih (turn_close h hr) hrest

/-- The read that finds the socket closed. -/
theorem read_nil {s : Receiver} (h : s.close = false) :
    s.read (.arrived []) = (none, { s with close := true }) := by
  rw [read, if_neg (by rw [h]; exact Bool.false_ne_true)]
  rfl

/-- **`recv` takes turns**, up to the first that dispatches nothing, or up to the close. -/
theorem recv_eq {s : Receiver} {rs : List SockResult} (h : s.close = false)
    (hrs : ∀ r ∈ rs, r.Open) :
    s.recv rs = (false, { rs.foldl turn s with close := true }, []) ∨
      ∃ r front back, rs = front ++ r :: back ∧
        s.recv rs = (true, (front ++ [r]).foldl turn s, back) := by
  induction rs generalizing s with
  | nil =>
      refine Or.inl ?_
      rw [recv, read_nil h]
      rfl
  | cons r rs ih =>
      obtain ⟨hr, hrest⟩ := List.forall_mem_cons.mp hrs
      have hread := read_close h hr
      have hturn := turn_close h hr
      rw [List.foldl_cons]
      unfold recv
      split
      · rename_i b data s' heq
        have hnext : s.turn r = s'.dispatch (b :: data) := by rw [turn, heq]
        rw [← hnext]
        -- A turn that dispatches goes on to the next.
        rcases ih hturn hrest with hrec | ⟨r', front, back, hrs', hrec⟩
        · exact Or.inl hrec
        · exact Or.inr ⟨r', r :: front, back, by rw [hrs']; rfl, hrec⟩
      · rename_i data s' hne heq
        have hnext : s.turn r = s' := by
          rw [turn, heq]
          split
          · rename_i b data' s'' heq'
            exact absurd (congrArg Prod.fst heq') (hne b data')
          · rename_i heq'
            exact (congrArg Prod.snd heq').symm
        refine Or.inr ⟨r, [], rs, rfl, ?_⟩
        rw [List.nil_append, List.foldl_cons, List.foldl_nil, hnext]
        rw [heq] at hread
        rw [hread]
        rfl

/-- **However the turns are spread over calls of `recv`**, there is one for each result of the
socket, and then `recv` returns `False`. -/
theorem session_eq {s : Receiver} {rs : List SockResult} {n : ℕ} (h : s.close = false)
    (hrs : ∀ r ∈ rs, r.Open) (hn : rs.length < n) :
    s.session rs n = (false, { rs.foldl turn s with close := true }) := by
  induction n generalizing s rs with
  | zero => exact absurd hn (Nat.not_lt_zero _)
  | succ n ih =>
      rcases recv_eq h hrs with hrec | ⟨r, front, back, rfl, hrec⟩
      · rw [session, hrec]
      · have hfront : ∀ r' ∈ front ++ [r], r'.Open := fun r' hr' => hrs r' (by
          rw [List.append_cons]
          exact List.mem_append_left _ hr')
        have hback : ∀ r' ∈ back, r'.Open :=
          fun r' hr' => hrs r' (List.mem_append_right _ (List.mem_cons_of_mem _ hr'))
        have hlength : back.length < n := by
          simp only [List.length_append, List.length_cons] at hn
          omega
        rw [session, hrec]
        dsimp only
        rw [ih (foldl_turn_close h hfront) hback hlength, ← List.foldl_append, ← List.append_cons]

/-! ### What a turn dispatches -/

/-- After some results of a socket over which packets come, `n` packets have been dispatched. The
number is the smallest that some of the last reads allow: each dispatches one packet at most, and
those before them at most the packets that were complete. -/
structure Serves (packets : List Octets) (rs : List SockResult) (s : Receiver) (n : ℕ) : Prop where
  /-- The packets are dispatched in order. -/
  dispatched : s.dispatched = packets.take n
  /-- The rest is in the buffer. -/
  buf : s.buf = (SockResult.received rs).drop (frames (packets.take n)).length
  /-- Only complete packets are dispatched. -/
  le : n ≤ completeCount packets (SockResult.received rs).length
  /-- How many they are. -/
  count : ∀ m, m ≤ n ↔ ∀ before after, rs = before ++ after →
    m ≤ completeCount packets (SockResult.received before).length + after.length

theorem serves_init (packets : List Octets) : Serves packets [] init 0 where
  dispatched := rfl
  buf := rfl
  le := Nat.zero_le _
  count := by
    intro m
    constructor
    · intro hm before after _
      omega
    · intro h
      simpa [SockResult.received] using h [] [] rfl

@[simp] theorem received_snoc (rs : List SockResult) (r : SockResult) :
    SockResult.received (rs ++ [r]) = SockResult.received rs ++ r.bytes := by
  simp [SockResult.received]

/-- The count of one more turn. -/
theorem count_snoc {packets : List Octets} {rs : List SockResult} {r : SockResult} {n n' : ℕ}
    (h : ∀ m, m ≤ n ↔ ∀ before after, rs = before ++ after →
      m ≤ completeCount packets (SockResult.received before).length + after.length)
    (hn' : n' = min (n + 1) (completeCount packets (SockResult.received (rs ++ [r])).length))
    (m : ℕ) :
    m ≤ n' ↔ ∀ before after, rs ++ [r] = before ++ after →
      m ≤ completeCount packets (SockResult.received before).length + after.length := by
  constructor
  · intro hm before after heq
    rcases List.eq_nil_or_concat after with rfl | ⟨after, r', rfl⟩
    · rw [List.append_nil] at heq
      rw [← heq, List.length_nil]
      omega
    · rw [List.concat_eq_append, ← List.append_assoc] at heq
      obtain ⟨heq, -⟩ := List.append_inj' heq rfl
      have hbefore := (h (m - 1)).mp (by omega) before after heq
      rw [List.concat_eq_append, List.length_append, List.length_singleton]
      omega
  · intro hall
    have hnow := hall (rs ++ [r]) [] (List.append_nil _).symm
    have hbefore : m - 1 ≤ n := by
      refine (h _).mpr fun before after heq => ?_
      have hlast := hall before (after ++ [r]) (by rw [heq, List.append_assoc])
      rw [List.length_append, List.length_singleton] at hlast
      omega
    rw [List.length_nil] at hnow
    omega

/-- What reading from a buffer does. -/
theorem turn_of_unframe {s : Receiver} {r : SockResult} (h : s.close = false) (hr : r.Open) :
    s.turn r = match unframe (s.buf ++ r.bytes) with
      | some (b :: data, rest) => ⟨false, rest, s.dispatched ++ [b :: data]⟩
      | some ([], rest) => ⟨false, rest, s.dispatched⟩
      | none => ⟨false, s.buf ++ r.bytes, s.dispatched⟩ := by
  obtain ⟨close, buf, dispatched⟩ := s
  obtain rfl : close = false := h
  have hread : read ⟨false, buf, dispatched⟩ r = parse ⟨false, buf ++ r.bytes, dispatched⟩ := by
    cases r with
    | error => simp [read, SockResult.bytes]
    | arrived buf' => simp [read, hr.1, SockResult.bytes]
  rw [turn, hread, parse]
  dsimp only
  cases unframe (buf ++ r.bytes) with
  | none => rfl
  | some x =>
      obtain ⟨data, rest⟩ := x
      cases data with
      | nil => rfl
      | cons b data => rfl

/-- A buffer that does not hold the next packet. -/
theorem unframe_of_incomplete {packets : List Octets} (hpackets : ∀ p ∈ packets, p.length < 65536)
    {n : ℕ} {buf : Octets} (hbuf : buf <+: frames (packets.drop n))
    (hshort : n < packets.length → buf.length + (frames (packets.take n)).length
      < (frames (packets.take (n + 1))).length) : unframe buf = none := by
  rcases Nat.lt_or_ge n packets.length with hn | hn
  · rw [List.drop_eq_getElem_cons hn, frames_cons] at hbuf
    refine unframe_of_short (hpackets _ (List.getElem_mem hn)) hbuf ?_
    have hlt := hshort hn
    rw [List.take_succ_eq_append_getElem hn, frames_append, List.length_append, frames_cons,
      frames_nil, List.append_nil] at hlt
    omega
  · rw [List.drop_eq_nil_of_le hn, frames_nil, List.prefix_nil] at hbuf
    rw [hbuf]
    rfl

/-- A buffer that holds the next packet. -/
theorem unframe_of_complete {packets : List Octets} (hpackets : ∀ p ∈ packets, p.length < 65536)
    {n : ℕ} (hn : n < packets.length) {buf : Octets} (hbuf : buf <+: frames (packets.drop n))
    (hlong : (frames (packets.take (n + 1))).length
      ≤ buf.length + (frames (packets.take n)).length) :
    ∃ rest, buf = frame packets[n] ++ rest ∧ unframe buf = some (packets[n], rest) := by
  rw [List.drop_eq_getElem_cons hn, frames_cons] at hbuf
  rw [List.take_succ_eq_append_getElem hn, frames_append, List.length_append, frames_cons,
    frames_nil, List.append_nil] at hlong
  obtain ⟨rest, hrest⟩ := List.prefix_of_prefix_length_le (List.prefix_append _ _) hbuf
    (by omega : (frame packets[n]).length ≤ buf.length)
  refine ⟨rest, hrest.symm, ?_⟩
  rw [← hrest, unframe_frame_append (hpackets _ (List.getElem_mem hn))]

/-- **Step lemma.** -/
theorem Serves.turn {packets : List Octets} {rs : List SockResult} {r : SockResult} {s : Receiver}
    {n : ℕ} (h : Serves packets rs s n) (hclose : s.close = false) (hr : r.Open)
    (hpackets : ∀ p ∈ packets, p ≠ [] ∧ p.length ≤ 65535)
    (hstream : SockResult.received (rs ++ [r]) <+: frames packets) :
    ∃ n', Serves packets (rs ++ [r]) (s.turn r) n' := by
  have hshort : ∀ p ∈ packets, p.length < 65536 :=
    fun p hp => Nat.lt_succ_of_le (hpackets p hp).2
  have hk := length_frames_take_le h.le
  have hmono : completeCount packets (SockResult.received rs).length
      ≤ completeCount packets (SockResult.received (rs ++ [r])).length := by
    refine completeCount_mono packets ?_
    rw [received_snoc, List.length_append]
    exact Nat.le_add_right _ _
  have hbuf : s.buf ++ r.bytes
      = (SockResult.received (rs ++ [r])).drop (frames (packets.take n)).length := by
    rw [h.buf, received_snoc, List.drop_append_of_le_length hk]
  have hk' : (frames (packets.take n)).length ≤ (SockResult.received (rs ++ [r])).length :=
    length_frames_take_le (Nat.le_trans h.le hmono)
  have hrest : s.buf ++ r.bytes <+: frames (packets.drop n) := by
    obtain ⟨more, hmore⟩ := hstream
    refine ⟨more, ?_⟩
    have hsplit : frames packets = frames (packets.take n) ++ frames (packets.drop n) := by
      rw [← frames_append, List.take_append_drop]
    rw [hbuf, ← List.drop_append_of_le_length hk', hmore, hsplit, List.drop_left]
  have hlength : (s.buf ++ r.bytes).length + (frames (packets.take n)).length
      = (SockResult.received (rs ++ [r])).length := by
    rw [hbuf, List.length_drop]
    omega
  rw [turn_of_unframe hclose hr]
  rcases Nat.lt_or_ge n (completeCount packets (SockResult.received (rs ++ [r])).length)
    with hn | hn
  · -- the next packet is complete
    have hlt := Nat.lt_of_lt_of_le hn (completeCount_le packets _)
    have hcomplete := (lt_completeCount_iff hlt).mp hn
    obtain ⟨rest, hframe, hunframe⟩ := unframe_of_complete hshort hlt hrest (hlength ▸ hcomplete)
    have htake := List.take_succ_eq_append_getElem hlt
    refine ⟨n + 1, ?_, ?_, hn, count_snoc h.count (by omega)⟩
    · rw [hunframe]
      cases hp : packets[n] with
      | nil => exact absurd hp (hpackets _ (List.getElem_mem hlt)).1
      | cons b data =>
          dsimp only
          rw [h.dispatched, htake, hp]
    · have hdrop : rest = (SockResult.received (rs ++ [r])).drop
          (frames (packets.take (n + 1))).length := by
        rw [htake, frames_append, List.length_append, ← List.drop_drop, ← hbuf, hframe, frames_cons,
          frames_nil, List.append_nil, List.drop_left]
      rw [hunframe]
      cases hp : packets[n] with
      | nil => exact absurd hp (hpackets _ (List.getElem_mem hlt)).1
      | cons b data => exact hdrop
  · have heq : n = completeCount packets (SockResult.received (rs ++ [r])).length :=
      Nat.le_antisymm (Nat.le_trans h.le hmono) hn
    have hunframe : unframe (s.buf ++ r.bytes) = none := by
      refine unframe_of_incomplete hshort hrest fun hlt => ?_
      rw [hlength]
      by_contra hnot
      exact absurd ((lt_completeCount_iff hlt).mpr (Nat.not_lt.mp hnot)) (Nat.not_lt.mpr hn)
    refine ⟨n, ?_, ?_, Nat.le_of_eq heq, count_snoc h.count (by omega)⟩
    · rw [hunframe]
      exact h.dispatched
    · rw [hunframe]
      exact hbuf

/-- **Run lemma.** -/
theorem serves_foldl {packets : List Octets} {rs : List SockResult} (hrs : ∀ r ∈ rs, r.Open)
    (hpackets : ∀ p ∈ packets, p ≠ [] ∧ p.length ≤ 65535)
    (hstream : SockResult.received rs <+: frames packets) :
    ∃ n, Serves packets rs (rs.foldl Receiver.turn init) n := by
  induction rs using List.reverseRecOn with
  | nil => exact ⟨0, serves_init packets⟩
  | append_singleton rs r ih =>
      have hrs' : ∀ r' ∈ rs, r'.Open := fun r' hr' => hrs r' (List.mem_append_left _ hr')
      have hprefix : SockResult.received rs <+: frames packets := by
        rw [received_snoc] at hstream
        exact (List.prefix_append _ _).trans hstream
      obtain ⟨n, h⟩ := ih hrs' hprefix
      rw [List.foldl_append]
      have hr : r.Open := hrs r (List.mem_append_right _ (List.mem_singleton_self r))
      exact h.turn (foldl_turn_close rfl hrs') hr hpackets hstream

/-- **What is dispatched is right**: whatever the segmentation, the packets are dispatched in order,
each once, and only when they are complete. They are as many as any number of last reads and the reads
before them allow. -/
theorem exists_dispatched {packets : List Octets} {rs : List SockResult} {calls : ℕ}
    (hpackets : ∀ p ∈ packets, p ≠ [] ∧ p.length ≤ 65535) (hrs : ∀ r ∈ rs, r.Open)
    (hstream : SockResult.received rs <+: frames packets) (hcalls : rs.length < calls) :
    ∃ n ≤ completeCount packets (SockResult.received rs).length,
      (init.session rs calls).2.dispatched = packets.take n ∧
        ∀ m, m ≤ n ↔ ∀ before after, rs = before ++ after →
          m ≤ completeCount packets (SockResult.received before).length + after.length := by
  obtain ⟨n, h⟩ := serves_foldl hrs hpackets hstream
  rw [session_eq rfl hrs hcalls]
  exact ⟨n, h.le, h.dispatched, h.count⟩

/-- **When all complete packets are dispatched.** The socket returned `rs` and then the peer had
closed; `recv` was called until it returned `False`. All the packets that were complete are
dispatched exactly if no number of last reads before the close completed more packets than they
were. -/
theorem dispatches_all_iff {packets : List Octets} {rs : List SockResult} {calls : ℕ}
    (hpackets : ∀ p ∈ packets, p ≠ [] ∧ p.length ≤ 65535) (hrs : ∀ r ∈ rs, r.Open)
    (hstream : SockResult.received rs <+: frames packets) (hcalls : rs.length < calls) :
    (init.session rs calls).1 = false ∧
      ((init.session rs calls).2.dispatched = complete packets (SockResult.received rs).length ↔
        ∀ before after, rs = before ++ after →
          completeCount packets (SockResult.received rs).length
            ≤ completeCount packets (SockResult.received before).length + after.length) := by
  obtain ⟨n, h⟩ := serves_foldl hrs hpackets hstream
  have hle := Nat.le_trans h.le (completeCount_le packets _)
  rw [session_eq rfl hrs hcalls, ← h.count]
  refine ⟨rfl, ?_⟩
  show (rs.foldl Receiver.turn init).dispatched = _ ↔ _
  rw [h.dispatched, complete]
  constructor
  · intro heq
    have hlength := congrArg List.length heq
    rw [List.length_take_of_le hle, List.length_take_of_le (completeCount_le packets _)] at hlength
    exact Nat.le_of_eq hlength.symm
  · intro hge
    rw [Nat.le_antisymm h.le hge]

/-- Two packets arrive at once, and the peer closes. -/
def bothAtOnce : List SockResult := [.arrived (frames [[7], [8]])]

/-- The second is complete, and not dispatched. -/
theorem second_lost : SockResult.received bothAtOnce = frames [[7], [8]] ∧
    init.session bothAtOnce 2 = (false, ⟨true, frame [8], [[7]]⟩) ∧
      complete [[7], [8]] (SockResult.received bothAtOnce).length = [[7], [8]] := by
  decide

/-- Two packets arrive in three parts: the header of the first is cut, and so is the second. -/
def threeParts : List SockResult := [.arrived [0], .arrived [1, 7, 0, 1], .error, .arrived [8]]

/-- Both are dispatched. -/
theorem dispatches_all_threeParts : (init.session threeParts 5).1 = false ∧
    (init.session threeParts 5).2.dispatched = complete [[7], [8]] 6 := by
  have hall : ∀ i ∈ List.range 5, completeCount [[7], [8]] (SockResult.received threeParts).length
      ≤ completeCount [[7], [8]] (SockResult.received (threeParts.take i)).length
        + (threeParts.drop i).length := by
    decide
  obtain ⟨hclosed, hiff⟩ := @dispatches_all_iff [[7], [8]] threeParts 5 (by decide) (by decide)
    (by decide) (by decide)
  refine ⟨hclosed, hiff.mpr fun before after heq => ?_⟩
  have hi := hall before.length (by
    have hlength := congrArg List.length heq
    rw [List.length_append] at hlength
    exact List.mem_range.mpr (by simp [threeParts] at hlength; omega))
  rwa [heq, List.take_left, List.drop_left, ← heq] at hi

end Receiver

end FrameSync.Client
