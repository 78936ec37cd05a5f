import FrameSync.Foundations.Buckets
import FrameSync.Foundations.Framing
import FrameSync.Foundations.Ring
import Mathlib.Algebra.Order.Group.Nat
import Mathlib.Algebra.Order.Ring.Int
import Mathlib.Data.List.Induction

/-! # Packets from segments

`lua-netpack.c`, and the part of `gamegate.lua` that takes packets from it. A socket reports segments of its
stream, which begin and end anywhere. What is left of a packet waits in a hash table, by socket; the packets
of a segment with more than one go through a ring buffer. Whatever the segments, and however those of
many sockets come in between, the gate dispatches the packets of each stream, each once and in order
(`dispatched_eq`). -/

namespace FrameSync.Skynet

open Framing

/-! ## `lua-netpack.c` -/

/-- `struct uncomplete`: the beginning of a packet. `buffer` is the part of `pack.buffer` that is filled. -/
structure Uncomplete where
  /-- `pack.id` -/
  id : ℕ
  /-- The number of bytes in the buffer, or -1 if only the first byte of the header is there. -/
  read : ℤ
  /-- The first byte of the header. -/
  header : UInt8
  /-- `pack.size` -/
  size : ℕ
  /-- `pack.buffer` -/
  buffer : List UInt8
  deriving Repr, DecidableEq

/-- `hash_fd` -/
def hashFd (fd : ℕ) : ℕ := (fd / 2 ^ 24 + fd / 2 ^ 12 + fd) % 2 ^ 32 % 4096

/-- `struct queue`. The one that `get_queue` makes at first use is there from the start. -/
structure Queue where
  /-- `cap`, `head`, `tail` and `queue`. -/
  ring : Ring (ℕ × List UInt8)
  /-- `hash` -/
  hash : Buckets Uncomplete

namespace Queue

/-- `get_queue` -/
def init : Queue := ⟨Ring.empty 1024, fun _ => []⟩

/-- `find_uncomplete` -/
def findUncomplete (q : Queue) (fd : ℕ) : Option Uncomplete × Queue :=
  ((Buckets.unlink Uncomplete.id hashFd q.hash fd).1,
    { q with hash := (Buckets.unlink Uncomplete.id hashFd q.hash fd).2 })

/-- `save_uncomplete`, with the fields that its callers fill in. -/
def saveUncomplete (q : Queue) (uc : Uncomplete) : Queue :=
  { q with hash := Buckets.link Uncomplete.id hashFd q.hash uc }

/-- `push_data`, with `expand_queue` -/
def pushData (q : Queue) (fd : ℕ) (buffer : List UInt8) : Queue :=
  { q with ring := q.ring.push (· + 1024) (fd, buffer) }

/-- `push_more`. Each call takes two bytes or more off the buffer. -/
def pushMore : ℕ → Queue → ℕ → List UInt8 → Queue
  | 0, q, _, _ => q
  | fuel + 1, q, fd, buffer =>
      if buffer.length = 1 then q.saveUncomplete ⟨fd, -1, buffer.headD 0, 0, []⟩
      else
        let packSize := unpackUInt (buffer.take 2)
        let data := buffer.drop 2
        if data.length < packSize then q.saveUncomplete ⟨fd, data.length, 0, packSize, data⟩
        else
          let q' := q.pushData fd (data.take packSize)
          if packSize < data.length then pushMore fuel q' fd (data.drop packSize) else q'

/-- `close_uncomplete` -/
def closeUncomplete (q : Queue) (fd : ℕ) : Queue := (q.findUncomplete fd).2

end Queue

/-- The `type` that `lfilter` returns, with what comes after it. -/
inductive Report
  /-- `TYPE_DATA` -/
  | data (fd : ℕ) (msg : List UInt8)
  /-- `TYPE_MORE` -/
  | more
  /-- `TYPE_ERROR` -/
  | error (fd : ℕ)
  /-- `TYPE_OPEN` -/
  | open (fd : ℕ)
  /-- `TYPE_CLOSE` -/
  | close (fd : ℕ)
  /-- `TYPE_WARNING` -/
  | warning (fd : ℕ)
  deriving Repr, DecidableEq

/-- The second byte of the header is there now. -/
def Uncomplete.readHeader (uc : Uncomplete) (buffer : List UInt8) : Uncomplete × List UInt8 :=
  if uc.read < 0 then
    ({ uc with read := 0, size := unpackUInt [uc.header, buffer.headD 0], buffer := [] }, buffer.tail)
  else (uc, buffer)

namespace Queue

/-- `filter_data_` if the beginning of a packet is there. -/
def fillUncomplete (q : Queue) (fd : ℕ) (uc : Uncomplete) (buffer : List UInt8) : Queue × Option Report :=
  let need := uc.size - uc.read.toNat
  if buffer.length < need then
    (q.saveUncomplete { uc with read := uc.read + buffer.length, buffer := uc.buffer ++ buffer }, none)
  else
    let pack := uc.buffer ++ buffer.take need
    let buffer' := buffer.drop need
    if buffer' = [] then (q, some (.data fd pack))
    else ((q.pushData fd pack).pushMore buffer'.length fd buffer', some .more)

/-- `filter_data_` if nothing is there. -/
def startPacket (q : Queue) (fd : ℕ) (buffer : List UInt8) : Queue × Option Report :=
  if buffer.length = 1 then (q.saveUncomplete ⟨fd, -1, buffer.headD 0, 0, []⟩, none)
  else
    let packSize := unpackUInt (buffer.take 2)
    let data := buffer.drop 2
    if data.length < packSize then (q.saveUncomplete ⟨fd, data.length, 0, packSize, data⟩, none)
    else if data.length = packSize then (q, some (.data fd data))
    else
      let buffer' := data.drop packSize
      ((q.pushData fd (data.take packSize)).pushMore buffer'.length fd buffer', some .more)

/-- `filter_data_` -/
def filterData (q : Queue) (fd : ℕ) (buffer : List UInt8) : Queue × Option Report :=
  match q.findUncomplete fd with
  | (some uc, q') => q'.fillUncomplete fd (uc.readHeader buffer).1 (uc.readHeader buffer).2
  | (none, q') => q'.startPacket fd buffer

end Queue

/-- `struct skynet_socket_message`, as far as the gate gets it. A socket that is read reports one byte or
more. -/
inductive SocketMessage
  /-- `SKYNET_SOCKET_TYPE_DATA` -/
  | data (id : ℕ) (buffer : {b : List UInt8 // b ≠ []})
  /-- `SKYNET_SOCKET_TYPE_CONNECT` -/
  | connect (id : ℕ)
  /-- `SKYNET_SOCKET_TYPE_CLOSE` -/
  | close (id : ℕ)
  /-- `SKYNET_SOCKET_TYPE_ACCEPT`, with the new socket. -/
  | accept (ud : ℕ)
  /-- `SKYNET_SOCKET_TYPE_ERROR` -/
  | error (id : ℕ)
  /-- `SKYNET_SOCKET_TYPE_WARNING` -/
  | warning (id : ℕ)
  deriving Repr, DecidableEq

/-- `lfilter` -/
def Queue.filter (q : Queue) : SocketMessage → Queue × Option Report
  | .data id buffer => q.filterData id buffer
  | .connect _ => (q, none)
  | .close id => (q.closeUncomplete id, some (.close id))
  | .accept ud => (q, some (.open ud))
  | .error id => (q.closeUncomplete id, some (.error id))
  | .warning id => (q, some (.warning id))

/-- `netpack.pop` until it returns nothing. -/
def Queue.popAll : ℕ → Queue → List (ℕ × List UInt8) × Queue
  | 0, q => ([], q)
  | fuel + 1, q =>
      match q.ring.pop with
      | (none, _) => ([], q)
      | (some x, ring) =>
          let r := popAll fuel { q with ring }
          (x :: r.1, r.2)

/-! ## `gamegate.lua` -/

/-- The queue of the gate, and the calls of `dispatch_msg`. -/
structure Packets where
  /-- `queue` -/
  queue : Queue
  /-- The arguments of `dispatch_msg`, so far. -/
  dispatched : List (ℕ × List UInt8)

namespace Packets

/-- The gate at its start. -/
def init : Packets := ⟨.init, []⟩

/-- `dispatch_queue`. No more elements than cells are in the ring. -/
def dispatchQueue (g : Packets) : Packets :=
  let r := g.queue.popAll g.queue.ring.cap
  ⟨r.2, g.dispatched ++ r.1⟩

/-- `MSG[type](...)`, as far as packets are dispatched, and the `dispatch_queue` that was forked. -/
def dispatch (g : Packets) : Option Report → Packets
  | some (.data fd msg) => { g with dispatched := g.dispatched ++ [(fd, msg)] }
  | some .more => g.dispatchQueue.dispatchQueue
  | _ => g

/-- The gate gets a message of a socket. -/
def step (g : Packets) (m : SocketMessage) : Packets :=
  let r := g.queue.filter m
  { g with queue := r.1 }.dispatch r.2

/-- The gate gets one message after another. -/
def run (ms : List SocketMessage) : Packets := ms.foldl step init

end Packets

/-! ## What waits for a socket -/

/-- What is kept for the socket `fd` is the beginning `rest` of a packet. -/
inductive Holds (fd : ℕ) : Option Uncomplete → List UInt8 → Prop
  | nothing : Holds fd none []
  | header (b : UInt8) (size : ℕ) (buffer : List UInt8) : Holds fd (some ⟨fd, -1, b, size, buffer⟩) [b]
  | body (b : UInt8) {size : ℕ} {buffer : List UInt8} (hshort : buffer.length < size) (hsize : size < 65536) :
      Holds fd (some ⟨fd, buffer.length, b, size, buffer⟩) (packU16 size ++ buffer)

theorem Holds.id_eq {fd : ℕ} {uc : Uncomplete} {rest : List UInt8} (h : Holds fd (some uc) rest) :
    uc.id = fd := by
  cases h with
  | header => rfl
  | body => rfl

/-- The header of a packet. -/
theorem exists_packU16 (a b : UInt8) : ∃ n < 65536, [a, b] = packU16 n ∧ unpackUInt [a, b] = n := by
  refine ⟨unpackUInt [a, b], ?_, ?_, rfl⟩
  · have ha := a.toNat_lt
    have hb := b.toNat_lt
    simp only [unpackUInt, List.foldl_cons, List.foldl_nil]
    omega
  · have hhigh : UInt8.ofNat (unpackUInt [a, b] / 256) = a := by
      apply UInt8.toNat_inj.mp
      rw [UInt8.toNat_ofNat']
      have ha := a.toNat_lt
      have hb := b.toNat_lt
      simp only [unpackUInt, List.foldl_cons, List.foldl_nil]
      omega
    have hlow : UInt8.ofNat (unpackUInt [a, b]) = b := by
      apply UInt8.toNat_inj.mp
      rw [UInt8.toNat_ofNat']
      have hb := b.toNat_lt
      simp only [unpackUInt, List.foldl_cons, List.foldl_nil]
      omega
    rw [packU16, hhigh, hlow]

/-- The beginning of a packet is no packet. -/
theorem unframe_packU16 {size : ℕ} {buffer : List UInt8} (hshort : buffer.length < size) (hsize : size < 65536) :
    unframe (packU16 size ++ buffer) = none := by
  have htake : (packU16 size ++ buffer).take 2 = packU16 size := rfl
  have hlength : (packU16 size ++ buffer).length = buffer.length + 2 := by
    rw [List.length_append, Nat.add_comm]
    rfl
  rw [unframe, htake, unpackUInt_packU16 hsize, hlength, if_neg (by omega)]
  exact if_pos (by omega)

theorem Holds.unframe {fd : ℕ} {o : Option Uncomplete} {rest : List UInt8} (h : Holds fd o rest) :
    unframe rest = none := by
  cases h with
  | nothing => rfl
  | header => rfl
  | body b hshort hsize => exact unframe_packU16 hshort hsize

namespace Queue

variable {q : Queue} {m : ℕ → Option Uncomplete} {l : List (ℕ × List UInt8)} {fd : ℕ}

/-- The queue keeps the beginnings `m`, and the packets `l` wait in its ring. -/
structure Stands (q : Queue) (m : ℕ → Option Uncomplete) (l : List (ℕ × List UInt8)) : Prop where
  /-- The table. -/
  hash : q.hash.Stands Uncomplete.id hashFd m
  /-- The ring. -/
  ring : q.ring.Stands l

theorem stands_init : init.Stands (fun _ => none) [] where
  hash := Buckets.stands_empty
  ring := Ring.stands_empty (by decide)

theorem Stands.save (h : q.Stands m l) {uc : Uncomplete} (hnone : m uc.id = none) :
    (q.saveUncomplete uc).Stands (Function.update m uc.id (some uc)) l where
  hash := h.hash.link hnone
  ring := h.ring

theorem Stands.pushData (h : q.Stands m l) (fd : ℕ) (data : List UInt8) :
    (q.pushData fd data).Stands m (l ++ [(fd, data)]) where
  hash := h.hash
  ring := h.ring.push (· + 1024) (Nat.lt_add_of_pos_right (by decide)) (fd, data)

theorem Stands.find (h : q.Stands m l) (fd : ℕ) :
    (q.findUncomplete fd).1 = m fd ∧ (q.findUncomplete fd).2.Stands (Function.update m fd none) l := by
  obtain ⟨hfound, hleft⟩ := h.hash.unlink fd
  exact ⟨hfound, hleft, h.ring⟩

theorem update_none (hnone : m fd = none) : Function.update m fd none = m := by
  rw [← hnone]
  exact Function.update_eq_self fd m

/-- What is left of a segment: nothing, one byte of a header, or a header with too few bytes. -/
theorem Stands.saveRest (h : q.Stands m l) (hnone : m fd = none) {o : Option Uncomplete} {rest : List UInt8}
    (ho : Holds fd o rest) :
    (o.elim q q.saveUncomplete).Stands (Function.update m fd o) l := by
  cases o with
  | none =>
      rw [update_none hnone]
      exact h
  | some uc =>
      obtain rfl := ho.id_eq
      exact h.save hnone

/-- **`push_more`** puts the packets of a segment into the ring, and what is left of it into the table. -/
theorem Stands.pushMore {fuel : ℕ} {buffer : List UInt8} (h : q.Stands m l) (hnone : m fd = none)
    (hpos : buffer ≠ []) (hfuel : buffer.length ≤ fuel) :
    ∃ ms rest o, Deframes buffer ms rest ∧ Holds fd o rest ∧
      (q.pushMore fuel fd buffer).Stands (Function.update m fd o) (l ++ ms.map (fd, ·)) := by
  induction fuel generalizing q l buffer with
  | zero => exact absurd (List.eq_nil_of_length_eq_zero (Nat.eq_zero_of_le_zero hfuel)) hpos
  | succ fuel ih =>
      obtain ⟨a, tail, rfl⟩ := List.exists_cons_of_ne_nil hpos
      rw [Queue.pushMore]
      cases tail with
      | nil =>
          refine ⟨[], [a], _, ⟨rfl, fun _ hm => absurd hm List.not_mem_nil, rfl⟩, .header a 0 [], ?_⟩
          rw [List.length_singleton, if_pos rfl, List.map_nil, List.append_nil]
          exact h.saveRest hnone (.header a 0 [])
      | cons b data =>
          obtain ⟨n, hn, hpack, hunpack⟩ := exists_packU16 a b
          have htake : (a :: b :: data).take 2 = [a, b] := rfl
          have hdrop : (a :: b :: data).drop 2 = data := rfl
          have hbuffer : a :: b :: data = packU16 n ++ data := by
            rw [← hpack]
            rfl
          rw [if_neg (by simp), htake, hdrop, hunpack]
          dsimp only
          split_ifs with hshort hmore
          · -- the packet is not complete
            refine ⟨[], packU16 n ++ data, _, ⟨hbuffer, fun _ hm => absurd hm List.not_mem_nil,
              unframe_packU16 hshort hn⟩, .body 0 hshort hn, ?_⟩
            rw [List.map_nil, List.append_nil]
            exact h.saveRest hnone (.body 0 hshort hn)
          · -- the packet, and more
            have hlength : (data.take n).length = n := by
              rw [List.length_take]
              omega
            have hunframe : unframe (a :: b :: data) = some (data.take n, data.drop n) := by
              have hframe := @unframe_frame_append (data.take n) (hlength.trans_lt hn) (data.drop n)
              rwa [frame, hlength, List.append_assoc, List.take_append_drop, ← hbuffer] at hframe
            obtain ⟨ms, rest, o, hdeframes, hholds, hstands⟩ := @ih _ _ (data.drop n)
              (h.pushData fd (data.take n))
              (by rw [Ne, List.drop_eq_nil_iff]; omega)
              (by rw [List.length_drop]; simp only [List.length_cons] at hfuel; omega)
            refine ⟨data.take n :: ms, rest, o, hdeframes.cons hunframe, hholds, ?_⟩
            rw [List.map_cons, List.append_cons]
            exact hstands
          · -- just the packet
            have hdata : data.length = n := by omega
            have hbuffer' : a :: b :: data = frames [data] ++ [] := by
              rw [frames_cons, frames_nil, frame, hdata, hbuffer, List.append_nil, List.append_nil]
            refine ⟨[data], [], none, ⟨hbuffer', List.forall_mem_singleton.mpr (hdata.trans_lt hn), rfl⟩,
              .nothing, ?_⟩
            rw [update_none hnone, List.take_of_length_le hdata.le]
            exact h.pushData fd data

/-- A packet at the beginning of a stream. -/
theorem unframe_packet {n : ℕ} {data : List UInt8} (hn : n < 65536) (hle : n ≤ data.length) :
    unframe (packU16 n ++ data) = some (data.take n, data.drop n) := by
  have hlength : (data.take n).length = n := by
    rw [List.length_take]
    omega
  have hframe := @unframe_frame_append (data.take n) (hlength.trans_lt hn) (data.drop n)
  rwa [frame, hlength, List.append_assoc, List.take_append_drop] at hframe

/-- How the packets `ms` of a segment are reported, and which wait in the ring then: none, one in the report
itself, or all of them in the ring. -/
inductive Reports (fd : ℕ) : List (List UInt8) → Option Report → List (ℕ × List UInt8) → Prop
  | nothing : Reports fd [] none []
  | data (p : List UInt8) : Reports fd [p] (some (.data fd p)) []
  | more (ms : List (List UInt8)) : Reports fd ms (some .more) (ms.map (fd, ·))

/-- The stream `s` of the socket `fd` was taken in: its packets are reported, and what is left is kept. -/
def Filters (m : ℕ → Option Uncomplete) (fd : ℕ) (s : List UInt8) (r : Queue × Option Report) : Prop :=
  ∃ ms rest o queued, Deframes s ms rest ∧ Holds fd o rest ∧ Reports fd ms r.2 queued ∧
    r.1.Stands (Function.update m fd o) queued

/-- A packet in the ring, and the others behind it. -/
theorem Stands.filters_more (h : q.Stands m []) (hnone : m fd = none) {s p buffer : List UInt8}
    (hs : unframe s = some (p, buffer)) (hpos : buffer ≠ []) :
    Filters m fd s ((q.pushData fd p).pushMore buffer.length fd buffer, some .more) := by
  obtain ⟨ms, rest, o, hdeframes, hholds, hstands⟩ :=
    (h.pushData fd p).pushMore hnone hpos (Nat.le_refl buffer.length)
  exact ⟨p :: ms, rest, o, _, hdeframes.cons hs, hholds, .more (p :: ms), hstands⟩

/-- A packet that is reported at once. -/
theorem Stands.filters_data (h : q.Stands m []) (hnone : m fd = none) {s p : List UInt8}
    (hs : unframe s = some (p, [])) : Filters m fd s (q, some (.data fd p)) := by
  refine ⟨[p], [], none, [], deframes_nil.cons hs, .nothing, .data p, ?_⟩
  rw [update_none hnone]
  exact h

/-- A packet that is not complete. -/
theorem Stands.filters_save (h : q.Stands m []) (hnone : m fd = none) {s : List UInt8} {uc : Uncomplete}
    (hholds : Holds fd (some uc) s) : Filters m fd s (q.saveUncomplete uc, none) :=
  ⟨[], s, some uc, [], ⟨rfl, fun _ hm => absurd hm List.not_mem_nil, hholds.unframe⟩, hholds, .nothing,
    h.saveRest hnone hholds⟩

/-- **A segment that begins a packet.** -/
theorem Stands.startPacket (h : q.Stands m []) (hnone : m fd = none) {buffer : List UInt8} (hpos : buffer ≠ []) :
    Filters m fd buffer (q.startPacket fd buffer) := by
  obtain ⟨a, tail, rfl⟩ := List.exists_cons_of_ne_nil hpos
  rw [Queue.startPacket]
  cases tail with
  | nil =>
      rw [List.length_singleton, if_pos rfl]
      exact h.filters_save hnone (.header a 0 [])
  | cons b data =>
      obtain ⟨n, hn, hpack, hunpack⟩ := exists_packU16 a b
      have htake : (a :: b :: data).take 2 = [a, b] := rfl
      have hdrop : (a :: b :: data).drop 2 = data := rfl
      have hbuffer : a :: b :: data = packU16 n ++ data := by
        rw [← hpack]
        rfl
      rw [if_neg (by simp), htake, hdrop, hunpack, hbuffer]
      dsimp only
      split_ifs with hshort hwhole
      · exact h.filters_save hnone (.body 0 hshort hn)
      · refine h.filters_data hnone ?_
        rw [unframe_packet hn hwhole.ge, List.take_of_length_le hwhole.le, List.drop_of_length_le hwhole.le]
      · refine h.filters_more hnone (unframe_packet hn (Nat.le_of_not_lt hshort)) ?_
        rw [Ne, List.drop_eq_nil_iff]
        omega

/-- **A segment that continues a packet**, whose header is there. -/
theorem Stands.fillUncomplete (h : q.Stands m []) (hnone : m fd = none) {size : ℕ} {read : List UInt8}
    (hread : read.length ≤ size) (hsize : size < 65536) (b : UInt8) (buffer : List UInt8) :
    Filters m fd (packU16 size ++ read ++ buffer)
      (q.fillUncomplete fd ⟨fd, read.length, b, size, read⟩ buffer) := by
  rw [Queue.fillUncomplete, List.append_assoc]
  dsimp only
  rw [Int.toNat_natCast]
  split_ifs with hshort hwhole
  · refine h.filters_save hnone ?_
    have hbody := @Holds.body fd b size (read ++ buffer)
      (by rw [List.length_append]; omega) hsize
    rwa [List.length_append, Nat.cast_add] at hbody
  · have hlength : (read ++ buffer).length = size := by
      rw [List.drop_eq_nil_iff] at hwhole
      rw [List.length_append]
      omega
    have htake : (read ++ buffer).take size = read ++ buffer.take (size - read.length) := by
      rw [List.take_append, List.take_of_length_le hread]
    refine h.filters_data hnone ?_
    rw [unframe_packet hsize hlength.ge, htake, List.drop_of_length_le hlength.le]
  · have htake : (read ++ buffer).take size = read ++ buffer.take (size - read.length) := by
      rw [List.take_append, List.take_of_length_le hread]
    have hdrop : (read ++ buffer).drop size = buffer.drop (size - read.length) := by
      rw [List.drop_append, List.drop_of_length_le hread, List.nil_append]
    refine h.filters_more hnone ?_ hwhole
    rw [unframe_packet hsize (by rw [List.length_append]; omega), htake, hdrop]

/-- **`filter_data_`**: what a segment adds to the stream of its socket. -/
theorem Stands.filterData (h : q.Stands m []) {rest buffer : List UInt8} (hholds : Holds fd (m fd) rest)
    (hpos : buffer ≠ []) : Filters m fd (rest ++ buffer) (q.filterData fd buffer) := by
  obtain ⟨hfound, hstands⟩ := h.find fd
  have hnone : Function.update m fd none fd = none := Function.update_self fd none m
  have hdone : ∀ {s : List UInt8} {r : Queue × Option Report}, Filters (Function.update m fd none) fd s r →
      Filters m fd s r := by
    rintro s r ⟨ms, rest, o, queued, hdeframes, hkept, hreports, hleft⟩
    rw [Function.update_idem] at hleft
    exact ⟨ms, rest, o, queued, hdeframes, hkept, hreports, hleft⟩
  rw [Queue.filterData]
  generalize q.findUncomplete fd = found at hfound hstands
  obtain ⟨o, q'⟩ := found
  obtain rfl : o = m fd := hfound
  generalize m fd = o at hholds
  cases hholds with
  | nothing => exact hdone (hstands.startPacket hnone hpos)
  | header b size old =>
      obtain ⟨c, tail, rfl⟩ := List.exists_cons_of_ne_nil hpos
      obtain ⟨n, hn, hpack, hunpack⟩ := exists_packU16 b c
      have hstream : [b] ++ c :: tail = packU16 n ++ [] ++ tail := by
        rw [← hpack]
        rfl
      have hfill := @Stands.fillUncomplete _ _ _ hstands hnone n [] (Nat.zero_le n) hn b tail
      have hheader : Uncomplete.readHeader ⟨fd, -1, b, size, old⟩ (c :: tail) = (⟨fd, 0, b, n, []⟩, tail) := by
        rw [← hunpack]
        rfl
      rw [hstream]
      refine hdone ?_
      dsimp only
      rw [hheader]
      exact hfill
  | body b hshort hsize =>
      refine hdone ?_
      have hheader : ∀ uc : Uncomplete, 0 ≤ uc.read → uc.readHeader buffer = (uc, buffer) :=
        fun uc huc => if_neg (Int.not_lt.mpr huc)
      dsimp only
      rw [hheader _ (Int.natCast_nonneg _)]
      exact hstands.fillUncomplete hnone hshort.le hsize b buffer

/-- **Popping until nothing is left** gives what waits in the ring, in order. -/
theorem Stands.popAll (h : q.Stands m l) {fuel : ℕ} (hfuel : l.length ≤ fuel) :
    (q.popAll fuel).1 = l ∧ (q.popAll fuel).2.Stands m [] := by
  induction fuel generalizing q l with
  | zero =>
      obtain rfl := List.eq_nil_of_length_eq_zero (Nat.eq_zero_of_le_zero hfuel)
      exact ⟨rfl, h⟩
  | succ fuel ih =>
      obtain ⟨hfirst, hleft, -⟩ := h.ring.pop
      rw [Queue.popAll]
      generalize q.ring.pop = popped at hfirst hleft
      obtain ⟨x, ring⟩ := popped
      cases l with
      | nil =>
          obtain rfl : x = none := hfirst
          exact ⟨rfl, h⟩
      | cons y l =>
          obtain rfl : x = some y := hfirst
          obtain ⟨hall, hdone⟩ := ih (q := { q with ring := ring }) ⟨h.hash, hleft⟩
            (Nat.le_of_succ_le_succ hfuel)
          exact ⟨congrArg (List.cons y) hall, hdone⟩

end Queue

/-! ## What the gate dispatches -/

namespace Packets

variable {g : Packets} {m : ℕ → Option Uncomplete} {l : List (ℕ × List UInt8)}

theorem dispatchQueue_stands (h : g.queue.Stands m l) :
    g.dispatchQueue.dispatched = g.dispatched ++ l ∧ g.dispatchQueue.queue.Stands m [] := by
  obtain ⟨hall, hdone⟩ := h.popAll h.ring.length_lt.le
  exact ⟨congrArg (g.dispatched ++ ·) hall, hdone⟩

/-- **The packets of a segment are dispatched at once**, and nothing is left in the ring. -/
theorem dispatch_filters {fd : ℕ} {s : List UInt8} {r : Queue × Option Report} (h : Queue.Filters m fd s r) :
    ∃ ms rest o, Deframes s ms rest ∧ Holds fd o rest ∧
      (({ g with queue := r.1 } : Packets).dispatch r.2).queue.Stands (Function.update m fd o) [] ∧
      (({ g with queue := r.1 } : Packets).dispatch r.2).dispatched = g.dispatched ++ ms.map (fd, ·) := by
  obtain ⟨ms, rest, o, queued, hdeframes, hholds, hreports, hstands⟩ := h
  refine ⟨ms, rest, o, hdeframes, hholds, ?_⟩
  obtain ⟨q, report⟩ := r
  cases hreports with
  | nothing => exact ⟨hstands, (List.append_nil _).symm⟩
  | data p => exact ⟨hstands, rfl⟩
  | more =>
      -- the `dispatch_queue` that was forked finds nothing
      obtain ⟨hfirst, hstands⟩ := dispatchQueue_stands (g := { g with queue := q }) hstands
      obtain ⟨hsecond, hstands⟩ := dispatchQueue_stands hstands
      exact ⟨hstands, by rw [dispatch, hsecond, List.append_nil, hfirst]⟩

/-- A message of a socket, for the streams of the socket `fd`: those that have ended, and the one that has
not. -/
def extend (fd : ℕ) (s : List (List UInt8) × List UInt8) : SocketMessage → List (List UInt8) × List UInt8
  | .data id buffer => if id = fd then (s.1, s.2 ++ buffer.1) else s
  | .close id | .error id => if id = fd then (s.1 ++ [s.2], []) else s
  | _ => s

/-- The streams of a socket, as its messages report them. -/
def streams (fd : ℕ) (ms : List SocketMessage) : List (List UInt8) :=
  (ms.foldl (extend fd) ([], [])).1 ++ [(ms.foldl (extend fd) ([], [])).2]

/-- The packets that are dispatched for a socket. -/
def ofSocket (g : Packets) (fd : ℕ) : List (List UInt8) := (g.dispatched.filter fun x => x.1 = fd).map Prod.snd

/-- The gate has dispatched the packets of the streams `s` of a socket, and keeps what is left. -/
def Serves (g : Packets) (m : ℕ → Option Uncomplete) (fd : ℕ) (s : List (List UInt8) × List UInt8) : Prop :=
  (∃ rest, Holds fd (m fd) rest ∧ Deframes s.2 (deframe s.2) rest) ∧
    g.ofSocket fd = (s.1 ++ [s.2]).flatMap deframe

theorem ofSocket_append {dispatched : List (ℕ × List UInt8)} {q : Queue} {fd id : ℕ} {ms : List (List UInt8)} :
    ofSocket ⟨q, dispatched ++ ms.map (id, ·)⟩ fd =
      ofSocket ⟨q, dispatched⟩ fd ++ if id = fd then ms else [] := by
  rw [ofSocket, ofSocket, List.filter_append, List.map_append]
  congr 1
  split_ifs with h
  · rw [List.filter_eq_self.mpr fun x hx => ?_, List.map_map]
    · exact List.map_id ms
    · obtain ⟨p, -, rfl⟩ := List.mem_map.mp hx
      exact decide_eq_true h
  · rw [List.filter_eq_nil_iff.mpr fun x hx => ?_]
    · rfl
    · obtain ⟨p, -, rfl⟩ := List.mem_map.mp hx
      exact fun htrue => h (of_decide_eq_true htrue)

/-- A socket that is closed loses the beginning of a packet, and with it its stream. -/
theorem step_closes {s : ℕ → List (List UInt8) × List UInt8} (hq : g.queue.Stands m [])
    (hs : ∀ fd, g.Serves m fd (s fd)) (id : ℕ) :
    ∃ m', (g.queue.closeUncomplete id).Stands m' [] ∧
      ∀ fd, ({ g with queue := g.queue.closeUncomplete id } : Packets).Serves m' fd
        (if id = fd then ((s fd).1 ++ [(s fd).2], []) else s fd) := by
  obtain ⟨-, hleft⟩ := hq.find id
  refine ⟨Function.update m id none, hleft, fun fd => ?_⟩
  obtain ⟨hkeeps, hpackets⟩ := hs fd
  by_cases hfd : id = fd
  · subst hfd
    rw [if_pos rfl]
    refine ⟨⟨[], ?_, deframes_nil⟩, ?_⟩
    · rw [Function.update_self]
      exact .nothing
    · rw [List.flatMap_append]
      exact hpackets.trans (List.append_nil _).symm
  · rw [if_neg hfd]
    refine ⟨?_, hpackets⟩
    rwa [Function.update_of_ne (Ne.symm hfd)]

/-- **One message of a socket.** -/
theorem step_serves {s : ℕ → List (List UInt8) × List UInt8} (hq : g.queue.Stands m [])
    (hs : ∀ fd, g.Serves m fd (s fd)) (x : SocketMessage) :
    ∃ m', (g.step x).queue.Stands m' [] ∧ ∀ fd, (g.step x).Serves m' fd (extend fd (s fd) x) := by
  cases x with
  | data id buffer =>
      obtain ⟨⟨rest, hholds, hrest⟩, hold⟩ := hs id
      obtain ⟨ms, rest', o, hdeframes, hkept, hstands, hdispatched⟩ :=
        dispatch_filters (g := g) (hq.filterData hholds buffer.2)
      refine ⟨Function.update m id o, hstands, fun fd => ?_⟩
      have hofSocket : (g.step (.data id buffer)).ofSocket fd = g.ofSocket fd ++ if id = fd then ms else [] :=
        (congrArg (fun d => (d.filter fun x => x.1 = fd).map Prod.snd) hdispatched).trans
          (ofSocket_append (q := g.queue))
      by_cases hfd : id = fd
      · subst hfd
        rw [extend, if_pos rfl]
        have hnew := hrest.append hdeframes
        rw [if_pos rfl] at hofSocket
        refine ⟨⟨rest', ?_, ?_⟩, ?_⟩
        · rw [Function.update_self]
          exact hkept
        · rw [hnew.deframe_eq]
          exact hnew
        · rw [hofSocket, hold, List.flatMap_append, List.flatMap_append, List.flatMap_singleton,
            List.flatMap_singleton, hnew.deframe_eq, List.append_assoc]
      · rw [extend, if_neg hfd]
        rw [if_neg hfd, List.append_nil] at hofSocket
        obtain ⟨hkeeps, hpackets⟩ := hs fd
        refine ⟨?_, hofSocket.trans hpackets⟩
        rwa [Function.update_of_ne (Ne.symm hfd)]
  | close id => exact step_closes hq hs id
  | error id => exact step_closes hq hs id
  | connect id => exact ⟨m, hq, hs⟩
  | accept ud => exact ⟨m, hq, hs⟩
  | warning id => exact ⟨m, hq, hs⟩

theorem run_serves (ms : List SocketMessage) :
    ∃ m, (run ms).queue.Stands m [] ∧ ∀ fd, (run ms).Serves m fd (ms.foldl (extend fd) ([], [])) := by
  induction ms using List.reverseRecOn with
  | nil =>
      exact ⟨fun _ => none, Queue.stands_init, fun fd => ⟨⟨[], .nothing, deframes_nil⟩, rfl⟩⟩
  | append_singleton ms x ih =>
      obtain ⟨m, hq, hs⟩ := ih
      obtain ⟨m', hq', hs'⟩ := step_serves hq hs x
      have hrun : run (ms ++ [x]) = (run ms).step x := by
        rw [run, List.foldl_append]
        rfl
      refine ⟨m', hrun ▸ hq', fun fd => ?_⟩
      rw [List.foldl_append, hrun]
      exact hs' fd

theorem ofSocket_run (ms : List SocketMessage) (fd : ℕ) :
    (run ms).ofSocket fd = (streams fd ms).flatMap deframe := by
  obtain ⟨m, -, hs⟩ := run_serves ms
  exact (hs fd).2

/-- **The gate dispatches packets.** Whatever the segments that the sockets report, and however those of many
sockets come in between, the calls of `dispatch_msg` for a socket get the packets of its streams, each
once and in order, and only what was left of a packet when its socket was closed is lost. After each
message nothing waits in the queue. -/
theorem dispatched_eq (ms : List SocketMessage) :
    (∀ fd, (run ms).ofSocket fd = (streams fd ms).flatMap deframe) ∧ (run ms).queue.ring.pop.1 = none := by
  obtain ⟨m, hq, -⟩ := run_serves ms
  exact ⟨ofSocket_run ms, hq.ring.pop.1⟩

end Packets

end FrameSync.Skynet
