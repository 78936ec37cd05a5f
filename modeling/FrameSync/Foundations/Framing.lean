import Mathlib.Data.List.Basic
import Mathlib.Tactic.Common

/-! # Length-prefixed framing

A message goes over a byte stream as two bytes with its length, big-endian, and the message itself.
`unframe` reads the first message off a buffer, if it is complete. Frames are prefix-free
(`frame_append_inj`), so a stream of frames can be read in one way only, and a piece of a frame is
never a list of frames (`take_frame_ne_frames`). -/

namespace FrameSync

namespace Framing

/-- Two bytes, big-endian. -/
def packU16 (n : ℕ) : List UInt8 := [UInt8.ofNat (n / 256), UInt8.ofNat n]

/-- The number that bytes stand for, big-endian. -/
def unpackUInt (bytes : List UInt8) : ℕ := bytes.foldl (fun n b => n * 256 + b.toNat) 0

theorem unpackUInt_packU16 {n : ℕ} (h : n < 65536) : unpackUInt (packU16 n) = n := by
  simp only [packU16, unpackUInt, List.foldl_cons, List.foldl_nil, UInt8.toNat_ofNat']
  omega

/-- The frame of a message. -/
def frame (data : List UInt8) : List UInt8 := packU16 data.length ++ data

@[simp] theorem length_frame (data : List UInt8) : (frame data).length = data.length + 2 := by
  simp [frame, packU16]

/-- Frames one after another. -/
def frames (messages : List (List UInt8)) : List UInt8 := messages.flatMap frame

@[simp] theorem frames_nil : frames [] = [] := rfl

@[simp] theorem frames_cons (data : List UInt8) (messages : List (List UInt8)) :
    frames (data :: messages) = frame data ++ frames messages := List.flatMap_cons

@[simp] theorem frames_append (messages messages' : List (List UInt8)) :
    frames (messages ++ messages') = frames messages ++ frames messages' := List.flatMap_append

/-! ## Frames are prefix-free -/

/-- The header gives the length away. -/
theorem unpackUInt_take_frame {data rest : List UInt8} (h : data.length < 65536) :
    unpackUInt ((frame data ++ rest).take 2) = data.length := by
  rw [frame, List.append_assoc, List.take_append_of_le_length (Nat.le_refl 2)]
  exact unpackUInt_packU16 h

/-- **Two streams that start with a frame start with the same one.** -/
theorem frame_append_inj {data data' rest rest' : List UInt8} (h : data.length < 65536)
    (h' : data'.length < 65536) (heq : frame data ++ rest = frame data' ++ rest') :
    data = data' ∧ rest = rest' := by
  have hlength : data.length = data'.length := by
    have hheader : unpackUInt ((frame data ++ rest).take 2) = data.length := unpackUInt_take_frame h
    rwa [heq, unpackUInt_take_frame h', eq_comm] at hheader
  have hframes : (frame data).length = (frame data').length := by simp [hlength]
  obtain ⟨hframe, hrest⟩ := List.append_inj heq hframes
  rw [frame, frame, hlength] at hframe
  exact ⟨List.append_cancel_left hframe, hrest⟩

/-- A piece of a frame is no list of frames. -/
theorem take_frame_ne_frames {data : List UInt8} {k : ℕ} (h : data.length < 65536) (hpos : 0 < k)
    (hk : k < (frame data).length) {messages : List (List UInt8)}
    (hmessages : ∀ m ∈ messages, m.length < 65536) : (frame data).take k ≠ frames messages := by
  intro heq
  cases messages with
  | nil =>
      have hlength := congrArg List.length heq
      rw [List.length_take_of_le (Nat.le_of_lt hk)] at hlength
      simp only [frames_nil, List.length_nil] at hlength
      omega
  | cons m messages =>
      -- the piece and the rest make up the frame, which then is that of `m`, with nothing left
      have hwhole : frame data ++ [] = frame m ++ (frames messages ++ (frame data).drop k) := by
        rw [← List.append_assoc, ← frames_cons, ← heq, List.take_append_drop, List.append_nil]
      obtain ⟨-, hrest⟩ := frame_append_inj h (hmessages m List.mem_cons_self) hwhole
      have hdrop := (List.append_eq_nil_iff.mp hrest.symm).2
      rw [List.drop_eq_nil_iff] at hdrop
      omega

/-! ## Reading a frame -/

/-- The first message of a buffer and what comes after it, if it is complete. -/
def unframe (buf : List UInt8) : Option (List UInt8 × List UInt8) :=
  if buf.length < 2 then none
  else
    let plen := unpackUInt (buf.take 2)
    if buf.length < plen + 2 then none else some ((buf.take (plen + 2)).drop 2, buf.drop (plen + 2))

/-- A buffer that begins with a frame. -/
theorem unframe_frame_append {data : List UInt8} (h : data.length < 65536) (rest : List UInt8) :
    unframe (frame data ++ rest) = some (data, rest) := by
  have hlong : ¬ (frame data ++ rest).length < data.length + 2 := by simp
  have hheader : ¬ (frame data ++ rest).length < 2 := by
    rw [List.length_append, length_frame]
    omega
  rw [unframe, if_neg hheader, unpackUInt_take_frame h]
  dsimp only
  rw [if_neg hlong, ← length_frame, List.take_left, List.drop_left]
  rfl

/-- A buffer that does not hold all of the frame it begins with. -/
theorem unframe_of_short {data rest buf : List UInt8} (h : data.length < 65536)
    (hbuf : buf <+: frame data ++ rest) (hshort : buf.length < (frame data).length) :
    unframe buf = none := by
  rw [unframe]
  split
  · rfl
  · rename_i hheader
    have htake : buf.take 2 = (frame data ++ rest).take 2 := by
      obtain ⟨more, hmore⟩ := hbuf
      rw [← hmore, List.take_append_of_le_length (Nat.not_lt.mp hheader)]
    rw [htake, unpackUInt_take_frame h]
    dsimp only
    rw [if_pos (by rwa [length_frame] at hshort)]

/-! ## The messages that are complete -/

/-- How many of the messages are complete in the first `n` bytes of their frames. -/
def completeCount : List (List UInt8) → ℕ → ℕ
  | [], _ => 0
  | m :: messages, n =>
      if (frame m).length ≤ n then completeCount messages (n - (frame m).length) + 1 else 0

/-- The messages that are complete in the first `n` bytes of their frames. -/
def complete (messages : List (List UInt8)) (n : ℕ) : List (List UInt8) :=
  messages.take (completeCount messages n)

theorem completeCount_le (messages : List (List UInt8)) (n : ℕ) :
    completeCount messages n ≤ messages.length := by
  induction messages generalizing n with
  | nil => exact Nat.le_refl 0
  | cons m messages ih =>
      rw [completeCount]
      split
      · exact Nat.succ_le_succ (ih _)
      · exact Nat.zero_le _

/-- **Which messages are complete**: those whose frames are within the bytes. -/
theorem lt_completeCount_iff {messages : List (List UInt8)} {n k : ℕ} (hk : k < messages.length) :
    k < completeCount messages n ↔ (frames (messages.take (k + 1))).length ≤ n := by
  induction messages generalizing n k with
  | nil => exact absurd hk (Nat.not_lt_zero k)
  | cons m messages ih =>
      rw [completeCount, List.take_succ_cons, frames_cons, List.length_append]
      cases k with
      | zero =>
          rw [List.take_zero, frames_nil, List.length_nil, Nat.add_zero]
          split
          · rename_i hm
            exact iff_of_true (Nat.succ_pos _) hm
          · rename_i hm
            exact iff_of_false (Nat.lt_irrefl 0) hm
      | succ k =>
          have hrest := ih (n := n - (frame m).length) (Nat.lt_of_succ_lt_succ hk)
          split
          · rw [Nat.succ_lt_succ_iff, hrest]
            omega
          · omega

/-- With more bytes no fewer messages are complete. -/
theorem completeCount_mono (messages : List (List UInt8)) {n n' : ℕ} (h : n ≤ n') :
    completeCount messages n ≤ completeCount messages n' := by
  by_contra hlt
  rw [Nat.not_le] at hlt
  have hk := Nat.lt_of_lt_of_le hlt (completeCount_le messages n)
  have hframes := (lt_completeCount_iff hk).mp hlt
  exact Nat.lt_irrefl _ ((lt_completeCount_iff hk).mpr (Nat.le_trans hframes h))

/-- The frames of complete messages are within the bytes. -/
theorem length_frames_take_le {messages : List (List UInt8)} {n k : ℕ}
    (h : k ≤ completeCount messages n) : (frames (messages.take k)).length ≤ n := by
  cases k with
  | zero => exact Nat.zero_le n
  | succ k => exact (lt_completeCount_iff (Nat.le_trans h (completeCount_le messages n))).mp h

/-- No message is complete without a byte. -/
@[simp] theorem completeCount_zero (messages : List (List UInt8)) : completeCount messages 0 = 0 := by
  cases messages with
  | nil => rfl
  | cons m messages => rw [completeCount, if_neg (by simp)]

/-! ## All messages of a stream -/

/-- The stream `s` is the frames of the messages `ms`, and `rest`, which does not hold a frame yet. -/
structure Deframes (s : List UInt8) (ms : List (List UInt8)) (rest : List UInt8) : Prop where
  /-- The frames come first. -/
  eq : s = frames ms ++ rest
  /-- The messages have a length of two bytes. -/
  short : ∀ m ∈ ms, m.length < 65536
  /-- No other message is complete. -/
  incomplete : unframe rest = none

theorem deframes_nil : Deframes [] [] [] where
  eq := rfl
  short := fun _ h => absurd h List.not_mem_nil
  incomplete := rfl

/-- A message that is read off a buffer was framed there. -/
theorem eq_of_unframe {buf data rest : List UInt8} (h : unframe buf = some (data, rest)) :
    buf = frame data ++ rest ∧ data.length < 65536 := by
  rw [unframe] at h
  split at h
  · cases h
  · rename_i hheader
    dsimp only at h
    split at h
    · cases h
    · rename_i hlong
      obtain ⟨rfl, rfl⟩ := Prod.mk.inj (Option.some.inj h)
      obtain ⟨a, b, tail, rfl⟩ : ∃ a b tail, buf = a :: b :: tail := by
        cases buf with
        | nil => exact absurd (Nat.zero_lt_two) hheader
        | cons a buf =>
            cases buf with
            | nil => exact absurd (Nat.one_lt_two) hheader
            | cons b tail => exact ⟨a, b, tail, rfl⟩
      obtain ⟨n, hn⟩ : ∃ n, n = a.toNat * 256 + b.toNat := ⟨_, rfl⟩
      have ha := a.toNat_lt
      have hb := b.toNat_lt
      have hlen : unpackUInt ((a :: b :: tail).take 2) = n := by
        rw [hn]
        simp [unpackUInt]
      rw [hlen] at hlong ⊢
      simp only [List.length_cons] at hlong
      -- the header is that of the frame, as it is its length again
      have hpack : packU16 n = [a, b] := by
        have hhigh : UInt8.ofNat (n / 256) = a := by
          rw [hn, show (a.toNat * 256 + b.toNat) / 256 = a.toNat by omega, UInt8.ofNat_toNat]
        have hlow : UInt8.ofNat n = b := by
          apply UInt8.toNat_inj.mp
          rw [UInt8.toNat_ofNat']
          omega
        rw [packU16, hhigh, hlow]
      have hdata : (((a :: b :: tail).take (n + 2)).drop 2) = tail.take n := by
        rw [List.take_succ_cons, List.take_succ_cons, List.drop_succ_cons, List.drop_succ_cons, List.drop_zero]
      have hdrop : (a :: b :: tail).drop (n + 2) = tail.drop n := by
        rw [List.drop_succ_cons, List.drop_succ_cons]
      have hlength : (tail.take n).length = n := by
        rw [List.length_take]
        omega
      rw [hdata, hdrop, frame, hlength, hpack, List.append_assoc, List.take_append_drop]
      exact ⟨rfl, by omega⟩

/-- The first message of a stream, and the others. -/
theorem Deframes.cons {s data rest : List UInt8} {ms : List (List UInt8)} {rest' : List UInt8}
    (h : unframe s = some (data, rest)) (hrest : Deframes rest ms rest') : Deframes s (data :: ms) rest' := by
  obtain ⟨rfl, hlt⟩ := eq_of_unframe h
  refine ⟨?_, List.forall_mem_cons.mpr ⟨hlt, hrest.short⟩, hrest.incomplete⟩
  rw [hrest.eq, frames_cons, List.append_assoc]

/-- **A stream is deframed in one way.** -/
theorem Deframes.unique {s : List UInt8} {ms ms' : List (List UInt8)} {rest rest' : List UInt8}
    (h : Deframes s ms rest) (h' : Deframes s ms' rest') : ms = ms' ∧ rest = rest' := by
  obtain ⟨rfl, hshort, hnone⟩ := h
  obtain ⟨heq, hshort', hnone'⟩ := h'
  induction ms generalizing ms' with
  | nil =>
      cases ms' with
      | nil => exact ⟨rfl, heq⟩
      | cons m' ms' =>
          rw [frames_nil, List.nil_append, frames_cons, List.append_assoc] at heq
          rw [heq, unframe_frame_append (hshort' m' List.mem_cons_self)] at hnone
          cases hnone
  | cons m ms ih =>
      cases ms' with
      | nil =>
          rw [frames_nil, List.nil_append, frames_cons, List.append_assoc] at heq
          rw [← heq, unframe_frame_append (hshort m List.mem_cons_self)] at hnone'
          cases hnone'
      | cons m' ms' =>
          rw [frames_cons, frames_cons, List.append_assoc, List.append_assoc] at heq
          obtain ⟨rfl, hrest⟩ := frame_append_inj (hshort m List.mem_cons_self)
            (hshort' m' List.mem_cons_self) heq
          obtain ⟨rfl, rfl⟩ := ih (fun x hx => hshort x (List.mem_cons_of_mem _ hx))
            hrest (fun x hx => hshort' x (List.mem_cons_of_mem _ hx))
          exact ⟨rfl, rfl⟩

/-- **More of a stream** is deframed from what was left. -/
theorem Deframes.append {s more rest rest' : List UInt8} {ms ms' : List (List UInt8)} (h : Deframes s ms rest)
    (h' : Deframes (rest ++ more) ms' rest') : Deframes (s ++ more) (ms ++ ms') rest' := by
  refine ⟨?_, List.forall_mem_append.mpr ⟨h.short, h'.short⟩, h'.incomplete⟩
  rw [h.eq, List.append_assoc, h'.eq, frames_append, List.append_assoc]

/-- The first messages of a stream, no more than `fuel`. -/
def deframeLoop : ℕ → List UInt8 → List (List UInt8)
  | 0, _ => []
  | fuel + 1, s => (unframe s).elim [] fun x => x.1 :: deframeLoop fuel x.2

/-- The messages of a stream. A frame has two bytes or more. -/
def deframe (s : List UInt8) : List (List UInt8) := deframeLoop s.length s

theorem deframes_deframeLoop {fuel : ℕ} {s : List UInt8} (h : s.length ≤ fuel) :
    ∃ rest, Deframes s (deframeLoop fuel s) rest := by
  induction fuel generalizing s with
  | zero =>
      obtain rfl := List.eq_nil_of_length_eq_zero (Nat.eq_zero_of_le_zero h)
      exact ⟨[], deframes_nil⟩
  | succ fuel ih =>
      rw [deframeLoop]
      cases hs : unframe s with
      | none => exact ⟨s, rfl, fun _ hm => absurd hm List.not_mem_nil, hs⟩
      | some x =>
          obtain ⟨data, rest⟩ := x
          have hlength := congrArg List.length (eq_of_unframe hs).1
          rw [List.length_append, length_frame] at hlength
          obtain ⟨rest', hrest⟩ := ih (s := rest) (by omega)
          exact ⟨rest', hrest.cons hs⟩

/-- **Every stream is deframed.** -/
theorem deframes_deframe (s : List UInt8) : ∃ rest, Deframes s (deframe s) rest :=
  deframes_deframeLoop (Nat.le_refl _)

theorem Deframes.deframe_eq {s rest : List UInt8} {ms : List (List UInt8)} (h : Deframes s ms rest) :
    deframe s = ms := by
  obtain ⟨rest', h'⟩ := deframes_deframe s
  exact (h'.unique h).1

/-- The messages of the beginning of a stream of frames are those that are complete. -/
theorem Deframes.complete_eq {s rest : List UInt8} {ms messages : List (List UInt8)} (h : Deframes s ms rest)
    (hmessages : ∀ m ∈ messages, m.length < 65536) (hs : s <+: frames messages) :
    ms = complete messages s.length := by
  induction messages generalizing s ms rest with
  | nil =>
      obtain rfl := List.prefix_nil.mp hs
      exact (h.unique deframes_nil).1
  | cons m messages ih =>
      obtain ⟨hm, hmessages⟩ := List.forall_mem_cons.mp hmessages
      rw [frames_cons] at hs
      rw [complete, completeCount]
      split_ifs with hlong
      · -- the first message is complete, and the others are those of what follows
        obtain ⟨s', rfl⟩ : frame m <+: s := List.prefix_of_prefix_length_le (List.prefix_append _ _) hs hlong
        have hs' : s' <+: frames messages := (List.prefix_append_right_inj _).mp hs
        obtain ⟨rest', h'⟩ := deframes_deframe s'
        obtain ⟨rfl, -⟩ := h.unique (h'.cons (unframe_frame_append hm s'))
        rw [List.length_append, Nat.add_sub_cancel_left, List.take_succ_cons]
        exact congrArg (List.cons m) (ih h' hmessages hs')
      · have hnone := unframe_of_short hm hs (Nat.lt_of_not_le hlong)
        exact (h.unique ⟨rfl, fun _ hx => absurd hx List.not_mem_nil, hnone⟩).1

end Framing

end FrameSync
