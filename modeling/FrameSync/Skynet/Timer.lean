import FrameSync.Foundations.Slots
import Mathlib.Data.Nat.Bitwise

/-! # The timer of skynet

`skynet_timer.c` keeps the timers in a wheel: 256 slots for the next ticks, and four levels of 64 slots for
later ones, from which the timers move down when their time comes near (`timer_shift`). The time has 32 bits
and goes around. -/

namespace FrameSync.Skynet

/-! ## The wheel -/

/-- `struct timer_event` -/
structure TimerEvent where
  /-- The service. -/
  handle : ℕ
  /-- The session that it waits for. -/
  session : ℤ
deriving DecidableEq

/-- `struct timer_node`, without its link. -/
structure TimerNode where
  /-- The time of the timer, in 32 bits. -/
  expire : ℕ
  /-- What is sent then. -/
  event : TimerEvent
deriving DecidableEq

/-- A list of the wheel. -/
inductive Slot
  /-- `near[k]` -/
  | near (k : ℕ)
  /-- `t[i][k]` -/
  | level (i k : ℕ)
deriving DecidableEq

/-- `struct timer`, without its lock. -/
structure Timer where
  /-- The lists. -/
  slots : Slot → List TimerNode
  /-- `time`, in 32 bits. -/
  time : ℕ
  /-- `current` -/
  current : ℕ
  /-- `current_point` -/
  currentPoint : ℕ

namespace Timer

/-- The loop of `add_node`: the level, from `i` on. -/
def levelOf (time currentTime : ℕ) : ℕ → ℕ → ℕ → ℕ
  | 0, i, _ => i
  | fuel + 1, i, mask =>
      if time ||| (mask - 1) = currentTime ||| (mask - 1) then i
      else levelOf time currentTime fuel (i + 1) (mask <<< 6)

/-- The list that `add_node` chooses. -/
def slotOf (time currentTime : ℕ) : Slot :=
  if time ||| 255 = currentTime ||| 255 then .near (time &&& 255)
  else
    let i := levelOf time currentTime 3 0 (256 <<< 6)
    .level i ((time >>> (8 + i * 6)) &&& 63)

/-- `add_node` -/
def addNode (T : Timer) (node : TimerNode) : Timer :=
  { T with slots := putSlot T.slots (slotOf node.expire T.time) node }

/-- `timer_add` -/
def timerAdd (T : Timer) (event : TimerEvent) (time : ℕ) : Timer := T.addNode ⟨(time + T.time) % 2 ^ 32, event⟩

/-- `move_list` -/
def moveList (T : Timer) (level idx : ℕ) : Timer :=
  (T.slots (.level level idx)).foldl addNode { T with slots := Function.update T.slots (.level level idx) [] }

/-- The loop of `timer_shift`. Four rounds are enough. -/
def shiftLoop (T : Timer) (ct : ℕ) : ℕ → ℕ → ℕ → ℕ → Timer
  | 0, _, _, _ => T
  | fuel + 1, i, mask, time =>
      if ct &&& (mask - 1) = 0 then
        if time &&& 63 ≠ 0 then T.moveList i (time &&& 63)
        else shiftLoop T ct fuel (i + 1) (mask <<< 6) (time >>> 6)
      else T

/-- `timer_shift` -/
def timerShift (T : Timer) : Timer :=
  let ct := (T.time + 1) % 2 ^ 32
  if ct = 0 then { T with time := ct }.moveList 3 0 else shiftLoop { T with time := ct } ct 4 0 256 (ct >>> 8)

/-- The list that is due. -/
def due (T : Timer) : Slot := .near (T.time &&& 255)

/-- `link_clear` of the list that is due. -/
def clearDue (T : Timer) : Timer := { T with slots := Function.update T.slots T.due [] }

/-- `timer_create_timer`, with the times of `skynet_timer_init`. -/
def create (current currentPoint : ℕ) : Timer := ⟨fun _ => [], 0, current, currentPoint⟩

end Timer

/-! ## The place of a timer

Without the wrap of the time: `d` is the tick at which a timer is due, and `n` the tick that it is. -/

/-- The list for a timer. -/
def place (d n : ℕ) : Slot :=
  if d / 2 ^ 8 = n / 2 ^ 8 then .near (d % 2 ^ 8)
  else if d / 2 ^ 14 = n / 2 ^ 14 then .level 0 (d / 2 ^ 8 % 64)
  else if d / 2 ^ 20 = n / 2 ^ 20 then .level 1 (d / 2 ^ 14 % 64)
  else if d / 2 ^ 26 = n / 2 ^ 26 then .level 2 (d / 2 ^ 20 % 64)
  else .level 3 (d / 2 ^ 26 % 64)

/-- The list that moves down at the tick `n`. -/
def cascade (n : ℕ) : Option (ℕ × ℕ) :=
  if n % 2 ^ 8 ≠ 0 then none
  else if n % 2 ^ 14 ≠ 0 then some (0, n / 2 ^ 8 % 64)
  else if n % 2 ^ 20 ≠ 0 then some (1, n / 2 ^ 14 % 64)
  else if n % 2 ^ 26 ≠ 0 then some (2, n / 2 ^ 20 % 64)
  else some (3, n / 2 ^ 26 % 64)

/-- Numbers that agree from a bit on. -/
theorem or_mask_eq_iff (a b k : ℕ) : a ||| (2 ^ k - 1) = b ||| (2 ^ k - 1) ↔ a / 2 ^ k = b / 2 ^ k := by
  rw [← Nat.shiftRight_eq_div_pow, ← Nat.shiftRight_eq_div_pow]
  constructor
  · intro h
    refine Nat.eq_of_testBit_eq fun i => ?_
    have hi := congrArg (fun x => Nat.testBit x (k + i)) h
    have hhigh : ¬ k + i < k := by omega
    simpa [Nat.testBit_or, Nat.testBit_two_pow_sub_one, Nat.testBit_shiftRight, hhigh] using hi
  · intro h
    refine Nat.eq_of_testBit_eq fun i => ?_
    rw [Nat.testBit_or, Nat.testBit_or, Nat.testBit_two_pow_sub_one]
    by_cases hi : i < k
    · simp [hi]
    · obtain ⟨j, rfl⟩ := Nat.exists_eq_add_of_le (Nat.le_of_not_lt hi)
      have hj := congrArg (fun x => Nat.testBit x j) h
      simp only [Nat.testBit_shiftRight] at hj
      rw [hj]

variable {d d' n : ℕ}

theorem and_255 (a : ℕ) : a &&& 255 = a % 2 ^ 8 := Nat.and_two_pow_sub_one_eq_mod a 8

theorem and_63 (a : ℕ) : a &&& 63 = a % 64 := Nat.and_two_pow_sub_one_eq_mod a 6

/-- The masks of the levels. -/
theorem agree_iff (hle : n ≤ d) (hlt : d < n + 2 ^ 31) {k : ℕ} (hk : k = 8 ∨ k = 14 ∨ k = 20 ∨ k = 26) :
    d % 2 ^ 32 ||| (2 ^ k - 1) = n % 2 ^ 32 ||| (2 ^ k - 1) ↔ d / 2 ^ k = n / 2 ^ k := by
  rw [or_mask_eq_iff]
  rcases hk with rfl | rfl | rfl | rfl <;> omega

theorem levelOf_eq (hle : n ≤ d) (hlt : d < n + 2 ^ 31) :
    Timer.levelOf (d % 2 ^ 32) (n % 2 ^ 32) 3 0 (256 <<< 6) =
      if d / 2 ^ 14 = n / 2 ^ 14 then 0 else if d / 2 ^ 20 = n / 2 ^ 20 then 1
      else if d / 2 ^ 26 = n / 2 ^ 26 then 2 else 3 := by
  have h14 := agree_iff hle hlt (k := 14) (by simp)
  have h20 := agree_iff hle hlt (k := 20) (by simp)
  have h26 := agree_iff hle hlt (k := 26) (by simp)
  rw [Timer.levelOf, Timer.levelOf, Timer.levelOf, Timer.levelOf]
  simp only [show (256 <<< 6 - 1 : ℕ) = 2 ^ 14 - 1 from rfl,
    show ((256 <<< 6) <<< 6 - 1 : ℕ) = 2 ^ 20 - 1 from rfl,
    show (((256 <<< 6) <<< 6) <<< 6 - 1 : ℕ) = 2 ^ 26 - 1 from rfl, h14, h20, h26]

/-- **The list that the code chooses.** -/
theorem slotOf_eq (hle : n ≤ d) (hlt : d < n + 2 ^ 31) : Timer.slotOf (d % 2 ^ 32) (n % 2 ^ 32) = place d n := by
  have h8 := agree_iff hle hlt (k := 8) (by simp)
  rw [Timer.slotOf, place, levelOf_eq hle hlt, show (255 : ℕ) = 2 ^ 8 - 1 from rfl]
  simp only [h8]
  rw [show (2 ^ 8 - 1 : ℕ) = 255 from rfl, and_255]
  simp only [and_63, Nat.shiftRight_eq_div_pow]
  split_ifs
  · rw [Nat.mod_mod_of_dvd d (by decide)]
  · exact congrArg (Slot.level 0) (show d % 2 ^ 32 / 2 ^ 8 % 64 = d / 2 ^ 8 % 64 by omega)
  · exact congrArg (Slot.level 1) (show d % 2 ^ 32 / 2 ^ 14 % 64 = d / 2 ^ 14 % 64 by omega)
  · exact congrArg (Slot.level 2) (show d % 2 ^ 32 / 2 ^ 20 % 64 = d / 2 ^ 20 % 64 by omega)
  · exact congrArg (Slot.level 3) (show d % 2 ^ 32 / 2 ^ 26 % 64 = d / 2 ^ 26 % 64 by omega)

/-! ### One tick -/

/-- Ticks that are the same from a bit on, where they differ from the tick that it is. -/
theorem place_congr {w : ℕ} (hw : w = 8 ∨ w = 14 ∨ w = 20 ∨ w = 26) (heq : d / 2 ^ w = d' / 2 ^ w)
    (hne : d / 2 ^ w ≠ n / 2 ^ w) : place d n = place d' n := by
  have hne' : d' / 2 ^ w ≠ n / 2 ^ w := heq ▸ hne
  rcases hw with rfl | rfl | rfl | rfl
  · have h14 : d / 2 ^ 14 = d' / 2 ^ 14 := by omega
    have h20 : d / 2 ^ 20 = d' / 2 ^ 20 := by omega
    have h26 : d / 2 ^ 26 = d' / 2 ^ 26 := by omega
    simp only [place, hne', heq, h14, h20, h26, if_false]
  · have h8 : d / 2 ^ 8 ≠ n / 2 ^ 8 := by omega
    have h8' : d' / 2 ^ 8 ≠ n / 2 ^ 8 := by omega
    have h20 : d / 2 ^ 20 = d' / 2 ^ 20 := by omega
    have h26 : d / 2 ^ 26 = d' / 2 ^ 26 := by omega
    simp only [place, h8, h8', hne', heq, h20, h26, if_false]
  · have h8 : d / 2 ^ 8 ≠ n / 2 ^ 8 := by omega
    have h8' : d' / 2 ^ 8 ≠ n / 2 ^ 8 := by omega
    have h14 : d / 2 ^ 14 ≠ n / 2 ^ 14 := by omega
    have h14' : d' / 2 ^ 14 ≠ n / 2 ^ 14 := by omega
    have h26 : d / 2 ^ 26 = d' / 2 ^ 26 := by omega
    simp only [place, h8, h8', h14, h14', hne', heq, h26, if_false]
  · have h8 : d / 2 ^ 8 ≠ n / 2 ^ 8 := by omega
    have h8' : d' / 2 ^ 8 ≠ n / 2 ^ 8 := by omega
    have h14 : d / 2 ^ 14 ≠ n / 2 ^ 14 := by omega
    have h14' : d' / 2 ^ 14 ≠ n / 2 ^ 14 := by omega
    have h20 : d / 2 ^ 20 ≠ n / 2 ^ 20 := by omega
    have h20' : d' / 2 ^ 20 ≠ n / 2 ^ 20 := by omega
    simp only [place, h8, h8', h14, h14', h20, h20', hne', heq, if_false]

/-- A later tick that differs from `n + 1` differs from `n`. -/
theorem div_ne_of_succ (hlt : n < d) {w : ℕ} (hne : d / 2 ^ w ≠ (n + 1) / 2 ^ w) : d / 2 ^ w ≠ n / 2 ^ w := by
  have h1 : n / 2 ^ w ≤ (n + 1) / 2 ^ w := Nat.div_le_div_right (Nat.le_succ n)
  have h2 : (n + 1) / 2 ^ w ≤ d / 2 ^ w := Nat.div_le_div_right hlt
  omega

theorem place_near_iff {k : ℕ} : place d n = .near k ↔ d / 2 ^ 8 = n / 2 ^ 8 ∧ d % 2 ^ 8 = k := by
  unfold place
  split_ifs with h8 <;> simp only [Slot.near.injEq, h8, true_and, false_and]

/-- What a list of a level says of a timer. -/
theorem place_level {i k : ℕ} (h : place d n = .level i k) :
    (i = 0 ∧ d / 2 ^ 8 ≠ n / 2 ^ 8 ∧ d / 2 ^ 14 = n / 2 ^ 14 ∧ d / 2 ^ 8 % 64 = k) ∨
    (i = 1 ∧ d / 2 ^ 14 ≠ n / 2 ^ 14 ∧ d / 2 ^ 20 = n / 2 ^ 20 ∧ d / 2 ^ 14 % 64 = k) ∨
    (i = 2 ∧ d / 2 ^ 20 ≠ n / 2 ^ 20 ∧ d / 2 ^ 26 = n / 2 ^ 26 ∧ d / 2 ^ 20 % 64 = k) ∨
    (i = 3 ∧ d / 2 ^ 26 ≠ n / 2 ^ 26 ∧ d / 2 ^ 26 % 64 = k) := by
  unfold place at h
  split_ifs at h with h8 h14 h20 h26
  all_goals obtain ⟨rfl, hk⟩ := Slot.level.inj h
  · exact Or.inl ⟨rfl, h8, h14, hk⟩
  · exact Or.inr (Or.inl ⟨rfl, h14, h20, hk⟩)
  · exact Or.inr (Or.inr (Or.inl ⟨rfl, h20, h26, hk⟩))
  · exact Or.inr (Or.inr (Or.inr ⟨rfl, h26, hk⟩))

/-- **Timers that are together** are due at one tick, or have that part in common by which they have their
list. -/
theorem together (hlt : n ≤ d) (hlt' : n ≤ d') (hrange : d < n + 2 ^ 31) (hrange' : d' < n + 2 ^ 31)
    (h : place d n = place d' n) :
    d = d' ∨ ∃ w, (w = 8 ∨ w = 14 ∨ w = 20 ∨ w = 26) ∧ d / 2 ^ w = d' / 2 ^ w ∧ d / 2 ^ w ≠ n / 2 ^ w := by
  cases hp : place d n with
  | near k =>
      obtain ⟨h8, hmod⟩ := place_near_iff.mp hp
      obtain ⟨h8', hmod'⟩ := place_near_iff.mp (h ▸ hp)
      exact Or.inl (by omega)
  | level i k =>
      obtain ⟨rfl, hne, hup, hk⟩ | ⟨rfl, hne, hup, hk⟩ | ⟨rfl, hne, hup, hk⟩ | ⟨rfl, hne, hk⟩ :=
        place_level hp <;>
        obtain ⟨hi, hne', hup', hk'⟩ | ⟨hi, hne', hup', hk'⟩ | ⟨hi, hne', hup', hk'⟩ | ⟨hi, hne', hk'⟩ :=
          place_level (h ▸ hp)
      all_goals cases hi
      · exact Or.inr ⟨8, by simp, by omega, hne⟩
      · exact Or.inr ⟨14, by simp, by omega, hne⟩
      · exact Or.inr ⟨20, by simp, by omega, hne⟩
      · exact Or.inr ⟨26, by simp, by omega, hne⟩

/-- **Timers that come together were together**, whatever lists move. -/
theorem place_apart (hlt : n < d) (hlt' : n < d') (hrange : d < n + 2 ^ 31) (hrange' : d' < n + 2 ^ 31)
    (h : place d (n + 1) = place d' (n + 1)) : place d n = place d' n := by
  obtain rfl | ⟨w, hw, heq, hne⟩ := together hlt hlt' (by omega) (by omega) h
  · rfl
  · exact place_congr hw heq (div_ne_of_succ hlt hne)

/-- A list of the wheel, for a level and an index. -/
def levelSlot (c : ℕ × ℕ) : Slot := .level c.1 c.2

/-- **A timer that does not move down** keeps its list. -/
theorem place_succ (hlt : n < d) (h : some (place d n) ≠ (cascade (n + 1)).map levelSlot) :
    place d (n + 1) = place d n := by
  cases hp : place d n with
  | near k =>
      obtain ⟨h8, hk⟩ := place_near_iff.mp hp
      exact place_near_iff.mpr ⟨by omega, hk⟩
  | level i k =>
      -- if the digits above the level were those of the next tick, its list would be the one that moves down
      rw [hp] at h
      obtain ⟨rfl, hne, hup, hk⟩ | ⟨rfl, hne, hup, hk⟩ | ⟨rfl, hne, hup, hk⟩ | ⟨rfl, hne, hk⟩ := place_level hp
      · have hd : d / 2 ^ 8 ≠ (n + 1) / 2 ^ 8 := by
          intro hd
          have hz : ¬ (n + 1) % 2 ^ 8 ≠ 0 := by omega
          have hdigit : (n + 1) % 2 ^ 14 ≠ 0 := by omega
          rw [cascade, if_neg hz, if_pos hdigit, ← hd, hk] at h
          exact h rfl
        have hup' : d / 2 ^ 14 = (n + 1) / 2 ^ 14 := by omega
        rw [place, if_neg hd, if_pos hup', hk]
      · have hd : d / 2 ^ 14 ≠ (n + 1) / 2 ^ 14 := by
          intro hd
          have hz8 : ¬ (n + 1) % 2 ^ 8 ≠ 0 := by omega
          have hz : ¬ (n + 1) % 2 ^ 14 ≠ 0 := by omega
          have hdigit : (n + 1) % 2 ^ 20 ≠ 0 := by omega
          rw [cascade, if_neg hz8, if_neg hz, if_pos hdigit, ← hd, hk] at h
          exact h rfl
        have hd8 : d / 2 ^ 8 ≠ (n + 1) / 2 ^ 8 := by omega
        have hup' : d / 2 ^ 20 = (n + 1) / 2 ^ 20 := by omega
        rw [place, if_neg hd8, if_neg hd, if_pos hup', hk]
      · have hd : d / 2 ^ 20 ≠ (n + 1) / 2 ^ 20 := by
          intro hd
          have hz8 : ¬ (n + 1) % 2 ^ 8 ≠ 0 := by omega
          have hz14 : ¬ (n + 1) % 2 ^ 14 ≠ 0 := by omega
          have hz : ¬ (n + 1) % 2 ^ 20 ≠ 0 := by omega
          have hdigit : (n + 1) % 2 ^ 26 ≠ 0 := by omega
          rw [cascade, if_neg hz8, if_neg hz14, if_neg hz, if_pos hdigit, ← hd, hk] at h
          exact h rfl
        have hd8 : d / 2 ^ 8 ≠ (n + 1) / 2 ^ 8 := by omega
        have hd14 : d / 2 ^ 14 ≠ (n + 1) / 2 ^ 14 := by omega
        have hup' : d / 2 ^ 26 = (n + 1) / 2 ^ 26 := by omega
        rw [place, if_neg hd8, if_neg hd14, if_neg hd, if_pos hup', hk]
      · have hd : d / 2 ^ 26 ≠ (n + 1) / 2 ^ 26 := by
          intro hd
          have hz8 : ¬ (n + 1) % 2 ^ 8 ≠ 0 := by omega
          have hz14 : ¬ (n + 1) % 2 ^ 14 ≠ 0 := by omega
          have hz20 : ¬ (n + 1) % 2 ^ 20 ≠ 0 := by omega
          have hz : ¬ (n + 1) % 2 ^ 26 ≠ 0 := by omega
          rw [cascade, if_neg hz8, if_neg hz14, if_neg hz20, if_neg hz, ← hd, hk] at h
          exact h rfl
        have hd8 : d / 2 ^ 8 ≠ (n + 1) / 2 ^ 8 := by omega
        have hd14 : d / 2 ^ 14 ≠ (n + 1) / 2 ^ 14 := by omega
        have hd20 : d / 2 ^ 20 ≠ (n + 1) / 2 ^ 20 := by omega
        rw [place, if_neg hd8, if_neg hd14, if_neg hd20, if_neg hd, hk]

/-- **The timers that are due** are alone in their list. -/
theorem place_due_iff : place d n = .near (n % 2 ^ 8) ↔ d = n := by
  rw [place_near_iff]
  omega

/-! ## The shift -/

namespace Timer

theorem shiftLoop_succ (T : Timer) (ct fuel i k : ℕ) :
    shiftLoop T ct (fuel + 1) i (2 ^ k) (ct / 2 ^ k) =
      if ct % 2 ^ k = 0 then
        if ct / 2 ^ k % 64 ≠ 0 then T.moveList i (ct / 2 ^ k % 64)
        else shiftLoop T ct fuel (i + 1) (2 ^ (k + 6)) (ct / 2 ^ (k + 6))
      else T := by
  rw [shiftLoop, Nat.and_two_pow_sub_one_eq_mod, and_63, Nat.shiftRight_eq_div_pow,
    Nat.div_div_eq_div_mul, ← pow_add,
    Nat.shiftLeft_eq, ← pow_add]

/-- **The list that moves down** at the next tick. -/
theorem timerShift_eq (T : Timer) (htime : T.time = n % 2 ^ 32) :
    T.timerShift = (cascade (n + 1)).elim { T with time := (n + 1) % 2 ^ 32 }
      (fun c => { T with time := (n + 1) % 2 ^ 32 }.moveList c.1 c.2) := by
  have hct : (T.time + 1) % 2 ^ 32 = (n + 1) % 2 ^ 32 := by omega
  rw [timerShift, hct]
  generalize hm : (n + 1) % 2 ^ 32 = ct
  generalize hT : ({ T with time := ct } : Timer) = T'
  unfold cascade
  by_cases hz : ct = 0
  · have h8 : ¬ (n + 1) % 2 ^ 8 ≠ 0 := by omega
    have h14 : ¬ (n + 1) % 2 ^ 14 ≠ 0 := by omega
    have h20 : ¬ (n + 1) % 2 ^ 20 ≠ 0 := by omega
    have h26 : ¬ (n + 1) % 2 ^ 26 ≠ 0 := by omega
    have hdigit : (n + 1) / 2 ^ 26 % 64 = 0 := by omega
    rw [if_pos hz, if_neg h8, if_neg h14, if_neg h20, if_neg h26, hdigit, Option.elim_some]
  · -- the loop stops at the first part of the time that is not 0
    rw [if_neg hz, Nat.shiftRight_eq_div_pow, show (256 : ℕ) = 2 ^ 8 from rfl]
    split_ifs with h8 h14 h20 h26
    · rw [shiftLoop_succ, if_neg (by omega)]
      rfl
    · have hdigit : ct / 2 ^ 8 % 64 = (n + 1) / 2 ^ 8 % 64 := by omega
      rw [shiftLoop_succ, if_pos (by omega), if_pos (by omega), hdigit]
      rfl
    · have hdigit : ct / 2 ^ 14 % 64 = (n + 1) / 2 ^ 14 % 64 := by omega
      rw [shiftLoop_succ, if_pos (by omega), if_neg (by omega), shiftLoop_succ, if_pos (by omega),
        if_pos (by omega),
        hdigit]
      rfl
    · have hdigit : ct / 2 ^ 20 % 64 = (n + 1) / 2 ^ 20 % 64 := by omega
      rw [shiftLoop_succ, if_pos (by omega), if_neg (by omega), shiftLoop_succ, if_pos (by omega),
        if_neg (by omega),
        shiftLoop_succ, if_pos (by omega), if_pos (by omega), hdigit]
      rfl
    · have hdigit : ct / 2 ^ 26 % 64 = (n + 1) / 2 ^ 26 % 64 := by omega
      rw [shiftLoop_succ, if_pos (by omega), if_neg (by omega), shiftLoop_succ, if_pos (by omega),
        if_neg (by omega),
        shiftLoop_succ, if_pos (by omega), if_neg (by omega), shiftLoop_succ, if_pos (by omega),
          if_pos (by omega),
        hdigit]
      rfl

/-- **`move_list`** puts the timers of a list into their lists of now. -/
theorem moveList_eq (T : Timer) (level idx : ℕ) :
    T.moveList level idx = { T with
      slots := putSlots (fun node => slotOf node.expire T.time) (Function.update T.slots (.level level idx) [])
        (T.slots (.level level idx)) } := by
  have hfold (xs : List TimerNode) (slots : Slot → List TimerNode) :
      xs.foldl addNode { T with slots := slots } =
        { T with slots := putSlots (fun node => slotOf node.expire T.time) slots xs } := by
    induction xs generalizing slots with
    | nil => rfl
    | cons x xs ih => exact ih (putSlot slots (slotOf x.expire T.time) x)
  exact hfold _ _

end Timer

/-! ## The timers in the wheel

A timer with the tick at which it is due. -/

/-- The node of a timer. -/
def timerNode (p : ℕ × TimerEvent) : TimerNode := ⟨p.1 % 2 ^ 32, p.2⟩

/-- The list of a node. -/
def Timer.key (time : ℕ) (node : TimerNode) : Slot := Timer.slotOf node.expire time

/-- **The timers of a wheel** at a tick: they are not further away than half of the time, and those that
come to one list are there in their order. -/
structure Timer.Has (T : Timer) (n : ℕ) (ps : List (ℕ × TimerEvent)) : Prop where
  /-- The time goes around. -/
  time_eq : T.time = n % 2 ^ 32
  /-- The times. -/
  near : ∀ p ∈ ps, n ≤ p.1 ∧ p.1 < n + 2 ^ 31
  /-- The lists. -/
  sorts : Sorts T.slots (Timer.key T.time) (ps.map timerNode)

namespace Timer.Has

variable {T : Timer} {n : ℕ} {ps : List (ℕ × TimerEvent)}

theorem key_eq (h : T.Has n ps) {p : ℕ × TimerEvent} (hp : p ∈ ps) :
    Timer.key T.time (timerNode p) = place p.1 n := by
  rw [h.time_eq]
  exact slotOf_eq (h.near p hp).1 (h.near p hp).2

/-- An empty wheel. -/
theorem create (current currentPoint : ℕ) : (Timer.create current currentPoint).Has 0 [] :=
  ⟨rfl, fun _ hp => absurd hp List.not_mem_nil, sorts_empty _⟩

/-- The clock is not the time of the wheel. -/
theorem clock (h : T.Has n ps) (current currentPoint : ℕ) :
    { T with current := current, currentPoint := currentPoint }.Has n ps :=
  ⟨h.time_eq, h.near, h.sorts⟩

/-- **A timer is added.** -/
theorem timerAdd (h : T.Has n ps) (event : TimerEvent) {time : ℕ} (htime : time < 2 ^ 31) :
    (T.timerAdd event time).Has n (ps ++ [(n + time, event)]) := by
  have hexpire : (time + T.time) % 2 ^ 32 = (n + time) % 2 ^ 32 := by
    rw [h.time_eq]
    omega
  refine ⟨h.time_eq, fun p hp => ?_, ?_⟩
  · rcases List.mem_append.mp hp with hp | hp
    · exact h.near p hp
    · obtain rfl := List.mem_singleton.mp hp
      exact ⟨Nat.le_add_right n time, Nat.add_lt_add_left htime n⟩
  · rw [Timer.timerAdd, Timer.addNode, hexpire, List.map_append, List.map_singleton]
    exact h.sorts.put (timerNode (n + time, event))

/-- **The next tick** keeps the timers, where none was due before it. -/
theorem timerShift (h : T.Has n ps) (hlate : ∀ p ∈ ps, n < p.1) : T.timerShift.Has (n + 1) ps := by
  have hnear : ∀ p ∈ ps, n + 1 ≤ p.1 ∧ p.1 < n + 1 + 2 ^ 31 := fun p hp =>
    ⟨hlate p hp, by have := h.near p hp; omega⟩
  have hkey : ∀ p ∈ ps, Timer.key ((n + 1) % 2 ^ 32) (timerNode p) = place p.1 (n + 1) :=
    fun p hp => slotOf_eq (hnear p hp).1 (hnear p hp).2
  rw [timerShift_eq T h.time_eq]
  cases hcascade : cascade (n + 1) with
  | none =>
      rw [Option.elim_none]
      refine ⟨rfl, hnear, h.sorts.congr fun node hnode => ?_⟩
      obtain ⟨p, hp, rfl⟩ := List.mem_map.mp hnode
      have hstay : some (place p.1 n) ≠ (cascade (n + 1)).map levelSlot := by
        rw [hcascade]
        exact Option.some_ne_none _
      rw [h.key_eq hp]
      exact (hkey p hp).trans (place_succ (hlate p hp) hstay)
  | some c =>
      rw [Option.elim_some, moveList_eq]
      refine ⟨rfl, hnear, h.sorts.move (.level c.1 c.2) ?_ ?_⟩
      · intro node hnode hne
        obtain ⟨p, hp, rfl⟩ := List.mem_map.mp hnode
        rw [h.key_eq hp] at hne ⊢
        refine (hkey p hp).trans (place_succ (hlate p hp) ?_)
        rw [hcascade]
        exact fun hsome => hne (Option.some.inj hsome)
      · intro node hnode node' hnode' heq
        obtain ⟨p, hp, rfl⟩ := List.mem_map.mp hnode
        obtain ⟨p', hp', rfl⟩ := List.mem_map.mp hnode'
        rw [h.key_eq hp, h.key_eq hp']
        exact place_apart (hlate p hp) (hlate p' hp') (h.near p hp).2 (h.near p' hp').2
          ((hkey p hp).symm.trans (heq.trans (hkey p' hp')))

theorem timerShift_current (h : T.Has n ps) : T.timerShift.current = T.current := by
  rw [timerShift_eq T h.time_eq]
  cases cascade (n + 1) with
  | none => rfl
  | some c => rw [Option.elim_some, moveList_eq]

/-- **The list that is due** has the timers of this tick. -/
theorem slots_due (h : T.Has n ps) : T.slots T.due = (ps.filter fun p => p.1 = n).map timerNode := by
  have hdue : T.due = .near (n % 2 ^ 8) := by
    rw [Timer.due, and_255, h.time_eq, Nat.mod_mod_of_dvd n (by decide)]
  rw [h.sorts, hdue, List.filter_map]
  refine congrArg _ (List.filter_congr fun p hp => ?_)
  rw [Function.comp_apply, h.key_eq hp, decide_eq_decide]
  exact place_due_iff

/-- **The list is taken.** -/
theorem clearDue (h : T.Has n ps) : T.clearDue.Has n (ps.filter fun p => p.1 ≠ n) := by
  have hdue : T.due = .near (n % 2 ^ 8) := by
    rw [Timer.due, and_255, h.time_eq, Nat.mod_mod_of_dvd n (by decide)]
  refine ⟨h.time_eq, fun p hp => h.near p (List.mem_of_mem_filter hp), ?_⟩
  have hfilter : (ps.filter fun p => p.1 ≠ n).map timerNode =
      (ps.map timerNode).filter fun node => Timer.key T.time node ≠ T.due := by
    rw [List.filter_map]
    refine congrArg _ (List.filter_congr fun p hp => ?_)
    rw [Function.comp_apply, h.key_eq hp, hdue, decide_eq_decide, Ne, Ne, place_due_iff]
  rw [hfilter]
  exact h.sorts.clear T.due

end Timer.Has

end FrameSync.Skynet
