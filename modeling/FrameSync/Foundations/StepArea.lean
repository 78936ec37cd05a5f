import Mathlib.Algebra.Order.Ring.Defs
import Mathlib.Tactic.Linarith
import Mathlib.Tactic.Ring

/-! # Areas under samples

A list of samples, each a value and the time at which it was taken. Two readings turn it into a step
function: a value holds from its sample to the next (`heldArea`), or it counts for the time before its
sample (`ledArea`). The first area lies between the bounds of the values times the length of time, and
the two differ by the jumps of the values times the waits (`ledArea_eq`). -/

namespace FrameSync

variable {K : Type*}

/-- The time of the last sample, `t` if there is none. -/
def lastTime (t : K) (xs : List (K × K)) : K := (xs.map Prod.snd).getLastD t

/-- The samples are in order of time and not before `t`. -/
def Timely [LE K] (t : K) (xs : List (K × K)) : Prop := (t :: xs.map Prod.snd).IsChain (· ≤ ·)

@[simp] theorem lastTime_nil (t : K) : lastTime t [] = t := rfl

@[simp] theorem lastTime_cons (t : K) (x : K × K) (xs : List (K × K)) :
    lastTime t (x :: xs) = lastTime x.2 xs := by
  rw [lastTime, List.map_cons, List.getLastD_cons]
  rfl

theorem timely_nil [LE K] (t : K) : Timely t [] := List.IsChain.singleton t

theorem timely_cons [LE K] {t : K} {x : K × K} {xs : List (K × K)} :
    Timely t (x :: xs) ↔ t ≤ x.2 ∧ Timely x.2 xs := List.isChain_cons_cons

section Area

variable [CommRing K]

/-- The area when a value holds from its sample to the next one, `v` from the time `t` on. -/
def heldArea (v t : K) : List (K × K) → K
  | [] => 0
  | x :: xs => v * (x.2 - t) + heldArea x.1 x.2 xs

/-- The area when a value counts for the time before its sample, from the time `t` on. -/
def ledArea (t : K) : List (K × K) → K
  | [] => 0
  | x :: xs => x.1 * (x.2 - t) + ledArea x.2 xs

/-- The jumps of the values, each times the wait before it. -/
def jumpArea (v t : K) : List (K × K) → K
  | [] => 0
  | x :: xs => (x.1 - v) * (x.2 - t) + jumpArea x.1 x.2 xs

@[simp] theorem heldArea_nil (v t : K) : heldArea v t [] = 0 := rfl

@[simp] theorem heldArea_cons (v t : K) (x : K × K) (xs : List (K × K)) :
    heldArea v t (x :: xs) = v * (x.2 - t) + heldArea x.1 x.2 xs := rfl

@[simp] theorem ledArea_nil (t : K) : ledArea t [] = 0 := rfl

@[simp] theorem ledArea_cons (t : K) (x : K × K) (xs : List (K × K)) :
    ledArea t (x :: xs) = x.1 * (x.2 - t) + ledArea x.2 xs := rfl

/-- **The two areas differ by the jumps.** -/
theorem ledArea_eq (v t : K) (xs : List (K × K)) :
    ledArea t xs = heldArea v t xs + jumpArea v t xs := by
  induction xs generalizing v t with
  | nil => simp [jumpArea]
  | cons x xs ih =>
      rw [ledArea, heldArea, jumpArea, ih x.1 x.2]
      ring

variable [LinearOrder K] [IsStrictOrderedRing K]

/-- Values of at most `M` have an area of at most `M` times the time. -/
theorem heldArea_le {M v t : K} {xs : List (K × K)} (hv : v ≤ M) (hM : ∀ x ∈ xs, x.1 ≤ M)
    (h : Timely t xs) : heldArea v t xs ≤ M * (lastTime t xs - t) := by
  induction xs generalizing v t with
  | nil => simp
  | cons x xs ih =>
      obtain ⟨hle, hrest⟩ := timely_cons.mp h
      have htail := ih (hM x List.mem_cons_self) (fun y hy => hM y (List.mem_cons_of_mem _ hy)) hrest
      have hhead : v * (x.2 - t) ≤ M * (x.2 - t) := mul_le_mul_of_nonneg_right hv (sub_nonneg.mpr hle)
      calc heldArea v t (x :: xs)
          = v * (x.2 - t) + heldArea x.1 x.2 xs := rfl
        _ ≤ M * (x.2 - t) + M * (lastTime x.2 xs - x.2) := add_le_add hhead htail
        _ = M * (lastTime t (x :: xs) - t) := by rw [lastTime_cons]; ring

/-- Values of at least `m` have an area of at least `m` times the time. -/
theorem le_heldArea {m v t : K} {xs : List (K × K)} (hv : m ≤ v) (hm : ∀ x ∈ xs, m ≤ x.1)
    (h : Timely t xs) : m * (lastTime t xs - t) ≤ heldArea v t xs := by
  induction xs generalizing v t with
  | nil => simp
  | cons x xs ih =>
      obtain ⟨hle, hrest⟩ := timely_cons.mp h
      have htail := ih (hm x List.mem_cons_self) (fun y hy => hm y (List.mem_cons_of_mem _ hy)) hrest
      have hhead : m * (x.2 - t) ≤ v * (x.2 - t) := mul_le_mul_of_nonneg_right hv (sub_nonneg.mpr hle)
      calc m * (lastTime t (x :: xs) - t)
          = m * (x.2 - t) + m * (lastTime x.2 xs - x.2) := by rw [lastTime_cons]; ring
        _ ≤ v * (x.2 - t) + heldArea x.1 x.2 xs := add_le_add hhead htail
        _ = heldArea v t (x :: xs) := rfl

end Area

end FrameSync
