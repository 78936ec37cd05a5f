import Mathlib.Algebra.Group.Nat.Defs
import Mathlib.Data.List.Basic
import Mathlib.Tactic.Common

/-! # The Mersenne Twister

MT19937 as CPython has it (`_randommodule.c`): 624 words of 32 bits, seeded from an array of words and
renewed all at once when they are used up. A word is a natural number, and what `uint32_t` cuts off is
cut off by `%`. `random` gives the 53 bits of a double below 1. -/

namespace FrameSync

/-- The state of the generator. -/
structure MersenneTwister where
  /-- The words of this round. -/
  words : List ℕ
  /-- Those of them that are not used yet. -/
  rest : List ℕ
  deriving DecidableEq

namespace MersenneTwister

/-! ## Seeding -/

/-- `init_genrand`: `n` words, from the word `s` at the position `i` on. -/
def initGenrand : ℕ → ℕ → ℕ → List ℕ
  | 0, _, _ => []
  | n + 1, i, s => s :: initGenrand n (i + 1) ((1812433253 * (s ^^^ (s >>> 30)) + (i + 1)) % 2 ^ 32)

/-- A word, mixed with the one before it. -/
def mix (factor prev w : ℕ) : ℕ := w ^^^ ((prev ^^^ (prev >>> 30)) * factor)

/-- The turn `n` of the first loop of `init_by_array`. -/
def keyWord (key : List ℕ) (n prev w : ℕ) : ℕ :=
  (mix 1664525 prev w + key.getD (n % key.length) 0 + n % key.length) % 2 ^ 32

/-- A turn of the second loop of `init_by_array`, at the position `i`. -/
def indexWord (i prev w : ℕ) : ℕ := (mix 1566083941 prev w + (2 ^ 32 - i)) % 2 ^ 32

/-- A loop over words, each of which needs the new one before it. -/
def mixAll (f : ℕ → ℕ → ℕ → ℕ) : ℕ → ℕ → List ℕ → List ℕ
  | _, _, [] => []
  | i, prev, w :: ws => f i prev w :: mixAll f (i + 1) (f i prev w) ws

/-- `init_by_array`, for a key of at most 624 words. The position 0 counts only as the word before the
position 1, where both loops come back to: the first for its last turn, the second for its last but one
round of the key. -/
def initByArray (key : List ℕ) : MersenneTwister :=
  let init := initGenrand 624 0 19650218
  let first := mixAll (keyWord key) 0 (init.headD 0) init.tail
  let w := keyWord key 623 (first.getLastD 0) (first.headD 0)
  let second := mixAll indexWord 2 w first.tail
  ⟨0x80000000 :: indexWord 1 (second.getLastD 0) w :: second, []⟩

/-- `random.seed` of a number of at most 64 bits. -/
def seed (s : ℕ) : MersenneTwister :=
  initByArray (if s < 2 ^ 32 then [s] else [s % 2 ^ 32, s / 2 ^ 32])

/-! ## Drawing -/

/-- A new word, from the old ones at its position and the next, and from the one 397 positions on. -/
def twistWord (u v w : ℕ) : ℕ :=
  w ^^^ (((u &&& 0x80000000) ||| (v &&& 0x7fffffff)) >>> 1) ^^^ (if v % 2 = 1 then 0x9908b0df else 0)

/-- The new words as far as those 397 positions on are known. -/
def twistAll : List ℕ → List ℕ → List ℕ
  | u :: v :: us, w :: ws => twistWord u v w :: twistAll (v :: us) ws
  | _, _ => []

/-- A new round. From the position 227 on, the word 397 positions on is a new one. -/
def twist (mt : List ℕ) : List ℕ :=
  let a := twistAll mt (mt.drop 397)
  let b := twistAll (mt.drop 227) a
  let c := twistAll (mt.drop 454) b
  a ++ b ++ c ++ [twistWord (mt.getD 623 0) (a.headD 0) (b.getD 169 0)]

/-- The end of `genrand_int32`. -/
def temper (y : ℕ) : ℕ :=
  let y := y ^^^ (y >>> 11)
  let y := y ^^^ ((y <<< 7) &&& 0x9d2c5680)
  let y := y ^^^ ((y <<< 15) &&& 0xefc60000)
  (y ^^^ (y >>> 18)) % 2 ^ 32

/-- `genrand_int32` -/
def genrandInt32 (g : MersenneTwister) : ℕ × MersenneTwister :=
  match g.rest with
  | y :: rest => (temper y, ⟨g.words, rest⟩)
  | [] =>
      let words := twist g.words
      (temper (words.headD 0), ⟨words, words.tail⟩)

/-- `random.random()`, in units of `2^-53`. -/
def random (g : MersenneTwister) : ℕ × MersenneTwister :=
  let (a, g) := g.genrandInt32
  let (b, g) := g.genrandInt32
  ((a >>> 5) * 2 ^ 26 + (b >>> 6), g)

theorem genrandInt32_lt (g : MersenneTwister) : g.genrandInt32.1 < 2 ^ 32 := by
  rw [genrandInt32]
  split
  · exact Nat.mod_lt _ (Nat.two_pow_pos 32)
  · exact Nat.mod_lt _ (Nat.two_pow_pos 32)

/-- **What is drawn is below 1.** -/
theorem random_lt (g : MersenneTwister) : g.random.1 < 2 ^ 53 := by
  have ha := g.genrandInt32_lt
  have hb := g.genrandInt32.2.genrandInt32_lt
  show (g.genrandInt32.1 >>> 5) * 2 ^ 26 + (g.genrandInt32.2.genrandInt32.1 >>> 6) < 2 ^ 53
  rw [Nat.shiftRight_eq_div_pow, Nat.shiftRight_eq_div_pow]
  omega

end MersenneTwister

end FrameSync
