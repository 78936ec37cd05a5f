import FrameSync.Foundations.MersenneTwister
import Mathlib.Data.Int.Basic
import Mathlib.Data.Nat.Log

/-! # The module `random` of Python

What the simulation needs of it (`PyRandom`), and the generator that Python 2 has: `randint` multiplies
`random()` with the width of the range, as doubles. -/

namespace FrameSync.Client

/-- The module `random` of Python, over the states `γ` of its generator. -/
class PyRandom (γ : Type) where
  /-- `random.seed` -/
  seed : ℕ → γ
  /-- `random.randint` -/
  randint : ℤ → ℤ → γ → ℤ × γ
  /-- The range of `random.randint`. -/
  randint_mem : ∀ lo hi g, lo ≤ hi → lo ≤ (randint lo hi g).1 ∧ (randint lo hi g).1 ≤ hi

/-! ## A product of doubles -/

/-- The multiple of `2 ^ e` that is nearest to `p`, an even one where two are. -/
def roundEven (p e : ℕ) : ℕ :=
  if 2 * (p % 2 ^ e) < 2 ^ e ∨ 2 * (p % 2 ^ e) = 2 ^ e ∧ p / 2 ^ e % 2 = 0 then p / 2 ^ e * 2 ^ e
  else (p / 2 ^ e + 1) * 2 ^ e

/-- The product of two doubles with 53 bits each, in the unit of the first. -/
def mulDouble (k width : ℕ) : ℕ := roundEven (k * width) ((k * width).log2 - 52)

/-- **A double below 1 times `width` is below `width`**, also when it is rounded. -/
theorem mulDouble_lt {k width : ℕ} (hk : k < 2 ^ 53) (hpos : 0 < width) :
    mulDouble k width < width * 2 ^ 53 := by
  have hgap : k * width + width ≤ width * 2 ^ 53 := by
    rw [← Nat.succ_mul, Nat.mul_comm]
    exact Nat.mul_le_mul_left width hk
  rw [mulDouble]
  generalize he : (k * width).log2 - 52 = e
  generalize hp : k * width = p at he hgap
  have hdiv : p / 2 ^ e * 2 ^ e + p % 2 ^ e = p := Nat.div_add_mod' p (2 ^ e)
  rw [roundEven]
  split_ifs with hdown
  · omega
  · have hup : 2 ^ e ≤ 2 * (p % 2 ^ e) := by
      by_contra hlt
      exact hdown (Or.inl (Nat.lt_of_not_le hlt))
    have hpow := Nat.two_pow_pos e
    -- what is rounded up has more than 53 bits
    have hpne : p ≠ 0 := by
      rintro rfl
      rw [Nat.zero_mod] at hup
      omega
    have hepos : 0 < e := by
      by_contra hzero
      obtain rfl : e = 0 := by omega
      rw [Nat.pow_zero, Nat.mod_one] at hup
      omega
    have hle : 2 ^ 52 * 2 ^ e ≤ p := by
      rw [← Nat.pow_add, show 52 + e = p.log2 by omega]
      exact Nat.log2_self_le hpne
    -- so it is farther from `width` than it can be moved
    rw [Nat.succ_mul]
    omega

/-- `random.randint` of Python 2: `lo + int(random() * width)`. For a range of `2^53` numbers or more, which
the simulation never draws from, Python has another way, and the product is exact here. -/
def randint (lo hi : ℤ) (g : MersenneTwister) : ℤ × MersenneTwister :=
  let (k, g) := g.random
  let width := (hi + 1 - lo).toNat
  (lo + (((if width < 2 ^ 53 then mulDouble k width else k * width) / 2 ^ 53 : ℕ) : ℤ), g)

instance : PyRandom MersenneTwister where
  seed := MersenneTwister.seed
  randint := randint
  randint_mem := by
    intro lo hi g h
    have hdraw := g.random_lt
    obtain ⟨width, hwidth⟩ : ∃ width : ℕ, hi + 1 - lo = width := ⟨(hi + 1 - lo).toNat, by omega⟩
    have hlt : (if width < 2 ^ 53 then mulDouble g.random.1 width else g.random.1 * width) < width * 2 ^ 53 := by
      split_ifs with hsmall
      · exact mulDouble_lt hdraw (by omega)
      · rw [Nat.mul_comm]
        exact Nat.mul_lt_mul_of_pos_left hdraw (by omega)
    have hdiv := Nat.div_lt_of_lt_mul (Nat.mul_comm width _ ▸ hlt)
    rw [show (randint lo hi g).1 = lo + (((if width < 2 ^ 53 then mulDouble g.random.1 width
      else g.random.1 * width) / 2 ^ 53 : ℕ) : ℤ) by rw [randint, hwidth, Int.toNat_natCast]]
    omega

end FrameSync.Client
