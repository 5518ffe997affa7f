import Mathlib.Data.Rat.Floor
import Mathlib.Tactic.Linarith
import Mathlib.Tactic.Positivity

/-!
# Floating-Point Sums

Sums as a machine with 53-bit significands makes them: the exact sum, rounded to
the nearest number it can hold, and to the even one of two that are as near.

A number is held as a whole number of steps, at most `2 ^ 53` of them, and a
step is a power of two. In units of the smallest positive number the steps are
`1`, `2`, `4` and so on, so the rounding is first defined on rational numbers
that count such units (`nearest`), and `fl` is that in the end. The negative
exponents are those of `binary64`; there is no largest number here, which is
right for sums that stay away from it.

What is rounded keeps its order, and what can be held is left as it is. So a sum
is more than its first summand exactly when the second outweighs half a step of
the first (`lt_fl_add_iff`).

## Main definitions

* `roundEven`: The nearest whole number.
* `Significant`, `step`, `nearest`: What can be held, in units of the smallest
  positive number, and the rounding to it.
* `fl`, `IsFloat`, `gap`: The same for numbers.
* `Outweighs`: More than half a step.

## Theorems

* `abs_sub_nearest_le`: Nothing that can be held is nearer.
* `fl_mono`: Rounding keeps the order.
* `fl_eq`: It leaves alone what can be held.
* `lt_fl_add_iff`: When a sum is more than its first summand.
-/

namespace Smbpal

namespace Lib

/-- The nearest whole number, and of two the even one. -/
def roundEven (x : Rat) : Int :=
  if Int.fract x < 1 / 2 then ⌊x⌋
  else if 1 / 2 < Int.fract x then ⌊x⌋ + 1
  else if ⌊x⌋ % 2 = 0 then ⌊x⌋
  else ⌊x⌋ + 1

/-- What can be held with 53 binary digits, and steps of one or more. -/
def Significant (x : Rat) : Prop :=
  ∃ m : Int, ∃ k : Nat, |m| ≤ 2 ^ 53 ∧ x = m * 2 ^ k

/-- The step of the numbers around this one. -/
def step (x : Rat) : Rat :=
  2 ^ (Nat.log2 ⌊|x|⌋₊ - 52)

/-- The nearest number that can be held. -/
def nearest (x : Rat) : Rat :=
  roundEven (x / step x) * step x

section Rounding

variable {x y z : Rat}

theorem abs_sub_roundEven_le (x : Rat) : |x - roundEven x| ≤ 1 / 2 := by
  have hsplit : x = ⌊x⌋ + Int.fract x := (Int.floor_add_fract x).symm
  have hnonneg := Int.fract_nonneg x
  have hlt := Int.fract_lt_one x
  rw [abs_le]
  unfold roundEven
  split_ifs
  · constructor <;> linarith
  · push_cast
    constructor <;> linarith
  · constructor <;> linarith
  · push_cast
    constructor <;> linarith

/-- No whole number is nearer. -/
theorem abs_sub_roundEven_le_of_int (x : Rat) (n : Int) : |x - roundEven x| ≤ |x - n| := by
  by_cases heq : n = roundEven x
  · rw [heq]
  · have hhalf := abs_sub_roundEven_le x
    have happart : (1 : Rat) ≤ |(roundEven x : Rat) - n| := by
      have hne : roundEven x - n ≠ 0 := sub_ne_zero.mpr fun h => heq h.symm
      exact_mod_cast Int.one_le_abs hne
    have htriangle : |(roundEven x : Rat) - n| ≤ |x - roundEven x| + |x - n| := by
      have hsub : (roundEven x : Rat) - n = (x - n) - (x - roundEven x) := by ring
      rw [hsub, add_comm]
      exact abs_sub _ _
    linarith

theorem step_pos (x : Rat) : 0 < step x := by
  unfold step
  positivity

/-- Less than all steps of a size fit below a number. -/
theorem abs_lt_steps (x : Rat) : |x| < 2 ^ 53 * step x := by
  have hfloor : |x| < (⌊|x|⌋₊ : Rat) + 1 := Nat.lt_floor_add_one _
  have hlog : ⌊|x|⌋₊ + 1 ≤ 2 ^ (Nat.log2 ⌊|x|⌋₊ + 1) := Nat.lt_log2_self
  have hpower : 2 ^ (Nat.log2 ⌊|x|⌋₊ + 1) ≤ 2 ^ (53 + (Nat.log2 ⌊|x|⌋₊ - 52)) :=
    Nat.pow_le_pow_right (by decide) (by omega)
  have hcast : ((⌊|x|⌋₊ + 1 : Nat) : Rat) ≤ ((2 ^ (53 + (Nat.log2 ⌊|x|⌋₊ - 52)) : Nat) : Rat) :=
    Nat.cast_le.mpr (hlog.trans hpower)
  push_cast at hcast
  unfold step
  rw [← pow_add]
  linarith

/-- The steps are whole, or the number is at least half of all of a size. -/
theorem step_cases (x : Rat) : step x = 1 ∨ 2 ^ 52 * step x ≤ |x| := by
  by_cases hlog : Nat.log2 ⌊|x|⌋₊ ≤ 52
  · left
    unfold step
    rw [Nat.sub_eq_zero_of_le hlog, pow_zero]
  · right
    have hne : ⌊|x|⌋₊ ≠ 0 := fun h => hlog (by rw [h]; decide)
    have hle : 2 ^ Nat.log2 ⌊|x|⌋₊ ≤ ⌊|x|⌋₊ := Nat.log2_self_le hne
    have hfloor : (⌊|x|⌋₊ : Rat) ≤ |x| := Nat.floor_le (abs_nonneg x)
    have hcast : ((2 ^ Nat.log2 ⌊|x|⌋₊ : Nat) : Rat) ≤ (⌊|x|⌋₊ : Rat) := Nat.cast_le.mpr hle
    push_cast at hcast
    unfold step
    rw [← pow_add, show 52 + (Nat.log2 ⌊|x|⌋₊ - 52) = Nat.log2 ⌊|x|⌋₊ by omega]
    linarith

/-- What is held and is large enough is a whole number of steps. -/
theorem whole_of_le (hz : Significant z) (j : Nat) (hle : 2 ^ 52 * 2 ^ j ≤ |z|) :
    ∃ n : Int, z = n * 2 ^ j := by
  rcases hz with ⟨m, k, hm, rfl⟩
  by_cases hjk : j ≤ k
  · refine ⟨m * 2 ^ (k - j), ?_⟩
    push_cast
    rw [mul_assoc, ← pow_add, Nat.sub_add_cancel hjk]
  · -- only the largest significand reaches up there from a smaller step
    have habs : |(m : Rat) * 2 ^ k| = |(m : Rat)| * 2 ^ k := by
      rw [abs_mul, abs_of_pos (by positivity : (0 : Rat) < 2 ^ k)]
    have hmcast : |(m : Rat)| ≤ 2 ^ 53 := by exact_mod_cast hm
    have hpow : (2 : Rat) ^ j = 2 ^ (j - k - 1) * (2 * 2 ^ k) := by
      rw [← pow_succ', ← pow_add]
      congr 1
      omega
    have hone : (1 : Rat) ≤ 2 ^ (j - k - 1) := one_le_pow₀ (by norm_num)
    have hk : (0 : Rat) < 2 ^ k := by positivity
    rw [habs, hpow] at hle
    have hfull : (2 : Rat) ^ 53 * 2 ^ (j - k - 1) ≤ |(m : Rat)| := by
      have hscaled : (2 : Rat) ^ 53 * 2 ^ (j - k - 1) * 2 ^ k ≤ |(m : Rat)| * 2 ^ k := by
        calc (2 : Rat) ^ 53 * 2 ^ (j - k - 1) * 2 ^ k
            = 2 ^ 52 * (2 ^ (j - k - 1) * (2 * 2 ^ k)) := by ring
          _ ≤ |(m : Rat)| * 2 ^ k := hle
      exact le_of_mul_le_mul_right hscaled hk
    have hsingle : (2 : Rat) ^ (j - k - 1) = 1 := by
      have h53 : (0 : Rat) < 2 ^ 53 := by positivity
      nlinarith
    rw [hsingle, one_mul] at hpow
    have heq : |(m : Rat)| = 2 ^ 53 := le_antisymm hmcast
      (by rw [hsingle, mul_one] at hfull; exact hfull)
    rcases abs_eq (by positivity : (0 : Rat) ≤ 2 ^ 53) |>.mp heq with hpos | hneg
    · exact ⟨2 ^ 52, by rw [hpos, hpow]; push_cast; ring⟩
    · exact ⟨-2 ^ 52, by rw [hneg, hpow]; push_cast; ring⟩

/-- What is held is a whole number of the steps around it. -/
theorem whole_steps (hz : Significant z) : ∃ n : Int, z = n * step z := by
  rcases step_cases z with hone | hle
  · rcases hz with ⟨m, k, -, rfl⟩
    refine ⟨m * 2 ^ k, ?_⟩
    rw [hone, mul_one]
    push_cast
    rfl
  · exact whole_of_le hz _ hle

/-- What is nearest can be held. -/
theorem significant_nearest (x : Rat) : Significant (nearest x) := by
  refine ⟨roundEven (x / step x), Nat.log2 ⌊|x|⌋₊ - 52, ?_, rfl⟩
  have hpos := step_pos x
  have hlt : |x / step x| < 2 ^ 53 := by
    rw [abs_div, abs_of_pos hpos, div_lt_iff₀ hpos]
    exact abs_lt_steps x
  have hnear := abs_sub_roundEven_le (x / step x)
  have hround : |(roundEven (x / step x) : Rat)| < 2 ^ 53 + 1 := by
    have htriangle : |(roundEven (x / step x) : Rat)| ≤
        |x / step x| + |x / step x - roundEven (x / step x)| := by
      have hsub : (roundEven (x / step x) : Rat) =
          x / step x - (x / step x - roundEven (x / step x)) := by ring
      calc |(roundEven (x / step x) : Rat)|
          = |x / step x - (x / step x - roundEven (x / step x))| := by rw [← hsub]
        _ ≤ |x / step x| + |x / step x - roundEven (x / step x)| := abs_sub _ _
    linarith
  have hint : |roundEven (x / step x)| < 2 ^ 53 + 1 := by exact_mod_cast hround
  omega

/-- No whole number of steps is nearer. -/
theorem abs_sub_nearest_le_steps (x : Rat) (n : Int) :
    |x - nearest x| ≤ |x - n * step x| := by
  have hpos := step_pos x
  have hscale : ∀ k : Int, |x - k * step x| = |x / step x - k| * step x := by
    intro k
    rw [← abs_of_pos hpos, ← abs_mul, abs_of_pos hpos, sub_mul, div_mul_cancel₀ _ hpos.ne']
  unfold nearest
  rw [hscale, hscale]
  exact mul_le_mul_of_nonneg_right (abs_sub_roundEven_le_of_int _ n) hpos.le

/-- Nothing that can be held is nearer. -/
theorem abs_sub_nearest_le (x : Rat) (hz : Significant z) : |x - nearest x| ≤ |x - z| := by
  rcases step_cases x with hone | hlarge
  · rcases hz with ⟨m, k, -, rfl⟩
    have h := abs_sub_nearest_le_steps x (m * 2 ^ k)
    rw [hone, mul_one] at h
    push_cast at h
    exact h
  · by_cases hle : 2 ^ 52 * step x ≤ |z|
    · rcases whole_of_le hz _ hle with ⟨n, rfl⟩
      exact abs_sub_nearest_le_steps x n
    · -- between the two is a whole number of steps
      have hapart : |x| - |z| ≤ |x - z| := abs_sub_abs_le_abs_sub x z
      rcases le_total 0 x with hx | hx
      · have hcast : ((2 ^ 52 : Int) : Rat) = 2 ^ 52 := by norm_num
        have h := abs_sub_nearest_le_steps x (2 ^ 52)
        rw [abs_of_nonneg hx] at hlarge hapart
        rw [hcast, abs_of_nonneg (by linarith : 0 ≤ x - 2 ^ 52 * step x)] at h
        linarith
      · have hcast : ((-2 ^ 52 : Int) : Rat) = -2 ^ 52 := by norm_num
        have h := abs_sub_nearest_le_steps x (-2 ^ 52)
        rw [abs_of_nonpos hx] at hlarge hapart
        rw [hcast, abs_of_nonpos (by linarith : x - -2 ^ 52 * step x ≤ 0)] at h
        linarith

theorem nearest_eq (hz : Significant z) : nearest z = z := by
  have h := abs_sub_nearest_le z hz
  rw [sub_self, abs_zero] at h
  exact (sub_eq_zero.mp (abs_nonpos_iff.mp h)).symm

/-- Rounding keeps the order. -/
theorem nearest_mono (h : x ≤ y) : nearest x ≤ nearest y := by
  by_contra hlt
  rw [not_le] at hlt
  have hx := abs_sub_nearest_le x (significant_nearest y)
  have hy := abs_sub_nearest_le y (significant_nearest x)
  -- the one that is rounded up lies above the middle, the other below it
  have habove : nearest x + nearest y ≤ 2 * x := by
    rcases abs_cases (x - nearest x) with ⟨h₁, _⟩ | ⟨h₁, _⟩ <;>
      rcases abs_cases (x - nearest y) with ⟨h₂, _⟩ | ⟨h₂, _⟩ <;> linarith
  have hbelow : 2 * y ≤ nearest x + nearest y := by
    rcases abs_cases (y - nearest y) with ⟨h₁, _⟩ | ⟨h₁, _⟩ <;>
      rcases abs_cases (y - nearest x) with ⟨h₂, _⟩ | ⟨h₂, _⟩ <;> linarith
  have heq : x = y := by linarith
  rw [heq] at hlt
  exact lt_irrefl _ hlt

theorem roundEven_add (n : Int) {t : Rat} (hnonneg : 0 ≤ t) (hlt : t < 1) :
    roundEven (n + t) = if t < 1 / 2 then n else if 1 / 2 < t then n + 1
      else if n % 2 = 0 then n else n + 1 := by
  have hfloor : ⌊t⌋ = 0 := Int.floor_eq_zero_iff.mpr ⟨hnonneg, hlt⟩
  have hfract : Int.fract t = t := Int.fract_eq_self.mpr ⟨hnonneg, hlt⟩
  unfold roundEven
  rw [Int.fract_intCast_add, Int.floor_intCast_add, hfract, hfloor, add_zero]

/-- More than half a step, or half a step to an even number. -/
def Tips (x d : Rat) : Prop :=
  step x / 2 < d ∨ d = step x / 2 ∧ ⌊x / step x⌋ % 2 = 1

/-- Less than a step further the steps are the same. -/
theorem step_add {d : Rat} (hz : Significant z) (hpos : 0 ≤ z) (hd : 0 ≤ d) (hlt : d < step z) :
    step (z + d) = step z := by
  rcases whole_steps hz with ⟨n, hn⟩
  have hnonneg : 0 ≤ n := by
    by_contra hneg
    have hcast : (n : Rat) ≤ -1 := by exact_mod_cast (by omega : n ≤ -1)
    have := step_pos z
    nlinarith
  rcases Int.eq_ofNat_of_zero_le hnonneg with ⟨k, rfl⟩
  rcases (⟨_, rfl⟩ : ∃ j, j = Nat.log2 ⌊z⌋₊ - 52) with ⟨j, hj⟩
  have hstep : step z = 2 ^ j := by
    unfold step
    rw [abs_of_nonneg hpos, hj]
  rw [hstep] at hn hlt
  -- the number is whole, and so is its step
  have hwhole : z = ((k * 2 ^ j : Nat) : Rat) := by
    rw [hn]
    push_cast
    rfl
  have hfloor : ⌊z⌋₊ = k * 2 ^ j := by
    rw [hwhole]
    exact Nat.floor_natCast _
  have hnext : ⌊z + d⌋₊ < (k + 1) * 2 ^ j := by
    rw [Nat.floor_lt (by linarith), hwhole]
    push_cast
    linarith
  have hmono : ⌊z⌋₊ ≤ ⌊z + d⌋₊ := Nat.floor_le_floor (by linarith)
  have hsteps : step (z + d) = 2 ^ (Nat.log2 ⌊z + d⌋₊ - 52) := by
    unfold step
    rw [abs_of_nonneg (by linarith : 0 ≤ z + d)]
  rw [hsteps, hstep]
  by_cases hlog : Nat.log2 ⌊z⌋₊ ≤ 52
  · have hzero : j = 0 := by omega
    rw [hzero, pow_zero, mul_one] at hnext hfloor
    rw [show ⌊z + d⌋₊ = ⌊z⌋₊ by omega, ← hj]
  · -- below the next size there is room for one more step
    have hne : ⌊z⌋₊ ≠ 0 := fun h => hlog (by rw [h]; decide)
    have hsize : 2 ^ (Nat.log2 ⌊z⌋₊ + 1) = 2 ^ 53 * 2 ^ j := by
      rw [← pow_add]
      congr 1
      omega
    have hbelow : k * 2 ^ j < 2 ^ 53 * 2 ^ j := by
      rw [← hfloor, ← hsize]
      exact Nat.lt_log2_self
    have hk : k + 1 ≤ 2 ^ 53 := Nat.lt_of_mul_lt_mul_right hbelow
    have hroom : (k + 1) * 2 ^ j ≤ 2 ^ (Nat.log2 ⌊z⌋₊ + 1) := by
      rw [hsize]
      exact Nat.mul_le_mul_right _ hk
    have hsame : Nat.log2 ⌊z + d⌋₊ = Nat.log2 ⌊z⌋₊ :=
      (Nat.log2_eq_iff (by omega)).mpr
        ⟨(Nat.log2_self_le hne).trans hmono, hnext.trans_le hroom⟩
    rw [hsame, ← hj]

/-- One step further is what can be held next. -/
theorem significant_add_step (hz : Significant z) (hpos : 0 ≤ z) : Significant (z + step z) := by
  rcases whole_steps hz with ⟨n, hn⟩
  refine ⟨n + 1, Nat.log2 ⌊|z|⌋₊ - 52, ?_, ?_⟩
  · have hstep := step_pos z
    have hlt := abs_lt_steps z
    rw [abs_of_nonneg hpos] at hlt
    have hupper : (n : Rat) < 2 ^ 53 :=
      lt_of_mul_lt_mul_right (lt_of_eq_of_lt hn.symm hlt) hstep.le
    have hlower : (0 : Rat) ≤ n := nonneg_of_mul_nonneg_left (le_of_le_of_eq hpos hn) hstep
    have hu : n < 2 ^ 53 := by exact_mod_cast hupper
    have hl : 0 ≤ n := by exact_mod_cast hlower
    rw [abs_of_nonneg (by omega)]
    omega
  · push_cast
    rw [add_mul, one_mul]
    exact congrArg (· + step z) hn

/-- A sum is rounded to more than what is added to exactly when what is added
    tips it over. -/
theorem lt_nearest_add_iff {d : Rat} (hz : Significant z) (hpos : 0 ≤ z) :
    z < nearest (z + d) ↔ Tips z d := by
  have hstep := step_pos z
  rcases whole_steps hz with ⟨n, hn⟩
  have hquotient : z / step z = n := by
    rw [div_eq_iff hstep.ne']
    exact hn
  have hfloor : ⌊z / step z⌋ = n := by
    rw [hquotient]
    exact Int.floor_intCast n
  unfold Tips
  rw [hfloor]
  by_cases hneg : d < 0
  · -- Adding less than nothing never goes up.
    have hle : nearest (z + d) ≤ z := by
      conv_rhs => rw [← nearest_eq hz]
      exact nearest_mono (by linarith)
    constructor
    · exact fun h => absurd h (not_lt.mpr hle)
    · rintro (h | ⟨h, -⟩) <;> linarith
  · rw [not_lt] at hneg
    by_cases hlarge : step z ≤ d
    · -- A whole step leads to a float, so at least that one is reached.
      have hle : z + step z ≤ nearest (z + d) := by
        conv_lhs => rw [← nearest_eq (significant_add_step hz hpos)]
        exact nearest_mono (by linarith)
      exact ⟨fun _ => Or.inl (by linarith), fun _ => by linarith⟩
    · -- Less than a step: it is rounded to one of two neighbours.
      rw [not_le] at hlarge
      have hsplit : (z + d) / step z = n + d / step z := by rw [add_div, hquotient]
      have hround : nearest (z + d) = roundEven (n + d / step z) * step z := by
        unfold nearest
        rw [step_add hz hpos hneg hlarge, hsplit]
      have hless : d / step z < 1 := (div_lt_one hstep).mpr hlarge
      have hhalf : ∀ t : Rat, d / step z < t ↔ d < t * step z := fun t => div_lt_iff₀ hstep
      have hhalf' : (1 / 2 : Rat) < d / step z ↔ 1 / 2 * step z < d := lt_div_iff₀ hstep
      rw [hround, roundEven_add n (div_nonneg hneg hstep.le) hless]
      have hup : z < ((n + 1 : Int) : Rat) * step z := by
        push_cast
        rw [add_mul, one_mul, ← hn]
        linarith
      have hstay : ¬z < (n : Rat) * step z := by
        rw [← hn]
        exact lt_irrefl z
      split_ifs with hlow hhigh heven
      · -- Less than half a step is rounded down.
        rw [hhalf] at hlow
        refine ⟨fun h => absurd h hstay, ?_⟩
        rintro (h | ⟨h, -⟩) <;> linarith
      · -- More than half a step is rounded up.
        rw [hhalf'] at hhigh
        exact ⟨fun _ => Or.inl (by linarith), fun _ => hup⟩
      · -- Half a step goes to the even neighbour, here the lower one.
        rw [hhalf'] at hhigh
        refine ⟨fun h => absurd h hstay, ?_⟩
        rintro (h | ⟨-, h⟩)
        · exact absurd (by linarith) hhigh
        · omega
      · -- Half a step goes to the even neighbour, here the upper one.
        rw [hhalf] at hlow
        rw [hhalf'] at hhigh
        exact ⟨fun _ => Or.inr ⟨by linarith, by omega⟩, fun _ => hup⟩

end Rounding

/-! ### Numbers -/

/-- The smallest positive number. -/
def smallest : Rat :=
  1 / 2 ^ 1074

/-- What can be held. -/
def IsFloat (x : Rat) : Prop :=
  Significant (x / smallest)

/-- What a sum or a product is rounded to. -/
def fl (x : Rat) : Rat :=
  nearest (x / smallest) * smallest

/-- The distance to the next larger number, of one that is not negative. -/
def gap (x : Rat) : Rat :=
  step (x / smallest) * smallest

/-- Adding this to the number gives more than the number: it is more than half
    the distance to the next one, or just half where the next one is even. -/
def Outweighs (d x : Rat) : Prop :=
  gap x / 2 < d ∨ d = gap x / 2 ∧ ⌊x / gap x⌋ % 2 = 1

section Numbers

variable {x y d : Rat}

theorem smallest_pos : 0 < smallest := by
  unfold smallest
  positivity

theorem smallest_lt_one : smallest < 1 := by
  unfold smallest
  rw [div_lt_one (by positivity)]
  exact one_lt_pow₀ (by norm_num) (by norm_num)

/-- Rounding keeps the order. -/
theorem fl_mono (h : x ≤ y) : fl x ≤ fl y :=
  mul_le_mul_of_nonneg_right
    (nearest_mono (div_le_div_of_nonneg_right h smallest_pos.le)) smallest_pos.le

/-- What can be held is left as it is. -/
theorem fl_eq (h : IsFloat x) : fl x = x := by
  unfold fl
  rw [nearest_eq h, div_mul_cancel₀ _ smallest_pos.ne']

/-- A float can be doubled. -/
theorem isFloat_mul_pow (h : IsFloat x) (n : Nat) : IsFloat (x * 2 ^ n) := by
  rcases h with ⟨m, k, hm, hx⟩
  refine ⟨m, k + n, hm, ?_⟩
  rw [mul_div_right_comm, hx, pow_add, mul_assoc]

theorem isFloat_natCast {n : Nat} (h : n ≤ 2 ^ 53) : IsFloat n := by
  refine ⟨n, 1074, ?_, ?_⟩
  · rw [abs_of_nonneg (Int.natCast_nonneg n)]
    exact_mod_cast h
  unfold smallest
  rw [div_div_eq_mul_div, div_one]
  rfl

/-- A sum is more than its first summand exactly when the second outweighs it. -/
theorem lt_fl_add_iff (hx : IsFloat x) (hpos : 0 ≤ x) : x < fl (x + d) ↔ Outweighs d x := by
  have hsmall := smallest_pos
  have hscaled := @lt_nearest_add_iff (x / smallest) (d / smallest) hx
    (div_nonneg hpos hsmall.le)
  have hfl : x < fl (x + d) ↔ x / smallest < nearest (x / smallest + d / smallest) := by
    unfold fl
    rw [add_div, div_lt_iff₀ hsmall]
  have hquotient : x / gap x = x / smallest / step (x / smallest) := by
    unfold gap
    rw [div_div, mul_comm]
  rw [hfl, hscaled]
  unfold Tips Outweighs
  rw [hquotient]
  have hlt : step (x / smallest) / 2 < d / smallest ↔ gap x / 2 < d := by
    unfold gap
    rw [lt_div_iff₀ hsmall, div_mul_eq_mul_div]
  have heq : d / smallest = step (x / smallest) / 2 ↔ d = gap x / 2 := by
    unfold gap
    rw [div_eq_iff hsmall.ne', div_mul_eq_mul_div]
  rw [hlt, heq]

/-- The numbers are close together: what is more than a number's `2 ^ 53`rd part outweighs it. -/
theorem outweighs_of_lt (hsmall : smallest < d) (h : |x| / 2 ^ 53 < d) : Outweighs d x := by
  have hpos := smallest_pos
  refine Or.inl ?_
  unfold gap
  rcases step_cases (x / smallest) with hone | hle
  · rw [hone]
    linarith
  · rw [abs_div, abs_of_pos hpos, le_div_iff₀ hpos] at hle
    have hsplit : |x| / 2 ^ 53 = |x| / 2 ^ 52 / 2 := by ring
    have hgap : step (x / smallest) * smallest ≤ |x| / 2 ^ 52 := by
      rw [le_div_iff₀ (by positivity)]
      linarith
    linarith

theorem Outweighs.mono {d' : Rat} (h : Outweighs d x) (hle : d ≤ d') : Outweighs d' x := by
  rcases h with h | ⟨h, hodd⟩
  · exact Or.inl (h.trans_le hle)
  · rcases eq_or_lt_of_le hle with heq | hlt
    · exact Or.inr ⟨heq ▸ h, hodd⟩
    · exact Or.inl (h ▸ hlt)

end Numbers

end Lib

end Smbpal
