import TraceReplay.Decimal.Style
import TraceReplay.Proofs.Decimal.Nearest

/-!
# Written doubles are read back

The shortest digits of a double lie among the numbers that round to it: those with a hit do by the
test for a hit, and on the grid of 17 digits there is always one.  Neither trailing zeros nor the
notation change the number, so whatever the style, the literal of a finite double is read as that
double, to the bit.
-/

namespace TraceReplay.Decimal

open Binary64

/-! ## Digits -/

def Digits.value (d : Digits) : ℚ := d.digits * 10 ^ d.exponent

theorem Digits.strip_value (fuel : Nat) (d : Digits) : (d.strip fuel).value = d.value := by
  induction fuel generalizing d with
  | zero => rfl
  | succ fuel ih =>
    unfold Digits.strip
    split
    next hzero =>
      obtain ⟨k, hk⟩ := Nat.dvd_of_mod_eq_zero hzero.2
      rw [ih]
      simp only [value, hk, Nat.mul_div_cancel_left k (by decide : 0 < 10)]
      rw [zpow_add_one₀ (by norm_num)]
      push_cast
      ring
    next => rfl

theorem scaleFraction_div (num den : Nat) (shift : Int) :
    ((scaleFraction num den shift).1 : ℚ) / (scaleFraction num den shift).2 =
      num / den * 10 ^ shift :=
  scaled_div num den shift

theorem scaleFraction_pos (num : Nat) {den : Nat} (hden : 0 < den) (shift : Int) :
    0 < (scaleFraction num den shift).2 := by
  unfold scaleFraction
  split
  · exact hden
  · exact Nat.mul_pos hden (Nat.pow_pos (by decide))

/-! ## The decimal logarithm -/

theorem ten_pow_le_two_pow {g k : Nat} (hguess : 196 * g ≤ 59 * (k + 3)) :
    10 ^ g ≤ 10 * 2 ^ k := by
  have hpowers : (10 ^ g) ^ 59 ≤ (2 ^ (k + 3)) ^ 59 :=
    calc (10 ^ g) ^ 59 = (10 ^ 59) ^ g := Nat.pow_right_comm 10 g 59
      _ ≤ (2 ^ 196) ^ g := Nat.pow_le_pow_left (by norm_num) g
      _ = 2 ^ (196 * g) := (Nat.pow_mul ..).symm
      _ ≤ 2 ^ (59 * (k + 3)) := Nat.pow_le_pow_right (by decide) hguess
      _ = (2 ^ (k + 3)) ^ 59 := by ring
  calc 10 ^ g ≤ 2 ^ (k + 3) := (Nat.pow_le_pow_iff_left (by decide)).mp hpowers
    _ = 8 * 2 ^ k := by ring
    _ ≤ 10 * 2 ^ k := by omega

theorem two_pow_le_ten_pow {g k : Nat} (hguess : 28 * k ≤ 93 * (g + 1)) :
    2 ^ k ≤ 10 * 10 ^ g := by
  have hpowers : (2 ^ k) ^ 93 ≤ (10 ^ (g + 1)) ^ 93 :=
    calc (2 ^ k) ^ 93 = (2 ^ 93) ^ k := Nat.pow_right_comm 2 k 93
      _ ≤ (10 ^ 28) ^ k := Nat.pow_le_pow_left (by norm_num) k
      _ = 10 ^ (28 * k) := (Nat.pow_mul ..).symm
      _ ≤ 10 ^ (93 * (g + 1)) := Nat.pow_le_pow_right (by decide) hguess
      _ = (10 ^ (g + 1)) ^ 93 := by ring
  calc 2 ^ k ≤ 10 ^ (g + 1) := (Nat.pow_le_pow_iff_left (by decide)).mp hpowers
    _ = 10 * 10 ^ g := by ring

/-- For the binary logarithm of a double, the power of ten at the guess is at most ten times too
great. -/
theorem ten_pow_guess_le {e : Int} (hlow : -1074 ≤ e) (hhigh : e ≤ 1023) :
    (10 : ℚ) ^ Int.fdiv (e * 30103) 100000 ≤ 10 * 2 ^ e := by
  rw [Int.fdiv_eq_ediv_of_nonneg _ (by decide)]
  generalize hguess : e * 30103 / 100000 = guess
  rcases le_or_gt 0 e with hsign | hsign
  · obtain ⟨k, rfl⟩ := Int.eq_ofNat_of_zero_le hsign
    obtain ⟨g, rfl⟩ := Int.eq_ofNat_of_zero_le (a := guess) (by omega)
    rw [zpow_natCast, zpow_natCast]
    exact_mod_cast ten_pow_le_two_pow (g := g) (k := k) (by omega)
  · obtain ⟨k, hk⟩ := Int.eq_ofNat_of_zero_le (a := -e) (by omega)
    obtain ⟨g, hg⟩ := Int.eq_ofNat_of_zero_le (a := -guess) (by omega)
    have hcast : (2 : ℚ) ^ k ≤ 10 * 10 ^ g := by
      exact_mod_cast two_pow_le_ten_pow (g := g) (k := k) (by omega)
    rw [show e = -(k : Int) by omega, show guess = -(g : Int) by omega, zpow_neg, zpow_neg,
      zpow_natCast, zpow_natCast, ← div_eq_mul_inv, le_div_iff₀ (by positivity), inv_mul_eq_div,
      div_le_iff₀ (by positivity)]
    exact hcast

/-- The power of ten at the logarithm of a quotient is not above it. -/
theorem ten_pow_floorLog10_le {num den : Nat} (hnum : 0 < num) (hden : 0 < den)
    (hlow : -1074 ≤ floorLog2 num den) (hhigh : floorLog2 num den ≤ 1023) :
    (10 : ℚ) ^ floorLog10 num den ≤ num / den := by
  have hguess := ten_pow_guess_le hlow hhigh
  have hbinary := (floorLog2_bounds hnum hden).1
  generalize hg : Int.fdiv (floorLog2 num den * 30103) 100000 = guess at hguess
  have hpos : (0 : ℚ) < (scaleFraction num den (-guess)).2 := by
    exact_mod_cast scaleFraction_pos num hden _
  have hscaled := scaleFraction_div num den (-guess)
  rw [zpow_neg, ← div_eq_mul_inv] at hscaled
  have hten : (0 : ℚ) < 10 ^ guess := by positivity
  simp only [floorLog10, hg]
  split
  next =>
    rw [zpow_sub_one₀ (by norm_num), ← div_eq_mul_inv, div_le_iff₀ (by norm_num)]
    linarith
  next hless =>
    split
    next hmore =>
      have hcast : (10 : ℚ) * (scaleFraction num den (-guess)).2 ≤
          (scaleFraction num den (-guess)).1 := by exact_mod_cast hmore
      rw [← le_div_iff₀ hpos, hscaled, le_div_iff₀ hten] at hcast
      rw [zpow_add_one₀ (by norm_num)]
      linarith
    next =>
      have hcast : ((scaleFraction num den (-guess)).2 : ℚ) ≤
          (scaleFraction num den (-guess)).1 := by exact_mod_cast Nat.le_of_not_lt hless
      rwa [← one_le_div hpos, hscaled, one_le_div hten] at hcast

/-! ## Hits -/

/-- The number lies between the ends, at one of them only if they belong to the interval. -/
def Interval.Contains (interval : Interval) (v : ℚ) : Prop :=
  if interval.closed then
    interval.low * 2 ^ interval.exponent ≤ v ∧ v ≤ interval.high * 2 ^ interval.exponent
  else interval.low * 2 ^ interval.exponent < v ∧ v < interval.high * 2 ^ interval.exponent

theorem Interval.contains_of_between {interval : Interval} {v : ℚ}
    (hlow : interval.low * 2 ^ interval.exponent < v)
    (hhigh : v < interval.high * 2 ^ interval.exponent) : interval.Contains v := by
  unfold Interval.Contains
  split
  · exact ⟨hlow.le, hhigh.le⟩
  · exact ⟨hlow, hhigh⟩

/-- A quarter of the unit and one step of the grid, over a common denominator. -/
theorem grid_unit (exponent grid : Int) {quarter one scaled step : Nat}
    (hquarter : shiftFraction 1 1 exponent = (quarter, one))
    (hscaled : scaleFraction quarter one (-grid) = (scaled, step)) :
    0 < step ∧ ∃ r : ℚ, 0 < r ∧ scaled = r * 2 ^ exponent ∧ step = r * 10 ^ grid := by
  have hone := shiftFraction_pos 1 one_pos exponent
  have hshift := shiftFraction_div 1 1 exponent
  rw [hquarter] at hone hshift
  have hstep := scaleFraction_pos quarter hone (-grid)
  have hscale := scaleFraction_div quarter one (-grid)
  rw [hscaled] at hstep hscale
  have hpos : (0 : ℚ) < step := by exact_mod_cast hstep
  rw [hshift, Nat.cast_one, div_one, one_mul, div_eq_iff hpos.ne', zpow_neg] at hscale
  refine ⟨hstep, step / 10 ^ grid, by positivity, ?_, ?_⟩
  · rw [hscale]
    ring
  · rw [div_mul_cancel₀ _ (by positivity)]

/-- The neighbours of a value on a grid are tried, and if both are hits it is one of them. -/
theorem Interval.hit_eq (interval : Interval) (tie : Tie) (leading : Int) (count : Nat) :
    ∃ (inside : Nat → Bool) (below nearer : Nat),
      interval.hit tie leading count =
        (if inside below ∧ inside (below + 1) then some ⟨nearer, leading - count + 1⟩
        else if inside below then some ⟨below, leading - count + 1⟩
        else if inside (below + 1) then some ⟨below + 1, leading - count + 1⟩
        else none) ∧
      (nearer = below ∨ nearer = below + 1) ∧
      (∀ c : Nat, inside c = true ↔ interval.Contains ((c : ℚ) * 10 ^ (leading - count + 1))) ∧
      (below : ℚ) * 10 ^ (leading - count + 1) ≤ interval.value * 2 ^ interval.exponent ∧
      (interval.value : ℚ) * 2 ^ interval.exponent <
        (below + 1) * 10 ^ (leading - count + 1) := by
  unfold Interval.hit
  generalize leading - count + 1 = grid
  rcases hquarter : shiftFraction 1 1 interval.exponent with ⟨quarter, one⟩
  rcases hscaled : scaleFraction quarter one (-grid) with ⟨scaled, step⟩
  obtain ⟨hstep, r, hr, hunit, hgrid⟩ := grid_unit _ _ hquarter hscaled
  have hle (a c : Nat) : a * scaled ≤ c * step ↔
      (a : ℚ) * 2 ^ interval.exponent ≤ c * 10 ^ grid := by
    rw [← Nat.cast_le (α := ℚ), Nat.cast_mul, Nat.cast_mul, hunit, hgrid, mul_left_comm,
      mul_left_comm (c : ℚ), mul_le_mul_iff_right₀ hr]
  have hge (a c : Nat) : c * step ≤ a * scaled ↔
      (c : ℚ) * 10 ^ grid ≤ a * 2 ^ interval.exponent := by
    rw [← Nat.cast_le (α := ℚ), Nat.cast_mul, Nat.cast_mul, hunit, hgrid, mul_left_comm,
      mul_left_comm (a : ℚ), mul_le_mul_iff_right₀ hr]
  simp only [hscaled]
  refine ⟨fun c =>
    if interval.closed then interval.low * scaled ≤ c * step ∧ c * step ≤ interval.high * scaled
    else interval.low * scaled < c * step ∧ c * step < interval.high * scaled,
    interval.value * scaled / step, _, rfl, ?_, fun c => ?_, ?_, ?_⟩
  · cases tie <;> split_ifs <;> simp
  · unfold Interval.Contains
    split <;> simp [hle, hge, ← not_le]
  · exact (hge _ _).mp (Nat.div_mul_le_self _ _)
  · rw [← not_le]
    have habove : ¬(interval.value * scaled / step + 1) * step ≤ interval.value * scaled := by
      rw [Nat.not_le, Nat.mul_comm (_ + 1)]
      exact Nat.lt_mul_div_succ _ hstep
    rw [hge] at habove
    exact_mod_cast habove

/-- A hit lies in the interval; without one, neither neighbour on the grid does. -/
theorem Interval.hit_cases (interval : Interval) (tie : Tie) (leading : Int) (count : Nat) :
    (∃ d, interval.hit tie leading count = some d ∧ interval.Contains d.value) ∨
      interval.hit tie leading count = none ∧ ∃ below : ℚ,
        below ≤ interval.value * 2 ^ interval.exponent ∧
        interval.value * 2 ^ interval.exponent < below + 10 ^ (leading - count + 1) ∧
        ¬interval.Contains below ∧ ¬interval.Contains (below + 10 ^ (leading - count + 1)) := by
  obtain ⟨inside, below, nearer, hhit, hnearer, hinside, hbelow, habove⟩ :=
    interval.hit_eq tie leading count
  rw [hhit]
  have hnext : ((below : ℚ) + 1) * 10 ^ (leading - count + 1) =
      below * 10 ^ (leading - count + 1) + 10 ^ (leading - count + 1) := by ring
  split_ifs with hboth hfirst hsecond
  · refine .inl ⟨_, rfl, ?_⟩
    rcases hnearer with rfl | rfl
    · exact (hinside _).mp hboth.1
    · exact (hinside _).mp hboth.2
  · exact .inl ⟨_, rfl, (hinside _).mp hfirst⟩
  · exact .inl ⟨_, rfl, (hinside _).mp hsecond⟩
  · rw [hinside] at hfirst hsecond
    push_cast at hsecond
    rw [hnext] at hsecond habove
    exact .inr ⟨rfl, _, hbelow, habove, hfirst, hsecond⟩

/-! ## Shortest digits -/

variable {x : Binary64}

/-- The value is that of the double, and the ends are half a unit away, or a quarter of it. -/
theorem around_ends (hpos : 0 < x.mantissa) :
    (Interval.around x).value * 2 ^ (Interval.around x).exponent = x.magnitude ∧
    (Interval.around x).high * 2 ^ (Interval.around x).exponent =
      (x.mantissa + 1 / 2) * (2 : ℚ) ^ x.exponent ∧
    (Interval.around x).low * 2 ^ (Interval.around x).exponent =
      (x.mantissa - if x.mantissa = 2 ^ 52 ∧ -1074 < x.exponent then 1 / 4 else 1 / 2) *
        (2 : ℚ) ^ x.exponent := by
  have hquarter : (2 : ℚ) ^ (x.exponent - 2) = 2 ^ x.exponent / 4 := by
    rw [zpow_sub₀ two_ne_zero]
    norm_num
  unfold Interval.around magnitude
  simp only [hquarter]
  refine ⟨?_, ?_, ?_⟩
  · push_cast
    ring
  · push_cast
    ring
  · split_ifs <;> rw [Nat.cast_sub (by omega)] <;> push_cast <;> ring

theorem near_of_contains (hpos : 0 < x.mantissa) {v : ℚ}
    (hcontains : (Interval.around x).Contains v) : x.Near v := by
  obtain ⟨-, hhigh, hlow⟩ := around_ends hpos
  have hclosed : (Interval.around x).closed = true ↔ x.mantissa % 2 = 0 := by
    simp [Interval.around]
  have hunit : (0 : ℚ) < 2 ^ x.exponent := by positivity
  rw [Interval.Contains, hhigh, hlow] at hcontains
  have hhalf : (x.mantissa - 1 / 2) * (2 : ℚ) ^ x.exponent ≤
      (x.mantissa - if x.mantissa = 2 ^ 52 ∧ -1074 < x.exponent then 1 / 4 else 1 / 2) *
        (2 : ℚ) ^ x.exponent := by
    gcongr
    split_ifs <;> norm_num
  split at hcontains
  next heven =>
    rw [hclosed] at heven
    obtain ⟨hbelow, habove⟩ := hcontains
    refine ⟨hhalf.trans hbelow, habove, fun hodd => absurd hodd (by omega), fun hleast hless => ?_⟩
    rwa [if_pos ⟨hleast, hless⟩] at hbelow
  next =>
    obtain ⟨hbelow, habove⟩ := hcontains
    have hstrict := hhalf.trans_lt hbelow
    refine ⟨hstrict.le, habove.le, fun _ => ⟨hstrict, habove⟩, fun hleast hless => ?_⟩
    rw [if_pos ⟨hleast, hless⟩] at hbelow
    exact hbelow.le

/-- The double lies between the ends. -/
theorem magnitude_mem_around (hpos : 0 < x.mantissa) :
    (Interval.around x).low * 2 ^ (Interval.around x).exponent < x.magnitude ∧
      x.magnitude < (Interval.around x).high * 2 ^ (Interval.around x).exponent := by
  obtain ⟨-, hhigh, hlow⟩ := around_ends hpos
  have hunit : (0 : ℚ) < 2 ^ x.exponent := by positivity
  rw [hlow, hhigh]
  unfold magnitude
  constructor
  · gcongr
    split_ifs <;> linarith
  · gcongr
    linarith

/-- A step on the grid of 17 digits is a small part of the double. -/
theorem grid_step_le {leading : Int} (hleading : (10 : ℚ) ^ leading ≤ x.magnitude) :
    (10 : ℚ) ^ (leading - (17 : Nat) + 1) ≤ x.mantissa / 10 ^ 16 * 2 ^ x.exponent := by
  rw [show leading - (17 : Nat) + 1 = leading - 16 by push_cast; ring, zpow_sub₀ (by norm_num),
    div_mul_eq_mul_div]
  unfold magnitude at hleading
  gcongr
  norm_num

/-- On the grid of 17 digits there is a hit: its steps are so small that one of the neighbours
lies within half a unit, and above the least mantissa of 53 digits both do. -/
theorem exists_hit (hx : x.Canonical) (hpos : 0 < x.mantissa) (tie : Tie) {leading : Int}
    (hleading : (10 : ℚ) ^ leading ≤ x.magnitude) :
    ∃ d, (Interval.around x).hit tie leading 17 = some d := by
  rcases (Interval.around x).hit_cases tie leading 17 with
    ⟨d, hhit, -⟩ | ⟨-, below, hbelow, habove, hfirst, hsecond⟩
  · exact ⟨d, hhit⟩
  · exfalso
    obtain ⟨hvalue, hhigh, hlow⟩ := around_ends hpos
    obtain ⟨hover, hunder⟩ := magnitude_mem_around hpos
    have hunit : (0 : ℚ) < 2 ^ x.exponent := by positivity
    have hsmall := grid_step_le hleading
    rw [hvalue] at hbelow habove
    generalize (10 : ℚ) ^ (leading - (17 : Nat) + 1) = step at habove hsecond hsmall
    have hnext : x.magnitude + 2 ^ x.exponent / 2 ≤ below + step := by
      by_contra hless
      refine hsecond (Interval.contains_of_between (hover.trans habove) ?_)
      rw [hhigh]
      unfold magnitude at hless
      linarith
    by_cases hthin : x.mantissa = 2 ^ 52 ∧ -1074 < x.exponent
    · rw [hthin.1] at hsmall
      norm_num at hsmall
      linarith
    · have hlast : below ≤ x.magnitude - 2 ^ x.exponent / 2 := by
        by_contra hmore
        refine hfirst (Interval.contains_of_between ?_ (hbelow.trans_lt hunder))
        rw [hlow, if_neg hthin]
        unfold magnitude at hmore
        linarith
      have hmantissa : (x.mantissa : ℚ) / 10 ^ 16 * 2 ^ x.exponent ≤
          2 ^ 53 / 10 ^ 16 * 2 ^ x.exponent := by
        gcongr
        exact_mod_cast hx.mantissa_lt.le
      norm_num at hmantissa
      linarith

/-- The binary logarithms of doubles. -/
theorem floorLog2_mem (hx : x.Canonical) (hpos : 0 < x.mantissa) {num den : Nat} (hden : 0 < den)
    (hvalue : (num / den : ℚ) = x.magnitude) :
    0 < num ∧ -1074 ≤ floorLog2 num den ∧ floorLog2 num den ≤ 1023 := by
  have hone : (1 : ℚ) ≤ x.mantissa := by exact_mod_cast hpos
  have hlow : (2 : ℚ) ^ (-1074 : Int) ≤ x.magnitude :=
    calc (2 : ℚ) ^ (-1074 : Int) ≤ 2 ^ x.exponent := zpow_le_zpow_right₀ one_le_two hx.least
      _ ≤ x.magnitude := le_mul_of_one_le_left (by positivity) hone
  have hnum : 0 < num := by
    rcases num.eq_zero_or_pos with rfl | hnum
    · rw [Nat.cast_zero, zero_div] at hvalue
      exact absurd (hvalue ▸ hlow) (not_le.mpr (by positivity))
    · exact hnum
  refine ⟨hnum, ?_, ?_⟩
  · rwa [le_floorLog2_iff hnum hden, hvalue]
  · rw [← Int.lt_add_one_iff, ← not_le, le_floorLog2_iff hnum hden, hvalue, not_le]
    exact x.near_magnitude.lt_two_zpow hx

/-- The shortest digits of a double are near to it. -/
theorem shortest_near (hx : x.Canonical) (hpos : 0 < x.mantissa) (tie : Tie) :
    x.Near (shortest tie x).value := by
  have hden := shiftFraction_pos x.mantissa one_pos x.exponent
  have hvalue := shiftFraction_div x.mantissa 1 x.exponent
  rw [Nat.cast_one, div_one] at hvalue
  unfold shortest
  rcases hfraction : shiftFraction x.mantissa 1 x.exponent with ⟨num, den⟩
  rw [hfraction] at hden hvalue
  dsimp only at hden hvalue ⊢
  obtain ⟨hnum, hlow, hhigh⟩ := floorLog2_mem hx hpos hden hvalue
  have hleading := ten_pow_floorLog10_le hnum hden hlow hhigh
  rw [hvalue] at hleading
  split
  next d hfound =>
    obtain ⟨n, -, hhit⟩ := List.exists_of_findSome?_eq_some hfound
    rw [Digits.strip_value]
    rcases (Interval.around x).hit_cases tie (floorLog10 num den) (n + 1) with
      ⟨d', hhit', hcontains⟩ | ⟨hnone, -⟩
    · obtain rfl : d' = d := Option.some.inj (hhit'.symm.trans hhit)
      exact near_of_contains hpos hcontains
    · exact absurd (hnone.symm.trans hhit) (by simp)
  next hnone =>
    obtain ⟨d, hhit⟩ := exists_hit hx hpos tie hleading
    have hlast := List.findSome?_eq_none_iff.mp hnone 16 (by simp)
    exact absurd (hlast.symm.trans hhit) (by simp)

/-! ## Literals -/

namespace Literal

/-- The value without its sign. -/
def magnitude (l : Literal) : ℚ := l.digits * 10 ^ (l.exponent.getD 0 - l.places.getD 0)

theorem digits_bounds {n : Nat} (hpos : 0 < n) :
    10 ^ ((toString n).length - 1) ≤ n ∧ n < 10 ^ (toString n).length := by
  rw [Nat.toString_eq_repr]
  have hlength : 0 < n.repr.length := Nat.length_repr_pos
  refine ⟨?_, (Nat.length_repr_le_iff hlength).mp le_rfl⟩
  rcases (n.repr.length - 1).eq_zero_or_pos with hone | hmore
  · rw [hone]
    exact hpos
  · rw [← not_lt, ← Nat.length_repr_le_iff hmore]
    omega

/-- A number lies between the powers of ten at its first digit. -/
theorem leading_bounds {digits : Nat} (hdigits : 0 < digits) (power : Int) :
    (10 : ℚ) ^ ((toString digits).length + power - 1) ≤ digits * 10 ^ power ∧
      (digits * 10 ^ power : ℚ) < 10 ^ ((toString digits).length + power) := by
  obtain ⟨hlower, hupper⟩ := digits_bounds hdigits
  have hlength : 0 < (toString digits).length := by
    rw [Nat.toString_eq_repr]
    exact Nat.length_repr_pos
  constructor
  · calc (10 : ℚ) ^ ((toString digits).length + power - 1)
        = 10 ^ (((toString digits).length - 1 : Nat) + power) := by
          congr 1
          omega
      _ = 10 ^ ((toString digits).length - 1) * 10 ^ power := by
          rw [zpow_add₀ (by norm_num), zpow_natCast]
      _ ≤ digits * 10 ^ power := by
          gcongr
          exact_mod_cast hlower
  · calc (digits * 10 ^ power : ℚ) < 10 ^ (toString digits).length * 10 ^ power := by
          gcongr
          exact_mod_cast hupper
      _ = 10 ^ ((toString digits).length + power) := by
          rw [zpow_add₀ (by norm_num), zpow_natCast]

/-- Numbers near to a double have less than 400 digits, on either side of the point. -/
theorem leading_mem (hx : x.Canonical) (hpos : 0 < x.mantissa) {digits : Nat} {power : Int}
    (hdigits : 0 < digits) (hnear : x.Near (digits * 10 ^ power)) :
    -400 ≤ (toString digits).length + power ∧ (toString digits).length + power ≤ 400 := by
  obtain ⟨hlower, hupper⟩ := leading_bounds hdigits power
  have hpowers : (2 : ℚ) ^ (1075 : Int) ≤ 10 ^ (400 : Int) :=
    calc (2 : ℚ) ^ (1075 : Int) ≤ 2 ^ (3 * 400 : Int) := zpow_le_zpow_right₀ one_le_two (by decide)
      _ = (2 ^ (3 : Int)) ^ (400 : Int) := zpow_mul ..
      _ ≤ 10 ^ (400 : Int) := zpow_le_zpow_left₀ (by decide) (by norm_num) (by norm_num)
  constructor
  · have hbound : (10 : ℚ) ^ (-400 : Int) ≤ 2 ^ (-1075 : Int) := by
      rw [zpow_neg, zpow_neg]
      exact inv_anti₀ (by positivity) hpowers
    have hlt := (hbound.trans (hnear.two_zpow_le hx hpos)).trans_lt hupper
    exact ((zpow_lt_zpow_iff_right₀ (by norm_num)).mp hlt).le
  · have hbound : (2 : ℚ) ^ (1024 : Int) ≤ 10 ^ (400 : Int) :=
      (zpow_le_zpow_right₀ one_le_two (by decide)).trans hpowers
    have hlt := (hlower.trans_lt (hnear.lt_two_zpow hx)).trans_le hbound
    have hexponents := (zpow_lt_zpow_iff_right₀ (by norm_num)).mp hlt
    omega

/-- The literal of a number that is near to a double has its bits. -/
theorem magnitudeBits_of_near (hx : x.Canonical) (hpos : 0 < x.mantissa) {l : Literal}
    (hnear : x.Near l.magnitude) : l.magnitudeBits = x.magnitudeBits := by
  have hdigits : 0 < l.digits := by
    by_contra hzero
    have hvalue := hnear.pos hpos
    simp [magnitude, Nat.eq_zero_of_not_pos hzero] at hvalue
  unfold magnitude at hnear
  unfold magnitudeBits
  generalize l.exponent.getD 0 - (l.places.getD 0 : Int) = power at hnear ⊢
  obtain ⟨hlow, hhigh⟩ := leading_mem hx hpos hdigits hnear
  simp only [hdigits.ne', false_or, not_lt.mpr hlow, not_lt.mpr hhigh, if_false]
  split
  next hwhole =>
    obtain ⟨k, rfl⟩ := Int.eq_ofNat_of_zero_le hwhole
    apply Near.nearestBits hx hpos
    rwa [Int.toNat_natCast, Nat.cast_one, div_one, Nat.cast_mul, Nat.cast_pow]
  next hfraction =>
    obtain ⟨k, hk⟩ := Int.eq_ofNat_of_zero_le (a := -power) (by omega)
    apply Near.nearestBits hx hpos
    rw [show power = -(k : Int) by omega, zpow_neg, ← div_eq_mul_inv] at hnear
    rwa [hk, Int.toNat_natCast, Nat.cast_pow]

theorem toFloat?_of_near {f : Float} (hx : ofFloat? f = some x) (hpos : 0 < x.mantissa)
    {l : Literal} (hsign : l.negative = x.negative) (hnear : x.Near l.magnitude) :
    l.toFloat? = some f := by
  have hcanonical := canonical_of_ofFloat? hx
  have hbits := magnitudeBits_of_near hcanonical hpos hnear
  rw [toFloat?, hbits, if_pos hcanonical.magnitudeBits_lt, hsign, assemble_of_ofFloat? hx]

end Literal

/-! ## Styles -/

namespace Style

theorem positionalLiteral_magnitude (style : Style) (negative : Bool) (d : Digits) :
    (style.positionalLiteral negative d).magnitude = d.value := by
  unfold positionalLiteral Literal.magnitude Digits.value
  split
  next hfraction =>
    simp [show max (-d.exponent) 0 = -d.exponent by omega]
  next hwhole =>
    obtain ⟨k, hk⟩ := Int.eq_ofNat_of_zero_le (not_lt.mp hwhole)
    split
    · simp only [hk, Int.toNat_natCast, Option.getD_none, Option.getD_some, zpow_natCast]
      push_cast
      rw [zpow_neg_one, pow_succ]
      ring
    · simp [hk]

/-- The digits are written in positional notation, or with an exponent. -/
theorem literal_cases (style : Style) (hpos : 0 < x.mantissa) :
    style.literal x = style.positionalLiteral x.negative (shortest style.tie x) ∨
      style.literal x = ⟨x.negative, (shortest style.tie x).digits,
        if (toString (shortest style.tie x).digits).length = 1 then none
        else some ((toString (shortest style.tie x).digits).length - 1),
        some ((toString (shortest style.tie x).digits).length - 1 +
          (shortest style.tie x).exponent)⟩ := by
  unfold literal
  rw [if_neg hpos.ne']
  exact ite_eq_or_eq _ _ _

/-- Neither notation changes the number. -/
theorem literal_magnitude (style : Style) (hpos : 0 < x.mantissa) :
    (style.literal x).magnitude = (shortest style.tie x).value := by
  rcases style.literal_cases hpos with hliteral | hliteral <;> rw [hliteral]
  · exact style.positionalLiteral_magnitude x.negative _
  · generalize shortest style.tie x = d
    have hcount : 0 < (toString d.digits).length := Nat.length_repr_pos
    have hexponent : ((toString d.digits).length - 1 + d.exponent : Int) -
        ((if (toString d.digits).length = 1 then none
          else some ((toString d.digits).length - 1)).getD 0 : Nat) = d.exponent := by
      split <;> simp only [Option.getD_none, Option.getD_some] <;> omega
    rw [Literal.magnitude, Option.getD_some, hexponent, Digits.value]

theorem positionalLiteral_negative (style : Style) (negative : Bool) (d : Digits) :
    (style.positionalLiteral negative d).negative = negative := by
  unfold positionalLiteral
  split_ifs <;> rfl

theorem literal_negative (style : Style) (x : Binary64) :
    (style.literal x).negative = x.negative := by
  rcases x.mantissa.eq_zero_or_pos with hzero | hpos
  · simp [literal, hzero]
  · rcases style.literal_cases hpos with hliteral | hliteral <;> rw [hliteral]
    exact style.positionalLiteral_negative x.negative _

/-- A point is followed by digits. -/
theorem literal_places (style : Style) (x : Binary64) : (style.literal x).places ≠ some 0 := by
  rcases x.mantissa.eq_zero_or_pos with hzero | hpos
  · rw [literal, if_pos hzero]
    dsimp only
    split <;> simp
  · have hcount := fun d : Digits => Nat.length_repr_pos (n := d.digits)
    rcases style.literal_cases hpos with hliteral | hliteral <;> rw [hliteral]
    · unfold positionalLiteral
      split
      next hfraction =>
        simp only [ne_eq, Option.some.injEq]
        omega
      next => split <;> simp
    · dsimp only
      split
      next => simp
      next hmore =>
        have hpositive := hcount (shortest style.tie x)
        rw [Nat.toString_eq_repr] at hmore ⊢
        simp only [ne_eq, Option.some.injEq]
        omega

/-- Whatever the style, the literal of a finite double is read as that double. -/
theorem toFloat?_literal (style : Style) {f : Float} (hx : ofFloat? f = some x) :
    (style.literal x).toFloat? = some f := by
  have hcanonical := canonical_of_ofFloat? hx
  rcases x.mantissa.eq_zero_or_pos with hzero | hpos
  · have hliteral : (style.literal x).magnitudeBits = x.magnitudeBits := by
      have hexponent := hcanonical.full.resolve_left (by omega)
      simp [literal, hzero, Literal.magnitudeBits, Binary64.magnitudeBits, hexponent]
    rw [Literal.toFloat?, hliteral, if_pos hcanonical.magnitudeBits_lt, style.literal_negative,
      assemble_of_ofFloat? hx]
  · apply Literal.toFloat?_of_near hx hpos (style.literal_negative x)
    rw [style.literal_magnitude hpos]
    exact shortest_near hcanonical hpos style.tie

end Style
end TraceReplay.Decimal
