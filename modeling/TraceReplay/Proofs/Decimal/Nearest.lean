import TraceReplay.Proofs.Decimal.Ratio

/-!
# The nearest double

A double is found again from every number that is nearer to it than to its neighbours: half a
unit around it, a quarter below where the next smaller unit begins, the ends only if its mantissa
is even.  All of this is said of rational numbers.
-/

namespace TraceReplay.Binary64

/-! ## Finite doubles -/

/-- The value without its sign. -/
def magnitude (x : Binary64) : ℚ := x.mantissa * 2 ^ x.exponent

/-- The bits of the magnitude. -/
def magnitudeBits (x : Binary64) : Nat := (x.exponent + 1074).toNat * 2 ^ 52 + x.mantissa

/-- The mantissa has 53 digits, unless there is no smaller unit. -/
structure Canonical (x : Binary64) : Prop where
  mantissa_lt : x.mantissa < 2 ^ 53
  least : -1074 ≤ x.exponent
  greatest : x.exponent ≤ 971
  full : 2 ^ 52 ≤ x.mantissa ∨ x.exponent = -1074

theorem canonical_of_ofFloat? {f : Float} {x : Binary64} (hx : ofFloat? f = some x) :
    x.Canonical := by
  simp only [ofFloat?] at hx
  split at hx
  · exact absurd hx (by simp)
  · split at hx <;> obtain rfl := Option.some.inj hx
    · exact ⟨by simp only; omega, le_rfl, by simp only; omega, .inr rfl⟩
    · exact ⟨by simp only; omega, by simp only; omega, by simp only; omega,
        .inl (Nat.le_add_right _ _)⟩

/-- A finite double is put together from its sign and its bits. -/
theorem assemble_of_ofFloat? {f : Float} {x : Binary64} (hx : ofFloat? f = some x) :
    assemble x.negative x.magnitudeBits = f := by
  have hbits : f.toBits.toNat = x.magnitudeBits + if x.negative then 2 ^ 63 else 0 := by
    have hlt := f.toBits.toNat_lt
    have hsign : f.toBits.toNat / 2 ^ 63 = f.toBits.toNat / 2 ^ 52 / 2 ^ 11 := by
      rw [Nat.div_div_eq_div_mul]
    simp only [ofFloat?] at hx
    split at hx
    · exact absurd hx (by simp)
    · split at hx <;> obtain rfl := Option.some.inj hx <;>
        simp only [magnitudeBits, decide_eq_true_eq] <;> split <;> omega
  rw [assemble, ← hbits, UInt64.ofNat_toNat, Float.ofBits_toBits]

theorem Canonical.magnitudeBits_lt {x : Binary64} (hx : x.Canonical) :
    x.magnitudeBits < infinityBits := by
  obtain ⟨hmantissa, hleast, hgreatest, -⟩ := hx
  have hinfinity : infinityBits = 2047 * 2 ^ 52 := by decide
  rw [magnitudeBits, hinfinity]
  omega

theorem toBits_ofBits {bits : UInt64} (hfinite : bits.toNat / 2 ^ 52 % 2 ^ 11 ≠ 2047) :
    (Float.ofBits bits).toBits = bits := by
  have hvalid : Float.Model.Format.binary64.Valid bits.toBitVec := by
    refine ⟨fun hexponent => absurd ?_ hfinite⟩
    have hfield := congrArg BitVec.toNat hexponent
    rw [Float.Model.UnpackedFloat.unpackExponent_def, BitVec.extractLsb'_toNat,
      Nat.shiftRight_eq_div_pow] at hfield
    exact hfield
  exact congrArg UInt64.ofBitVec (Float.Model.UnpackedFloat.pack_unpack_of_valid hvalid)

/-- What is put together from bits below those of infinity is finite. -/
theorem isSome_ofFloat?_assemble (negative : Bool) {magnitude : Nat}
    (hfinite : magnitude < infinityBits) : (ofFloat? (assemble negative magnitude)).isSome := by
  have hinfinity : infinityBits = 2047 * 2 ^ 52 := by decide
  have hfield : (UInt64.ofNat (magnitude + if negative then 2 ^ 63 else 0)).toNat / 2 ^ 52 %
      2 ^ 11 ≠ 2047 := by
    rw [UInt64.toNat_ofNat']
    split <;> omega
  rw [assemble]
  generalize UInt64.ofNat (magnitude + if negative then 2 ^ 63 else 0) = bits at hfield ⊢
  simp only [ofFloat?, toBits_ofBits hfield, if_neg hfield]
  split <;> rfl

/-- The number is nearer to the double than to its neighbours. -/
structure Near (x : Binary64) (v : ℚ) : Prop where
  below : (x.mantissa - 1 / 2) * 2 ^ x.exponent ≤ v
  above : v ≤ (x.mantissa + 1 / 2) * 2 ^ x.exponent
  odd : x.mantissa % 2 = 1 →
    (x.mantissa - 1 / 2) * 2 ^ x.exponent < v ∧ v < (x.mantissa + 1 / 2) * 2 ^ x.exponent
  thin : x.mantissa = 2 ^ 52 → -1074 < x.exponent → (x.mantissa - 1 / 4) * 2 ^ x.exponent ≤ v

theorem Near.pos {x : Binary64} {v : ℚ} (hnear : x.Near v) (hpos : 0 < x.mantissa) : 0 < v := by
  have hmantissa : (1 : ℚ) ≤ x.mantissa := by exact_mod_cast hpos
  have hunit : (0 : ℚ) < 2 ^ x.exponent := by positivity
  have hbelow := hnear.below
  nlinarith

theorem near_magnitude (x : Binary64) : x.Near x.magnitude := by
  have hunit : (0 : ℚ) < 2 ^ x.exponent := by positivity
  have hless {c : ℚ} (hc : 0 < c) : (x.mantissa - c) * 2 ^ x.exponent < x.magnitude := by
    unfold magnitude
    gcongr
    linarith
  have hmore : x.magnitude < (x.mantissa + 1 / 2) * 2 ^ x.exponent := by
    unfold magnitude
    gcongr
    linarith
  exact ⟨(hless (by norm_num)).le, hmore.le, fun _ => ⟨hless (by norm_num), hmore⟩,
    fun _ _ => (hless (by norm_num)).le⟩

/-- What is near to a double is less than infinity. -/
theorem Near.lt_two_zpow {x : Binary64} {v : ℚ} (hx : x.Canonical) (hnear : x.Near v) :
    v < 2 ^ (1024 : Int) := by
  have hgreatest := hx.greatest
  have hmantissa : (x.mantissa : ℚ) + 1 ≤ 2 ^ 53 := by exact_mod_cast hx.mantissa_lt
  calc v ≤ (x.mantissa + 1 / 2) * 2 ^ x.exponent := hnear.above
    _ < 2 ^ 53 * 2 ^ x.exponent := by
      gcongr
      linarith
    _ = 2 ^ (53 + x.exponent) := by
      rw [zpow_add₀ two_ne_zero]
      norm_num
    _ ≤ 2 ^ (1024 : Int) := zpow_le_zpow_right₀ one_le_two (by omega)

/-- What is near to a positive double is at least half of the least one. -/
theorem Near.two_zpow_le {x : Binary64} {v : ℚ} (hx : x.Canonical) (hpos : 0 < x.mantissa)
    (hnear : x.Near v) : (2 : ℚ) ^ (-1075 : Int) ≤ v := by
  have hleast := hx.least
  have hmantissa : (1 : ℚ) ≤ x.mantissa := by exact_mod_cast hpos
  calc (2 : ℚ) ^ (-1075 : Int) ≤ 2 ^ (x.exponent - 1) := zpow_le_zpow_right₀ one_le_two (by omega)
    _ = 1 / 2 * 2 ^ x.exponent := by
      rw [zpow_sub_one₀ two_ne_zero]
      ring
    _ ≤ (x.mantissa - 1 / 2) * 2 ^ x.exponent := by
      gcongr
      linarith
    _ ≤ v := hnear.below

/-! ## Fractions -/

/-- A fraction that is scaled by a power of a base, on the side that keeps it one of integers. -/
theorem scaled_div {base : Nat} (num den : Nat) (shift : Int) :
    (((if 0 ≤ shift then (num * base ^ shift.toNat, den)
      else (num, den * base ^ (-shift).toNat)).1 : Nat) : ℚ) /
    ((if 0 ≤ shift then (num * base ^ shift.toNat, den)
      else (num, den * base ^ (-shift).toNat)).2 : Nat) = num / den * (base : ℚ) ^ shift := by
  split
  next hshift =>
    obtain ⟨k, rfl⟩ := Int.eq_ofNat_of_zero_le hshift
    rw [Int.toNat_natCast, zpow_natCast]
    push_cast
    ring
  next hshift =>
    obtain ⟨k, hk⟩ := Int.eq_ofNat_of_zero_le (a := -shift) (by omega)
    rw [hk, Int.toNat_natCast, show shift = -(k : Int) by omega, zpow_neg, zpow_natCast]
    push_cast
    rw [div_mul_eq_div_div, div_eq_mul_inv]

theorem shiftFraction_div (num den : Nat) (shift : Int) :
    ((shiftFraction num den shift).1 : ℚ) / (shiftFraction num den shift).2 =
      num / den * 2 ^ shift :=
  scaled_div num den shift

theorem shiftFraction_pos (num : Nat) {den : Nat} (hden : 0 < den) (shift : Int) :
    0 < (shiftFraction num den shift).2 := by
  unfold shiftFraction
  split
  · exact hden
  · exact Nat.mul_pos hden (Nat.two_pow_pos _)

/-- The power of two at the logarithm is the greatest that is not above the quotient. -/
theorem floorLog2_bounds {num den : Nat} (hnum : 0 < num) (hden : 0 < den) :
    (2 : ℚ) ^ floorLog2 num den ≤ num / den ∧ (num / den : ℚ) < 2 ^ (floorLog2 num den + 1) := by
  have hlow (n : Nat) (hn : 0 < n) : (2 : ℚ) ^ (Nat.log2 n : Int) ≤ n := by
    rw [zpow_natCast]
    exact_mod_cast Nat.log2_self_le hn.ne'
  have hhigh (n : Nat) : (n : ℚ) < 2 ^ ((Nat.log2 n : Int) + 1) := by
    rw [show (Nat.log2 n : Int) + 1 = ((Nat.log2 n + 1 : Nat) : Int) by push_cast; rfl,
      zpow_natCast]
    exact_mod_cast Nat.lt_log2_self
  have hdenPos : (0 : ℚ) < den := by exact_mod_cast hden
  generalize hguess : (Nat.log2 num : Int) - Nat.log2 den = guess
  have hbelow : (2 : ℚ) ^ (guess - 1) ≤ num / den := by
    rw [le_div_iff₀ hdenPos]
    calc (2 : ℚ) ^ (guess - 1) * den ≤ 2 ^ (guess - 1) * 2 ^ ((Nat.log2 den : Int) + 1) := by
          gcongr
          exact (hhigh den).le
      _ = 2 ^ (Nat.log2 num : Int) := by
          rw [← zpow_add₀ two_ne_zero]
          congr 1
          omega
      _ ≤ num := hlow num hnum
  have habove : (num / den : ℚ) < 2 ^ (guess + 1) := by
    rw [div_lt_iff₀ hdenPos]
    calc (num : ℚ) < 2 ^ ((Nat.log2 num : Int) + 1) := hhigh num
      _ = 2 ^ (guess + 1) * 2 ^ (Nat.log2 den : Int) := by
          rw [← zpow_add₀ two_ne_zero]
          congr 1
          omega
      _ ≤ 2 ^ (guess + 1) * den := by
          gcongr
          exact hlow den hden
  -- The guess is the logarithm exactly if the quotient is not below its power.
  have hcompare : (shiftFraction num den (-guess)).1 < (shiftFraction num den (-guess)).2 ↔
      (num / den : ℚ) < 2 ^ guess := by
    have hpos : (0 : ℚ) < (shiftFraction num den (-guess)).2 := by
      exact_mod_cast shiftFraction_pos num hden _
    rw [← Nat.cast_lt (α := ℚ), ← div_lt_one hpos, shiftFraction_div, zpow_neg, ← div_eq_mul_inv,
      div_lt_one (by positivity)]
  simp only [floorLog2, hguess]
  split
  next hless =>
    refine ⟨hbelow, ?_⟩
    rw [sub_add_cancel]
    exact hcompare.mp hless
  next hless => exact ⟨le_of_not_gt (mt hcompare.mpr hless), habove⟩

/-- The logarithm of a quotient lies where its value does. -/
theorem le_floorLog2_iff {num den : Nat} (hnum : 0 < num) (hden : 0 < den) {e : Int} :
    e ≤ floorLog2 num den ↔ (2 : ℚ) ^ e ≤ num / den := by
  obtain ⟨hlow, hhigh⟩ := floorLog2_bounds hnum hden
  constructor
  · exact fun hle => (zpow_le_zpow_right₀ one_le_two hle).trans hlow
  · intro hle
    exact Int.lt_add_one_iff.mp ((zpow_lt_zpow_iff_right₀ one_lt_two).mp (hle.trans_lt hhigh))

/-! ## Rounding -/

/-- What lies within half a unit of an integer is rounded to it, at the ends only if it is
even. -/
theorem roundHalfEven_eq {num den k : Nat} (hden : 0 < den)
    (hbelow : 2 * k * den ≤ 2 * num + den) (habove : 2 * num ≤ 2 * k * den + den)
    (hodd : k % 2 = 1 → 2 * k * den < 2 * num + den ∧ 2 * num < 2 * k * den + den) :
    roundHalfEven num den = k := by
  have hsplit := Nat.div_add_mod num den
  have hrest := Nat.mod_lt num hden
  generalize hquotient : num / den = q at hsplit
  generalize hremainder : num % den = r at hsplit hrest
  have hscaled : 2 * num = 2 * q * den + 2 * r := by
    rw [← hsplit]
    ring
  have hle : k ≤ q + 1 := by
    by_contra hlt
    have hmul : 2 * (q + 2) * den ≤ 2 * k * den := by gcongr; omega
    have hexpand : 2 * (q + 2) * den = 2 * q * den + 4 * den := by ring
    omega
  have hge : q ≤ k := by
    by_contra hlt
    have hmul : 2 * (k + 1) * den ≤ 2 * q * den := by gcongr; omega
    have hexpand : 2 * (k + 1) * den = 2 * k * den + 2 * den := by ring
    omega
  have hnext : 2 * (q + 1) * den = 2 * q * den + 2 * den := by ring
  simp only [roundHalfEven, hquotient, hremainder]
  obtain rfl | rfl : k = q ∨ k = q + 1 := by omega
  · split_ifs <;> omega
  · rw [hnext] at hbelow habove hodd
    split_ifs <;> omega

theorem roundHalfEven_of_near {num den k : Nat} (hden : 0 < den)
    (hbelow : (k - 1 / 2 : ℚ) ≤ num / den) (habove : (num / den : ℚ) ≤ k + 1 / 2)
    (hodd : k % 2 = 1 → (k - 1 / 2 : ℚ) < num / den ∧ (num / den : ℚ) < k + 1 / 2) :
    roundHalfEven num den = k := by
  have hpos : (0 : ℚ) < den := by exact_mod_cast hden
  rw [le_div_iff₀ hpos] at hbelow
  rw [div_le_iff₀ hpos] at habove
  rw [lt_div_iff₀ hpos, div_lt_iff₀ hpos] at hodd
  apply roundHalfEven_eq hden
  · have hcast : (2 * k * den : ℚ) ≤ 2 * num + den := by linarith
    exact_mod_cast hcast
  · have hcast : (2 * num : ℚ) ≤ 2 * k * den + den := by linarith
    exact_mod_cast hcast
  · intro hk
    obtain ⟨hbelow, habove⟩ := hodd hk
    constructor
    · have hcast : (2 * k * den : ℚ) < 2 * num + den := by linarith
      exact_mod_cast hcast
    · have hcast : (2 * num : ℚ) < 2 * k * den + den := by linarith
      exact_mod_cast hcast

/-- The bits of a quotient are those of the integer that is nearest to it in its unit. -/
theorem nearestBits_of_unit {num den k : Nat} {unit : Int} (hnum : 0 < num) (hden : 0 < den)
    (hunit : max (floorLog2 num den - 52) (-1074) = unit)
    (hbelow : (k - 1 / 2 : ℚ) * 2 ^ unit ≤ num / den)
    (habove : (num / den : ℚ) ≤ (k + 1 / 2) * 2 ^ unit)
    (hodd : k % 2 = 1 → (k - 1 / 2 : ℚ) * 2 ^ unit < num / den ∧
      (num / den : ℚ) < (k + 1 / 2) * 2 ^ unit)
    (hfinite : (unit + 1074).toNat * 2 ^ 52 + k ≤ infinityBits) :
    nearestBits num den = (unit + 1074).toNat * 2 ^ 52 + k := by
  have hpos : (0 : ℚ) < 2 ^ unit := by positivity
  have hrounded : roundHalfEven (shiftFraction num den (-unit)).1
      (shiftFraction num den (-unit)).2 = k := by
    apply roundHalfEven_of_near (shiftFraction_pos num hden _) <;>
      rw [shiftFraction_div, zpow_neg, ← div_eq_mul_inv]
    · rwa [le_div_iff₀ hpos]
    · rwa [div_le_iff₀ hpos]
    · rwa [lt_div_iff₀ hpos, div_lt_iff₀ hpos]
  simp only [nearestBits, if_neg hnum.ne', hunit, hrounded]
  exact Nat.min_eq_left hfinite

/-! ## Numbers near to a double -/

theorem two_zpow_add_natCast (e : Int) (k : Nat) : (2 : ℚ) ^ (e + k) = 2 ^ k * 2 ^ e := by
  rw [zpow_add₀ two_ne_zero, zpow_natCast, mul_comm]

section Near

variable {x : Binary64} {num den : Nat}

theorem Near.floorLog2_lt (hx : x.Canonical) (hnear : x.Near (num / den)) (hnum : 0 < num)
    (hden : 0 < den) : floorLog2 num den < x.exponent + 53 := by
  have hunit : (0 : ℚ) < 2 ^ x.exponent := by positivity
  have habove := hnear.above
  have hless : (x.mantissa : ℚ) + 1 ≤ 2 ^ 53 := by exact_mod_cast hx.mantissa_lt
  rw [← not_le, le_floorLog2_iff hnum hden, not_le,
    show x.exponent + 53 = x.exponent + (53 : Nat) from rfl, two_zpow_add_natCast]
  nlinarith

/-- Only near to the least mantissa of 53 digits are there numbers below the power of two. -/
theorem Near.mantissa_eq (hnear : x.Near (num / den)) (hnum : 0 < num) (hden : 0 < den)
    (hfull : 2 ^ 52 ≤ x.mantissa) (hlow : floorLog2 num den < x.exponent + 52) :
    x.mantissa = 2 ^ 52 := by
  by_contra hne
  have hunit : (0 : ℚ) < 2 ^ x.exponent := by positivity
  have hbelow := hnear.below
  have hmore : 2 ^ 52 + 1 ≤ x.mantissa := Nat.lt_of_le_of_ne hfull (Ne.symm hne)
  have hcast : (2 : ℚ) ^ 52 + 1 ≤ x.mantissa := by exact_mod_cast hmore
  rw [← not_le, le_floorLog2_iff hnum hden,
    show x.exponent + 52 = x.exponent + (52 : Nat) from rfl, two_zpow_add_natCast] at hlow
  apply hlow
  nlinarith

/-- Just below the power of two the units are half as great, and twice as many. -/
theorem Near.nearestBits_below (hx : x.Canonical) (hnear : x.Near (num / den)) (hnum : 0 < num)
    (hden : 0 < den) (hleast : x.mantissa = 2 ^ 52) (hexponent : -1074 < x.exponent)
    (hlow : floorLog2 num den < x.exponent + 52) : nearestBits num den = x.magnitudeBits := by
  have hbits : x.magnitudeBits = (x.exponent - 1 + 1074).toNat * 2 ^ 52 + 2 ^ 53 := by
    rw [magnitudeBits, hleast]
    omega
  have hfinite := hx.magnitudeBits_lt.le
  have hunit : (0 : ℚ) < 2 ^ (x.exponent - 1) := by positivity
  have hhalf : (2 : ℚ) ^ x.exponent = 2 * 2 ^ (x.exponent - 1) := by
    rw [zpow_sub_one₀ two_ne_zero]
    ring
  have hbelow := hnear.thin hleast hexponent
  have habove : (num / den : ℚ) < 2 ^ 52 * 2 ^ x.exponent := by
    rwa [← two_zpow_add_natCast, ← not_le, ← le_floorLog2_iff hnum hden, not_le]
  rw [hleast, hhalf] at hbelow
  rw [hhalf] at habove
  push_cast at hbelow
  have hlog : x.exponent + 51 ≤ floorLog2 num den := by
    rw [le_floorLog2_iff hnum hden, show x.exponent + 51 = x.exponent + (51 : Nat) from rfl,
      two_zpow_add_natCast, hhalf]
    linarith
  rw [hbits] at hfinite ⊢
  refine nearestBits_of_unit hnum hden (by omega) ?_ ?_ (by simp) hfinite
  · push_cast
    linarith
  · push_cast
    linarith

/-- What is near to a double is rounded to it.  The unit is that of the double, except for what
lies below the least mantissa of 53 digits. -/
theorem Near.nearestBits (hx : x.Canonical) (hpos : 0 < x.mantissa) (hnear : x.Near (num / den)) :
    Binary64.nearestBits num den = x.magnitudeBits := by
  have hvalue := hnear.pos hpos
  have hden : 0 < den := by
    rcases den.eq_zero_or_pos with rfl | hden
    · simp at hvalue
    · exact hden
  have hnum : 0 < num := by
    rcases num.eq_zero_or_pos with rfl | hnum
    · simp at hvalue
    · exact hnum
  have hlt := hnear.floorLog2_lt hx hnum hden
  by_cases hunit : x.exponent + 52 ≤ floorLog2 num den ∨ x.exponent = -1074
  · have hleast := hx.least
    exact nearestBits_of_unit hnum hden (by omega) hnear.below hnear.above hnear.odd
      hx.magnitudeBits_lt.le
  · rw [not_or, not_le] at hunit
    have hfull := hx.full.resolve_right hunit.2
    have hexponent : -1074 < x.exponent := lt_of_le_of_ne hx.least (Ne.symm hunit.2)
    exact hnear.nearestBits_below hx hnum hden (hnear.mantissa_eq hnum hden hfull hunit.1)
      hexponent hunit.1

end Near
end TraceReplay.Binary64
