import TraceReplay.Decimal.Binary64
import Mathlib

/-!
# Ratios of integers

A part over the whole, computed with doubles, lies between zero and one however the
two integers and their quotient are rounded, and it does not shrink as the part grows.
-/

namespace TraceReplay.Binary64

/-! ## Rounding -/

theorem roundHalfEven_ge_div (num den : Nat) : num / den ≤ roundHalfEven num den := by
  simp only [roundHalfEven]
  split
  · exact le_rfl
  · split
    · exact Nat.le_succ _
    · exact Nat.le_add_right _ _

theorem roundHalfEven_le_succ (num den : Nat) : roundHalfEven num den ≤ num / den + 1 := by
  simp only [roundHalfEven]
  split
  · exact Nat.le_succ _
  · split
    · exact le_rfl
    · have hparity := Nat.mod_lt (num / den) (by decide : 0 < 2)
      omega

theorem roundHalfEven_mono {n m den : Nat} (hle : n ≤ m) :
    roundHalfEven n den ≤ roundHalfEven m den := by
  have hquotients : n / den ≤ m / den := Nat.div_le_div_right hle
  rcases hquotients.lt_or_eq with hlt | heq
  · exact (roundHalfEven_le_succ n den).trans (hlt.trans_le (roundHalfEven_ge_div m den))
  · have hrests : n % den ≤ m % den := by
      have hn := Nat.div_add_mod n den
      have hm := Nat.div_add_mod m den
      rw [heq] at hn
      omega
    simp only [roundHalfEven, heq]
    split_ifs <;> omega

theorem roundHalfEven_mul {k den : Nat} (hden : 0 < den) : roundHalfEven (k * den) den = k := by
  simp [roundHalfEven, Nat.mul_mod_left, Nat.mul_div_cancel k hden, hden]

theorem roundHalfEven_le {n k den : Nat} (hden : 0 < den) (hle : n ≤ k * den) :
    roundHalfEven n den ≤ k :=
  (roundHalfEven_mono hle).trans (roundHalfEven_mul hden).le

theorem le_roundHalfEven {n k den : Nat} (hden : 0 < den) (hle : k * den ≤ n) :
    k ≤ roundHalfEven n den :=
  (roundHalfEven_mul hden).ge.trans (roundHalfEven_mono hle)

/-! ## Integers as doubles -/

theorem log2_le_log2 {a b : Nat} (hle : a ≤ b) : Nat.log2 a ≤ Nat.log2 b := by
  simpa only [Nat.log2_eq_log_two] using Nat.log_mono_right hle

/-- A power of two is a double, so rounding does not pass it. -/
theorem le_nearestNat {n : Nat} (hpos : n ≠ 0) : 2 ^ Nat.log2 n ≤ nearestNat n := by
  have hsplit : 2 ^ Nat.log2 n = 2 ^ (Nat.log2 n - (Nat.log2 n - 52)) * 2 ^ (Nat.log2 n - 52) := by
    rw [← pow_add]
    congr 1
    omega
  unfold nearestNat
  conv_lhs => rw [hsplit]
  refine Nat.mul_le_mul_right _ (le_roundHalfEven (Nat.two_pow_pos _) ?_)
  rw [← hsplit]
  exact Nat.log2_self_le hpos

theorem nearestNat_le {n : Nat} : nearestNat n ≤ 2 ^ (Nat.log2 n + 1) := by
  have hsplit : 2 ^ (Nat.log2 n + 1) =
      2 ^ (Nat.log2 n + 1 - (Nat.log2 n - 52)) * 2 ^ (Nat.log2 n - 52) := by
    rw [← pow_add]
    congr 1
    omega
  unfold nearestNat
  rw [hsplit]
  refine Nat.mul_le_mul_right _ (roundHalfEven_le (Nat.two_pow_pos _) ?_)
  rw [← hsplit]
  exact Nat.lt_log2_self.le

theorem nearestNat_mono {a b : Nat} (hle : a ≤ b) : nearestNat a ≤ nearestNat b := by
  rcases (log2_le_log2 hle).lt_or_eq with hlt | heq
  · have hpos : b ≠ 0 := by
      rintro rfl
      simp at hlt
    exact nearestNat_le.trans ((Nat.pow_le_pow_right (by decide) hlt).trans (le_nearestNat hpos))
  · unfold nearestNat
    rw [heq]
    exact Nat.mul_le_mul_right _ (roundHalfEven_mono hle)

theorem nearestNat_pos {n : Nat} (hpos : 0 < n) : 0 < nearestNat n :=
  (Nat.two_pow_pos _).trans_le (le_nearestNat hpos.ne')

/-! ## Quotients -/

theorem shiftFraction_ofNat (num den shift : Nat) :
    shiftFraction num den shift = (num * 2 ^ shift, den) := by
  simp [shiftFraction]

/-- A part of a whole has no positive logarithm. -/
theorem floorLog2_nonpos {num den : Nat} (hle : num ≤ den) : floorLog2 num den ≤ 0 := by
  have hlogs := log2_le_log2 hle
  simp only [floorLog2]
  split <;> omega

/-- A quotient lies below the power of two after its logarithm. -/
theorem lt_of_floorLog2 {num den : Nat} (hden : den ≠ 0) {f : Nat}
    (hf : floorLog2 num den = -((f + 1 : Nat) : Int)) : num * 2 ^ f < den := by
  simp only [floorLog2] at hf
  split at hf
  · rename_i hbelow
    have hguess : -((Nat.log2 num : Int) - (Nat.log2 den : Int)) = (f : Int) := by omega
    rw [hguess, shiftFraction_ofNat] at hbelow
    exact hbelow
  · have hlogs : Nat.log2 den = Nat.log2 num + 1 + f := by omega
    calc num * 2 ^ f < 2 ^ (Nat.log2 num + 1) * 2 ^ f :=
          Nat.mul_lt_mul_of_pos_right Nat.lt_log2_self (Nat.two_pow_pos f)
      _ = 2 ^ Nat.log2 den := by rw [← pow_add, hlogs]
      _ ≤ den := Nat.log2_self_le hden

/-- A quotient is not below the power of two at its logarithm. -/
theorem le_of_floorLog2 {num den : Nat} (hnum : num ≠ 0) {f : Nat}
    (hf : floorLog2 num den = -(f : Int)) : den ≤ num * 2 ^ f := by
  simp only [floorLog2] at hf
  split at hf
  · have hlogs : Nat.log2 num + f = Nat.log2 den + 1 := by omega
    calc den ≤ 2 ^ (Nat.log2 den + 1) := Nat.lt_log2_self.le
      _ = 2 ^ Nat.log2 num * 2 ^ f := by rw [← hlogs, pow_add]
      _ ≤ num * 2 ^ f := Nat.mul_le_mul_right _ (Nat.log2_self_le hnum)
  · rename_i habove
    rw [hf, neg_neg, shiftFraction_ofNat] at habove
    exact Nat.le_of_not_lt habove

theorem exists_floorLog2 {num den : Nat} (hle : num ≤ den) :
    ∃ f : Nat, floorLog2 num den = -(f : Int) := by
  have hlog := floorLog2_nonpos hle
  exact ⟨(-floorLog2 num den).toNat, by omega⟩

/-- A smaller part has a smaller logarithm. -/
theorem floorLog2_mono {n m den f g : Nat} (hn : n ≠ 0) (hle : n ≤ m) (hden : den ≠ 0)
    (hf : floorLog2 n den = -(f : Int)) (hg : floorLog2 m den = -(g : Int)) : g ≤ f := by
  by_contra hlt
  obtain ⟨k, rfl⟩ : ∃ k, g = k + 1 := ⟨g - 1, by omega⟩
  apply absurd (lt_of_floorLog2 hden hg)
  rw [Nat.not_lt]
  calc den ≤ n * 2 ^ f := le_of_floorLog2 hn hf
    _ ≤ m * 2 ^ k := Nat.mul_le_mul hle (Nat.pow_le_pow_right (by decide) (by omega))

/-- The bits of a quotient when the last place of its mantissa has the value `2^-k`. -/
theorem nearestBits_eq {num den k : Nat} (hnum : num ≠ 0)
    (hunit : max (floorLog2 num den - 52) (-1074) = -(k : Int)) :
    nearestBits num den =
      min ((1074 - k) * 2 ^ 52 + roundHalfEven (num * 2 ^ k) den) infinityBits := by
  unfold nearestBits
  rw [if_neg hnum]
  change min ((max (floorLog2 num den - 52) (-1074) + 1074).toNat * 2 ^ 52 +
    roundHalfEven (shiftFraction num den (-max (floorLog2 num den - 52) (-1074))).1
      (shiftFraction num den (-max (floorLog2 num den - 52) (-1074))).2) infinityBits = _
  rw [hunit, neg_neg, shiftFraction_ofNat]
  congr 3
  omega

/-- The mantissa of a quotient has at most 53 digits, or is one more. -/
theorem mantissa_le {num den f k : Nat} (hbelow : num * 2 ^ f < den) (hk : k ≤ f + 53) :
    roundHalfEven (num * 2 ^ k) den ≤ 2 ^ 53 := by
  apply roundHalfEven_le (Nat.zero_lt_of_lt hbelow)
  calc num * 2 ^ k ≤ num * 2 ^ (f + 53) :=
        Nat.mul_le_mul_left _ (Nat.pow_le_pow_right (by decide) hk)
    _ = 2 ^ 53 * (num * 2 ^ f) := by ring
    _ ≤ 2 ^ 53 * den := Nat.mul_le_mul_left _ hbelow.le

/-- The mantissa of a quotient that is not too small has 53 digits. -/
theorem le_mantissa {num den f : Nat} (hden : 0 < den) (habove : den ≤ num * 2 ^ f) :
    2 ^ 52 ≤ roundHalfEven (num * 2 ^ (f + 52)) den := by
  apply le_roundHalfEven hden
  calc 2 ^ 52 * den ≤ 2 ^ 52 * (num * 2 ^ f) := Nat.mul_le_mul_left _ habove
    _ = num * 2 ^ (f + 52) := by ring

/-- A part of a whole rounds to at most one. -/
theorem nearestBits_le_one {num den : Nat} (hden : 0 < den) (hle : num ≤ den) :
    nearestBits num den ≤ oneBits := by
  have hone : oneBits = 1023 * 2 ^ 52 := by decide
  by_cases hnum : num = 0
  · simp [nearestBits, hnum]
  obtain ⟨f, hf⟩ := exists_floorLog2 hle
  have hbits {k : Nat} (hunit : max (floorLog2 num den - 52) (-1074) = -(k : Int)) :
      nearestBits num den ≤ (1074 - k) * 2 ^ 52 + roundHalfEven (num * 2 ^ k) den :=
    (nearestBits_eq hnum hunit).trans_le (Nat.min_le_left _ _)
  cases f with
  | zero =>
    have hrounded : roundHalfEven (num * 2 ^ 52) den ≤ 2 ^ 52 :=
      roundHalfEven_le hden (by rw [Nat.mul_comm]; exact Nat.mul_le_mul_left _ hle)
    have hle := hbits (k := 52) (by rw [hf]; decide)
    omega
  | succ f =>
    have hbelow := lt_of_floorLog2 hden.ne' hf
    by_cases hnormal : f + 53 ≤ 1074
    · have hle := hbits (k := f + 53) (by rw [hf]; omega)
      have hmantissa := mantissa_le hbelow (k := f + 53) le_rfl
      omega
    · have hle := hbits (k := 1074) (by rw [hf]; omega)
      have hmantissa := mantissa_le hbelow (Nat.le_of_not_le hnormal)
      omega

/-- The greater the part, the greater its quotient: either both have the same unit, or
the greater one has a greater unit and a mantissa of full length. -/
theorem nearestBits_mono {n m den : Nat} (hle : n ≤ m) (hpart : m ≤ den) (hden : 0 < den) :
    nearestBits n den ≤ nearestBits m den := by
  by_cases hn : n = 0
  · simp [nearestBits, hn]
  have hm : m ≠ 0 := by omega
  obtain ⟨f, hf⟩ := exists_floorLog2 (hle.trans hpart)
  obtain ⟨g, hg⟩ := exists_floorLog2 hpart
  have hlogs : g ≤ f := floorLog2_mono hn hle hden.ne' hf hg
  rw [nearestBits_eq (k := min (f + 52) 1074) hn (by rw [hf]; omega),
    nearestBits_eq (k := min (g + 52) 1074) hm (by rw [hg]; omega)]
  apply min_le_min_right
  by_cases hsame : min (f + 52) 1074 = min (g + 52) 1074
  · rw [hsame]
    exact Nat.add_le_add_left (roundHalfEven_mono (Nat.mul_le_mul_right _ hle)) _
  · obtain ⟨k, rfl⟩ : ∃ k, f = k + 1 := ⟨f - 1, by omega⟩
    have hmantissa := mantissa_le (lt_of_floorLog2 hden.ne' hf) (k := min (k + 1 + 52) 1074)
      (by omega)
    have hfull := le_mantissa hden (le_of_floorLog2 hm hg)
    rw [show min (g + 52) 1074 = g + 52 by omega]
    omega

/-- The ratio of a part to the whole is a proportion. -/
theorem ratioRank_mem {num den : Int} (hnum : 0 ≤ num) (hle : num ≤ den) (hden : 0 < den) :
    0 ≤ ratioRank num den ∧ ratioRank num den ≤ oneBits := by
  have hsigns : num < 0 ↔ den < 0 := by omega
  simp only [ratioRank, hsigns, if_true]
  refine ⟨Int.natCast_nonneg _, ?_⟩
  have hbits : nearestBits (nearestNat num.natAbs) (nearestNat den.natAbs) ≤ oneBits :=
    nearestBits_le_one (nearestNat_pos (by omega)) (nearestNat_mono (by omega))
  exact_mod_cast hbits

/-- The ratio of a greater part is not smaller. -/
theorem ratioRank_mono {part more whole : Int} (hpart : 0 ≤ part) (hle : part ≤ more)
    (hmore : more ≤ whole) (hwhole : 0 < whole) :
    ratioRank part whole ≤ ratioRank more whole := by
  have hsigns : ∀ num : Int, 0 ≤ num → (num < 0 ↔ whole < 0) := by
    intro num hnum
    omega
  simp only [ratioRank, hsigns part hpart, hsigns more (hpart.trans hle), if_true]
  have hbits : nearestBits (nearestNat part.natAbs) (nearestNat whole.natAbs) ≤
      nearestBits (nearestNat more.natAbs) (nearestNat whole.natAbs) :=
    nearestBits_mono (nearestNat_mono (by omega)) (nearestNat_mono (by omega))
      (nearestNat_pos (by omega))
  exact_mod_cast hbits

end TraceReplay.Binary64
