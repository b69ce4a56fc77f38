import TraceReplay.Function
import TraceReplay.Proofs.Invocation.Identity

/-!
# Names of GPU variants

The name of a GPU variant ends in the number of its GPUs.  The number is read back from
there whatever the name begins with, and neither two variants nor two slots of a variant
share an invocation ID.
-/

namespace TraceReplay

/-- The name of the variant of a function for some GPUs. -/
def gpuVariant (base : String) (gpus : Nat) : String := base ++ "-gpu-" ++ toString gpus

/-! ## Decimal numbers in texts -/

section Decimal

variable {n : Nat}

/-- Digits are read as the number they stand for. -/
theorem foldl_digits {digits : List Char} (hdigits : ∀ c ∈ digits, c.isDigit = true) (acc : Nat) :
    digits.foldl (fun (n : Int) c => n * 10 + (c.toNat - '0'.toNat)) acc =
      Nat.ofDigitChars 10 digits acc := by
  induction digits generalizing acc with
  | nil => rw [Nat.ofDigitChars_nil, List.foldl_nil]
  | cons c digits ih =>
    have hzero : '0'.toNat ≤ c.toNat := (Char.isDigit_iff_toNat.mp (hdigits c List.mem_cons_self)).1
    have hnext : (acc : Int) * 10 + (c.toNat - '0'.toNat) =
        (10 * acc + (c.toNat - '0'.toNat) : Nat) := by
      omega
    rw [List.foldl_cons, hnext, ih fun c hc => hdigits c (List.mem_cons_of_mem _ hc),
      Nat.ofDigitChars_cons]

/-- A number that fits is read as it was written. -/
theorem readInt64?_toString (hfits : n < 2 ^ 63) :
    readInt64? (toString n).toList = some (n : Int) := by
  have hdigits : ∀ c ∈ (toString n).toList, c.isDigit = true := fun c => isDigit_of_mem_toString
  have hne : (toString n).toList ≠ [] := by
    rw [toList_toString]
    exact Nat.toDigits_ne_nil
  have hvalue := foldl_digits hdigits 0
  rw [toList_toString, Nat.ofDigitChars_ten_toDigits, ← toList_toString, Nat.cast_zero] at hvalue
  generalize (toString n).toList = digits at *
  cases digits with
  | nil => exact absurd rfl hne
  | cons c digits =>
    have hunsigned : c ≠ '-' ∧ c ≠ '+' := by
      constructor <;> rintro rfl <;> exact absurd (hdigits _ List.mem_cons_self) (by decide)
    have hall : ((c :: digits).any fun c => !c.isDigit) = false := by
      simpa using hdigits
    have hrange : -2 ^ 63 ≤ (n : Int) ∧ (n : Int) < 2 ^ 63 := by omega
    unfold readInt64?
    split
    rename_i negative unsigned hsign
    split at hsign
    · rename_i heq
      exact absurd (List.cons.inj heq).1 hunsigned.1
    · rename_i heq
      exact absurd (List.cons.inj heq).1 hunsigned.2
    · obtain ⟨rfl, rfl⟩ := Prod.mk.inj hsign
      simp only [hall, hvalue, if_pos hrange, List.isEmpty_cons, Bool.false_eq_true, or_self,
        if_false]

end Decimal

/-! ## Variants -/

section Variants

variable {base : String} {gpus other : Nat}

/-- A variant has the GPUs that its name says. -/
theorem Function.gpuCount_variant {f : Function} (hname : f.name = gpuVariant base gpus)
    (hfits : gpus < 2 ^ 63) : f.gpuCount = some (gpus : Int) := by
  have hsuffix : (f.name.toList.reverse.takeWhile (· ≠ '-')).reverse = (toString gpus).toList := by
    have hdigits : ∀ c ∈ (toString gpus).toList.reverse, decide (c ≠ '-') = true := by
      intro c hmem
      have hdigit := isDigit_of_mem_toString (List.mem_reverse.mp hmem)
      refine decide_eq_true ?_
      rintro rfl
      exact absurd hdigit (by decide)
    rw [hname, gpuVariant, String.toList_append, String.toList_append, List.append_assoc,
      List.reverse_append, List.reverse_append, List.append_assoc,
      List.takeWhile_append_of_pos hdigits, show "-gpu-".toList.reverse = '-' :: "upg-".toList from rfl]
    simp
  rw [Function.gpuCount, hsuffix, readInt64?_toString hfits]

theorem gpuVariant_inj (heq : gpuVariant base gpus = gpuVariant base other) : gpus = other := by
  have hlist := congrArg String.toList heq
  simp only [gpuVariant, String.toList_append] at hlist
  exact (append_toString_inj (by simp) (by simp) hlist).2

/-- Slots of variants of one function have different IDs. -/
theorem invocationId_variant_inj {granularity : Granularity} {step step' slot slot' : Nat}
    (heq : invocationId (gpuVariant base gpus) granularity step slot =
      invocationId (gpuVariant base other) granularity step' slot') :
    gpus = other ∧ step = step' ∧ slot = slot' := by
  obtain ⟨htag, -, hstep, hslot⟩ := invocationId_inj heq
  exact ⟨gpuVariant_inj htag, hstep, hslot⟩

end Variants
end TraceReplay
