import TraceReplay.Invocation
import Mathlib

/-!
# Identities of slots

The ID of a slot can be read back from its end: its number, the number of its step, the word
for steps and whatever is left, the tag.  So different slots have different IDs, whatever
their tags look like.
-/

namespace TraceReplay

/-! ## Decimal numbers in texts -/

section Decimal

variable {n m : Nat}

theorem toList_toString (n : Nat) : (toString n).toList = Nat.toDigits 10 n := by
  rw [Nat.toString_eq_ofList_toDigits, String.toList_ofList]

theorem isDigit_of_mem_toString {c : Char} (hmem : c ∈ (toString n).toList) : c.isDigit = true := by
  rw [toList_toString] at hmem
  exact Nat.isDigit_of_mem_toDigits (by decide) (by decide) hmem

/-- A number that follows something else can be told from what comes before it. -/
theorem append_toString_inj {front front' : List Char}
    (hfront : front.reverse.takeWhile Char.isDigit = [])
    (hfront' : front'.reverse.takeWhile Char.isDigit = [])
    (heq : front ++ (toString n).toList = front' ++ (toString m).toList) :
    front = front' ∧ n = m := by
  have hdigits (n : Nat) {front : List Char} (hfront : front.reverse.takeWhile Char.isDigit = []) :
      (front ++ (toString n).toList).reverse.takeWhile Char.isDigit =
        (toString n).toList.reverse := by
    rw [List.reverse_append, List.takeWhile_append_of_pos
      fun c hc => isDigit_of_mem_toString (List.mem_reverse.mp hc), hfront, List.append_nil]
  have hnumber : (toString n).toList = (toString m).toList := by
    apply List.reverse_injective
    rw [← hdigits n hfront, heq, hdigits m hfront']
  rw [hnumber] at heq
  exact ⟨List.append_cancel_right heq, Nat.repr_injective (String.toList_injective hnumber)⟩

end Decimal

/-! ## Invocation IDs -/

section Ids

variable {tag tag' : String} {granularity granularity' : Granularity} {step step' slot slot' : Nat}

/-- Neither word for a step is the end of the other. -/
theorem append_word_inj {front front' : List Char}
    (heq : front ++ granularity.word.toList = front' ++ granularity'.word.toList) :
    front = front' ∧ granularity = granularity' := by
  obtain ⟨hfront, hword⟩ :=
    List.append_inj' heq (by cases granularity <;> cases granularity' <;> rfl)
  refine ⟨hfront, ?_⟩
  cases granularity <;> cases granularity' <;> first | rfl | exact absurd hword (by decide)

/-- An invocation ID says which slot it belongs to, and under which tag. -/
theorem invocationId_inj
    (heq : invocationId tag granularity step slot = invocationId tag' granularity' step' slot') :
    tag = tag' ∧ granularity = granularity' ∧ step = step' ∧ slot = slot' := by
  have hlist := congrArg String.toList heq
  simp only [invocationId, String.toList_append] at hlist
  obtain ⟨hstep, hslot⟩ := append_toString_inj (by simp) (by simp) hlist
  obtain ⟨hword, hstep⟩ := append_toString_inj (by cases granularity <;> simp [Granularity.word])
    (by cases granularity' <;> simp [Granularity.word]) (List.append_cancel_right hstep)
  obtain ⟨htag, hgranularity⟩ := append_word_inj hword
  exact ⟨String.toList_injective (List.append_cancel_right htag), hgranularity, hstep, hslot⟩

end Ids
end TraceReplay
