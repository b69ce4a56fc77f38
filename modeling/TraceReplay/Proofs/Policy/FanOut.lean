import TraceReplay.Policy
import Mathlib

/-!
# Turns of the replicas

Replica fan-out gives the slots of a driver to its first siblings in turn.  Numbers in a row
give each of them one turn, so after any number of slots, counted from one, two of them have
had equally many turns, or one has had one turn more than the other.
-/

namespace TraceReplay.Policy

/-! ## Remainders of numbers in a row -/

section Remainders

variable {count : Nat}

/-- As many numbers in a row as there are remainders have each remainder once. -/
theorem map_mod_range'_perm (hpos : 0 < count) (first : Nat) :
    ((List.range' first count).map (· % count)).Perm (List.range count) := by
  have hinjective : ∀ x ∈ List.range' first count, ∀ y ∈ List.range' first count,
      x % count = y % count → x = y := by
    intro x hx y hy hsame
    obtain ⟨hx, hx'⟩ := List.mem_range'_1.mp hx
    obtain ⟨hy, hy'⟩ := List.mem_range'_1.mp hy
    apply Nat.ModEq.eq_of_abs_lt hsame
    rw [abs_lt]
    omega
  have hnodup : ((List.range' first count).map (· % count)).Nodup :=
    List.Nodup.map_on hinjective (List.nodup_range' _)
  have hsubset : (List.range' first count).map (· % count) ⊆ List.range count := by
    intro remainder hmem
    obtain ⟨number, -, rfl⟩ := List.mem_map.mp hmem
    exact List.mem_range.mpr (Nat.mod_lt _ hpos)
  apply (hnodup.subperm hsubset).perm_of_length_le
  simp

/-- Of the numbers up to `total` as many have a remainder as the quotient says, rounded up or
down. -/
theorem countP_mod_range' (hpos : 0 < count) {place : Nat} (hplace : place < count)
    (total : Nat) :
    (List.range' 1 total).countP (· % count = place) = total / count ∨
      (List.range' 1 total).countP (· % count = place) = total ⌈/⌉ count := by
  -- A number has the remainder `place` if the one before it has the remainder before `place`.
  have hbefore (number : Nat) :
      (1 + number) % count = place ↔ number ≡ place + (count - 1) [MOD count] := by
    calc (1 + number) % count = place
        ↔ number + 1 ≡ place [MOD count] := by
          rw [Nat.ModEq, Nat.mod_eq_of_lt hplace, Nat.add_comm]
      _ ↔ number + 1 ≡ place + (count - 1) + 1 [MOD count] := by
          rw [Nat.add_assoc, Nat.sub_add_cancel hpos]
          exact ⟨fun h => h.trans (Nat.add_modEq_right.symm), fun h => h.trans Nat.add_modEq_right⟩
      _ ↔ number ≡ place + (count - 1) [MOD count] :=
          ⟨Nat.ModEq.add_right_cancel' 1, Nat.ModEq.add_right 1⟩
  have hcount : (List.range' 1 total).countP (· % count = place) =
      total.count (· ≡ place + (count - 1) [MOD count]) := by
    rw [List.range'_eq_map_range, List.countP_map, Nat.count]
    apply List.countP_congr
    intro number _
    simpa using hbefore number
  rw [hcount, Nat.count_modEq_card total hpos, Nat.ceilDiv_eq_add_pred_div]
  split
  case isFalse => exact .inl rfl
  case isTrue hless =>
    right
    have hrest : 0 < total % count := Nat.zero_lt_of_lt hless
    have hbelow := Nat.mod_lt total hpos
    have hdivide := Nat.div_add_mod total count
    symm
    apply Nat.div_eq_of_lt_le
    · rw [Nat.add_mul, Nat.mul_comm]
      omega
    · rw [Nat.add_mul, Nat.add_mul, Nat.mul_comm]
      omega

end Remainders

/-! ## Verdicts -/

variable {replicas : Nat} {siblings : List Function}

/-- The slot with a number goes to the sibling whose turn it is. -/
theorem resolve_replicaFanOut (hreplicas : 0 < replicas) (hsiblings : siblings ≠ [])
    (f : Function) (number : Nat) :
    ∃ target, siblings[number % min replicas siblings.length]? = some target ∧
      ((replicaFanOut replicas).resolve ⟨f, siblings, number⟩).verdict =
        .fire target (some (number % min replicas siblings.length)) := by
  have hpos : 0 < min replicas siblings.length :=
    Nat.lt_min.mpr ⟨hreplicas, List.length_pos_iff.mpr hsiblings⟩
  have hplace : number % min replicas siblings.length < siblings.length :=
    (Nat.mod_lt number hpos).trans_le (Nat.min_le_right _ _)
  have htarget := List.getElem?_eq_getElem hplace
  refine ⟨_, htarget, ?_⟩
  change (resolveReplicaFanOut replicas ⟨f, siblings, number⟩).verdict = _
  unfold resolveReplicaFanOut
  simp only [htarget, if_neg hpos.ne']

/-- Slots with numbers in a row go to the first siblings, to each of them once. -/
theorem resolve_replicaFanOut_perm (hreplicas : 0 < replicas) (hsiblings : siblings ≠ [])
    (f : Function) (first : Nat) :
    ((List.range' first (min replicas siblings.length)).map fun number =>
        ((replicaFanOut replicas).resolve ⟨f, siblings, number⟩).verdict).Perm
      ((siblings.take (min replicas siblings.length)).mapIdx fun place target =>
        .fire target (some place)) := by
  set count := min replicas siblings.length with hcount
  have hpos : 0 < count := Nat.lt_min.mpr ⟨hreplicas, List.length_pos_iff.mpr hsiblings⟩
  have hturn (number : Nat) : some ((replicaFanOut replicas).resolve ⟨f, siblings, number⟩).verdict =
      siblings[number % count]?.map fun target => .fire target (some (number % count)) := by
    obtain ⟨target, htarget, hverdict⟩ := resolve_replicaFanOut hreplicas hsiblings f number
    rw [hverdict, htarget, Option.map_some]
  have hround : ((List.range count).map fun place =>
      siblings[place]?.map fun target => Verdict.fire target (some place)) =
        ((siblings.take count).mapIdx fun place target => .fire target (some place)).map some := by
    have hle : count ≤ siblings.length := Nat.min_le_right _ _
    apply List.ext_getElem (by simp [hle])
    intro place hplace hplace'
    have hless : place < siblings.length := by
      have hrange : place < count := by simpa using hplace
      omega
    simp [hless]
  apply (List.map_perm_map_iff (Option.some_injective _)).mp
  rw [← hround, List.map_map]
  simp only [Function.comp_def, hturn]
  have hturns := (map_mod_range'_perm hpos first).map fun place =>
    siblings[place]?.map fun target => Verdict.fire target (some place)
  rwa [List.map_map] at hturns

end TraceReplay.Policy
