import Mathlib
import TraceReplay.Synthesis

/-!
# The load of a ramp

The walk over the rates of a ramp has a closed form, and with it the load: the minute decides
its rate by one division, and the last rate is the target if whole steps lead to it.
-/

namespace TraceReplay.Ramp

/-- How many steps fit between the first rate and the target. -/
def steps (r : Ramp) : Nat := (r.target - r.beginning) / r.step

/-! ## The rates -/

theorem climb_eq {target step rate : Nat} (hstep : 0 < step) (hrate : rate ≤ target) :
    climb target step rate = List.range' rate ((target - rate) / step + 1) step := by
  induction rate using climb.induct target step with
  | case1 rate _ ih =>
    rw [climb, if_pos ⟨hstep, hrate⟩, List.range'_succ]
    rcases Nat.lt_or_ge target (rate + step) with hlast | hnext
    · -- no further step fits
      rw [climb, if_neg (by omega), Nat.div_eq_of_lt (by omega), List.range'_zero]
    · have hcount : (target - rate) / step = (target - (rate + step)) / step + 1 := by
        rw [show target - rate = target - (rate + step) + step by omega,
          Nat.add_div_right _ hstep]
      rw [ih hnext, hcount]
  | case2 rate hover => exact absurd ⟨hstep, hrate⟩ hover

theorem climb_of_lt {target step rate : Nat} (hrate : target < rate) :
    climb target step rate = [] := by
  rw [climb, if_neg (by omega)]

variable {r : Ramp}

theorem rates_eq (hstep : 0 < r.step) (hreach : r.beginning ≤ r.target) :
    r.rates = List.range' r.beginning (r.steps + 1) r.step :=
  climb_eq hstep hreach

theorem rates_eq_nil_iff (hstep : 0 < r.step) : r.rates = [] ↔ r.target < r.beginning := by
  constructor
  · intro hrates
    by_contra hreach
    rw [rates_eq hstep (Nat.le_of_not_lt hreach)] at hrates
    exact absurd hrates (by simp)
  · exact climb_of_lt

theorem nodup_rates (hstep : 0 < r.step) : r.rates.Nodup := by
  rcases Nat.lt_or_ge r.target r.beginning with hbeyond | hreach
  · rw [(rates_eq_nil_iff hstep).mpr hbeyond]
    exact List.nodup_nil
  · rw [rates_eq hstep hreach]
    exact List.nodup_range' r.step hstep

theorem getElem?_rates (hstep : 0 < r.step) {k rate : Nat} (hrate : r.rates[k]? = some rate) :
    k ≤ r.steps ∧ rate = r.beginning + k * r.step := by
  rcases Nat.lt_or_ge r.target r.beginning with hbeyond | hreach
  · rw [(rates_eq_nil_iff hstep).mpr hbeyond] at hrate
    exact absurd hrate nofun
  · rw [rates_eq hstep hreach, List.getElem?_eq_some_iff] at hrate
    obtain ⟨hk, rfl⟩ := hrate
    rw [List.length_range'] at hk
    exact ⟨by omega, by simp [Nat.mul_comm]⟩

theorem le_target_of_mem (hstep : 0 < r.step) {rate : Nat} (hrate : rate ∈ r.rates) :
    rate ≤ r.target := by
  have hreach : r.beginning ≤ r.target := by
    by_contra hbeyond
    rw [(rates_eq_nil_iff hstep).mpr (Nat.lt_of_not_le hbeyond)] at hrate
    exact absurd hrate List.not_mem_nil
  obtain ⟨k, hk⟩ := List.mem_iff_getElem?.mp hrate
  obtain ⟨hk, rfl⟩ := getElem?_rates hstep hk
  calc r.beginning + k * r.step
      ≤ r.beginning + r.steps * r.step := by gcongr
    _ ≤ r.beginning + (r.target - r.beginning) := by gcongr; exact Nat.div_mul_le_self _ _
    _ = r.target := by omega

/-! ## Levels held for some minutes -/

section Hold

variable {α : Type} (duration : Nat) (levels : List α)

/-- Every level, held for `duration` minutes. -/
def hold : List α := levels.flatMap (List.replicate duration)

@[simp]
theorem length_hold : (hold duration levels).length = duration * levels.length := by
  simp [hold, List.length_flatMap, Nat.mul_comm]

variable {duration levels}

theorem getElem?_hold {k : Nat} {level : α} (hlevel : (hold duration levels)[k]? = some level) :
    levels[k / duration]? = some level := by
  have hduration : 0 < duration := by
    have hk := (List.getElem?_eq_some_iff.mp hlevel).1
    rw [length_hold] at hk
    exact Nat.pos_of_mul_pos_right (Nat.zero_lt_of_lt hk)
  induction levels generalizing k with
  | nil => exact absurd hlevel nofun
  | cons first levels ih =>
    rw [hold, List.flatMap_cons] at hlevel
    rcases Nat.lt_or_ge k duration with hfirst | hlater
    · rw [List.getElem?_append_left (by simpa using hfirst)] at hlevel
      rw [Nat.div_eq_of_lt hfirst, ← hlevel]
      simp [hfirst]
    · rw [List.getElem?_append_right (by simpa using hlater), List.length_replicate] at hlevel
      rw [Nat.div_eq_sub_div hduration hlater, List.getElem?_cons_succ]
      exact ih hlevel

theorem count_hold [BEq α] [LawfulBEq α] (hlevels : levels.Nodup) {level : α}
    (hmem : level ∈ levels) : (hold duration levels).count level = duration := by
  induction levels with
  | nil => exact absurd hmem List.not_mem_nil
  | cons first levels ih =>
    obtain ⟨hfirst, hlevels⟩ := List.nodup_cons.mp hlevels
    rw [hold, List.flatMap_cons, List.count_append]
    rcases List.mem_cons.mp hmem with rfl | hmem
    · have hlater : (hold duration levels).count level = 0 := by
        refine List.count_eq_zero.mpr fun hheld => hfirst ?_
        obtain ⟨other, hother, hsame⟩ := List.mem_flatMap.mp hheld
        rwa [List.eq_of_mem_replicate hsame]
      rw [List.count_replicate_self, ← hold, hlater, Nat.add_zero]
    · have hne : first ≠ level := fun hsame => hfirst (hsame ▸ hmem)
      rw [List.count_replicate, if_neg (by simpa using hne), Nat.zero_add]
      exact ih hlevels hmem

end Hold

/-! ## The load -/

/-- The load of a ramp with a positive step. -/
structure Climbs (r : Ramp) (load : List Nat) : Prop where
  empty_iff : load = [] ↔ r.target < r.beginning ∨ r.duration = 0
  length : r.beginning ≤ r.target → load.length = r.duration * (r.steps + 1)
  entry : ∀ k rate, load[k]? = some rate → rate = 60 * (r.beginning + k / r.duration * r.step)
  sorted : load.Pairwise (· ≤ ·)
  held : ∀ rate ∈ load, load.count rate = r.duration
  within : ∀ rate ∈ load, rate ≤ 60 * r.target
  reaches_iff : load ≠ [] →
    (load.getLast? = some (60 * r.target) ↔ r.step ∣ r.target - r.beginning)

theorem load_eq (hstep : 0 < r.step) :
    r.load = .ok (hold r.duration (r.rates.map (60 * ·))) := by
  rw [load, if_neg (Nat.ne_of_gt hstep), hold, List.flatMap_map]

theorem entry_of_getElem? (hstep : 0 < r.step) {k rate : Nat}
    (hentry : (hold r.duration (r.rates.map (60 * ·)))[k]? = some rate) :
    k / r.duration ≤ r.steps ∧ rate = 60 * (r.beginning + k / r.duration * r.step) := by
  have hlevel := getElem?_hold hentry
  rw [List.getElem?_map, Option.map_eq_some_iff] at hlevel
  obtain ⟨level, hlevel, rfl⟩ := hlevel
  obtain ⟨hk, rfl⟩ := getElem?_rates hstep hlevel
  exact ⟨hk, rfl⟩

theorem hold_eq_nil_iff (hstep : 0 < r.step) :
    hold r.duration (r.rates.map (60 * ·)) = [] ↔ r.target < r.beginning ∨ r.duration = 0 := by
  rw [← List.length_eq_zero_iff, length_hold, List.length_map, Nat.mul_eq_zero,
    List.length_eq_zero_iff, rates_eq_nil_iff hstep, or_comm]

theorem getLast?_load (hstep : 0 < r.step) (hreach : r.beginning ≤ r.target)
    (hduration : 0 < r.duration) :
    (hold r.duration (r.rates.map (60 * ·))).getLast? =
      some (60 * (r.beginning + r.steps * r.step)) := by
  have hlength : (hold r.duration (r.rates.map (60 * ·))).length =
      r.steps * r.duration + r.duration := by
    rw [length_hold, List.length_map, rates_eq hstep hreach, List.length_range',
      Nat.mul_comm, Nat.succ_mul]
  have hminute : (r.steps * r.duration + r.duration - 1) / r.duration = r.steps :=
    Nat.div_eq_of_lt_le (by omega) (by rw [Nat.succ_mul]; omega)
  rw [List.getLast?_eq_getElem?, hlength, List.getElem?_eq_getElem (by omega),
    (entry_of_getElem? hstep (List.getElem?_eq_getElem _)).2, hminute]

theorem target_eq_iff (hreach : r.beginning ≤ r.target) :
    r.beginning + r.steps * r.step = r.target ↔ r.step ∣ r.target - r.beginning := by
  rw [Nat.dvd_iff_div_mul_eq, steps]
  omega

theorem climbs_hold (hstep : 0 < r.step) :
    r.Climbs (hold r.duration (r.rates.map (60 * ·))) where
  empty_iff := hold_eq_nil_iff hstep
  length hreach := by
    rw [length_hold, List.length_map, rates_eq hstep hreach, List.length_range']
  entry k rate hentry := (entry_of_getElem? hstep hentry).2
  sorted := by
    refine List.pairwise_iff_getElem.mpr fun i j hi hj hij => ?_
    rw [(entry_of_getElem? hstep (List.getElem?_eq_getElem hi)).2,
      (entry_of_getElem? hstep (List.getElem?_eq_getElem hj)).2]
    gcongr
  held rate hrate := by
    have hlevel : rate ∈ r.rates.map (60 * ·) := by
      obtain ⟨level, hlevel, hheld⟩ := List.mem_flatMap.mp hrate
      rwa [List.eq_of_mem_replicate hheld]
    refine count_hold ((List.nodup_map_iff fun a b hab => ?_).mpr (nodup_rates hstep)) hlevel
    simpa using hab
  within rate hrate := by
    obtain ⟨level, hlevel, hheld⟩ := List.mem_flatMap.mp hrate
    obtain ⟨base, hbase, rfl⟩ := List.mem_map.mp hlevel
    rw [List.eq_of_mem_replicate hheld]
    exact Nat.mul_le_mul_left 60 (le_target_of_mem hstep hbase)
  reaches_iff hne := by
    obtain ⟨hreach, hduration⟩ : r.beginning ≤ r.target ∧ 0 < r.duration := by
      rw [Ne, hold_eq_nil_iff hstep, not_or] at hne
      omega
    rw [getLast?_load hstep hreach hduration, ← target_eq_iff hreach, Option.some.injEq]
    omega

/-- A ramp fails exactly without a step; otherwise its load climbs from the first rate towards
the target. -/
theorem load_climbs (r : Ramp) :
    r.step = 0 ∧ r.load = .error (.config .rampStep) ∨
      0 < r.step ∧ ∃ load, r.load = .ok load ∧ r.Climbs load := by
  rcases Nat.eq_zero_or_pos r.step with hstep | hstep
  · exact .inl ⟨hstep, if_pos hstep⟩
  · exact .inr ⟨hstep, _, load_eq hstep, climbs_hold hstep⟩

/-- No whole step leads to a target of four. -/
example : load ⟨1, 1, 4, 2, 2, 100, 128, 0⟩ = .ok [60, 60, 180, 180] := by
  cbv

end TraceReplay.Ramp
