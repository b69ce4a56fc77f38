import TraceReplay.CommandLine
import TraceReplay.Proofs.Function.Persisted
import TraceReplay.Proofs.Specification.Drawn
import TraceReplay.Proofs.Specification.Fits
import TraceReplay.Proofs.Synthesis.Ramp

/-!
# Synthetic traces can be replayed

The functions of a ramp have names of their own alphabet, are loaded from the file they are
written to as they were, and whatever is drawn for them, their slots are those of the ramp.
-/

namespace TraceReplay

/-! ## Draws -/

namespace Generator

/-- What every candidate that is not rejected has, the first of them has. -/
theorem holds_firstOf {α : Type} (candidate : Generator → Option α × Generator) {last : α}
    {Holds : α → Prop} (hcandidate : ∀ g x, (candidate g).1 = some x → Holds x)
    (hlast : Holds last) (attempts : Nat) (g : Generator) :
    Holds (firstOf candidate last attempts g).1 := by
  induction attempts generalizing g with
  | zero => exact hlast
  | succ attempts ih =>
    rw [firstOf]
    split
    next x next hx => exact hcandidate g x (congrArg Prod.fst hx)
    next => exact ih _

/-- What every draw has, all draws of a list have. -/
theorem holds_drawList {α : Type} {draw : Generator → α × Generator} {Holds : α → Prop}
    (hdraw : ∀ g, Holds (draw g).1) (count : Nat) (g : Generator) :
    ∀ x ∈ (g.drawList draw count).1, Holds x := by
  induction count generalizing g with
  | zero => exact fun _ hmem => absurd hmem List.not_mem_nil
  | succ count ih => exact List.forall_mem_cons.mpr ⟨hdraw g, ih _⟩

theorem alphanumeric_mem (g : Generator) : g.alphanumeric.1 ∈ alphanumerics :=
  holds_firstOf alphanumericCandidate (fun _ _ hletter => List.mem_of_getElem? hletter)
    (by decide +kernel) 4096 g

end Generator

theorem PercentileStats.finite_fixed (value : UInt32) : (fixed value).Finite := by
  intro percentile hmem
  obtain rfl := List.mem_singleton.mp hmem
  decide +kernel

namespace Ramp

/-! ## Names -/

/-- A name as ramps draw them: lower-case letters and digits. -/
structure Names (name : String) : Prop where
  length : name.length = 64
  letters : ∀ c ∈ name.toList, c.isLower ∨ c.isDigit

theorem isLower_or_isDigit_toLower {c : Char} (hletter : c ∈ Generator.alphanumerics) :
    c.toLower.isLower ∨ c.toLower.isDigit := by
  have hall : Generator.alphanumerics.all fun c => c.toLower.isLower || c.toLower.isDigit := by
    decide +kernel
  simpa using List.all_eq_true.mp hall c hletter

theorem names_drawName (g : Generator) : Names (drawName g).1 where
  length := by
    rw [drawName, String.length_ofList, List.length_map, Generator.length_drawList, nameLength]
  letters c hmem := by
    rw [drawName, String.toList_ofList] at hmem
    obtain ⟨letter, hletter, rfl⟩ := List.mem_map.mp hmem
    exact isLower_or_isDigit_toLower
      (Generator.holds_drawList Generator.alphanumeric_mem _ _ _ hletter)

/-! ## Functions -/

/-- A function of the ramp: its name, its load, and tables with one value each. -/
structure Loads (r : Ramp) (load : List Nat) (f : Function) : Prop where
  name : Names f.name
  invocations : f.invocationStats.map UInt64.toNat = load
  runtime : f.runtimeStats = .fixed r.execution
  memory : f.memoryStats = .fixed r.memory

theorem Loads.finite {r : Ramp} {load : List Nat} {f : Function} (hloads : r.Loads load f) :
    f.Finite where
  runtime := hloads.runtime ▸ PercentileStats.finite_fixed r.execution
  memory := hloads.memory ▸ PercentileStats.finite_fixed r.memory

theorem map_toNat_ofNat {counts : List Nat} (hfits : ∀ count ∈ counts, count < 2 ^ 64) :
    (counts.map UInt64.ofNat).map UInt64.toNat = counts := by
  calc (counts.map UInt64.ofNat).map UInt64.toNat
      = counts.map fun count => (UInt64.ofNat count).toNat := List.map_map
    _ = counts.map id := List.map_congr_left fun count hmem =>
        UInt64.toNat_ofNat_of_lt' (hfits count hmem)
    _ = counts := List.map_id counts

theorem synthesize_loads {r : Ramp} {load : List Nat} (hload : r.load = .ok load)
    (hfits : ∀ count ∈ load, count < 2 ^ 64) :
    ∃ functions, r.synthesize = .ok functions ∧ functions.length = r.functions ∧
      ∀ f ∈ functions, r.Loads load f := by
  refine ⟨_, by rw [synthesize, hload]; rfl, ?_, fun f hmem => ?_⟩
  · rw [List.length_map, Generator.length_drawList]
  · obtain ⟨name, hname, rfl⟩ := List.mem_map.mp hmem
    exact ⟨Generator.holds_drawList names_drawName _ _ _ hname, map_toNat_ofNat hfits, rfl, rfl⟩

end Ramp

/-! ## Schedules -/

/-- A specification that passes validation has as many slots in each step as are requested. -/
theorem Specification.map_length_slots {spec : Specification} {f : Function}
    (hvalid : spec.validate f = .ok ()) :
    spec.slots.map List.length = f.invocationStats.map UInt64.toNat := by
  obtain ⟨hgaps, hslots, hnone⟩ := matches_of_validate hvalid
  refine List.ext_getElem (by simpa using hslots) fun step hstep hcount => ?_
  rw [List.length_map] at hcount
  obtain ⟨_, slotStep, -, hslot, -, hlength⟩ :=
    lengths_of_firstMismatch hgaps hslots hnone (List.getElem?_eq_getElem hcount)
  obtain ⟨_, rfl⟩ := List.getElem?_eq_some_iff.mp hslot
  simpa using hlength

/-- What one function of the ramp is replayed with. -/
structure Ramp.Schedules (r : Ramp) (load : List Nat) (f : Function) (spec : Specification) :
    Prop where
  valid : spec.validate f = .ok ()
  counts : spec.slots.map List.length = load
  slots : ∀ step ∈ spec.slots, ∀ slot ∈ step, slot = ⟨r.execution, r.memory, none⟩

theorem Ramp.Loads.generate {r : Ramp} {load : List Nat} {f : Function} (hloads : r.Loads load f)
    (shape : ArrivalShape) (granularity : Granularity) (g : Generator) :
    ∃ spec, (generate f shape granularity g).1 = .ok spec ∧ r.Schedules load f spec := by
  have hdrawable : f.Drawable := .inr ⟨by rw [hloads.runtime]; rfl, by rw [hloads.memory]; rfl⟩
  obtain ⟨spec, hspec⟩ := exists_generate hdrawable shape granularity g
  have hvalid := validate_of_generate hspec
  refine ⟨spec, hspec, hvalid, ?_, fun step hstep slot hslot => ?_⟩
  · rw [Specification.map_length_slots hvalid, hloads.invocations]
  · rcases generate_cases f shape granularity g with ⟨drawn, hdrawn, hschedules, -⟩ | herror
    · obtain rfl : spec = drawn := Except.ok.inj (hspec.symm.trans hdrawn)
      obtain ⟨hstats, hruntime, hmemory⟩ := hschedules.drawn step hstep slot hslot
      rw [hloads.runtime] at hruntime
      rw [hloads.memory] at hmemory
      obtain ⟨runtime, memory, stats⟩ := slot
      simp_all [PercentileStats.fixed]
    · exact absurd (hspec.symm.trans herror) (by simp)

/-! ## Saved traces -/

/-- The trace can be written wherever a file can be created, and is then loaded as it was. -/
structure Ramp.Saves (r : Ramp) (functions : List Function) : Prop where
  writes : ∀ (site : Site) (output : String),
    (∃ text after, (CommandLine.Command.synthesize r output).execute site = (.ok text, after)) ↔
      ∃ created, site.files.writeFor output [] = .ok created
  loads : ∀ (site after : Site) (output text : String),
    (CommandLine.Command.synthesize r output).execute site = (.ok text, after) →
      loadFunctions after.files output = .ok functions

theorem CommandLine.execute_synthesize_iff {r : Ramp} {functions : List Function}
    (hfunctions : r.synthesize = .ok functions) {site after : Site} {output : String} :
    (∃ text, (Command.synthesize r output).execute site = (.ok text, after)) ↔
      ∃ saved, saveFunctions site.files output functions = .ok saved ∧
        after = { site with files := saved } := by
  simp only [Command.execute, writeTrace, hfunctions, bind, Except.bind]
  cases saveFunctions site.files output functions with
  | error error => simp
  | ok saved => simp [eq_comm]

theorem Ramp.saves_of_finite {r : Ramp} {functions : List Function}
    (hfunctions : r.synthesize = .ok functions) (hfinite : ∀ f ∈ functions, f.Finite) :
    r.Saves functions where
  writes site output := by
    rw [← (persistent_of_finite hfinite).saves, exists_comm]
    simp [CommandLine.execute_synthesize_iff hfunctions]
  loads site after output text hexecute := by
    obtain ⟨saved, hsave, rfl⟩ :=
      (CommandLine.execute_synthesize_iff hfunctions).mp ⟨text, hexecute⟩
    exact (persistent_of_finite hfinite).loads _ _ _ hsave

/-- Without overflow, a ramp with a positive step yields as many functions as it asks for, each
with a name of lower-case letters and digits.  Their trace is loaded as it was written, and
whatever is drawn for one of them, it has the slots that the ramp says. -/
theorem Ramp.synthesize_runnable {r : Ramp} (hstep : 0 < r.step)
    (hfits : ∀ rate ∈ r.rates, 60 * rate < 2 ^ 64) :
    ∃ load functions, r.load = .ok load ∧ r.synthesize = .ok functions ∧
      functions.length = r.functions ∧ r.Saves functions ∧
      ∀ f ∈ functions, r.Loads load f ∧
        ∀ (shape : ArrivalShape) (granularity : Granularity) (g : Generator),
          ∃ spec, (generate f shape granularity g).1 = .ok spec ∧ r.Schedules load f spec := by
  have hcounts : ∀ count ∈ hold r.duration (r.rates.map (60 * ·)), count < 2 ^ 64 := by
    intro count hmem
    obtain ⟨level, hlevel, hheld⟩ := List.mem_flatMap.mp hmem
    obtain ⟨rate, hrate, rfl⟩ := List.mem_map.mp hlevel
    rw [List.eq_of_mem_replicate hheld]
    exact hfits rate hrate
  obtain ⟨functions, hfunctions, hlength, hloads⟩ := synthesize_loads (load_eq hstep) hcounts
  exact ⟨_, functions, load_eq hstep, hfunctions, hlength,
    saves_of_finite hfunctions fun f hf => (hloads f hf).finite,
    fun f hf => ⟨hloads f hf, (hloads f hf).generate⟩⟩

/-- Two functions that rest for a minute; no whole step leads to the last rate. -/
def Ramp.fromRest : Ramp where
  functions := 2
  beginning := 0
  target := 3
  step := 2
  duration := 1
  execution := 100
  memory := 128
  seed := 123

theorem Ramp.synthesize_runnable_fromRest :
    ∃ functions, fromRest.synthesize = .ok functions ∧ functions.length = 2 ∧
      fromRest.Saves functions ∧
      ∀ f ∈ functions, Names f.name ∧
        ∃ spec, (generate f .exponential .minute (.ofSeed 42)).1 = .ok spec ∧
          spec.validate f = .ok () ∧ spec.slots.map List.length = [0, 120] := by
  have hfits : ∀ rate ∈ fromRest.rates, 60 * rate < 2 ^ 64 := fun rate hrate =>
    lt_of_le_of_lt (Nat.mul_le_mul_left 60 (le_target_of_mem (by decide) hrate)) (by decide)
  obtain ⟨load, functions, hload, hfunctions, hlength, hsaves, hruns⟩ :=
    Ramp.synthesize_runnable (by decide) hfits
  obtain rfl : load = [0, 120] := Except.ok.inj (hload.symm.trans (by cbv))
  refine ⟨functions, hfunctions, hlength, hsaves, fun f hf => ?_⟩
  obtain ⟨hloads, hgenerates⟩ := hruns f hf
  obtain ⟨spec, hspec, hschedules⟩ := hgenerates .exponential .minute (.ofSeed 42)
  exact ⟨hloads.name, spec, hspec, hschedules.valid, hschedules.counts⟩

end TraceReplay
