import TraceReplay.Proofs.Files.Shape
import TraceReplay.Proofs.Json.Document

/-!
# Saved functions

Functions whose percentiles are finite are loaded from the file they are saved in as they were,
whatever their names, addresses and numbers.  Percentiles that have been loaded are finite, so
whatever a file held, its functions can be saved and loaded again.
-/

namespace TraceReplay

open Document

/-- All percentiles are finite. -/
def PercentileStats.Finite (s : PercentileStats) : Prop :=
  ∀ percentile ∈ s.percentiles, (Binary64.ofFloat? percentile).isSome

instance (s : PercentileStats) : Decidable s.Finite :=
  inferInstanceAs (Decidable (∀ _ ∈ _, _))

/-- All percentiles of both tables are finite. -/
structure Function.Finite (f : Function) : Prop where
  runtime : f.runtimeStats.Finite
  memory : f.memoryStats.Finite

instance (f : Function) : Decidable f.Finite :=
  decidable_of_iff (f.runtimeStats.Finite ∧ f.memoryStats.Finite)
    ⟨fun hfinite => ⟨hfinite.1, hfinite.2⟩, fun hfinite => ⟨hfinite.runtime, hfinite.memory⟩⟩

/-! ## Tables -/

namespace PercentileStats

theorem writable_toJson (s : PercentileStats) : Json.Writable s.toJson := by
  refine Json.writable_record fun member hmember => ?_
  simp only [List.mem_cons, List.not_mem_nil, or_false] at hmember
  rcases hmember with rfl | rfl
  · exact Json.writable_list Json.writable_ofFloat _
  · exact Json.writable_list (fun _ => Json.writable_ofInt _) _

theorem read_toJson {s : PercentileStats} (hfinite : s.Finite) : read s.toJson = some s := by
  have hpercentiles : listOf real? (Json.list .ofFloat s.percentiles) = some s.percentiles :=
    Json.listOf_list fun percentile hmem => Json.real?_ofFloat (hfinite percentile hmem)
  have hvalues : listOf uint32? (Json.list .ofUInt32 s.values) = some s.values :=
    Json.listOf_list fun value _ => Json.uint32?_ofUInt32 value
  rw [read, toJson, Json.fields_record]
  simp [lookup_cons_self, lookup_cons_ne, required, hpercentiles, hvalues]

theorem finite_of_read {value : Json} {s : PercentileStats} (hread : read value = some s) :
    s.Finite := by
  intro percentile hmem
  simp only [read, Option.bind_eq_bind, Option.bind_eq_some_iff] at hread
  obtain ⟨fields, -, hread⟩ := hread
  split at hread
  next percentiles values =>
    simp only [Option.bind_eq_some_iff] at hread
    obtain ⟨_, hpercentiles, _, -, hs⟩ := hread
    obtain rfl := Option.some.inj hs
    cases percentiles with
    | none => exact absurd hpercentiles nofun
    | some percentiles =>
      obtain ⟨item, hitem⟩ := exists_of_mem_listOf hpercentiles hmem
      exact Json.isSome_ofFloat?_of_real? hitem
  next => exact absurd hread nofun

end PercentileStats

/-! ## Functions -/

namespace Function

variable {f : Function}

theorem writable_toJson (f : Function) : Json.Writable f.toJson := by
  refine Json.writable_record fun member hmember => ?_
  simp only [List.mem_cons, List.not_mem_nil, or_false] at hmember
  rcases hmember with rfl | rfl | rfl | rfl | rfl | rfl | rfl | rfl
  · exact Json.writable_ofText _
  · exact Json.writable_ofText _
  · exact Json.writable_list (fun _ => Json.writable_ofInt _) _
  · exact Json.writable_list (fun _ => Json.writable_ofInt _) _
  · exact Json.writable_list (fun _ => Json.writable_ofInt _) _
  · exact Json.writable_list (fun _ => Json.writable_ofInt _) _
  · exact f.runtimeStats.writable_toJson
  · exact f.memoryStats.writable_toJson

/-- A record is read as the function whose parts its fields are read as. -/
theorem read_of_fields {ν : Type} [Document ν] {value name endpoint invocationStats batchStats
    iterationStats deadlineStats runtimeStats memoryStats : ν}
    (hfields : fields ["name", "endpoint", "invocation_stats", "batch_stats", "iteration_stats",
        "deadline_stats", "runtime_stats", "memory_stats"] value =
      some [some name, some endpoint, some invocationStats, some batchStats, some iterationStats,
        some deadlineStats, some runtimeStats, some memoryStats])
    (hname : text? name = some f.name) (hendpoint : text? endpoint = some f.endpoint)
    (hinvocations : listOf uint64? invocationStats = some f.invocationStats)
    (hbatches : listOf int64? batchStats = some f.batchStats)
    (hiterations : listOf int64? iterationStats = some f.iterationStats)
    (hdeadlines : listOf int64? deadlineStats = some f.deadlineStats)
    (hruntime : PercentileStats.read runtimeStats = some f.runtimeStats)
    (hmemory : PercentileStats.read memoryStats = some f.memoryStats) :
    Function.read value = some f := by
  rw [Function.read, hfields]
  simp [required, withDefault, hname, hendpoint, hinvocations, hbatches, hiterations, hdeadlines,
    hruntime, hmemory]

theorem read_toJson (hfinite : f.Finite) : Function.read f.toJson = some f := by
  have hfields : fields ["name", "endpoint", "invocation_stats", "batch_stats", "iteration_stats",
        "deadline_stats", "runtime_stats", "memory_stats"] f.toJson =
      some [some (.ofText f.name), some (.ofText f.endpoint),
        some (.list .ofUInt64 f.invocationStats), some (.list .ofInt64 f.batchStats),
        some (.list .ofInt64 f.iterationStats), some (.list .ofInt64 f.deadlineStats),
        some f.runtimeStats.toJson, some f.memoryStats.toJson] := by
    rw [toJson, Json.fields_record]
    simp [lookup_cons_self, lookup_cons_ne]
  have hintegers (xs : List Int64) : listOf int64? (Json.list .ofInt64 xs) = some xs :=
    Json.listOf_list fun n _ => Json.int64?_ofInt64 n
  exact read_of_fields hfields (Json.text?_ofText _) (Json.text?_ofText _)
    (Json.listOf_list fun n _ => Json.uint64?_ofUInt64 n) (hintegers _) (hintegers _) (hintegers _)
    (PercentileStats.read_toJson hfinite.runtime) (PercentileStats.read_toJson hfinite.memory)

theorem finite_of_read {value : Json} (hread : Function.read value = some f) : f.Finite := by
  have htable {table : Option Json} {s : PercentileStats}
      (hs : withDefault PercentileStats.read .empty table = some s) : s.Finite := by
    cases table with
    | none =>
      obtain rfl := Option.some.inj hs
      exact fun percentile hmem => absurd hmem List.not_mem_nil
    | some table => exact PercentileStats.finite_of_read hs
  simp only [Function.read, Option.bind_eq_bind, Option.bind_eq_some_iff] at hread
  obtain ⟨fields, -, hread⟩ := hread
  split at hread
  next =>
    simp only [Option.bind_eq_some_iff] at hread
    obtain ⟨_, -, _, -, _, -, _, -, _, -, _, -, _, hruntime, _, hmemory, hf⟩ := hread
    obtain rfl := Option.some.inj hf
    exact ⟨htable hruntime, htable hmemory⟩
  next => exact absurd hread nofun

/-! ## Lists of functions -/

variable {functions : List Function}

/-- What is read from the text of a list of functions is the list. -/
theorem parseList_renderList (hfinite : ∀ f ∈ functions, f.Finite) :
    parseList (renderList functions) = some functions := by
  rw [parseList, renderList, Json.parse_pretty (Json.writable_list writable_toJson _),
    Option.bind_eq_bind, Option.bind_some]
  exact Json.listOf_list fun f hf => read_toJson (hfinite f hf)

/-- However a list of functions was written, its percentiles are finite. -/
theorem finite_of_parseList {text : Bytes} (hparse : parseList text = some functions) :
    ∀ f ∈ functions, f.Finite := by
  intro f hf
  obtain ⟨value, -, hlist⟩ := Option.bind_eq_some_iff.mp hparse
  obtain ⟨item, hitem⟩ := exists_of_mem_listOf hlist hf
  exact finite_of_read hitem

end Function

/-! ## Files -/

variable {files saved : Files} {path : String} {functions : List Function}

theorem Files.readFor_of_writeFor {text : Bytes} {unreadable : ReplayError}
    (hwrite : files.writeFor path text = .ok saved) :
    saved.readFor path unreadable = .ok text := by
  obtain ⟨location, hlocate, hentry, hnamed, rfl⟩ := write_cases (write_of_writeFor hwrite)
  have hwritten : (files.set location (.file text)).entryAt location = some (.file text) := by
    rw [entryAt_set (ne_nil_of_entryAt hentry), if_pos rfl]
  have hfile : (files.set location (.file text)).HasFile path location :=
    ⟨(Grows.set_file hentry text).locate hlocate, ⟨text, hwritten⟩, hnamed⟩
  rw [readFor, hfile.read hwritten]

theorem loadFunctions_of_writeFor {text : Bytes} (hwrite : files.writeFor path text = .ok saved) :
    loadFunctions saved path = .ok functions ↔ Function.parseList text = some functions := by
  rw [loadFunctions, Files.readFor_of_writeFor hwrite]
  simp only [bind, Except.bind]
  cases Function.parseList text <;> simp

/-- The functions can be saved wherever a file can be created, and are then loaded from it. -/
structure Persistent (functions : List Function) : Prop where
  saves : ∀ (files : Files) (path : String),
    (∃ saved, saveFunctions files path functions = .ok saved) ↔
      ∃ created, files.writeFor path [] = .ok created
  loads : ∀ (files saved : Files) (path : String),
    saveFunctions files path functions = .ok saved → loadFunctions saved path = .ok functions

theorem persistent_of_finite (hfinite : ∀ f ∈ functions, f.Finite) : Persistent functions where
  saves files path := by
    constructor
    · rintro ⟨saved, hsave⟩
      obtain ⟨created, hcreate, -⟩ := (Files.SameShape.refl files).writeFor hsave []
      exact ⟨created, hcreate⟩
    · rintro ⟨created, hcreate⟩
      obtain ⟨saved, hsave, -⟩ :=
        (Files.SameShape.refl files).writeFor hcreate (Function.renderList functions)
      exact ⟨saved, hsave⟩
  loads _ _ _ hsave :=
    (loadFunctions_of_writeFor hsave).mpr (Function.parseList_renderList hfinite)

theorem finite_of_loadFunctions (hload : loadFunctions files path = .ok functions) :
    ∀ f ∈ functions, f.Finite := by
  rw [loadFunctions] at hload
  cases hread : files.readFor path .json with
  | error error => simp [hread, bind, Except.bind] at hload
  | ok text =>
    simp only [hread, bind, Except.bind] at hload
    split at hload
    next loaded hparse =>
      obtain rfl := Except.ok.inj hload
      exact Function.finite_of_parseList hparse
    next => exact absurd hload nofun

/-- Functions with finite percentiles are loaded as they were saved, and so is whatever has been
loaded from a file, in whichever way it was written there. -/
theorem functions_persist :
    (∀ functions : List Function, (∀ f ∈ functions, f.Finite) → Persistent functions) ∧
    ∀ (files : Files) (path : String) (functions : List Function),
      loadFunctions files path = .ok functions → Persistent functions :=
  ⟨fun _ => persistent_of_finite, fun _ _ _ hload =>
    persistent_of_finite (finite_of_loadFunctions hload)⟩

/-- Names with everything that is escaped, numbers at their limits, a negative zero, the least
and the greatest double, and empty lists. -/
def peculiar : List Function := [
  { name := "\"\\/\n\t\x01é😀", endpoint := "\x1f", invocationStats := [0, 0xffffffffffffffff]
    batchStats := [Int64.minValue, -1], deadlineStats := [Int64.maxValue]
    runtimeStats := ⟨[Float.ofBits 0x8000000000000000, Float.ofBits 1,
      Float.ofBits 0x7fefffffffffffff], [0, 0xffffffff]⟩ },
  { name := "", invocationStats := [] }]

/-- A function as the list of its first fields, and one with its keys in another order, a key
that is not known and an escaped name. -/
def handwritten : Bytes :=
  utf8Bytes ("[[\"f\", \"\", [1]], \x7b\"memory_stats\": [[0.5, 1e300], [1]]," ++
    "\"more\": [null], \"invocation_stats\": [], \"name\": \"\\u0067\"\x7d]")

theorem functions_persist_peculiar :
    (∃ saved, saveFunctions .empty "saved.json" peculiar = .ok saved ∧
      loadFunctions saved "saved.json" = .ok peculiar) ∧
    ∃ given functions saved, Files.empty.writeFor "saved.json" handwritten = .ok given ∧
      functions.map (·.name) = ["f", "g"] ∧ loadFunctions given "saved.json" = .ok functions ∧
      saveFunctions .empty "saved.json" functions = .ok saved ∧
      loadFunctions saved "saved.json" = .ok functions := by
  obtain ⟨created, hcreated⟩ : ∃ created, Files.empty.writeFor "saved.json" [] = .ok created :=
    ⟨_, rfl⟩
  constructor
  · have hpersist := functions_persist.1 peculiar (by decide +kernel)
    obtain ⟨saved, hsaved⟩ := (hpersist.saves .empty "saved.json").mpr ⟨created, hcreated⟩
    exact ⟨saved, hsaved, hpersist.loads _ _ _ hsaved⟩
  · obtain ⟨given, hgiven, -⟩ := (Files.SameShape.refl .empty).writeFor hcreated handwritten
    have hnames : (Function.parseList handwritten).map (·.map (·.name)) = some ["f", "g"] := by
      decide +kernel
    obtain ⟨functions, hparse, hfunctions⟩ := Option.map_eq_some_iff.mp hnames
    have hload := (loadFunctions_of_writeFor hgiven).mpr hparse
    have hpersist := functions_persist.2 given "saved.json" functions hload
    obtain ⟨saved, hsaved⟩ := (hpersist.saves .empty "saved.json").mpr ⟨created, hcreated⟩
    exact ⟨given, functions, saved, hgiven, hfunctions, hload, hsaved, hpersist.loads _ _ _ hsaved⟩

end TraceReplay
