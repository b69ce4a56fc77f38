import TraceReplay.Proofs.Files.Outputs
import TraceReplay.Proofs.Invocation.Identity
import TraceReplay.Proofs.Json.Document
import TraceReplay.Specification.File

/-!
# Saved specifications

A specification whose floats are finite is read back from the text it is saved as, bit by bit,
and with statistics where it had some.  Specifications with different numbers are saved in
different files, so all of a list can be saved, in any order, before they are loaded again.
-/

namespace TraceReplay

open Document

/-! ## Slots -/

theorem ModeStats.writable_toJson (stats : ModeStats) : Json.Writable stats.toJson :=
  Json.writable_record (by simp [Json.ofInt64, Json.writable_ofInt])

theorem ModeStats.read_toJson (stats : ModeStats) : ModeStats.read stats.toJson = some stats := by
  rw [ModeStats.read, toJson, Json.fields_record]
  simp [lookup_cons_self, lookup_cons_ne, required, Json.int64?_ofInt64]

theorem RuntimeSpecification.writable_toJson (slot : RuntimeSpecification) :
    Json.Writable slot.toJson := by
  refine Json.writable_record fun member hmember => ?_
  rcases List.mem_append.mp hmember with hmember | hmember
  · simp only [List.mem_cons, List.not_mem_nil, or_false] at hmember
    rcases hmember with rfl | rfl <;> exact Json.writable_ofInt _
  · split at hmember
    · obtain rfl := List.mem_singleton.mp hmember
      exact ModeStats.writable_toJson _
    · simp at hmember

/-- A record is read as the slot whose numbers and statistics its fields are read as. -/
theorem RuntimeSpecification.read_of_fields {ν : Type} [Document ν] {value runtime memory : ν}
    {stats : Option ν} {slot : RuntimeSpecification}
    (hfields : fields ["runtime", "memory", "stats"] value =
      some [some runtime, some memory, stats])
    (hruntime : uint32? runtime = some slot.runtime) (hmemory : uint32? memory = some slot.memory)
    (hstats : Document.optional ModeStats.read stats = some slot.stats) :
    RuntimeSpecification.read value = some slot := by
  rw [RuntimeSpecification.read, hfields]
  simp [required, hruntime, hmemory, hstats]

/-- A slot has statistics again if it had some, and none if it had none. -/
theorem RuntimeSpecification.read_toJson (slot : RuntimeSpecification) :
    RuntimeSpecification.read slot.toJson = some slot := by
  have hfields : fields ["runtime", "memory", "stats"] slot.toJson =
      some [some (.ofUInt32 slot.runtime), some (.ofUInt32 slot.memory),
        slot.stats.map ModeStats.toJson] := by
    rw [toJson, Json.fields_record]
    cases slot.stats <;> simp [lookup_nil, lookup_cons_self, lookup_cons_ne]
  refine read_of_fields hfields (Json.uint32?_ofUInt32 _) (Json.uint32?_ofUInt32 _) ?_
  cases slot.stats with
  | none => rfl
  | some stats =>
    have hnull : isNull stats.toJson = false := rfl
    simp [Document.optional, hnull, stats.read_toJson]

namespace Specification

variable {s : Specification} {files later : Files} {dir : String} {index other : Nat}
  {location : List String}

/-- All floats of the specification are finite. -/
structure Finite (s : Specification) : Prop where
  gaps : ∀ step ∈ s.gaps, ∀ gap ∈ step, (Binary64.ofFloat? gap).isSome
  rawDuration : ∀ sample ∈ s.rawDuration, (Binary64.ofFloat? sample).isSome

instance (s : Specification) : Decidable s.Finite :=
  decidable_of_iff ((∀ step ∈ s.gaps, ∀ gap ∈ step, (Binary64.ofFloat? gap).isSome) ∧
      ∀ sample ∈ s.rawDuration, (Binary64.ofFloat? sample).isSome)
    ⟨fun hfinite => ⟨hfinite.1, hfinite.2⟩, fun hfinite => ⟨hfinite.gaps, hfinite.rawDuration⟩⟩

theorem writable_toJson (s : Specification) : Json.Writable s.toJson := by
  refine Json.writable_record fun member hmember => ?_
  simp only [List.mem_cons, List.not_mem_nil, or_false] at hmember
  rcases hmember with rfl | rfl | rfl | rfl
  · exact Json.writable_list (Json.writable_list Json.writable_ofFloat) _
  · exact Json.writable_list (fun _ => Json.writable_ofInt _) _
  · exact Json.writable_list Json.writable_ofFloat _
  · exact Json.writable_list (Json.writable_list RuntimeSpecification.writable_toJson) _

/-- A record is read as the specification whose parts its fields are read as. -/
theorem read_of_fields {ν : Type} [Document ν] {value gaps perStepCount rawDuration slots : ν}
    (hfields : fields ["IAT", "PerMinuteCount", "RawDuration", "RuntimeSpecification"] value =
      some [some gaps, some perStepCount, some rawDuration, some slots])
    (hgaps : listOf (listOf real?) gaps = some s.gaps)
    (hcount : listOf uint64? perStepCount = some s.perStepCount)
    (hraw : listOf real? rawDuration = some s.rawDuration)
    (hslots : listOf (listOf RuntimeSpecification.read) slots = some s.slots) :
    Specification.read value = some s := by
  rw [Specification.read, hfields]
  simp [required, hgaps, hcount, hraw, hslots]

theorem read_toJson (hfinite : s.Finite) : Specification.read s.toJson = some s := by
  have hfields : fields ["IAT", "PerMinuteCount", "RawDuration", "RuntimeSpecification"] s.toJson =
      some [some (.list (.list .ofFloat) s.gaps), some (.list .ofUInt64 s.perStepCount),
        some (.list .ofFloat s.rawDuration),
        some (.list (.list RuntimeSpecification.toJson) s.slots)] := by
    rw [toJson, Json.fields_record]
    simp [lookup_cons_self, lookup_cons_ne]
  refine read_of_fields hfields ?_ ?_ ?_ ?_
  · exact Json.listOf_list fun step hstep => Json.listOf_list fun gap hgap =>
      Json.real?_ofFloat (hfinite.gaps step hstep gap hgap)
  · exact Json.listOf_list fun count _ => Json.uint64?_ofUInt64 count
  · exact Json.listOf_list fun sample hsample =>
      Json.real?_ofFloat (hfinite.rawDuration sample hsample)
  · exact Json.listOf_list fun step _ => Json.listOf_list fun slot _ => slot.read_toJson

/-- What is read from the text of a specification is the specification. -/
theorem parse_render (hfinite : s.Finite) : parse s.render = some s := by
  rw [parse, render, Json.parse_pretty s.writable_toJson, Option.bind_eq_bind, Option.bind_some,
    read_toJson hfinite]

/-! ## Names of files -/

def fileName (index : Nat) : String := "iat" ++ toString index ++ ".json"

theorem path_eq (dir : String) (index : Nat) :
    path dir index = Path.join dir (fileName index) := rfl

theorem toList_fileName (index : Nat) :
    (fileName index).toList = "iat".toList ++ (toString index).toList ++ ".json".toList := by
  rw [fileName, String.toList_append, String.toList_append]

theorem fileName_inj (hsame : fileName index = fileName other) : index = other := by
  have hlist := congrArg String.toList hsame
  rw [toList_fileName, toList_fileName] at hlist
  exact (append_toString_inj (by decide) (by decide) (List.append_cancel_right hlist)).2

/-- A file lies where its path leads, under its own name. -/
theorem locate_path (hlocate : files.locate (path dir index) = .ok location) :
    ∃ parent, location = parent ++ [fileName index] := by
  rw [path_eq] at hlocate
  have hne {name : String} (hname : name.toList.head? ≠ some 'i') : fileName index ≠ name := by
    rintro rfl
    exact hname (by rw [toList_fileName]; rfl)
  have hdigits : '/' ∉ (toString index).toList := fun hmem =>
    absurd (isDigit_of_mem_toString hmem) (by decide)
  refine Files.locate_join ?_ ⟨hne (by decide), hne (by decide)⟩ (hne (by decide)) hlocate
  rw [toList_fileName]
  simpa using hdigits

/-- Different numbers lead to different files. -/
theorem location_inj (hlocate : files.locate (path dir index) = .ok location)
    (hother : files.locate (path dir other) = .ok location) : index = other := by
  obtain ⟨parent, hlocation⟩ := locate_path hlocate
  obtain ⟨parent', hlocation'⟩ := locate_path hother
  obtain ⟨-, hnames⟩ := List.append_inj' (hlocation.symm.trans hlocation') rfl
  exact fileName_inj (List.cons.inj hnames).1

/-! ## Files -/

/-- The file with this number holds the text of the specification. -/
def Saved (files : Files) (dir : String) (index : Nat) (s : Specification) : Prop :=
  ∃ location, files.HasFile (path dir index) location ∧
    files.entryAt location = some (.file s.render)

/-- What is saved is read again. -/
theorem Saved.load (hsaved : Saved files dir index s) (hfinite : s.Finite) :
    load files dir index = .ok s := by
  obtain ⟨location, hfile, hentry⟩ := hsaved
  have hread : files.readFor (path dir index) .json = .ok s.render := by
    rw [Files.readFor, hfile.read hentry]
  rw [Specification.load, hread]
  simp only [bind, Except.bind, parse_render hfinite]

theorem save_cases (hsave : s.save files dir index = .ok later) :
    ∃ location, files.locate (path dir index) = .ok location ∧ files.Grows later ∧
      later.HasFile (path dir index) location ∧
      ∀ somewhere, later.entryAt somewhere =
        if somewhere = location then some (.file s.render) else files.entryAt somewhere := by
  have hwrite := Files.write_of_writeFor hsave
  have hgrows : files.Grows later := .write hwrite
  obtain ⟨location, hlocate, hentry, hnamed, rfl⟩ := Files.write_cases hwrite
  have hentries (somewhere : List String) :
      (files.set location (.file s.render)).entryAt somewhere =
        if somewhere = location then some (.file s.render) else files.entryAt somewhere :=
    Files.entryAt_set (Files.ne_nil_of_entryAt hentry) _ _
  exact ⟨location, hlocate, hgrows,
    ⟨hgrows.locate hlocate, ⟨s.render, by rw [hentries, if_pos rfl]⟩, hnamed⟩, hentries⟩

theorem saved_of_save (hsave : s.save files dir index = .ok later) : Saved later dir index s := by
  obtain ⟨location, -, -, hfile, hentries⟩ := save_cases hsave
  exact ⟨location, hfile, by rw [hentries, if_pos rfl]⟩

/-- Saving under another number leaves the file as it is. -/
theorem Saved.save {t : Specification} (hsaved : Saved files dir index s)
    (hsave : t.save files dir other = .ok later) (hne : index ≠ other) :
    Saved later dir index s := by
  obtain ⟨location, hfile, hentry⟩ := hsaved
  obtain ⟨otherLocation, hlocate, hgrows, -, hentries⟩ := save_cases hsave
  refine ⟨location, hfile.grows hgrows, ?_⟩
  rw [hentries, if_neg, hentry]
  rintro rfl
  exact hne (location_inj hfile.located hlocate)

/-! ## Lists of specifications -/

/-- Saves specifications with their numbers, one after the other. -/
def saveAll (dir : String) (numbered : List (Specification × Nat)) (files : Files) :
    Except ReplayError Files :=
  numbered.foldlM (fun files (s, index) => s.save files dir index) files

theorem saveAll_cons (dir : String) (s : Specification) (index : Nat)
    (numbered : List (Specification × Nat)) (files : Files) :
    saveAll dir ((s, index) :: numbered) files =
      (s.save files dir index).bind (saveAll dir numbered) := rfl

variable {numbered : List (Specification × Nat)}

theorem Saved.saveAll (hsaved : Saved files dir index s)
    (hsave : saveAll dir numbered files = .ok later) (hnew : index ∉ numbered.map Prod.snd) :
    Saved later dir index s := by
  induction numbered generalizing files with
  | nil =>
    obtain rfl := Except.ok.inj hsave
    exact hsaved
  | cons entry numbered ih =>
    obtain ⟨t, other⟩ := entry
    rw [saveAll_cons] at hsave
    cases hfirst : t.save files dir other with
    | error error => simp [hfirst, Except.bind] at hsave
    | ok first =>
      rw [List.map_cons, List.mem_cons, not_or] at hnew
      rw [hfirst] at hsave
      exact ih (hsaved.save hfirst hnew.1) hsave hnew.2

/-- After specifications with different numbers have been saved, every file holds its own. -/
theorem saved_of_saveAll (hdistinct : (numbered.map Prod.snd).Nodup)
    (hsave : saveAll dir numbered files = .ok later) (hmem : (s, index) ∈ numbered) :
    Saved later dir index s := by
  induction numbered generalizing files with
  | nil => exact absurd hmem List.not_mem_nil
  | cons entry numbered ih =>
    obtain ⟨t, other⟩ := entry
    rw [saveAll_cons] at hsave
    rw [List.map_cons, List.nodup_cons] at hdistinct
    cases hfirst : t.save files dir other with
    | error error => simp [hfirst, Except.bind] at hsave
    | ok first =>
      rw [hfirst] at hsave
      rcases List.mem_cons.mp hmem with hhere | hthere
      · -- All others have other numbers, so what was saved first stays as it is.
        obtain ⟨rfl, rfl⟩ := Prod.mk.inj hhere
        exact (saved_of_save hfirst).saveAll hsave hdistinct.1
      · exact ih hdistinct.2 hsave hthere

end Specification
end TraceReplay
