import TraceReplay.Output.File
import Mathlib

/-!
# Growing trees

Operations on files only add to a tree: directories stay directories, files stay files,
and so a path that leads somewhere keeps leading there.
-/

namespace TraceReplay.Files

variable {files later : Files} {location other : List String} {path : String} {content : Bytes}

/-! ## Entries -/

theorem lookup_map_replace (entries : List (List String × Entry)) (location other : List String)
    (entry : Entry) :
    (entries.map fun (at_, old) => if at_ = location then (at_, entry) else (at_, old)).lookup
        other =
      if other = location then (entries.lookup location).map fun _ => entry
      else entries.lookup other := by
  induction entries with
  | nil => simp
  | cons first entries ih =>
    obtain ⟨at_, old⟩ := first
    by_cases hat : at_ = location
    · subst hat
      by_cases hother : other = at_
      · simp [hother]
      · have hne : (other == at_) = false := beq_false_of_ne hother
        simpa [hother, List.lookup_cons, hne] using ih
    · have hback : (location == at_) = false := beq_false_of_ne (Ne.symm hat)
      by_cases hfirst : other = at_
      · subst hfirst
        simp [hat]
      · have hne : (other == at_) = false := beq_false_of_ne hfirst
        simpa [hat, List.lookup_cons, hne, hback] using ih

theorem entryAt_set (hlocation : location ≠ []) (entry : Entry) (other : List String) :
    (files.set location entry).entryAt other =
      if other = location then some entry else files.entryAt other := by
  by_cases hroot : other = []
  · simp [entryAt, hroot, hlocation.symm]
  have hnamed : other.isEmpty = false := by simpa using hroot
  cases hlookup : files.entries.lookup location with
  | some old =>
    simp [entryAt, set, hlookup, hnamed, lookup_map_replace]
  | none =>
    by_cases hother : other = location
    · subst hother
      simp [entryAt, set, hlookup, hnamed, List.lookup_append]
    · have hne : (other == location) = false := beq_false_of_ne hother
      simp [entryAt, set, hlookup, hnamed, List.lookup_append, hother, List.lookup_cons, hne]

theorem ne_nil_of_entryAt (hentry : files.entryAt location ≠ some .directory) :
    location ≠ [] := by
  intro hroot
  exact hentry (by simp [entryAt, hroot])

/-! ## Growing -/

/-- Nothing goes away: directories stay directories, and files stay files. -/
structure Grows (files later : Files) : Prop where
  directory : ∀ location, files.entryAt location = some .directory →
    later.entryAt location = some .directory
  file : ∀ location content, files.entryAt location = some (.file content) →
    ∃ content, later.entryAt location = some (.file content)

namespace Grows

@[refl]
theorem refl (files : Files) : files.Grows files where
  directory _ hentry := hentry
  file _ content hentry := ⟨content, hentry⟩

@[trans]
theorem trans {first second third : Files} (hfirst : first.Grows second)
    (hsecond : second.Grows third) : first.Grows third where
  directory location hentry := hsecond.directory location (hfirst.directory location hentry)
  file location content hentry := by
    obtain ⟨content, hentry⟩ := hfirst.file location content hentry
    exact hsecond.file location content hentry

theorem set_file (hentry : files.entryAt location ≠ some .directory) (content : Bytes) :
    files.Grows (files.set location (.file content)) where
  directory other hother := by
    rw [entryAt_set (ne_nil_of_entryAt hentry), if_neg, hother]
    rintro rfl
    exact hentry hother
  file other old hother := by
    rw [entryAt_set (ne_nil_of_entryAt hentry)]
    by_cases hsame : other = location
    · exact ⟨content, if_pos hsame⟩
    · exact ⟨old, by rw [if_neg hsame, hother]⟩

theorem set_directory (hentry : files.entryAt location = none) :
    files.Grows (files.set location .directory) := by
  have hdirectory : files.entryAt location ≠ some .directory := by simp [hentry]
  have hlocation := ne_nil_of_entryAt hdirectory
  constructor
  · intro other hother
    rw [entryAt_set hlocation, hother, ite_self]
  · intro other content hother
    refine ⟨content, ?_⟩
    rw [entryAt_set hlocation, if_neg, hother]
    rintro rfl
    simp [hentry] at hother

theorem makeAlong (files : Files) (location names : List String) {later : Files}
    (hmake : files.makeAlong location names = .ok later) : files.Grows later := by
  induction names generalizing files location with
  | nil =>
    obtain rfl : files = later := by simpa [Files.makeAlong] using hmake
    exact .refl files
  | cons name names ih =>
    rw [Files.makeAlong] at hmake
    split at hmake
    next hentry => exact (set_directory hentry).trans (ih _ _ hmake)
    next => exact ih _ _ hmake
    next => exact absurd hmake (by simp)

theorem follow (hgrows : files.Grows later) (names : List String) {start location : List String}
    (hfollow : files.follow start names = .ok location) :
    later.follow start names = .ok location := by
  induction names generalizing start with
  | nil => simpa [Files.follow] using hfollow
  | cons name names ih =>
    rw [Files.follow] at hfollow ⊢
    split at hfollow
    next => exact absurd hfollow (by simp)
    next => exact absurd hfollow (by simp)
    next hentry =>
      rw [hgrows.directory _ hentry]
      exact ih hfollow

theorem locate (hgrows : files.Grows later) (hlocate : files.locate path = .ok location) :
    later.locate path = .ok location := by
  unfold Files.locate at hlocate ⊢
  split at hlocate
  next => exact absurd hlocate (by simp)
  next hpath =>
    rw [if_neg hpath]
    exact hgrows.follow _ hlocate

end Grows

/-! ## Files that are there -/

/-- A path leads to a file at a location. -/
structure HasFile (files : Files) (path : String) (location : List String) : Prop where
  located : files.locate path = .ok location
  entry : ∃ content, files.entryAt location = some (.file content)
  named : Path.ending path = .name

theorem write_cases (hwrite : files.write path content = .ok later) :
    ∃ location, files.locate path = .ok location ∧
      files.entryAt location ≠ some .directory ∧ Path.ending path = .name ∧
      later = files.set location (.file content) := by
  unfold write at hwrite
  cases hlocate : files.locate path with
  | error fault => simp [hlocate, bind, Except.bind] at hwrite
  | ok location =>
    refine ⟨location, rfl, ?_⟩
    simp only [hlocate, bind, Except.bind] at hwrite
    split at hwrite <;> simp_all

theorem Grows.write (hwrite : files.write path content = .ok later) : files.Grows later := by
  obtain ⟨location, -, hentry, -, rfl⟩ := write_cases hwrite
  exact .set_file hentry content

/-- What has been written is there. -/
theorem hasFile_of_write (hwrite : files.write path content = .ok later) :
    ∃ location, later.HasFile path location := by
  obtain ⟨location, hlocate, hentry, hnamed, rfl⟩ := write_cases hwrite
  refine ⟨location, (Grows.set_file hentry content).locate hlocate, ⟨content, ?_⟩, hnamed⟩
  rw [entryAt_set (ne_nil_of_entryAt hentry), if_pos rfl]

namespace HasFile

theorem grows (hfile : files.HasFile path location) (hgrows : files.Grows later) :
    later.HasFile path location where
  located := hgrows.locate hfile.located
  entry := by
    obtain ⟨content, hentry⟩ := hfile.entry
    exact hgrows.file location content hentry
  named := hfile.named

theorem not_directory (hfile : files.HasFile path location) :
    files.entryAt location ≠ some .directory := by
  obtain ⟨content, hentry⟩ := hfile.entry
  simp [hentry]

theorem fill (hfile : files.HasFile path location) (content : Bytes) :
    files.fill path content = files.set location (.file content) := by
  obtain ⟨old, hentry⟩ := hfile.entry
  simp [Files.fill, write, hfile.located, hentry, hfile.named, bind, Except.bind]

theorem read (hfile : files.HasFile path location)
    (hentry : files.entryAt location = some (.file content)) :
    files.read path = .ok (some content) := by
  simp [Files.read, hfile.located, hentry, hfile.named, bind, Except.bind]

theorem entryAt_fill (hfile : files.HasFile path location) (content : Bytes)
    (other : List String) :
    (files.fill path content).entryAt other =
      if other = location then some (.file content) else files.entryAt other := by
  rw [hfile.fill, entryAt_set (ne_nil_of_entryAt hfile.not_directory)]

end HasFile

theorem Grows.fill (files : Files) (path : String) (content : Bytes) :
    files.Grows (files.fill path content) := by
  rw [Files.fill]
  split
  next later hwrite => exact .write hwrite
  next => exact .refl files

end TraceReplay.Files
