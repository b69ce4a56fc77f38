import TraceReplay.Proofs.Files.Outputs

/-!
# Trees of one shape

Whether a file can be created depends on where there are files and directories, and not on
what the files hold.  So where files can be created empty they can also be written with
anything in them.
-/

namespace TraceReplay.Files

/-- The entry without what it holds. -/
def Entry.blank : Entry → Entry
  | .file _ => .file []
  | .directory => .directory

/-- Both trees have files, and directories, at the same locations. -/
def SameShape (files other : Files) : Prop :=
  ∀ location, (files.entryAt location).map Entry.blank = (other.entryAt location).map Entry.blank

variable {files other later : Files} {location : List String} {path : String}
  {content : Bytes}

namespace SameShape

@[refl]
theorem refl (files : Files) : files.SameShape files := fun _ => rfl

@[trans]
theorem trans {third : Files} (hfirst : files.SameShape other) (hsecond : other.SameShape third) :
    files.SameShape third := fun location => (hfirst location).trans (hsecond location)

theorem none_iff (hshape : files.SameShape other) :
    files.entryAt location = none ↔ other.entryAt location = none := by
  have hentry := hshape location
  rw [← Option.map_eq_none_iff (f := Entry.blank), hentry, Option.map_eq_none_iff]

theorem directory_iff (hshape : files.SameShape other) :
    files.entryAt location = some .directory ↔ other.entryAt location = some .directory := by
  have hblank (entry : Option Entry) :
      entry = some .directory ↔ entry.map Entry.blank = some .directory := by
    rcases entry with _ | content | _ <;> simp [Entry.blank]
  rw [hblank, hshape location, ← hblank]

theorem file (hshape : files.SameShape other) (hentry : files.entryAt location = some (.file content)) :
    ∃ content', other.entryAt location = some (.file content') := by
  have hblank := hshape location
  rw [hentry] at hblank
  cases hother : other.entryAt location with
  | none => simp [hother] at hblank
  | some entry =>
    cases entry with
    | file content' => exact ⟨content', rfl⟩
    | directory => simp [hother, Entry.blank] at hblank

/-! ## Changes -/

theorem set (hshape : files.SameShape other) (hlocation : location ≠ []) {entry entry' : Entry}
    (hblank : entry.blank = entry'.blank) :
    (files.set location entry).SameShape (other.set location entry') := by
  intro place
  rw [entryAt_set hlocation, entryAt_set hlocation]
  by_cases hsame : place = location
  · simp [hsame, hblank]
  · simp only [if_neg hsame]
    exact hshape place

theorem follow (hshape : files.SameShape other) (start names : List String) :
    files.follow start names = other.follow start names := by
  induction names generalizing start with
  | nil => rfl
  | cons name names ih =>
    rw [Files.follow, Files.follow]
    cases hentry : files.entryAt start with
    | none => rw [hshape.none_iff.mp hentry]
    | some entry =>
      cases entry with
      | file content =>
        obtain ⟨content', hentry'⟩ := hshape.file hentry
        rw [hentry']
      | directory =>
        rw [hshape.directory_iff.mp hentry]
        exact ih _

theorem locate (hshape : files.SameShape other) (path : String) :
    files.locate path = other.locate path := by
  rw [Files.locate, Files.locate, hshape.follow]

theorem makeAlong (hshape : files.SameShape other) (start names : List String)
    (hmake : files.makeAlong start names = .ok later) :
    ∃ later', other.makeAlong start names = .ok later' ∧ later.SameShape later' := by
  induction names generalizing files other start with
  | nil =>
    obtain rfl := Except.ok.inj hmake
    exact ⟨other, rfl, hshape⟩
  | cons name names ih =>
    rw [Files.makeAlong] at hmake ⊢
    generalize (if name = ".." then start.dropLast else start ++ [name]) = next at hmake ⊢
    split at hmake
    · rename_i hnone
      rw [hshape.none_iff.mp hnone]
      have hnext := @ne_nil_of_entryAt files next (by simp [hnone])
      exact ih (hshape.set hnext rfl) next hmake
    · rename_i hdirectory
      rw [hshape.directory_iff.mp hdirectory]
      exact ih hshape next hmake
    · simp at hmake

theorem createDirs (hshape : files.SameShape other) (hcreate : files.createDirs path = .ok later) :
    ∃ later', other.createDirs path = .ok later' ∧ later.SameShape later' :=
  hshape.makeAlong [] _ hcreate

/-- What could be written in one tree can be written in the other, whatever is to be written. -/
theorem write (hshape : files.SameShape other) (hwrite : files.write path content = .ok later)
    (content' : Bytes) :
    ∃ later', other.write path content' = .ok later' ∧ later.SameShape later' := by
  obtain ⟨location, hlocate, hentry, hnamed, rfl⟩ := write_cases hwrite
  refine ⟨other.set location (.file content'), ?_, hshape.set (ne_nil_of_entryAt hentry) rfl⟩
  have hfree := mt hshape.directory_iff.mpr hentry
  rw [hshape.locate] at hlocate
  unfold Files.write
  simp only [hlocate, bind, Except.bind, hnamed]

theorem writeFor (hshape : files.SameShape other)
    (hwrite : files.writeFor path content = .ok later) (content' : Bytes) :
    ∃ later', other.writeFor path content' = .ok later' ∧ later.SameShape later' := by
  obtain ⟨later', hwrite', hlater⟩ := hshape.write (write_of_writeFor hwrite) content'
  exact ⟨later', by rw [Files.writeFor, hwrite'], hlater⟩

theorem createOutput (hshape : files.SameShape other)
    (hcreate : files.createOutput path = .ok later) :
    ∃ later', other.createOutput path = .ok later' ∧ later.SameShape later' := by
  unfold Files.createOutput at hcreate ⊢
  cases hparent : Path.parent? path with
  | none =>
    simp only [hparent, bind, Except.bind] at hcreate ⊢
    exact hshape.writeFor hcreate []
  | some parent =>
    simp only [hparent, bind, Except.bind] at hcreate ⊢
    by_cases hempty : parent.isEmpty
    · simp only [hempty, if_true] at hcreate ⊢
      exact hshape.writeFor hcreate []
    · simp only [hempty, Bool.false_eq_true, if_false] at hcreate ⊢
      cases hmade : files.createDirs parent with
      | error fault => simp [hmade] at hcreate
      | ok dirs =>
        obtain ⟨dirs', hmade', hdirs⟩ := hshape.createDirs hmade
        simp only [hmade] at hcreate
        simp only [hmade']
        exact hdirs.writeFor hcreate []

theorem createOutputs {paths : List String} (hshape : files.SameShape other)
    (hcreate : files.createOutputs paths = .ok later) :
    ∃ later', other.createOutputs paths = .ok later' ∧ later.SameShape later' := by
  induction paths generalizing files other with
  | nil =>
    obtain rfl := Except.ok.inj hcreate
    exact ⟨other, rfl, hshape⟩
  | cons path paths ih =>
    unfold Files.createOutputs at hcreate ⊢
    rw [List.foldlM_cons] at hcreate ⊢
    cases hfirst : files.createOutput path with
    | error error => simp [hfirst, bind, Except.bind] at hcreate
    | ok first =>
      obtain ⟨first', hfirst', hshape'⟩ := hshape.createOutput hfirst
      rw [hfirst] at hcreate
      rw [hfirst']
      exact ih hshape' hcreate

end SameShape
end TraceReplay.Files
