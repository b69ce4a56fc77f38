import TraceReplay.Proofs.Files.Tree
import TraceReplay.Sampling

/-!
# Output files

An output file that has been created stays, and holds what it is filled with.  Paths that
end in different characters, or in different names, lead to different files, so filling one of
the two files of a collector or of a sampling leaves the other alone.
-/

namespace TraceReplay

/-! ## The end of a path -/

theorem Path.splitOn_concat (chars : List Char) {last : Char} (hslash : last ≠ '/') :
    ∃ parts part, (chars ++ [last]).splitOn '/' = parts ++ [part ++ [last]] := by
  induction chars with
  | nil =>
    refine ⟨[], [], ?_⟩
    simp [List.splitOn_cons_eq_if_modifyHead, hslash]
  | cons char chars ih =>
    obtain ⟨parts, part, hparts⟩ := ih
    rw [List.cons_append, List.splitOn_cons_eq_if_modifyHead, hparts]
    by_cases hchar : char = '/'
    · refine ⟨[] :: parts, part, ?_⟩
      simp [hchar]
    · cases parts with
      | nil =>
        refine ⟨[], char :: part, ?_⟩
        simp [hchar]
      | cons first parts =>
        refine ⟨(char :: first) :: parts, part, ?_⟩
        simp [hchar]

/-- A path that ends in neither a slash nor a dot ends in a name, with the same character. -/
theorem Path.components_concat {path : String} {last : Char}
    (hpath : path.toList.getLast? = some last) (hslash : last ≠ '/') (hdot : last ≠ '.') :
    ∃ names name, components path = names ++ [name] ∧ name.toList.getLast? = some last := by
  obtain ⟨chars, hchars⟩ := List.getLast?_eq_some_iff.mp hpath
  obtain ⟨parts, part, hparts⟩ := splitOn_concat chars hslash
  generalize hname : String.ofList (part ++ [last]) = name
  have hlast : name.toList.getLast? = some last := by
    rw [← hname, String.toList_ofList, List.getLast?_concat]
  have hkept : name ≠ "" ∧ name ≠ "." := by
    constructor
    · rintro rfl
      simp at hlast
    · rintro rfl
      exact hdot (Option.some.inj hlast).symm
  refine ⟨(parts.map String.ofList).filter fun name => name ≠ "" ∧ name ≠ ".", name, ?_, hlast⟩
  rw [components, hchars, hparts, List.map_append, List.filter_append, List.map_singleton, hname]
  rw [List.filter_singleton, decide_eq_true hkept, cond_true]

theorem Path.splitOn_join (dir : String) {name : String} (hslash : '/' ∉ name.toList) :
    ∃ parts, (join dir name).toList.splitOn '/' = parts ++ [name.toList] := by
  have hname : name.toList.splitOn '/' = [name.toList] := List.splitOn_eq_singleton hslash
  have hbelow (chars : List Char) :
      ∃ parts, (chars ++ '/' :: name.toList).splitOn '/' = parts ++ [name.toList] :=
    ⟨_, by rw [List.splitOn_append_cons_self, hname]⟩
  unfold join
  split
  next hdir =>
    rw [String.toList_append]
    rcases hdir with hempty | hlast
    · refine ⟨[], ?_⟩
      rw [String.isEmpty_iff.mp hempty]
      exact hname
    · obtain ⟨chars, hchars⟩ := List.getLast?_eq_some_iff.mp hlast
      rw [hchars, List.append_assoc]
      exact hbelow chars
  next =>
    rw [String.toList_append, String.toList_append, List.append_assoc]
    exact hbelow dir.toList

/-- The path of a name in a directory ends in that name. -/
theorem Path.components_join (dir : String) {name : String} (hslash : '/' ∉ name.toList)
    (hkept : name ≠ "" ∧ name ≠ ".") : ∃ names, components (join dir name) = names ++ [name] := by
  obtain ⟨parts, hparts⟩ := splitOn_join dir hslash
  refine ⟨(parts.map String.ofList).filter fun name => name ≠ "" ∧ name ≠ ".", ?_⟩
  rw [components, hparts, List.map_append, List.filter_append, List.map_singleton,
    String.ofList_toList, List.filter_singleton, decide_eq_true hkept, cond_true]

namespace Files

variable {files later created : Files} {path : String} {location : List String}
  {configuration : ReplayConfiguration}

theorem follow_concat (names : List String) {start : List String} {name : String}
    (hname : name ≠ "..") (hfollow : files.follow start (names ++ [name]) = .ok location) :
    ∃ dir, location = dir ++ [name] := by
  induction names generalizing start with
  | nil =>
    rw [List.nil_append, follow] at hfollow
    split at hfollow
    next => simp at hfollow
    next => simp at hfollow
    next =>
      rw [if_neg hname, follow] at hfollow
      exact ⟨start, (Except.ok.inj hfollow).symm⟩
  | cons first names ih =>
    rw [List.cons_append, follow] at hfollow
    split at hfollow
    next => simp at hfollow
    next => simp at hfollow
    next => exact ih hfollow

/-- The location of a path ends as the path does. -/
theorem locate_concat {last : Char} (hpath : path.toList.getLast? = some last)
    (hslash : last ≠ '/') (hdot : last ≠ '.') (hlocate : files.locate path = .ok location) :
    ∃ dir name, location = dir ++ [name] ∧ name.toList.getLast? = some last := by
  obtain ⟨names, name, hcomponents, hlast⟩ := Path.components_concat hpath hslash hdot
  have hname : name ≠ ".." := by
    rintro rfl
    exact hdot (Option.some.inj hlast).symm
  unfold locate at hlocate
  split at hlocate
  next => simp at hlocate
  next =>
    rw [hcomponents] at hlocate
    obtain ⟨dir, hlocation⟩ := follow_concat names hname hlocate
    exact ⟨dir, name, hlocation, hlast⟩

/-- A name in a directory leads to a location that ends in that name. -/
theorem locate_join {dir name : String} (hslash : '/' ∉ name.toList)
    (hkept : name ≠ "" ∧ name ≠ ".") (hup : name ≠ "..")
    (hlocate : files.locate (Path.join dir name) = .ok location) :
    ∃ parent, location = parent ++ [name] := by
  obtain ⟨names, hcomponents⟩ := Path.components_join dir hslash hkept
  unfold locate at hlocate
  split at hlocate
  next => simp at hlocate
  next =>
    rw [hcomponents] at hlocate
    exact follow_concat names hup hlocate
/-! ## Creating -/

theorem Grows.createDirs (hcreate : files.createDirs path = .ok later) : files.Grows later :=
  .makeAlong files [] _ hcreate

theorem write_of_writeFor {text : Bytes} (hwrite : files.writeFor path text = .ok later) :
    files.write path text = .ok later := by
  unfold writeFor at hwrite
  cases hresult : files.write path text with
  | error fault => simp [hresult] at hwrite
  | ok files => simpa [hresult] using hwrite

/-- An output file is written below directories that have been made for it. -/
theorem createOutput_cases (hcreate : files.createOutput path = .ok created) :
    ∃ dirs, files.Grows dirs ∧ dirs.write path [] = .ok created := by
  unfold createOutput at hcreate
  cases hparent : Path.parent? path with
  | none =>
    simp only [hparent, bind, Except.bind] at hcreate
    exact ⟨files, .refl files, write_of_writeFor hcreate⟩
  | some parent =>
    simp only [hparent, bind, Except.bind] at hcreate
    generalize hmade : (if parent.isEmpty then .ok files else files.createDirs parent) = made
      at hcreate
    cases made with
    | error fault => simp at hcreate
    | ok dirs =>
      refine ⟨dirs, ?_, write_of_writeFor hcreate⟩
      split at hmade
      next => rw [← Except.ok.inj hmade]
      next => exact .createDirs hmade

theorem Grows.createOutput (hcreate : files.createOutput path = .ok created) :
    files.Grows created := by
  obtain ⟨dirs, hdirs, hwrite⟩ := createOutput_cases hcreate
  exact hdirs.trans (.write hwrite)

theorem Grows.createOutputs {paths : List String}
    (hcreate : files.createOutputs paths = .ok created) : files.Grows created := by
  induction paths generalizing files with
  | nil =>
    obtain rfl := Except.ok.inj hcreate
    exact .refl files
  | cons path paths ih =>
    unfold Files.createOutputs at hcreate
    rw [List.foldlM_cons] at hcreate
    cases hfirst : files.createOutput path with
    | error error => simp [hfirst, bind, Except.bind] at hcreate
    | ok first =>
      rw [hfirst] at hcreate
      exact (Grows.createOutput hfirst).trans (ih hcreate)

theorem hasFile_of_createOutput (hcreate : files.createOutput path = .ok created) :
    ∃ location, created.HasFile path location := by
  obtain ⟨dirs, -, hwrite⟩ := createOutput_cases hcreate
  exact hasFile_of_write hwrite

/-- All output files that have been created are there. -/
theorem hasFile_of_createOutputs {paths : List String}
    (hcreate : files.createOutputs paths = .ok created) (hpath : path ∈ paths) :
    ∃ location, created.HasFile path location := by
  induction paths generalizing files with
  | nil => simp at hpath
  | cons first paths ih =>
    unfold Files.createOutputs at hcreate
    rw [List.foldlM_cons] at hcreate
    cases hfirst : files.createOutput first with
    | error error => simp [hfirst, bind, Except.bind] at hcreate
    | ok between =>
      rw [hfirst] at hcreate
      rcases List.mem_cons.mp hpath with rfl | hrest
      · obtain ⟨location, hfile⟩ := hasFile_of_createOutput hfirst
        exact ⟨location, hfile.grows (.createOutputs hcreate)⟩
      · exact ih hcreate hrest

/-! ## Filling two files -/

section Two

variable {other : String} {last otherLast : Char} {otherLocation : List String}

/-- Paths that end in different characters lead to different files. -/
theorem location_ne (hpath : path.toList.getLast? = some last)
    (hother : other.toList.getLast? = some otherLast) (hslash : last ≠ '/') (hdot : last ≠ '.')
    (hotherSlash : otherLast ≠ '/') (hotherDot : otherLast ≠ '.') (hlast : last ≠ otherLast)
    (hfile : files.HasFile path location) (hotherFile : files.HasFile other otherLocation) :
    location ≠ otherLocation := by
  obtain ⟨_, name, rfl, hname⟩ := locate_concat hpath hslash hdot hfile.located
  obtain ⟨_, otherName, rfl, hotherName⟩ :=
    locate_concat hother hotherSlash hotherDot hotherFile.located
  intro hsame
  obtain ⟨-, hnames⟩ := List.append_inj' hsame rfl
  obtain rfl : name = otherName := (List.cons.inj hnames).1
  exact hlast (Option.some.inj (hname.symm.trans hotherName))

/-- Two files at different locations hold what they are filled with. -/
theorem read_fill_fill (hfile : files.HasFile path location)
    (hother : files.HasFile other otherLocation) (hne : location ≠ otherLocation)
    (text otherText : Bytes) :
    ((files.fill path text).fill other otherText).read path = .ok (some text) ∧
      ((files.fill path text).fill other otherText).read other = .ok (some otherText) := by
  have hgrows : files.Grows (files.fill path text) := .fill _ _ _
  have hfilled : files.Grows ((files.fill path text).fill other otherText) :=
    hgrows.trans (.fill _ _ _)
  have hentries : ∀ somewhere, ((files.fill path text).fill other otherText).entryAt somewhere =
      if somewhere = otherLocation then some (.file otherText)
      else if somewhere = location then some (.file text)
      else files.entryAt somewhere := by
    intro somewhere
    rw [(hother.grows hgrows).entryAt_fill, hfile.entryAt_fill]
  constructor
  · apply (hfile.grows hfilled).read
    rw [hentries, if_neg hne, if_pos rfl]
  · apply (hother.grows hfilled).read
    rw [hentries, if_pos rfl]

end Two
end Files

theorem ReplayConfiguration.outputPath_getLast? (configuration : ReplayConfiguration)
    (stream : String) {extension : String} {last : Char}
    (hextension : extension.toList.getLast? = some last) :
    (configuration.outputPath stream extension).toList.getLast? = some last := by
  rw [outputPath, String.toList_append, List.getLast?_append, hextension]
  rfl

/-! ## The files of a collector -/

namespace Collector

variable {files created : Files} {configuration : ReplayConfiguration}

/-- Both output files are there, apart from each other. -/
structure HasOutputs (configuration : ReplayConfiguration) (files : Files) : Prop where
  duration : ∃ location, files.HasFile (durationPath configuration) location
  joblogs : ∃ location, files.HasFile (joblogsPath configuration) location

theorem HasOutputs.grows {later : Files} (houtputs : HasOutputs configuration files)
    (hgrows : files.Grows later) : HasOutputs configuration later where
  duration := by
    obtain ⟨location, hfile⟩ := houtputs.duration
    exact ⟨location, hfile.grows hgrows⟩
  joblogs := by
    obtain ⟨location, hfile⟩ := houtputs.joblogs
    exact ⟨location, hfile.grows hgrows⟩

theorem hasOutputs_of_createOutputs
    (hcreate : files.createOutputs (paths configuration) = .ok created) :
    HasOutputs configuration created where
  duration := Files.hasFile_of_createOutputs hcreate (by simp [paths])
  joblogs := Files.hasFile_of_createOutputs hcreate (by simp [paths])

/-- Filled files hold what has been collected. -/
theorem read_fillFiles (houtputs : HasOutputs configuration files) (collector : Collector) :
    (collector.fillFiles configuration files).read (durationPath configuration)
        = .ok (some (utf8Bytes collector.durationText))
      ∧ (collector.fillFiles configuration files).read (joblogsPath configuration)
        = .ok (some collector.joblogsText) := by
  obtain ⟨duration, hduration⟩ := houtputs.duration
  obtain ⟨joblogs, hjoblogs⟩ := houtputs.joblogs
  have hne := Files.location_ne (configuration.outputPath_getLast? "duration" rfl)
    (configuration.outputPath_getLast? "joblogs" rfl) (by decide) (by decide) (by decide)
    (by decide) (by decide) hduration hjoblogs
  exact Files.read_fill_fill hduration hjoblogs hne _ _

end Collector

/-! ## The files of a sampling -/

namespace Sampling

variable {files : Files} {configuration : ReplayConfiguration}

/-- Filled files hold all samples. -/
theorem read_fillFiles
    (houtputs : ∀ path ∈ paths configuration, ∃ location, files.HasFile path location)
    (samples : List Sample) :
    (fillFiles samples configuration files).read (usagePath configuration)
        = .ok (some (Lines.write (samples.map (·.usage.toJson))))
      ∧ (fillFiles samples configuration files).read (platformPath configuration)
        = .ok (some (utf8Bytes
          (Table.write PlatformStats.header (samples.map (·.platform.row))))) := by
  obtain ⟨usage, husage⟩ := houtputs (usagePath configuration) (by simp [paths])
  obtain ⟨platform, hplatform⟩ := houtputs (platformPath configuration) (by simp [paths])
  have hne := Files.location_ne (configuration.outputPath_getLast? "cluster_usage" rfl)
    (configuration.outputPath_getLast? "kn_stats" rfl) (by decide) (by decide) (by decide)
    (by decide) (by decide) husage hplatform
  exact Files.read_fill_fill husage hplatform hne _ _

end Sampling
end TraceReplay
