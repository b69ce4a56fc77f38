import TraceReplay.Proofs.Experiment.Preparation
import TraceReplay.Proofs.Files.Shape

/-!
# What a run needs

A run needs functions that can be drawn for and files that can be created.  Then its
preparation succeeds: functions that run already are deployed, and a specification is generated
and saved for each of them.
-/

namespace TraceReplay.Experiment

open Trial

/-- The files a run needs, created without content one after another: those of its
specifications, of its collector and, if samples are taken, of its sampling. -/
def createNeeded (e : Experiment) (files : Files) : Except ReplayError Files := do
  let dir := e.configuration.loader.specificationDir
  let files ← (files.createDirs dir).mapError (.file dir)
  let files ← (List.range e.functions.length).foldlM
    (fun files index => files.writeFor (Specification.path dir index) []) files
  let files ← files.createOutputs (Collector.paths e.configuration)
  if (activeSource e).isSome then files.createOutputs (Sampling.paths e.configuration)
  else .ok files

/-- The output files of a run can be created one after another. -/
def HasRoom (e : Experiment) (files : Files) : Prop :=
  ∃ created, files.createOutputs (Collector.paths e.configuration) = .ok created ∧
    ((activeSource e).isSome →
      ∃ sampled, created.createOutputs (Sampling.paths e.configuration) = .ok sampled)

theorem exists_of_isOk {α : Type} {x : Except ReplayError α} (hok : x.isOk = true) :
    ∃ a, x = .ok a := by
  cases x with
  | error error => exact absurd hok (by simp [Except.isOk, Except.toBool])
  | ok a => exact ⟨a, rfl⟩

theorem exists_of_bind {α β : Type} {x : Except ReplayError α} {f : α → Except ReplayError β}
    {b : β} (hbind : x >>= f = .ok b) : ∃ a, x = .ok a ∧ f a = .ok b := by
  cases x with
  | error error => exact absurd hbind (by simp [Bind.bind, Except.bind])
  | ok a => exact ⟨a, rfl, hbind⟩

/-- Where what a run needs can be created there is a directory for its specifications, a file for
each of them, and then room for its outputs. -/
theorem createNeeded_cases {e : Experiment} {files needed : Files}
    (hneeded : e.createNeeded files = .ok needed) : ∃ dirs made,
      files.createDirs e.configuration.loader.specificationDir = .ok dirs ∧
      (List.range e.functions.length).foldlM (fun files index => files.writeFor
        (Specification.path e.configuration.loader.specificationDir index) []) dirs = .ok made ∧
      e.HasRoom made := by
  unfold createNeeded at hneeded
  obtain ⟨dirs, hdirs, hneeded⟩ := exists_of_bind hneeded
  obtain ⟨made, hmade, hneeded⟩ := exists_of_bind hneeded
  obtain ⟨created, hcreated, hneeded⟩ := exists_of_bind hneeded
  refine ⟨dirs, made, ?_, hmade, created, hcreated, fun hsource => ⟨needed, ?_⟩⟩
  · cases hfirst : files.createDirs e.configuration.loader.specificationDir with
    | error fault => simp [hfirst, Except.mapError] at hdirs
    | ok first => simpa [hfirst, Except.mapError] using hdirs
  · rwa [if_pos hsource] at hneeded

theorem HasRoom.sameShape {e : Experiment} {files other : Files} (hroom : e.HasRoom files)
    (hshape : files.SameShape other) : e.HasRoom other := by
  obtain ⟨created, hcreated, hsampled⟩ := hroom
  obtain ⟨created', hcreated', hshape'⟩ := hshape.createOutputs hcreated
  refine ⟨created', hcreated', fun hsource => ?_⟩
  obtain ⟨sampled, hsampled⟩ := hsampled hsource
  obtain ⟨sampled', hsampled', -⟩ := hshape'.createOutputs hsampled
  exact ⟨sampled', hsampled'⟩

variable {p : Progress}

/-! ## Deployment -/

/-- Functions that run already are deployed as they are. -/
theorem gives_deploy {functions deployed : List Function} {q : Progress}
    (hdeployer : p.experiment.deployer = .preDeployed) :
    (deploy functions).Gives p deployed q ↔
      functions.map (·.withEndpoint) = deployed ∧
      { p with
        deployments := p.deployments ++ [⟨functions.length, p.experiment.configuration.manifestPath⟩]
        site := { p.site with
          world := p.site.world.report [.preDeployed functions.length] } } = q := by
  simp [deploy, hdeployer, Deployer.preDeployed]

theorem deployAll_preDeployed (hdeployer : p.experiment.deployer = .preDeployed) :
    ∃ q prompts, deployAll.Gives p () q ∧ q.site.files = p.site.files ∧
      q.experiment = { p.experiment with
        functions := p.experiment.functions.map (·.withEndpoint), promptFunctions := prompts } := by
  by_cases hbank : p.experiment.configuration.loader.withPromptBank = true
  · simp [deployAll, gives_deploy, hdeployer, hbank]
  · simp [deployAll, gives_deploy, hdeployer, hbank]

/-! ## Specifications -/

/-- A specification is generated and saved for a function that can be drawn for. -/
theorem generateOne_drawable {f : Function} (hdrawable : f.Drawable) {index : Nat}
    {stub made : Files} (hshape : stub.SameShape p.site.files)
    (hwrite : stub.writeFor (Specification.path p.experiment.configuration.loader.specificationDir
      index) [] = .ok made) :
    ∃ specification q, (generateOne f index).Gives p specification q ∧
      made.SameShape q.site.files ∧
      ∃ generator, q.experiment = { p.experiment with generator := generator } := by
  obtain ⟨specification, hgenerate⟩ := exists_generate hdrawable
    p.experiment.configuration.loader.arrivals p.experiment.configuration.loader.granularity
    p.experiment.generator
  obtain ⟨files, hsave, hsame⟩ := hshape.writeFor hwrite specification.render
  refine ⟨specification, { p with
    experiment := { p.experiment with generator := (generate f
      p.experiment.configuration.loader.arrivals p.experiment.configuration.loader.granularity
      p.experiment.generator).2 }
    site := { p.site with files := files } }, ?_, hsame, _, rfl⟩
  simp [generateOne, hgenerate, Specification.save, hsave]

/-- Specifications are generated and saved for all functions, if there is room for them. -/
theorem generateAll_drawable {functions : List Function} (hdrawable : ∀ f ∈ functions, f.Drawable)
    (first : Nat) {stub made : Files} (hshape : stub.SameShape p.site.files)
    (hwrite : (List.range' first functions.length).foldlM (fun files index => files.writeFor
      (Specification.path p.experiment.configuration.loader.specificationDir index) []) stub =
        .ok made) :
    ∃ specifications q,
      ((functions.zipIdx first).mapM fun (f, index) => generateOne f index).Gives p
        specifications q ∧
      made.SameShape q.site.files ∧
      ∃ generator, q.experiment = { p.experiment with generator := generator } := by
  induction functions generalizing p first stub with
  | nil =>
    obtain rfl := Except.ok.inj hwrite
    exact ⟨[], p, by simp, hshape, p.experiment.generator, rfl⟩
  | cons f functions ih =>
    rw [List.length_cons, List.range'_succ, List.foldlM_cons] at hwrite
    obtain ⟨next, hfirst, hrest⟩ := exists_of_bind hwrite
    obtain ⟨specification, mid, hgives, hmid, generator, hexperiment⟩ :=
      generateOne_drawable (hdrawable f List.mem_cons_self) hshape hfirst
    have hdir : mid.experiment.configuration = p.experiment.configuration := by rw [hexperiment]
    rw [← hdir] at hrest
    obtain ⟨specifications, q, hgives', hq, generator', hexperiment'⟩ :=
      ih (fun f hmem => hdrawable f (List.mem_cons_of_mem _ hmem)) (first + 1) hmid hrest
    refine ⟨specification :: specifications, q, ?_, hq, generator', ?_⟩
    · rw [List.zipIdx_cons, List.mapM_cons, gives_bind]
      refine ⟨specification, mid, hgives, ?_⟩
      rw [gives_bind]
      exact ⟨specifications, q, hgives', by simp⟩
    · rw [hexperiment', hexperiment]

/-- Specifications are generated where there is room for them. -/
theorem generateSpecifications_drawable
    (hdrawable : ∀ f ∈ p.experiment.functions, f.Drawable) {dirs made : Files}
    (hdirs : p.site.files.createDirs p.experiment.configuration.loader.specificationDir = .ok dirs)
    (hmade : (List.range p.experiment.functions.length).foldlM (fun files index => files.writeFor
      (Specification.path p.experiment.configuration.loader.specificationDir index) []) dirs =
        .ok made) :
    ∃ q, generateSpecifications.Gives p () q ∧ made.SameShape q.site.files ∧
      ∃ generator specifications, q.experiment =
        { p.experiment with generator := generator, specifications := specifications } := by
  rw [List.range_eq_range'] at hmade
  obtain ⟨specifications, drawn, hdrawn, hshape, generator, hexperiment⟩ :=
    generateAll_drawable (p := { p with site := { p.site with files := dirs } }) hdrawable 0
      (.refl dirs) hmade
  refine ⟨{ drawn with
    site := { drawn.site with world := drawn.site.world.report [.generated specifications.length
      p.experiment.configuration.loader.specificationDir] }
    experiment := { drawn.experiment with specifications := specifications } }, ?_, hshape,
    generator, specifications, by rw [hexperiment]⟩
  unfold generateSpecifications
  simp only [gives_bind, gives_experiment, gives_changeFiles, gives_report, gives_setExperiment,
    and_assoc, exists_and_left, exists_eq_left]
  exact ⟨⟨⟩, { p with site := { p.site with files := dirs } }, ⟨dirs, by rw [hdirs], rfl⟩,
    specifications, drawn, hdrawn, ⟨⟩, rfl⟩

/-- An endpoint changes nothing of what is drawn. -/
theorem drawable_withEndpoint {f : Function} (hdrawable : f.Drawable) :
    f.withEndpoint.Drawable := by
  unfold Function.withEndpoint
  split <;> exact hdrawable

/-- The preparation of a run succeeds that has what it needs, and leaves room for its outputs. -/
theorem prepare_needed {e : Experiment} {site : Site} {needed : Files}
    (hdeployer : e.deployer = .preDeployed) (hfunctions : ∀ f ∈ e.functions, f.Drawable)
    (hneeded : e.createNeeded site.files = .ok needed) :
    ∃ q, (prepare false).Gives { experiment := e, site := site } () q ∧
      q.experiment.invoker = e.invoker ∧ q.experiment.HasRoom q.site.files := by
  obtain ⟨dirs, made, hdirs, hmade, hroom⟩ := createNeeded_cases hneeded
  obtain ⟨deployed, prompts, hdeploy, hfiles, hexperiment⟩ :=
    deployAll_preDeployed (p := { experiment := e, site := site }) hdeployer
  have hconfiguration : deployed.experiment.configuration = e.configuration := by rw [hexperiment]
  have hlength : deployed.experiment.functions.length = e.functions.length := by
    rw [hexperiment]
    exact List.length_map _
  have hdrawable : ∀ f ∈ deployed.experiment.functions, f.Drawable := by
    intro f hf
    rw [hexperiment] at hf
    obtain ⟨before, hbefore, rfl⟩ := List.mem_map.mp hf
    exact drawable_withEndpoint (hfunctions before hbefore)
  rw [← hfiles, ← hconfiguration] at hdirs
  rw [← hlength, ← hconfiguration] at hmade
  obtain ⟨q, hgenerate, hshape, generator, specifications, hgenerated⟩ :=
    generateSpecifications_drawable hdrawable hdirs hmade
  refine ⟨q, gives_bind.mpr ⟨⟨⟩, deployed, hdeploy, hgenerate⟩, ?_, ?_⟩
  · rw [hgenerated, hexperiment]
  · have hsame : q.experiment.HasRoom made ↔ e.HasRoom made := by
      rw [hgenerated, hexperiment]
      rfl
    exact (hsame.mpr hroom).sameShape hshape

end TraceReplay.Experiment
