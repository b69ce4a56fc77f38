import TraceReplay.Invoker.Scripted
import TraceReplay.Proofs.Experiment.Provision
import TraceReplay.Proofs.Specification.Persisted

/-!
# Specifications between experiments

The specifications that one experiment saves are those that another one loads from the same
directory, as long as their floats are finite.  Loading fails only if one of them does not fit its
function; those that an experiment has generated fit.
-/

namespace TraceReplay.Experiment

open Trial

variable {p q : Progress} {files : Files} {dir : String} {f : Function} {index : Nat}
  {specification : Specification} {specifications : List Specification}

/-! ## Loading -/

theorem mapM_eq_ok_iff {α β : Type} {f : α → Except ReplayError β} {xs : List α} {ys : List β} :
    xs.mapM f = .ok ys ↔ List.Forall₂ (fun x y => f x = .ok y) xs ys := by
  refine ⟨forall₂_of_mapM_ok, fun hall => ?_⟩
  induction hall with
  | nil => rfl
  | cons hx _ ih =>
    rw [List.mapM_cons, hx, ih]
    rfl

theorem loadOne_eq_ok_iff : loadOne files dir f index = .ok specification ↔
    Specification.load files dir index = .ok specification ∧ specification.validate f = .ok () := by
  unfold loadOne
  cases Specification.load files dir index with
  | error error => simp [bind, Except.bind]
  | ok loaded =>
    cases hvalid : loaded.validate f with
    | error error =>
      have hnot : ¬(loaded = specification ∧ specification.validate f = .ok ()) := by
        rintro ⟨rfl, hok⟩
        simp [hvalid] at hok
      simpa [bind, Except.bind, hvalid] using hnot
    | ok _ =>
      simp only [bind, Except.bind, hvalid, Except.ok.injEq, iff_self_and]
      rintro rfl
      exact hvalid

/-- If each can be loaded, all are, unless one of them does not fit. -/
theorem mapM_loadOne_eq_ok_iff {functions : List Function} {loaded : List Specification}
    (hlength : functions.length = specifications.length)
    (heach : ∀ index specification, specifications[index]? = some specification →
      Specification.load files dir index = .ok specification) :
    (functions.zipIdx.mapM fun (f, index) => loadOne files dir f index) = .ok loaded ↔
      List.Forall₂ (fun f specification => specification.validate f = .ok ()) functions
        specifications ∧ loaded = specifications := by
  rw [mapM_eq_ok_iff]
  simp only [loadOne_eq_ok_iff]
  constructor
  · intro hall
    -- A number has one file, so what has been loaded under it is what each is loaded as.
    have hsame : loaded = specifications := by
      obtain ⟨hsize, hget⟩ := List.forall₂_iff_get.mp hall
      rw [List.length_zipIdx] at hsize
      refine List.ext_getElem (hsize.symm.trans hlength) fun index hloaded hindex => ?_
      have hload := (hget index (by rwa [List.length_zipIdx, hsize]) hloaded).1
      have hsaved := heach index _ (List.getElem?_eq_getElem hindex)
      simp only [List.get_eq_getElem, List.getElem_zipIdx, Nat.zero_add] at hload
      exact Except.ok.inj (hload.symm.trans hsaved)
    subst hsame
    exact ⟨forall₂_of_zipIdx (hall.imp fun _ _ hboth => hboth.2), rfl⟩
  · rintro ⟨hvalid, rfl⟩
    obtain ⟨-, hget⟩ := List.forall₂_iff_get.mp hvalid
    refine List.forall₂_iff_get.mpr ⟨by rwa [List.length_zipIdx], fun index hf hloaded => ?_⟩
    rw [List.length_zipIdx] at hf
    simp only [List.get_eq_getElem, List.getElem_zipIdx, Nat.zero_add]
    exact ⟨heach index _ (List.getElem?_eq_getElem hloaded), hget index hf hloaded⟩

/-- The experiment with these specifications. -/
def provided (e : Experiment) (specifications : List Specification) : Experiment :=
  { e with specifications := specifications }

/-- The specifications are found again in the files of a directory. -/
structure Reloadable (files : Files) (dir : String) (specifications : List Specification) :
    Prop where
  /-- Each of them is loaded by its number. -/
  each : ∀ index specification, specifications[index]? = some specification →
    Specification.load files dir index = .ok specification
  /-- An experiment with these files, this directory and a function for each of them loads all
  of them if they fit, and fails otherwise. -/
  all : ∀ p : Progress, p.site.files = files →
    p.experiment.configuration.loader.specificationDir = dir →
    p.experiment.functions.length = specifications.length →
    ∀ q, loadSpecifications.Gives p () q ↔
      (p.experiment.provided specifications).Fitted ∧
        q = { p with experiment := p.experiment.provided specifications }

theorem reloadable_of_each (heach : ∀ index specification,
    specifications[index]? = some specification →
      Specification.load files dir index = .ok specification) :
    Reloadable files dir specifications := by
  refine ⟨heach, ?_⟩
  rintro p rfl rfl hlength q
  have hloaded (loaded : List Specification) :
      (p.experiment.functions.zipIdx.mapM fun (f, index) => loadOne p.site.files
          p.experiment.configuration.loader.specificationDir f index) = .ok loaded ↔
        (p.experiment.provided specifications).Fitted ∧ loaded = specifications :=
    mapM_loadOne_eq_ok_iff hlength heach
  unfold loadSpecifications
  simp only [gives_bind, gives_experiment, gives_files, and_assoc, exists_and_left,
    exists_eq_left]
  split
  · rename_i error hfailed
    simp only [gives_throw, false_iff, not_and]
    intro hfitted
    exact absurd (hfailed.symm.trans ((hloaded specifications).mpr ⟨hfitted, rfl⟩)) (by simp)
  · rename_i loaded hall
    obtain ⟨hfitted, rfl⟩ := (hloaded loaded).mp hall
    rw [gives_setExperiment]
    exact ⟨fun hq => ⟨hfitted, hq⟩, fun hboth => hboth.2⟩

/-- What has been saved in any order is found again. -/
theorem reloadable_of_saveAll {saved : Files} {numbered : List (Specification × Nat)}
    (hfinite : ∀ specification ∈ specifications, specification.Finite)
    (horder : numbered.Perm specifications.zipIdx)
    (hsave : Specification.saveAll dir numbered files = .ok saved) :
    Reloadable saved dir specifications := by
  have hdistinct : (numbered.map Prod.snd).Nodup := by
    rw [(horder.map Prod.snd).nodup_iff, List.zipIdx_map_snd]
    exact List.nodup_range'
  apply reloadable_of_each
  intro index specification hspecification
  have hmem : (specification, index) ∈ numbered := by
    rw [horder.mem_iff]
    exact List.mem_zipIdx_iff_getElem?.mpr hspecification
  exact (Specification.saved_of_saveAll hdistinct hsave hmem).load
    (hfinite _ (List.mem_of_getElem? hspecification))

/-! ## Generating -/

theorem generateOne_saves (hgives : (generateOne f index).Gives p specification q) :
    specification.save p.site.files p.experiment.configuration.loader.specificationDir index =
        .ok q.site.files ∧
      q.experiment.configuration = p.experiment.configuration ∧
      q.experiment.functions = p.experiment.functions := by
  unfold generateOne at hgives
  simp only [gives_bind, gives_experiment, gives_setExperiment, and_assoc, exists_and_left,
    exists_eq_left] at hgives
  obtain ⟨_, hresult⟩ := hgives
  split at hresult
  · exact absurd hresult gives_throw
  · simp only [gives_bind, gives_changeFiles, gives_pure] at hresult
    obtain ⟨_, _, ⟨files, hsave, rfl⟩, rfl, rfl⟩ := hresult
    exact ⟨hsave, rfl, rfl⟩

/-- Specifications are saved with their numbers as they are generated. -/
theorem mapM_generateOne_saves {functions : List Function} {start : Nat}
    (hgives : ((functions.zipIdx start).mapM fun (f, index) => generateOne f index).Gives p
      specifications q) :
    Specification.saveAll p.experiment.configuration.loader.specificationDir
        (specifications.zipIdx start) p.site.files = .ok q.site.files ∧
      q.experiment.configuration = p.experiment.configuration ∧
      q.experiment.functions = p.experiment.functions := by
  induction functions generalizing start p specifications with
  | nil =>
    simp only [List.zipIdx_nil, List.mapM_nil, gives_pure] at hgives
    obtain ⟨rfl, rfl⟩ := hgives
    exact ⟨rfl, rfl, rfl⟩
  | cons f functions ih =>
    simp only [List.zipIdx_cons, List.mapM_cons, gives_bind, gives_pure] at hgives
    obtain ⟨specification, mid, hfirst, others, last, hothers, rfl, rfl⟩ := hgives
    obtain ⟨hsave, hconfiguration, hfunctions⟩ := generateOne_saves hfirst
    obtain ⟨hrest, hconfiguration', hfunctions'⟩ := ih hothers
    refine ⟨?_, hconfiguration'.trans hconfiguration, hfunctions'.trans hfunctions⟩
    rw [List.zipIdx_cons, Specification.saveAll_cons, hsave, ← hconfiguration]
    exact hrest

theorem generateSpecifications_saves (hgives : generateSpecifications.Gives p () q) :
    (∃ dirs, Specification.saveAll p.experiment.configuration.loader.specificationDir
        q.experiment.specifications.zipIdx dirs = .ok q.site.files) ∧
      q.experiment.functions = p.experiment.functions := by
  unfold generateSpecifications at hgives
  simp only [gives_bind, gives_experiment, gives_changeFiles, gives_report,
    gives_setExperiment, and_assoc, exists_and_left, exists_eq_left] at hgives
  obtain ⟨_, _, ⟨files, -, rfl⟩, specifications, mid, hmap, _, rfl⟩ := hgives
  obtain ⟨hsaves, -, hfunctions⟩ := mapM_generateOne_saves hmap
  exact ⟨⟨files, hsaves⟩, hfunctions⟩

/-- What has been generated is found again, and fits. -/
theorem reloadable_of_generate (hgives : generateSpecifications.Gives p () q)
    (hfinite : ∀ specification ∈ q.experiment.specifications, specification.Finite) :
    Reloadable q.site.files p.experiment.configuration.loader.specificationDir
        q.experiment.specifications ∧
      ∀ r : Progress, r.site.files = q.site.files →
        r.experiment.configuration.loader.specificationDir =
          p.experiment.configuration.loader.specificationDir →
        r.experiment.functions = p.experiment.functions →
        loadSpecifications.Gives r ()
          { r with experiment := r.experiment.provided q.experiment.specifications } := by
  obtain ⟨⟨dirs, hsave⟩, hfunctions⟩ := generateSpecifications_saves hgives
  obtain ⟨-, hfitted⟩ := generateSpecifications_gives hgives
  have hreloadable := reloadable_of_saveAll hfinite (.refl _) hsave
  refine ⟨hreloadable, fun r hfiles hdir hsame => ?_⟩
  rw [← hfunctions] at hsame
  have hlength : r.experiment.functions.length = q.experiment.specifications.length :=
    hsame ▸ hfitted.length_eq
  refine (hreloadable.all r hfiles hdir hlength _).mpr ⟨?_, rfl⟩
  change List.Forall₂ _ r.experiment.functions _
  rw [hsame]
  exact hfitted

/-! ## Both -/

/-- Finite specifications that have been saved, each once and in any order, are loaded again as
they were, and by every experiment that they fit; among them are those that were generated. -/
theorem specifications_persist :
    (∀ (specifications : List Specification) (numbered : List (Specification × Nat))
        (dir : String) (files saved : Files),
      (∀ specification ∈ specifications, specification.Finite) →
      numbered.Perm specifications.zipIdx →
      Specification.saveAll dir numbered files = .ok saved →
      Reloadable saved dir specifications) ∧
    ∀ p q : Progress, generateSpecifications.Gives p () q →
      (∀ specification ∈ q.experiment.specifications, specification.Finite) →
      Reloadable q.site.files p.experiment.configuration.loader.specificationDir
          q.experiment.specifications ∧
        ∀ r : Progress, r.site.files = q.site.files →
          r.experiment.configuration.loader.specificationDir =
            p.experiment.configuration.loader.specificationDir →
          r.experiment.functions = p.experiment.functions →
          loadSpecifications.Gives r ()
            { r with experiment := r.experiment.provided q.experiment.specifications } :=
  ⟨fun _ _ _ _ _ => reloadable_of_saveAll, fun _ _ => reloadable_of_generate⟩

/-- A zero of either sign, the least and the greatest double, and numbers at their limits. -/
def extremes : List Specification := [
  { gaps := [[0, Float.ofBits 0x8000000000000000], []]
    perStepCount := [2, 0xffffffffffffffff]
    rawDuration := [Float.ofBits 1]
    slots := [[⟨0, 0xffffffff, none⟩, ⟨10, 64, some ⟨Int64.minValue, Int64.maxValue, -1⟩⟩], []] },
  { gaps := [[Float.ofBits 0x7fefffffffffffff]], perStepCount := [], rawDuration := []
    slots := [] }]

/-- Two functions, one of them not asked for in every step. -/
def sparse : Experiment where
  configuration := 
    .ofLoader { experimentDuration := 2, granularity := .second, arrivals := .equidistant }
  functions := [
    { name := "often", invocationStats := [3, 2]
      runtimeStats := .fixed 10, memoryStats := .fixed 64 },
    { name := "seldom", invocationStats := [0, 1]
      runtimeStats := .fixed 20, memoryStats := .fixed 64 }]
  generator := .ofSeed 42
  invoker := .scripted fun _ => {}
  policy := .passThrough

theorem specifications_persist_examples :
    (∃ saved, Specification.saveAll "" extremes.zipIdx.reverse .empty = .ok saved ∧
      Reloadable saved "" extremes) ∧
    ∃ q, generateSpecifications.Gives { experiment := sparse, site := {} } () q ∧
      q.experiment.specifications.length = 2 ∧
      loadSpecifications.Gives { experiment := sparse, site := { files := q.site.files } } ()
        { experiment := sparse.provided q.experiment.specifications
          site := { files := q.site.files } } := by
  constructor
  · obtain ⟨saved, hsaved⟩ := exists_of_isOk
      (x := Specification.saveAll "" extremes.zipIdx.reverse .empty) (by decide +kernel)
    exact ⟨saved, hsaved, specifications_persist.1 extremes _ "" .empty saved (by decide +kernel)
      (List.reverse_perm _) hsaved⟩
  · generalize hrun : generateSpecifications.run.run { experiment := sparse, site := {} } = result
    have hok : result.1.isOk = true := by
      rw [← hrun]
      decide +kernel
    have hlength : result.2.experiment.specifications.length = 2 := by
      rw [← hrun]
      decide +kernel
    have hfinite : ∀ specification ∈ result.2.experiment.specifications, specification.Finite := by
      rw [← hrun]
      decide +kernel
    obtain ⟨error | u, q⟩ := result
    · exact absurd hok (by simp [Except.isOk, Except.toBool])
    · exact ⟨q, hrun, hlength, (specifications_persist.2 _ q hrun hfinite).2 _ rfl rfl rfl⟩

end TraceReplay.Experiment
