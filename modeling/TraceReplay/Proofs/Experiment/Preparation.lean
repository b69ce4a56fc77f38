import TraceReplay.Proofs.Experiment.Trial
import TraceReplay.Proofs.Specification.Generated

/-!
# Before the replay

Before its replay a run deploys the functions and gets a specification for each of them.
Nothing happens in the world meanwhile, and every function gets a specification that fits
it, whether it is generated or loaded.
-/

namespace TraceReplay.Experiment

open Replay (World)
open Trial

/-- Everything of a run before the replay. -/
def prepare (generated : Bool) : Trial Unit := do
  deployAll
  if generated then loadSpecifications else generateSpecifications

theorem trial_eq (generated : Bool) :
    trial false generated = (do prepare generated; replay) := by
  cases generated <;> simp [trial, prepare]

/-- How far a run has come when its replay begins. -/
def prepared (e : Experiment) (site : Site) (generated : Bool) : Progress :=
  ((prepare generated).run.run { experiment := e, site := site }).2

/-- Every function has a specification that fits it. -/
def Fitted (e : Experiment) : Prop :=
  List.Forall₂ (fun f specification => specification.validate f = .ok ()) e.functions
    e.specifications

theorem Fitted.specification {e : Experiment} (hfitted : e.Fitted) {index : Nat} {f : Function}
    (hf : e.functions[index]? = some f) :
    (e.specifications.getD index .empty).validate f = .ok () := by
  obtain ⟨hlength, hvalid⟩ := List.forall₂_iff_get.mp hfitted
  obtain ⟨hindex, rfl⟩ := List.getElem?_eq_some_iff.mp hf
  have hspecification := hvalid index hindex (hlength ▸ hindex)
  simpa [List.getD_eq_getElem?_getD, List.getElem?_eq_getElem (hlength ▸ hindex)]
    using hspecification

/-- Nothing has happened in the world but reports, and no file is gone. -/
structure Undisturbed (p q : Progress) : Prop where
  world : ∃ notices, q.site.world = p.site.world.report notices
  files : p.site.files.Grows q.site.files
  configuration : q.experiment.configuration = p.experiment.configuration
  policy : q.experiment.policy = p.experiment.policy

variable {p q : Progress}

namespace Undisturbed

@[refl]
theorem refl (p : Progress) : Undisturbed p p := ⟨⟨[], rfl⟩, .refl _, rfl, rfl⟩

@[trans]
theorem trans {mid : Progress} (hfirst : Undisturbed p mid) (hsecond : Undisturbed mid q) :
    Undisturbed p q := by
  obtain ⟨first, hfirstWorld⟩ := hfirst.world
  obtain ⟨second, hsecondWorld⟩ := hsecond.world
  refine ⟨⟨first ++ second, ?_⟩, hfirst.files.trans hsecond.files,
    hsecond.configuration.trans hfirst.configuration, hsecond.policy.trans hfirst.policy⟩
  simp [hsecondWorld, hfirstWorld, World.report]

/-- Changes of an experiment leave its world alone. -/
theorem setExperiment (p : Progress) {e : Experiment}
    (hconfiguration : e.configuration = p.experiment.configuration)
    (hpolicy : e.policy = p.experiment.policy) :
    Undisturbed p { p with experiment := e } := ⟨⟨[], rfl⟩, .refl _, hconfiguration, hpolicy⟩

theorem setFiles (p : Progress) {files : Files} (hgrows : p.site.files.Grows files) :
    Undisturbed p { p with site := { p.site with files := files } } :=
  ⟨⟨[], rfl⟩, hgrows, rfl, rfl⟩

end Undisturbed

/-! ## Lists -/

/-- What each part keeps is kept by all of them, one after the other. -/
theorem Trial.forall₂_of_mapM {α β : Type} {f : α → Trial β} {R : Progress → Progress → Prop}
    {S : α → β → Prop} (hrefl : ∀ p, R p p) (htrans : ∀ {p mid q}, R p mid → R mid q → R p q)
    (hstep : ∀ {x p y q}, (f x).Gives p y q → R p q ∧ S x y) {xs : List α} {ys : List β}
    (hgives : (xs.mapM f).Gives p ys q) : R p q ∧ List.Forall₂ S xs ys := by
  induction xs generalizing p ys with
  | nil =>
    simp only [List.mapM_nil, gives_pure] at hgives
    obtain ⟨rfl, rfl⟩ := hgives
    exact ⟨hrefl p, .nil⟩
  | cons x xs ih =>
    simp only [List.mapM_cons, gives_bind, gives_pure] at hgives
    obtain ⟨y, mid, hy, rest, last, hrest, rfl, rfl⟩ := hgives
    obtain ⟨hkept, hxy⟩ := hstep hy
    obtain ⟨hkept', hall⟩ := ih hrest
    exact ⟨htrans hkept hkept', .cons hxy hall⟩

theorem forall₂_of_mapM_ok {α β : Type} {f : α → Except ReplayError β} {xs : List α}
    {ys : List β} (hmap : xs.mapM f = .ok ys) : List.Forall₂ (fun x y => f x = .ok y) xs ys := by
  induction xs generalizing ys with
  | nil =>
    obtain rfl := Except.ok.inj hmap
    exact .nil
  | cons x xs ih =>
    rw [List.mapM_cons] at hmap
    cases hx : f x with
    | error error => simp [hx, bind, Except.bind] at hmap
    | ok y =>
      cases hrest : xs.mapM f with
      | error error => simp [hx, hrest, bind, Except.bind] at hmap
      | ok rest =>
        obtain rfl : y :: rest = ys := by
          simpa [hx, hrest, bind, Except.bind, pure, Except.pure] using hmap
        exact .cons hx (ih hrest)

/-- What holds of all functions with their places holds of the functions. -/
theorem forall₂_of_zipIdx {β : Type} {S : Function → β → Prop} {functions : List Function}
    {ys : List β} (hall : List.Forall₂ (fun x y => S x.1 y) functions.zipIdx ys) :
    List.Forall₂ S functions ys := by
  have hmap := (List.forall₂_map_left_iff (f := Prod.fst)).mpr hall
  rwa [List.zipIdx_map_fst] at hmap

/-! ## Deployment -/

theorem deploy_gives {functions deployed : List Function}
    (hgives : (deploy functions).Gives p deployed q) : Undisturbed p q := by
  unfold deploy at hgives
  simp only [gives_bind, gives_experiment, gives_modify, gives_report, and_assoc, exists_and_left,
    exists_eq_left] at hgives
  obtain ⟨_, _, hresult⟩ := hgives
  split at hresult
  · rw [gives_pure] at hresult
    obtain ⟨-, rfl⟩ := hresult
    exact ⟨⟨_, rfl⟩, .refl _, rfl, rfl⟩
  · exact absurd hresult gives_throw

theorem deployAll_gives {u : Unit} (hgives : deployAll.Gives p u q) : Undisturbed p q := by
  unfold deployAll at hgives
  simp only [gives_bind, gives_experiment, gives_setExperiment, and_assoc, exists_and_left,
    exists_eq_left] at hgives
  obtain ⟨functions, mid, hdeploy, _, hprompt⟩ := hgives
  have hfirst := deploy_gives hdeploy
  split at hprompt
  · simp only [gives_bind, gives_experiment, gives_setExperiment, and_assoc, exists_and_left,
      exists_eq_left] at hprompt
    obtain ⟨prompts, last, hdeploy', rfl⟩ := hprompt
    have hset := Undisturbed.setExperiment mid
      (e := { mid.experiment with functions := functions }) rfl rfl
    exact (hfirst.trans hset).trans ((deploy_gives hdeploy').trans (.setExperiment last rfl rfl))
  · rw [gives_pure] at hprompt
    obtain ⟨-, rfl⟩ := hprompt
    exact hfirst.trans (.setExperiment mid rfl rfl)

/-! ## Specifications -/

theorem generateOne_gives {f : Function} {index : Nat} {specification : Specification}
    (hgives : (generateOne f index).Gives p specification q) :
    (Undisturbed p q ∧ q.experiment.functions = p.experiment.functions) ∧
      specification.validate f = .ok () := by
  unfold generateOne at hgives
  simp only [gives_bind, gives_experiment, gives_setExperiment, and_assoc, exists_and_left,
    exists_eq_left] at hgives
  obtain ⟨_, hresult⟩ := hgives
  split at hresult
  · exact absurd hresult gives_throw
  · rename_i generated hgenerate
    simp only [gives_bind, gives_changeFiles, gives_pure] at hresult
    obtain ⟨_, _, ⟨files, hsave, rfl⟩, rfl, rfl⟩ := hresult
    have hgrows : p.site.files.Grows files := .write (Files.write_of_writeFor hsave)
    exact ⟨⟨⟨⟨[], rfl⟩, hgrows, rfl, rfl⟩, rfl⟩, validate_of_generate hgenerate⟩

theorem generateSpecifications_gives {u : Unit} (hgives : generateSpecifications.Gives p u q) :
    Undisturbed p q ∧ q.experiment.Fitted := by
  unfold generateSpecifications at hgives
  simp only [gives_bind, gives_experiment, gives_changeFiles, gives_report,
    gives_setExperiment, and_assoc, exists_and_left, exists_eq_left] at hgives
  obtain ⟨_, _, ⟨files, hcreate, rfl⟩, specifications, mid, hmap, _, rfl⟩ := hgives
  obtain ⟨⟨hkept, hfunctions⟩, hall⟩ := Trial.forall₂_of_mapM
    (R := fun p q => Undisturbed p q ∧ q.experiment.functions = p.experiment.functions)
    (S := fun x specification => specification.validate x.1 = .ok ())
    (fun p => ⟨.refl p, rfl⟩) (fun hfirst hsecond =>
      ⟨hfirst.1.trans hsecond.1, hsecond.2.trans hfirst.2⟩)
    (fun hgives => generateOne_gives hgives) hmap
  have hgrows : p.site.files.Grows files := by
    split at hcreate
    · rename_i created hdirs
      obtain rfl := Except.ok.inj hcreate
      exact .createDirs hdirs
    · exact absurd hcreate (by simp)
  refine ⟨((Undisturbed.setFiles p hgrows).trans hkept).trans ⟨⟨_, rfl⟩, .refl _, rfl, rfl⟩, ?_⟩
  change List.Forall₂ _ mid.experiment.functions specifications
  rw [hfunctions]
  exact forall₂_of_zipIdx hall

theorem validate_of_loadOne {files : Files} {dir : String} {f : Function} {index : Nat}
    {specification : Specification} (hload : loadOne files dir f index = .ok specification) :
    specification.validate f = .ok () := by
  unfold loadOne at hload
  cases hread : Specification.load files dir index with
  | error error => simp [hread, bind, Except.bind] at hload
  | ok loaded =>
    cases hvalid : loaded.validate f with
    | error error => simp [hread, hvalid, bind, Except.bind] at hload
    | ok _ =>
      obtain rfl : loaded = specification := by
        simpa [hread, hvalid, bind, Except.bind] using hload
      exact hvalid

theorem loadSpecifications_gives {u : Unit} (hgives : loadSpecifications.Gives p u q) :
    Undisturbed p q ∧ q.experiment.Fitted := by
  unfold loadSpecifications at hgives
  simp only [gives_bind, gives_experiment, gives_files, and_assoc, exists_and_left,
    exists_eq_left] at hgives
  split at hgives
  · exact absurd hgives gives_throw
  · rename_i specifications hmap
    rw [gives_setExperiment] at hgives
    subst hgives
    refine ⟨.setExperiment p rfl rfl, forall₂_of_zipIdx ?_⟩
    exact (forall₂_of_mapM_ok hmap).imp fun _ _ hload => validate_of_loadOne hload

/-- A prepared run has not disturbed the world, and has a specification that fits for every
function. -/
theorem prepare_gives {generated : Bool} {u : Unit} (hgives : (prepare generated).Gives p u q) :
    Undisturbed p q ∧ q.experiment.Fitted := by
  unfold prepare at hgives
  rw [gives_bind] at hgives
  obtain ⟨_, mid, hdeploy, hspecifications⟩ := hgives
  have hfirst := deployAll_gives hdeploy
  split at hspecifications
  · obtain ⟨hsecond, hfitted⟩ := loadSpecifications_gives hspecifications
    exact ⟨hfirst.trans hsecond, hfitted⟩
  · obtain ⟨hsecond, hfitted⟩ := generateSpecifications_gives hspecifications
    exact ⟨hfirst.trans hsecond, hfitted⟩

/-- A run that succeeds has been prepared, and then has replayed. -/
theorem run_gives {e : Experiment} {site : Site} {generated : Bool} {summary : Summary}
    (hrun : e.run site false generated = (.ok summary, p)) :
    (prepare generated).Gives { experiment := e, site := site } () (e.prepared site generated) ∧
      replay.Gives (e.prepared site generated) summary p := by
  have hgives : (trial false generated).Gives { experiment := e, site := site } summary p := hrun
  rw [trial_eq, gives_bind] at hgives
  obtain ⟨_, mid, hprepare, hreplay⟩ := hgives
  have hmid : e.prepared site generated = mid := congrArg Prod.snd hprepare
  rw [hmid]
  exact ⟨hprepare, hreplay⟩

end TraceReplay.Experiment
