import TraceReplay.Experiment
import TraceReplay.Proofs.Files.Outputs

/-!
# Parts of a run

A part of a run that succeeds gives a result and leaves a progress, and one that fails gives an
error and leaves a progress as well; whatever the parts of a run are made of, their results and
their progress can be read off step by step.
-/

namespace TraceReplay.Experiment

open Replay (World)

namespace Trial

variable {α β : Type} {p q : Progress}

/-- The part of a run succeeds from `p` with a result and leaves `q`. -/
def Gives (x : Trial α) (p : Progress) (a : α) (q : Progress) : Prop := x.run.run p = (.ok a, q)

@[simp]
theorem gives_pure {a b : α} : (pure a : Trial α).Gives p b q ↔ a = b ∧ p = q := by
  change ((.ok a, p) : Except ReplayError α × Progress) = (.ok b, q) ↔ _
  simp

@[simp]
theorem gives_bind {x : Trial α} {f : α → Trial β} {b : β} :
    (x >>= f).Gives p b q ↔ ∃ a mid, x.Gives p a mid ∧ (f a).Gives mid b q := by
  have hrun : (x >>= f).run.run p =
      (ExceptT.bindCont f (x.run.run p).1).run (x.run.run p).2 := rfl
  unfold Gives
  rw [hrun]
  rcases x.run.run p with ⟨error | a, mid⟩
  · constructor
    · intro hgives
      have hresult : (.error error : Except ReplayError β) = .ok b := congrArg Prod.fst hgives
      exact absurd hresult (by simp)
    · rintro ⟨_, _, hsame, -⟩
      exact absurd (congrArg Prod.fst hsame) (by simp)
  · constructor
    · exact fun hgives => ⟨a, mid, rfl, hgives⟩
    · rintro ⟨_, _, hsame, hgives⟩
      obtain ⟨ha, rfl⟩ := Prod.mk.inj hsame
      obtain rfl := Except.ok.inj ha
      exact hgives

@[simp]
theorem gives_map {x : Trial α} {f : α → β} {b : β} :
    (f <$> x).Gives p b q ↔ ∃ a, x.Gives p a q ∧ f a = b := by
  rw [map_eq_pure_bind, gives_bind]
  simp only [gives_pure]
  constructor
  · rintro ⟨a, _, hgives, hsame, rfl⟩
    exact ⟨a, hgives, hsame⟩
  · rintro ⟨a, hgives, hsame⟩
    exact ⟨a, q, hgives, hsame, rfl⟩

/-- A part that is sometimes left out, and what follows it in any case. -/
theorem gives_ite_bind {c : Prop} [Decidable c] {x : Trial Unit} {rest : Trial α} {a : α} :
    (if c then (do x; rest) else rest).Gives p a q ↔
      ∃ u mid, (if c then x else pure ()).Gives p u mid ∧ rest.Gives mid a q := by
  split <;> simp

/-- The part of a run succeeds from `p`. -/
def Succeeds (x : Trial α) (p : Progress) : Prop := ∃ a q, x.Gives p a q

theorem Succeeds.bind {x : Trial α} {f : α → Trial β} (hx : x.Succeeds p)
    (hf : ∀ a q, x.Gives p a q → (f a).Succeeds q) : (x >>= f).Succeeds p := by
  obtain ⟨a, mid, hgives⟩ := hx
  obtain ⟨b, q, hrest⟩ := hf a mid hgives
  exact ⟨b, q, gives_bind.mpr ⟨a, mid, hgives, hrest⟩⟩

theorem Gives.bind_succeeds {x : Trial α} {f : α → Trial β} {a : α} (hgives : x.Gives p a q)
    (hrest : (f a).Succeeds q) : (x >>= f).Succeeds p := by
  obtain ⟨b, last, hrest⟩ := hrest
  exact ⟨b, last, gives_bind.mpr ⟨a, q, hgives, hrest⟩⟩

@[simp]
theorem gives_throw {error : ReplayError} {a : α} : ¬(throw error : Trial α).Gives p a q := by
  change ¬((.error error, p) : Except ReplayError α × Progress) = (.ok a, q)
  simp

@[simp]
theorem gives_modify {f : Progress → Progress} {u : Unit} :
    (modify f : Trial Unit).Gives p u q ↔ q = f p := by
  change ((.ok ⟨⟩, f p) : Except ReplayError Unit × Progress) = (.ok u, q) ↔ _
  simp [eq_comm]

@[simp]
theorem gives_experiment {e : Experiment} : experiment.Gives p e q ↔ e = p.experiment ∧ q = p := by
  change ((.ok p.experiment, p) : Except ReplayError Experiment × Progress) = (.ok e, q) ↔ _
  simp [eq_comm]

@[simp]
theorem gives_files {found : Files} : files.Gives p found q ↔ found = p.site.files ∧ q = p := by
  change ((.ok p.site.files, p) : Except ReplayError Files × Progress) = (.ok found, q) ↔ _
  simp [eq_comm]

@[simp]
theorem gives_world {w : World} : world.Gives p w q ↔ w = p.site.world ∧ q = p := by
  change ((.ok p.site.world, p) : Except ReplayError World × Progress) = (.ok w, q) ↔ _
  simp [eq_comm]

@[simp]
theorem gives_report {notices : List Notice} {u : Unit} :
    (report notices).Gives p u q ↔
      q = { p with site := { p.site with world := p.site.world.report notices } } :=
  gives_modify

@[simp]
theorem gives_setExperiment {e : Experiment} {u : Unit} :
    (setExperiment e).Gives p u q ↔ q = { p with experiment := e } :=
  gives_modify

@[simp]
theorem gives_setFiles {files : Files} {u : Unit} :
    (setFiles files).Gives p u q ↔ q = { p with site := { p.site with files := files } } :=
  gives_modify

@[simp]
theorem gives_setWorld {world : World} {u : Unit} :
    (setWorld world).Gives p u q ↔ q = { p with site := { p.site with world := world } } :=
  gives_modify

@[simp]
theorem gives_changeFiles {change : Files → Except ReplayError Files} {u : Unit} :
    (changeFiles change).Gives p u q ↔ ∃ files, change p.site.files = .ok files ∧
      q = { p with site := { p.site with files := files } } := by
  have hlift (result : Except ReplayError Files) (files : Files) (mid : Progress) :
      (changeFiles.liftExcept result).Gives p files mid ↔ result = .ok files ∧ mid = p := by
    cases result with
    | error error => simp [changeFiles.liftExcept]
    | ok changed => simp [changeFiles.liftExcept, eq_comm]
  simp [changeFiles, hlift]

/-! ## Failures -/

/-- The part of a run fails from `p` with an error and leaves `q`. -/
def Fails (x : Trial α) (p : Progress) (error : ReplayError) (q : Progress) : Prop :=
  x.run.run p = (.error error, q)

theorem fails_throw (error : ReplayError) (p : Progress) :
    (throw error : Trial α).Fails p error p := rfl

theorem Gives.bind_fails {x : Trial α} {f : α → Trial β} {a : α} {mid : Progress}
    {error : ReplayError} (hgives : x.Gives p a mid) (hfails : (f a).Fails mid error q) :
    (x >>= f).Fails p error q := by
  have hrun : (x >>= f).run.run p =
      (ExceptT.bindCont f (x.run.run p).1).run (x.run.run p).2 := rfl
  rw [Fails, hrun, hgives]
  exact hfails

theorem Gives.tryCatch {x : Trial α} {a : α} (hgives : x.Gives p a q)
    (handle : ReplayError → Trial α) : (tryCatch x handle).Gives p a q := by
  rw [Gives, ExceptT.run_tryCatch, StateT.run_bind, hgives]
  rfl

/-- A part whose failure is caught goes on from where it has failed. -/
theorem Fails.tryCatch {x : Trial α} {a : α} {mid : Progress} {error : ReplayError}
    (hfails : x.Fails p error mid) (handle : ReplayError → Trial α)
    (hhandle : (handle error).Gives mid a q) : (tryCatch x handle).Gives p a q := by
  rw [Gives, ExceptT.run_tryCatch, StateT.run_bind, hfails]
  exact hhandle

theorem gives_or_fails (x : Trial α) (p : Progress) :
    (∃ a q, x.Gives p a q) ∨ ∃ error q, x.Fails p error q := by
  rcases hrun : x.run.run p with ⟨error | a, q⟩
  · exact .inr ⟨error, q, hrun⟩
  · exact .inl ⟨a, q, hrun⟩

theorem Gives.not_fails {x : Trial α} {a : α} {other : Progress} {error : ReplayError}
    (hgives : x.Gives p a q) : ¬x.Fails p error other :=
  fun hfails => absurd (congrArg Prod.fst (hgives.symm.trans hfails)) (by simp)

theorem Gives.run_bind {x : Trial α} {f : α → Trial β} {a : α} (hgives : x.Gives p a q) :
    (x >>= f).run.run p = (f a).run.run q := by
  have hrun : (x >>= f).run.run p =
      (ExceptT.bindCont f (x.run.run p).1).run (x.run.run p).2 := rfl
  rw [hrun, hgives]
  rfl

theorem Fails.run_bind {x : Trial α} {f : α → Trial β} {error : ReplayError}
    (hfails : x.Fails p error q) : (x >>= f).run.run p = (.error error, q) := by
  have hrun : (x >>= f).run.run p =
      (ExceptT.bindCont f (x.run.run p).1).run (x.run.run p).2 := rfl
  rw [hrun, hfails]
  rfl

/-! ## Quiet parts -/

/-- Whatever the part of a run comes to, nothing but reports happens in the world. -/
def Quiet (x : Trial α) : Prop :=
  ∀ p, ∃ notices, (x.run.run p).2.site.world = p.site.world.report notices

theorem Quiet.pure (a : α) : (pure a : Trial α).Quiet := fun _ => ⟨[], rfl⟩

theorem Quiet.throw (error : ReplayError) : (throw error : Trial α).Quiet := fun _ => ⟨[], rfl⟩

theorem Quiet.bind {x : Trial α} {f : α → Trial β} (hx : x.Quiet) (hf : ∀ a, (f a).Quiet) :
    (x >>= f).Quiet := by
  intro p
  obtain ⟨first, hfirst⟩ := hx p
  rcases gives_or_fails x p with ⟨a, mid, hgives⟩ | ⟨error, mid, hfails⟩
  · obtain ⟨second, hsecond⟩ := hf a mid
    refine ⟨first ++ second, ?_⟩
    rw [hgives] at hfirst
    rw [hgives.run_bind, hsecond, hfirst]
    simp [World.report]
  · rw [hfails] at hfirst
    rw [hfails.run_bind]
    exact ⟨first, hfirst⟩

theorem Quiet.mapM {f : α → Trial β} (hf : ∀ a, (f a).Quiet) (xs : List α) : (xs.mapM f).Quiet := by
  induction xs with
  | nil => exact .pure []
  | cons x xs ih =>
    rw [List.mapM_cons]
    exact (hf x).bind fun _ => ih.bind fun _ => .pure _

theorem quiet_experiment : experiment.Quiet := fun _ => ⟨[], rfl⟩

theorem quiet_files : files.Quiet := fun _ => ⟨[], rfl⟩

theorem quiet_world : world.Quiet := fun _ => ⟨[], rfl⟩

theorem quiet_report (notices : List Notice) : (report notices).Quiet := fun _ => ⟨notices, rfl⟩

theorem quiet_setExperiment (e : Experiment) : (setExperiment e).Quiet := fun _ => ⟨[], rfl⟩

theorem quiet_setFiles (files : Files) : (setFiles files).Quiet := fun _ => ⟨[], rfl⟩

theorem quiet_changeFiles (change : Files → Except ReplayError Files) :
    (changeFiles change).Quiet := by
  have hlift (result : Except ReplayError Files) : (changeFiles.liftExcept result).Quiet := by
    cases result with
    | error error => exact .throw error
    | ok files => exact .pure files
  exact quiet_files.bind fun _ => (hlift _).bind quiet_setFiles

theorem quiet_createOutputs (paths : List String) : (createOutputs paths).Quiet := by
  induction paths with
  | nil => exact .pure _
  | cons path paths ih => exact (quiet_changeFiles _).bind fun _ => ih

end Trial
end TraceReplay.Experiment
