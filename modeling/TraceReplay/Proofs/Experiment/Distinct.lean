import TraceReplay.Proofs.Experiment.Failure
import TraceReplay.Proofs.Replay.Distinct

/-!
# Slots of a run

Whatever a run comes to, it has issued no slot twice.  If its functions have different names
no two of its slots have the same ID, so none occurs twice in either of the files that the
collector writes, and none would if the run is given up before they are written.
-/

namespace TraceReplay.Experiment

open Replay (Driverless Ended Sound Start Unmanned View World)
open Trial

variable {p q : Progress}

/-! ## Names -/

/-- Drivers have the names of their functions, in the order of these. -/
theorem sublist_names (e : Experiment) (hasAdmission : Bool) :
    ((e.starts hasAdmission).map (·.plan.function.name)).Sublist (e.functions.map (·.name)) := by
  have hassigned : ((e.starts hasAdmission).map (·.plan.function.name)).Sublist
      ((assignDrivers e.functions e.policy.grouping).map fun assignment =>
        (e.functions[assignment.index]?.map (·.name)).getD "") := by
    refine sublist_map_filterMap (fun assignment start hstart => ?_) _
    obtain ⟨f, hf, rfl⟩ := Option.map_eq_some_iff.mp hstart
    simp [hf]
  have hplaces := (sublist_assignDrivers e.functions e.policy.grouping).map fun index =>
    (e.functions[index]?.map (·.name)).getD ""
  have hnames : (List.range' 0 e.functions.length).map (fun index =>
      (e.functions[index]?.map (·.name)).getD "") = e.functions.map (·.name) := by
    apply List.ext_getElem
    · simp
    · intro index hindex hindex'
      have hlt : index < e.functions.length := by simpa using hindex
      simp [hlt]
  rw [List.map_map, hnames] at hplaces
  exact hassigned.trans hplaces

/-! ## Before the drivers start -/

theorem quiet_deploy (functions : List Function) : (deploy functions).Quiet := by
  unfold deploy
  refine quiet_experiment.bind fun e => Quiet.bind (fun _ => ⟨[], rfl⟩) fun _ => ?_
  refine (quiet_report _).bind fun _ => ?_
  split
  · exact .pure _
  · exact .throw _

theorem quiet_deployAll : deployAll.Quiet := by
  unfold deployAll
  refine quiet_experiment.bind fun e => (quiet_deploy _).bind fun functions => ?_
  refine quiet_experiment.bind fun _ => (quiet_setExperiment _).bind fun _ => ?_
  refine quiet_experiment.bind fun _ => ?_
  split
  · refine quiet_experiment.bind fun _ => (quiet_deploy _).bind fun _ => ?_
    exact quiet_experiment.bind fun _ => quiet_setExperiment _
  · exact .pure _

theorem quiet_generateOne (f : Function) (index : Nat) : (generateOne f index).Quiet := by
  unfold generateOne
  refine quiet_experiment.bind fun e => (quiet_setExperiment _).bind fun _ => ?_
  split
  · exact .throw _
  · exact (quiet_changeFiles _).bind fun _ => .pure _

theorem quiet_generateSpecifications : generateSpecifications.Quiet := by
  unfold generateSpecifications
  refine quiet_experiment.bind fun e => (quiet_changeFiles _).bind fun _ => ?_
  refine Quiet.bind (.mapM ?_ _) fun _ => ?_
  · rintro ⟨f, index⟩
    exact quiet_generateOne f index
  · exact (quiet_report _).bind fun _ => quiet_experiment.bind fun _ => quiet_setExperiment _

theorem quiet_loadSpecifications : loadSpecifications.Quiet := by
  unfold loadSpecifications
  refine quiet_experiment.bind fun e => quiet_files.bind fun files => ?_
  simp only
  split
  · exact .throw _
  · exact quiet_setExperiment _

/-- Nothing happens in the world before a replay, whether it comes to one or not. -/
theorem quiet_prepare (generated : Bool) : (prepare generated).Quiet := by
  unfold prepare
  refine quiet_deployAll.bind fun _ => ?_
  split
  · exact quiet_loadSpecifications
  · exact quiet_generateSpecifications

/-- Opens the outputs of a replay, and says when. -/
def openOutputs : Trial Clock := do
  announceStart
  let e ← experiment
  createOutputs (Collector.paths e.configuration)
  if (activeSource e).isSome then createOutputs (Sampling.paths e.configuration)
  return (← world).clock

theorem launch_eq :
    launch = (do
      let started ← openOutputs
      let drivers ← startDrivers
      pure (started, drivers)) := by
  simp only [launch, openOutputs, bind_assoc]
  refine bind_congr fun _ => bind_congr fun e => bind_congr fun _ => ?_
  cases (activeSource e).isSome <;> simp

theorem quiet_openOutputs : openOutputs.Quiet := by
  have hannounce : announceStart.Quiet := fun p => by
    have hgives := gives_announceStart (p := p) (u := ⟨⟩).mpr rfl
    exact ⟨_, by rw [hgives]⟩
  unfold openOutputs
  refine hannounce.bind fun _ => quiet_experiment.bind fun e => ?_
  refine (quiet_createOutputs _).bind fun _ => ?_
  split
  · exact (quiet_createOutputs _).bind fun _ => quiet_world.bind fun _ => .pure _
  · exact quiet_world.bind fun _ => .pure _

/-- Where the drivers of a replay cannot be started nothing has happened. -/
theorem launch_fails {error : ReplayError} (hfails : launch.Fails p error q) :
    ∃ notices, q.site.world = p.site.world.report notices := by
  rw [launch_eq] at hfails
  rcases gives_or_fails openOutputs p with ⟨started, mid, hopened⟩ | ⟨cause, mid, hopened⟩
  · obtain ⟨drivers, begun, hbegun⟩ := startDrivers_succeeds mid
    rw [Fails, hopened.run_bind, hbegun.run_bind] at hfails
    exact absurd hfails (gives_pure.mpr ⟨rfl, rfl⟩ : Trial.Gives _ _ _ _).not_fails
  · rw [Fails, hopened.run_bind] at hfails
    obtain ⟨notices, hworld⟩ := quiet_openOutputs p
    rw [hopened] at hworld
    exact ⟨notices, (Prod.mk.inj hfails).2 ▸ hworld⟩

/-! ## What a replay leaves -/

/-- The drivers of a replay have ended well, and the files of its collector were written when it
had been told a total. -/
def Written (p q : Progress) : Prop :=
  ∃ last rested total files, Ended p.opened p.drivers last rested ∧
    q.site.world.collector = closing rested.collector total ∧
    Collector.HasOutputs p.experiment.configuration files ∧
    q.site.files = (closing rested.collector total).fillFiles p.experiment.configuration files

/-- The collector of a replay has not been told a total, and what it has taken belongs to slots
of the replay. -/
structure Unwritten (p q : Progress) : Prop where
  untold : q.site.world.collector.announcementOpen = true
  attributed : (q.site.world.view.books (p.opened.newLanes p.drivers)).Attributed

/-- What is left of a prepared run whatever its replay comes to: what its drivers have issued,
and the files of its collector unless nobody told that a total. -/
structure Left (p : Progress) (result : Except ReplayError Summary) (q : Progress) : Prop where
  issues : ∃ last, p.begun.Passes last ∧ q.site.world.issues = last.issues
  files : Written p q ∨ (∃ error, result = .error error) ∧ Unwritten p q

/-- A sampling that cannot be stopped has not begun. -/
theorem endSampling_fails {started : Clock} {error : ReplayError}
    (hfails : (endSampling started).Fails p error q) : q = p := by
  unfold endSampling at hfails
  rw [Fails, (gives_experiment.mpr ⟨rfl, rfl⟩).run_bind] at hfails
  cases hsource : activeSource p.experiment with
  | none =>
    simp only [hsource] at hfails
    exact (congrArg Prod.snd hfails).symm
  | some source =>
    simp only [hsource] at hfails
    by_cases hperiod : p.experiment.configuration.loader.scrapingPeriodSeconds = 0
    · exact (congrArg Prod.snd ((stopSampling_fails hperiod source started).symm.trans hfails)).symm
    · obtain ⟨_, _, hstopped⟩ := stopSampling_succeeds hperiod source started
      exact absurd hfails hstopped.not_fails

/-- What the collector has is written whether it has all or not. -/
theorem deliver_run (p : Progress) :
    (deliver.run.run p).2 = { p with site := { p.site with
      files := p.site.world.collector.fillFiles p.experiment.configuration p.site.files } } := by
  unfold deliver
  rw [(gives_world.mpr ⟨rfl, rfl⟩).run_bind, (gives_experiment.mpr ⟨rfl, rfl⟩).run_bind,
    (gives_files.mpr ⟨rfl, rfl⟩).run_bind, ((gives_setFiles (u := ⟨⟩)).mpr rfl).run_bind]
  cases p.site.world.collector.result <;> rfl

/-- The collector has been told a total, and its files hold what it had when the sampling was
over. -/
def Gathered (p : Progress) (total : Summary) (q : Progress) : Prop :=
  ∃ rested files, p.site.world.Rests rested ∧ p.site.files.Grows files ∧
    q.site.world.collector = closing rested.collector total ∧
    q.site.files = (closing rested.collector total).fillFiles p.experiment.configuration files

/-- A collection where nobody is driven is written, unless the sampling cannot be stopped. -/
theorem collectAll_run (hdriverless : Driverless p.site.world) {total : Summary} {started : Clock}
    {result : Except ReplayError Unit}
    (hrun : (collectAll total started).run.run p = (result, q)) :
    q.site.world.issues = p.site.world.issues ∧
      (Gathered p total q ∨ (∃ error, result = .error error) ∧ q = p) := by
  rw [collectAll_eq] at hrun
  rcases gives_or_fails (endSampling started) p with ⟨_, mid, hended⟩ | ⟨error, mid, hended⟩
  · obtain ⟨hrests, hgrows, hconfiguration, -⟩ := endSampling_gives hended
    obtain ⟨_, closed, hclosed⟩ := close_succeeds total mid
    obtain ⟨⟨notices, hworld⟩, hfiles, hexperiment⟩ := close_gives hclosed
    rw [hended.run_bind, hclosed.run_bind] at hrun
    obtain rfl : _ = q := (deliver_run closed).symm.trans (congrArg Prod.snd hrun)
    refine ⟨?_, .inl ⟨mid.site.world, mid.site.files, hrests, hgrows, ?_, ?_⟩⟩
    · simp only [hworld]
      exact (hdriverless.rests hrests).2
    · simp only [hworld]
    · simp only [hworld, hfiles, hexperiment, hconfiguration]
  · rw [hended.run_bind] at hrun
    obtain ⟨rfl, rfl⟩ := Prod.mk.inj hrun
    obtain rfl := endSampling_fails hended
    exact ⟨rfl, .inr ⟨⟨error, rfl⟩, rfl⟩⟩

/-- What has been collected of drivers that have all ended well is written. -/
theorem Gathered.written {begun settled mid : Progress} {last : World} {total : Summary}
    (hgathered : Gathered settled total mid) (hlaunched : Launched p begun)
    (hopened : Unmanned p.opened) (hpasses : p.begun.Passes last)
    (hended : last.finished.length = p.drivers.length)
    (hwell : ∀ finish ∈ last.finished, ∃ r, finish.result = .ok r)
    (hkept : Settled { begun with site := { begun.site with world := last } } settled) :
    Written p mid := by
  obtain ⟨notices, hworld⟩ := hkept.world
  obtain ⟨rested, files, hrests, hgrows, hcollector, hfiles⟩ := hgathered
  have hconfiguration : settled.experiment.configuration = p.experiment.configuration := by
    obtain ⟨_, hsame⟩ := hlaunched.experiment
    rw [hkept.configuration, hsame]
  refine ⟨last, rested, total, files, ?_, hcollector, ?_, hconfiguration ▸ hfiles⟩
  · exact ⟨hopened, rfl, hpasses, hended, hwell, notices, hworld ▸ hrests⟩
  · rw [hkept.files] at hgrows
    exact hlaunched.opened.grows hgrows

/-- Records that arrive while a replay is given up belong to slots of it too. -/
theorem Ceased.unwritten {settled ceased : Progress} {error : ReplayError} {started : Clock}
    (hceased : Ceased started (settled.aborted error) ceased) (hsound : Sound settled.site.world)
    (hattributes : settled.site.world.view.Attributes (p.opened.newLanes p.drivers)) :
    Unwritten p ceased.unheard where
  untold := hceased.driverless.hears
  attributed := by
    obtain ⟨rested, notices, hrests, hworld⟩ := hceased.rests
    have haborted : (settled.aborted error).site.world.view.Attributes
        (p.opened.newLanes p.drivers) :=
      View.Attributes.abort (w := settled.site.world.report _) hattributes
    have hrested : rested.view.Attributes (p.opened.newLanes p.drivers) :=
      (hsound.report _).abort.view_rests hrests
        (fun horderly hstep hkept => hkept.step horderly hstep) haborted
    have hreported : ceased.site.world.view.Attributes (p.opened.newLanes p.drivers) := by
      rw [hworld]
      exact hrested
    exact hreported.unheard.2

/-- Whatever becomes of drivers that have been started, they leave what they have issued and
what is in the files of their collector. -/
theorem conclude_left {begun : Progress} (hlaunched : Launched p begun)
    (hunmanned : Unmanned p.site.world.renewed) {result : Except ReplayError Summary}
    (hrun : (conclude p.site.world.clock p.drivers.length).run.run begun = (result, q)) :
    Left p result q := by
  have hopened : Unmanned p.opened := hunmanned.report _
  have hpasses := World.run_passes (drivenOut p.drivers.length) p.begun.turns p.begun
  generalize hlast : p.begun.run (drivenOut p.drivers.length) p.begun.turns = last at hpasses
  have hsound : Sound last := hopened.toFounded.sound hpasses
  obtain ⟨outcome, settled, hsettled⟩ := settleAll_succeeds last.finished.reverse
    { begun with site := { begun.site with world := last } }
  obtain ⟨houtcome, hkept⟩ := settleAll_gives hsettled
  obtain ⟨notices, hworld⟩ := hkept.world
  have hissues : settled.site.world.issues = last.issues := by
    rw [hworld]
    rfl
  have hsettledSound : Sound settled.site.world := hworld ▸ hsound.report notices
  have hattributes : settled.site.world.view.Attributes (p.opened.newLanes p.drivers) := by
    rw [hworld]
    exact ((hunmanned.attentive_renewed.report _).balances hpasses).attributes
  unfold conclude at hrun
  rw [(gives_world.mpr ⟨rfl, rfl⟩).run_bind, ((gives_setWorld (u := ⟨⟩)).mpr rfl).run_bind,
    hlaunched.world, hlast, hsettled.run_bind] at hrun
  cases outcome with
  | some error =>
    obtain ⟨ceased, hceased, habandon⟩ := abandon_gives hsettledSound error p.site.world.clock
    simp only at hrun
    rw [habandon.run_bind] at hrun
    obtain ⟨rfl, rfl⟩ := Prod.mk.inj hrun
    exact ⟨⟨last, hpasses, hceased.issues.trans hissues⟩,
      .inr ⟨⟨error, rfl⟩, hceased.unwritten hsettledSound hattributes⟩⟩
  | none =>
    by_cases hended : last.finished.length = p.drivers.length
    · simp only [hended, ne_eq, not_true_eq_false, if_false] at hrun
      have hdriverless : Driverless settled.site.world := by
        rw [hworld]
        exact (hopened.driverless_of_ended rfl hpasses hended).report notices
      have hwritten {mid : Progress} (hgathered : Gathered settled (totals last) mid) :
          Written p mid :=
        hgathered.written hlaunched hopened hpasses hended
          (fun finish hmem => houtcome finish (List.mem_reverse.mpr hmem)) hkept
      rcases gives_or_fails (collectAll (totals last) p.site.world.clock) settled with
        ⟨_, mid, hcollected⟩ | ⟨error, mid, hcollected⟩
      · obtain ⟨hsame, hgathered | ⟨⟨error, herror⟩, -⟩⟩ := collectAll_run hdriverless hcollected
        · rw [hcollected.run_bind, ((gives_report (u := ⟨⟩)).mpr rfl).run_bind] at hrun
          obtain ⟨rfl, rfl⟩ := Prod.mk.inj hrun
          exact ⟨⟨last, hpasses, hsame.trans hissues⟩, .inl (hwritten hgathered)⟩
        · exact absurd herror (by simp)
      · obtain ⟨hsame, hgathered⟩ := collectAll_run hdriverless hcollected
        rw [hcollected.run_bind] at hrun
        obtain ⟨rfl, rfl⟩ := Prod.mk.inj hrun
        refine ⟨⟨last, hpasses, hsame.trans hissues⟩, hgathered.imp hwritten ?_⟩
        rintro ⟨-, rfl⟩
        exact ⟨⟨error, rfl⟩, hdriverless.hears, hattributes.2⟩
    · simp only [hended, ne_eq, not_false_eq_true, if_true] at hrun
      rw [(fails_throw _ _).run_bind] at hrun
      obtain ⟨rfl, rfl⟩ := Prod.mk.inj hrun
      exact ⟨⟨last, hpasses, hissues⟩, .inr ⟨⟨_, rfl⟩, hsettledSound.hears, hattributes.2⟩⟩

/-! ## Whole runs -/

/-- What a replay has issued has different IDs. -/
theorem Left.issues_nodup {result : Except ReplayError Summary} (hleft : Left p result q)
    (hunmanned : Unmanned p.site.world.renewed)
    (hnames : (p.experiment.functions.map (·.name)).Nodup) :
    ∃ issued, q.site.world.issues = issued ++ p.site.world.issues ∧
      (issued.map (·.2.invocationId)).Nodup := by
  obtain ⟨last, hpasses, hissues⟩ := hleft.issues
  have hopened : Unmanned p.opened := hunmanned.report _
  refine ⟨last.view.issuedIn (p.opened.newLanes p.drivers), ?_, ?_⟩
  · rw [hissues]
    exact hopened.issues_eq rfl hpasses
  · exact hopened.nodup_issuedIn (hnames.sublist (sublist_names _ _)) hpasses

/-- What is written has different IDs, in either file. -/
theorem Written.nodup (hwritten : Written p q)
    (hnames : (p.experiment.functions.map (·.name)).Nodup)
    (hunmanned : Unmanned p.site.world.renewed) :
    ∃ (records : List ExecutionRecord) (jobs : List JobRecord),
      q.site.files.read (Collector.durationPath p.experiment.configuration) =
        .ok (some (utf8Bytes (Table.write ExecutionRecord.header (records.map (·.row))))) ∧
      q.site.files.read (Collector.joblogsPath p.experiment.configuration) =
        .ok (some (Lines.write (jobs.map (·.toJson)))) ∧
      (records.map (·.invocationId)).Nodup ∧ (jobs.map (·.invocationId)).Nodup := by
  obtain ⟨last, rested, total, files, hended, -, houtputs, hfiles⟩ := hwritten
  obtain ⟨hsame, hsameJobs, -⟩ := closing_same hended.sound.hears total
  obtain ⟨hduration, hjoblogs⟩ := Collector.read_fillFiles houtputs (closing rested.collector total)
  rw [Collector.durationText, hsame] at hduration
  rw [Collector.joblogsText, hsameJobs] at hjoblogs
  have hbalanced : (rested.view.books (p.opened.newLanes p.drivers)).Balanced :=
    (hended.view (fun horderly hstep hbalances => hbalances.step horderly hstep)
      ((hunmanned.attentive_renewed.report _).balances .refl)).2
  have hissued : (rested.view.books (p.opened.newLanes p.drivers)).issued.Nodup := by
    obtain ⟨notices, hrests⟩ := hended.rests
    have hdriverless : Driverless (last.report notices) :=
      (hended.unmanned.driverless_of_ended hended.fresh hended.passes hended.ended).report notices
    have hissues : rested.issues = last.issues := (hdriverless.rests hrests).2
    have hnodup := hended.unmanned.nodup_issuedIn (hnames.sublist (sublist_names _ _)) hended.passes
    rw [View.books, View.issuedIn, World.view, hissues]
    exact Multiset.coe_nodup.mpr hnodup
  obtain ⟨hrecords, hjobs⟩ := World.nodup_collected hbalanced.toAttributed hissued
  refine ⟨rested.collector.records.reverse, rested.collector.jobs.reverse, hfiles ▸ hduration,
    hfiles ▸ hjoblogs, ?_, ?_⟩
  · rwa [List.map_reverse, List.nodup_reverse]
  · rwa [List.map_reverse, List.nodup_reverse]

/-- What the collector has taken without writing it has different IDs too. -/
theorem Left.collected_nodup {result : Except ReplayError Summary} (hleft : Left p result q)
    (hunwritten : Unwritten p q) (hunmanned : Unmanned p.site.world.renewed)
    (hnames : (p.experiment.functions.map (·.name)).Nodup) :
    (q.site.world.collector.records.map (·.invocationId)).Nodup ∧
      (q.site.world.collector.jobs.map (·.invocationId)).Nodup := by
  obtain ⟨last, hpasses, hissues⟩ := hleft.issues
  have hopened : Unmanned p.opened := hunmanned.report _
  have hnodup := hopened.nodup_issuedIn (hnames.sublist (sublist_names _ _)) hpasses
  refine World.nodup_collected hunwritten.attributed ?_
  rw [View.books, View.issuedIn, World.view, hissues]
  exact Multiset.coe_nodup.mpr hnodup

/-- A run has been prepared and replayed, or it has failed before any driver was started. -/
theorem run_left {e : Experiment} {site : Site} {generated : Bool}
    (hunmanned : Unmanned site.world.renewed) {result : Except ReplayError Summary}
    (hrun : e.run site false generated = (result, q)) :
    (Undisturbed { experiment := e, site := site } (e.prepared site generated) ∧
      Left (e.prepared site generated) result q) ∨
    (∃ error, result = .error error) ∧ ∃ notices, q.site.world = site.world.report notices := by
  have htrial : (trial false generated).run.run { experiment := e, site := site } =
      (result, q) := hrun
  rw [trial_eq] at htrial
  have hquiet := quiet_prepare generated { experiment := e, site := site }
  rcases gives_or_fails (prepare generated) { experiment := e, site := site } with
    ⟨_, mid, hprepare⟩ | ⟨error, mid, hprepare⟩
  · have hmid : e.prepared site generated = mid := congrArg Prod.snd hprepare
    obtain ⟨first, hfirst⟩ := (prepare_gives hprepare).1.world
    have hrenewed : Unmanned mid.site.world.renewed := by
      rw [hfirst]
      exact hunmanned.report first
    rw [hprepare.run_bind, replay_eq] at htrial
    rcases gives_or_fails launch mid with ⟨launched, begun, hlaunch⟩ | ⟨error, last, hlaunch⟩
    · obtain ⟨rfl, hlaunched⟩ := launch_gives hlaunch
      rw [hlaunch.run_bind] at htrial
      exact .inl (hmid ▸ ⟨(prepare_gives hprepare).1, conclude_left hlaunched hrenewed htrial⟩)
    · obtain ⟨second, hsecond⟩ := launch_fails hlaunch
      rw [hlaunch.run_bind] at htrial
      obtain ⟨rfl, rfl⟩ := Prod.mk.inj htrial
      refine .inr ⟨⟨error, rfl⟩, first ++ second, ?_⟩
      rw [hsecond, hfirst]
      simp [World.report]
  · rw [hprepare.run_bind] at htrial
    obtain ⟨rfl, rfl⟩ := Prod.mk.inj htrial
    rw [hprepare] at hquiet
    exact .inr ⟨⟨error, rfl⟩, hquiet⟩

/-- An invocation ID says which slot it belongs to.  So whatever a run of functions with
different names comes to, no two slots it has issued have the same ID, and no ID occurs twice in
either file of its collector.  These are written by every run that does not fail before its
collector is told a total; in a run that does, no ID occurs twice in what the collector has
taken. -/
theorem run_unambiguous {e : Experiment} {site : Site} {generated : Bool}
    {result : Except ReplayError Summary} (hrun : e.run site false generated = (result, p))
    (hunmanned : Unmanned site.world.renewed)
    (hnames : ((e.prepared site generated).experiment.functions.map (·.name)).Nodup) :
    (∀ (tag tag' : String) (granularity granularity' : Granularity) (step step' slot slot' : Nat),
      invocationId tag granularity step slot = invocationId tag' granularity' step' slot' →
        tag = tag' ∧ granularity = granularity' ∧ step = step' ∧ slot = slot') ∧
    (∃ issued, p.site.world.issues = issued ++ site.world.issues ∧
      (issued.map (·.2.invocationId)).Nodup) ∧
    ((∃ (records : List ExecutionRecord) (jobs : List JobRecord),
      p.site.files.read (Collector.durationPath e.configuration) =
        .ok (some (utf8Bytes (Table.write ExecutionRecord.header (records.map (·.row))))) ∧
      p.site.files.read (Collector.joblogsPath e.configuration) =
        .ok (some (Lines.write (jobs.map (·.toJson)))) ∧
      (records.map (·.invocationId)).Nodup ∧ (jobs.map (·.invocationId)).Nodup) ∨
    (∃ error, result = .error error) ∧ (p.site.world.collector = site.world.collector ∨
      p.site.world.collector.announcementOpen = true ∧
        (p.site.world.collector.records.map (·.invocationId)).Nodup ∧
        (p.site.world.collector.jobs.map (·.invocationId)).Nodup)) := by
  refine ⟨fun _ _ _ _ _ _ _ _ => invocationId_inj, ?_⟩
  rcases run_left hunmanned hrun with ⟨hkept, hleft⟩ | ⟨herror, notices, hworld⟩
  · obtain ⟨notices, hworld⟩ := hkept.world
    have hrenewed : Unmanned (e.prepared site generated).site.world.renewed := by
      rw [hworld]
      exact hunmanned.report notices
    have hissues : (e.prepared site generated).site.world.issues = site.world.issues := by
      rw [hworld]
      rfl
    refine ⟨hissues ▸ hleft.issues_nodup hrenewed hnames, hleft.files.imp (fun hwritten => ?_)
      fun ⟨herror, hunwritten⟩ => ⟨herror, .inr ⟨hunwritten.untold,
        hleft.collected_nodup hunwritten hrenewed hnames⟩⟩⟩
    have hconfiguration : (e.prepared site generated).experiment.configuration = e.configuration :=
      hkept.configuration
    exact hconfiguration ▸ hwritten.nodup hnames hrenewed
  · rw [hworld]
    exact ⟨⟨[], rfl, List.nodup_nil⟩, .inr ⟨herror, .inl rfl⟩⟩

/-- Two functions, one of which is named like a slot of the other. -/
def tangled : Experiment where
  configuration := .ofLoader
    { experimentDuration := 1, granularity := .second, arrivals := .equidistant }
  functions := [
    { Function.resnet with name := "f" }, { Function.resnet with name := "f-sec0.inv0" }]
  generator := .ofSeed 42
  invoker := .scripted fun _ => {}
  policy := .passThrough

theorem run_unambiguous_tangled :
    ((tangled.prepared {} false).experiment.functions.map (·.name)).Nodup ∧
      (tangled.run {} false false).2.site.world.issues.length = 4 ∧
      (∃ issued, (tangled.run {} false false).2.site.world.issues = issued ++ [] ∧
        (issued.map (·.2.invocationId)).Nodup) ∧
      ∃ records : List ExecutionRecord, (tangled.run {} false false).2.site.files.read
          (Collector.durationPath tangled.configuration) = .ok (some
            (utf8Bytes (Table.write ExecutionRecord.header (records.map (·.row))))) ∧
        (records.map (·.invocationId)).Nodup := by
  have hnames : ((tangled.prepared {} false).experiment.functions.map (·.name)).Nodup := by
    decide +kernel
  obtain ⟨summary, hrun⟩ := exists_of_isSome (tangled.run {} false false) (by decide +kernel)
  obtain ⟨-, hissued, ⟨records, jobs, hduration, -, hnodup, -⟩ | ⟨⟨error, herror⟩, -⟩⟩ :=
    run_unambiguous hrun Replay.Unmanned.empty hnames
  · exact ⟨hnames, by decide +kernel, hissued, records, hduration, hnodup⟩
  · exact absurd herror (by simp)

end TraceReplay.Experiment
