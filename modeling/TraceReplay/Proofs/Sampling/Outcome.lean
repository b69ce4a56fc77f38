import TraceReplay.Proofs.Output.Lines
import TraceReplay.Proofs.Output.Table
import TraceReplay.Proofs.Sampling.Session

/-!
# What a sampling comes to

Whenever a sampler is stopped and however long its calls take, it returns the number of its
samples.  Each of them is whole: it stands in one line of one file and in one row of the other.
-/

namespace TraceReplay.Sampling

variable {m : Sampler} {s s' : Session} {samples : List Sample} {action : Action}

/-! ## Every session comes to its end -/

/-- What the loop still does without another sample; what it sends is left to the recorders. -/
def Phase.remaining : Phase → Nat
  | .choosing => 2
  | .callingUsage _ _ => 9
  | .callingPlatform _ _ _ => 8
  | .sending => 3
  | .left => 1
  | .returned _ => 0

namespace Session

def left (s : Session) : Nat := s.phase.remaining + s.usage.left + s.platform.left

namespace Follows

variable (hfollows : s.Follows m samples)

include hfollows

/-- Everything but the passing of time is one of the things that could still happen, and a sample
adds to them. -/
theorem left_step (hstep : m.Step s action s') :
    (s'.left + if action.happens then 1 else 0) = s.left + 8 * if action.isTick then 1 else 0 := by
  cases hstep with
  | pass => rfl
  | tick hphase =>
    simp only [left, Sampler.callUsage, hphase, Phase.remaining, Action.happens, Action.isTick,
      if_true]
    omega
  | leave hphase =>
    obtain ⟨hidle, hidle', -⟩ := hfollows.idle_of_choosing hphase
    simp only [left, hangUp, Recorder.left_hangUp hidle.1, Recorder.left_hangUp hidle'.1, hphase,
      Phase.remaining, Action.happens, Action.isTick, Bool.false_eq_true, if_true, if_false]
    omega
  | usageComes hphase =>
    simp only [left, Sampler.callPlatform, hphase, Phase.remaining, Action.happens, Action.isTick,
      Bool.false_eq_true, if_true, if_false]
    omega
  | platformComes hphase =>
    simp only [left, Sampler.offer, Recorder.left_offer, hphase, Phase.remaining, Action.happens,
      Action.isTick, Bool.false_eq_true, if_true, if_false]
    omega
  | count hphase | finish hphase =>
    simp only [left, hphase, Phase.remaining, Action.happens, Action.isTick, Bool.false_eq_true,
      if_true, if_false]
    omega
  | giveUp hphase hrefused => exact absurd hrefused (hfollows.not_refused hphase)
  | sendUsage _ hsend | sendPlatform _ _ hsend =>
    have hleft := Recorder.left_send hsend
    simp only [left, Action.happens, Action.isTick, Bool.false_eq_true, if_true, if_false]
    omega
  | writeUsage hwrite | writePlatform hwrite =>
    have hleft := Recorder.left_write hwrite
    simp only [left, Action.happens, Action.isTick, Bool.false_eq_true, if_true, if_false]
    omega
  | endUsage hend | endPlatform hend =>
    have hleft := Recorder.left_end hend
    simp only [left, Action.happens, Action.isTick, Bool.false_eq_true, if_true, if_false]
    omega

theorem left_run {actions : List Action} (hrun : m.Run s actions s') :
    s'.left + actions.countP (·.happens) = s.left + 8 * actions.countP (·.isTick) := by
  induction hrun generalizing samples with
  | nil => rfl
  | cons hstep _ ih =>
    obtain ⟨_, hnext⟩ := hfollows.step hstep
    have hleft := hfollows.left_step hstep
    have hrest := ih hnext
    simp only [List.countP_cons]
    omega

/-- Nothing can still happen once the sampler has returned. -/
theorem left_eq_zero_iff : s.left = 0 ↔ ∃ n, s.phase = .returned n := by
  constructor
  · intro hleft
    have hphase : s.phase.remaining = 0 := by
      rw [left] at hleft
      omega
    cases hreturned : s.phase with
    | returned n => exact ⟨n, rfl⟩
    | _ => simp [hreturned, Phase.remaining] at hphase
  · rintro ⟨n, hphase⟩
    have hstage := hfollows.stage
    rw [Stage, hphase] at hstage
    obtain ⟨hclosed, hclosed', -, -, hended, hended'⟩ := hstage
    rw [left, hphase, hfollows.usage.left_eq_zero hclosed hended,
      hfollows.platform.left_eq_zero hclosed' hended']
    rfl

/-- Until the sampler has returned something other than another sample can happen, if only after
some time. -/
theorem goes_on (hreturned : ∀ n, s.phase ≠ .returned n) :
    ∃ millis action s', action.happens = true ∧ action.isTick = false ∧
      m.Step (s.wait millis) action s' := by
  have hstage := hfollows.stage
  cases hphase : s.phase with
  | choosing =>
    exact ⟨m.stop - s.clock.now, .leave, _, rfl, rfl, .leave hphase (by simp [wait, later]; omega)⟩
  | callingUsage back usage =>
    exact ⟨back - s.clock.now, .usageComes, _, rfl, rfl,
      .usageComes hphase (by simp [wait, later]; omega)⟩
  | callingPlatform back stats usage =>
    exact ⟨back - s.clock.now, .platformComes, _, rfl, rfl,
      .platformComes hphase (by simp [wait, later]; omega)⟩
  | sending =>
    rw [Stage, hphase] at hstage
    obtain ⟨hopen, hopen', -⟩ := hstage
    cases hsettled : s.usage.settled with
    | false =>
      rcases hfollows.usage.moves hopen hsettled with ⟨_, hsend⟩ | ⟨_, hwrite⟩
      · exact ⟨0, .sendUsage, _, rfl, rfl, .sendUsage hphase hsend⟩
      · exact ⟨0, .writeUsage, _, rfl, rfl, .writeUsage hwrite⟩
    | true =>
      cases hsettled' : s.platform.settled with
      | false =>
        rcases hfollows.platform.moves hopen' hsettled' with ⟨_, hsend⟩ | ⟨_, hwrite⟩
        · exact ⟨0, .sendPlatform, _, rfl, rfl, .sendPlatform hphase hsettled hsend⟩
        · exact ⟨0, .writePlatform, _, rfl, rfl, .writePlatform hwrite⟩
      | true => exact ⟨0, .count, _, rfl, rfl, .count hphase hsettled hsettled'⟩
  | left =>
    rw [Stage, hphase] at hstage
    obtain ⟨⟨-, hclosed⟩, ⟨-, hclosed'⟩, -⟩ := hstage
    cases hended : s.usage.ended with
    | false =>
      rcases hfollows.usage.ends hclosed hended with ⟨_, hwrite⟩ | ⟨_, hend⟩
      · exact ⟨0, .writeUsage, _, rfl, rfl, .writeUsage hwrite⟩
      · exact ⟨0, .endUsage, _, rfl, rfl, .endUsage hend⟩
    | true =>
      cases hended' : s.platform.ended with
      | false =>
        rcases hfollows.platform.ends hclosed' hended' with ⟨_, hwrite⟩ | ⟨_, hend⟩
        · exact ⟨0, .writePlatform, _, rfl, rfl, .writePlatform hwrite⟩
        · exact ⟨0, .endPlatform, _, rfl, rfl, .endPlatform hend⟩
      | true => exact ⟨0, .finish, _, rfl, rfl, .finish hphase hended hended'⟩
  | returned n => exact absurd hphase (hreturned n)

end Follows

/-! ## No sample is too early -/

/-- Since `start` at least one period has passed for each sample that was begun. -/
structure Late (period start : Nat) (s : Session) : Prop where
  due : start + (s.usageCalls.length + 1) * period ≤ s.due
  passed : start + s.usageCalls.length * period ≤ s.clock.now
  calls : ∀ time ∈ s.usageCalls ++ s.platformCalls, start + period ≤ time
  /-- The second call comes after the first. -/
  underWay : ∀ back usage, s.phase = .callingUsage back usage → start + period ≤ s.clock.now

variable {start : Nat}

theorem late_begin (m : Sampler) (clock : Clock) :
    (begin m.period clock).Late m.period clock.now where
  due := by simp [begin]
  passed := by simp [begin]
  calls _ hcall := absurd hcall List.not_mem_nil
  underWay _ _ hphase := absurd hphase nofun

theorem Late.tick (hlate : s.Late m.period start) (hdue : s.due ≤ s.clock.now) :
    (m.callUsage s).Late m.period start := by
  have hnext := Position.add_le_nextDue m.period s.due s.clock.now
  have hpassed := hlate.due.trans hdue
  have hnow : start + m.period ≤ s.clock.now := by
    have hmul : m.period ≤ (s.usageCalls.length + 1) * m.period :=
      Nat.le_mul_of_pos_left _ (Nat.succ_pos _)
    omega
  refine ⟨?_, hpassed, List.forall_mem_cons.mpr ⟨hnow, hlate.calls⟩, fun _ _ _ => hnow⟩
  calc start + (s.usageCalls.length + 1 + 1) * m.period
      = start + (s.usageCalls.length + 1) * m.period + m.period := by ring
    _ ≤ s.due + m.period := Nat.add_le_add_right hlate.due _
    _ ≤ nextDue m.period s.due s.clock.now := hnext

theorem Late.step (hlate : s.Late m.period start) (hstep : m.Step s action s') :
    s'.Late m.period start := by
  cases hstep with
  | pass millis =>
    exact ⟨hlate.due, hlate.passed.trans (Nat.le_add_right _ _), hlate.calls,
      fun back usage hphase => (hlate.underWay back usage hphase).trans (Nat.le_add_right _ _)⟩
  | tick hphase hdue => exact hlate.tick hdue
  | usageComes hphase =>
    refine ⟨hlate.due, hlate.passed, fun time hcall => ?_, fun _ _ hnext => absurd hnext nofun⟩
    rcases List.mem_append.mp hcall with hcall | hcall
    · exact hlate.calls time (List.mem_append_left _ hcall)
    · rcases List.mem_cons.mp hcall with rfl | hcall
      · exact hlate.underWay _ _ hphase
      · exact hlate.calls time (List.mem_append_right _ hcall)
  | leave | giveUp | platformComes | count | finish =>
    exact ⟨hlate.due, hlate.passed, hlate.calls, fun _ _ hnext => absurd hnext nofun⟩
  | sendUsage | sendPlatform | writeUsage | writePlatform | endUsage | endPlatform =>
    exact ⟨hlate.due, hlate.passed, hlate.calls, hlate.underWay⟩

theorem Late.run {actions : List Action} (hlate : s.Late m.period start)
    (hrun : m.Run s actions s') : s'.Late m.period start := by
  induction hrun with
  | nil => exact hlate
  | cons hstep _ ih => exact ih (hlate.step hstep)

/-! ## The files -/

/-- Both calls have been made once for each of the samples, and the samples stand in the files:
one line and one row each. -/
structure Complete (m : Sampler) (samples : List Sample) (s : Session) : Prop where
  are : AreSamples m.source m.first samples
  usageCalls : s.usageCalls.length = samples.length
  platformCalls : s.platformCalls.length = samples.length
  log : s.usage.writer = ⟨samples.length, Lines.write (samples.map (·.usage.toJson))⟩
  lines : s.usage.writer.file.splitOn 0x0a = samples.map (·.usage.toJson.compact) ++ [[]]
  table : s.platform.writer = ⟨samples.length,
    utf8Bytes (Table.write PlatformStats.header (samples.map (·.platform.row)))⟩
  rows : ∀ rows,
    Table.Holds (Table.write PlatformStats.header (samples.map (·.platform.row))) rows ↔
      rows = if samples = [] then [] else PlatformStats.header :: samples.map (·.platform.row)

theorem foldl_recordUsage (samples : List Sample) :
    samples.foldl (fun w sample => recordUsage w sample.usage) .start =
      ⟨samples.length, Lines.write (samples.map (·.usage.toJson))⟩ := by
  have hlines := Writer.lines_eq (samples.map (·.usage.toJson))
  rw [Writer.lines, List.foldl_map, List.length_map] at hlines
  exact hlines

theorem foldl_recordPlatform (samples : List Sample) :
    samples.foldl (fun w sample => recordPlatform w sample.platform) .start =
      ⟨samples.length,
        utf8Bytes (Table.write PlatformStats.header (samples.map (·.platform.row)))⟩ := by
  have htable := Writer.table_eq PlatformStats.header (samples.map (·.platform.row))
  rw [Writer.table, List.foldl_map, List.length_map] at htable
  exact htable

theorem writable_usage (usage : ClusterUsage) : usage.toJson.Writable := by
  refine Json.writable_record fun member hmember => ?_
  simp only [List.mem_cons, List.not_mem_nil, or_false] at hmember
  rcases hmember with rfl | rfl | rfl | rfl | rfl | rfl | rfl | rfl
  · exact Json.writable_ofInt _
  · exact Json.writable_list Json.writable_ofText _
  · exact Json.writable_list Json.writable_ofFloat _
  · exact Json.writable_list Json.writable_ofText _
  · exact Json.writable_list Json.writable_ofFloat _
  · exact Json.writable_list Json.writable_ofInt _
  · exact Json.writable_ofFloat _
  · exact Json.writable_ofFloat _

theorem Follows.complete (hfollows : s.Follows m samples) {n : Nat}
    (hreturned : s.phase = .returned n) : n = samples.length ∧ s.Complete m samples := by
  have hstage := hfollows.stage
  rw [Stage, hreturned] at hstage
  obtain ⟨-, -, ⟨-, husages, hplatforms⟩, rfl, hended, hended'⟩ := hstage
  have hlog := hfollows.usage.writer_eq hended
  have htable := hfollows.platform.writer_eq hended'
  rw [List.foldl_map, foldl_recordUsage] at hlog
  rw [List.foldl_map, foldl_recordPlatform] at htable
  refine ⟨rfl, hfollows.are, husages, hplatforms, hlog, ?_, htable, fun rows => ?_⟩
  · rw [hlog, Lines.splitOn_write, List.map_map]
    · rfl
    · rintro _ hvalue
      obtain ⟨sample, -, rfl⟩ := List.mem_map.mp hvalue
      exact writable_usage _
  · have hheader : PlatformStats.header ≠ [] := List.cons_ne_nil _ _
    rw [Table.holds_write_iff hheader]
    · simp only [Table.contents, List.map_eq_nil_iff]
    · rintro _ hrow
      obtain ⟨sample, -, rfl⟩ := List.mem_map.mp hrow
      exact List.cons_ne_nil _ _

/-! ## The sampling that is run -/

/-- A session between two samples, with everything written. -/
def resting (usages platforms : Writer) (count due : Nat) (clock : Clock)
    (usageCalls platformCalls : List Nat) : Session where
  clock := clock
  due := due
  usage := { stream := .begin 16 [], writer := usages }
  platform := { stream := .begin 16 [], writer := platforms }
  usageCalls := usageCalls
  platformCalls := platformCalls
  count := count

variable {usages platforms : Writer} {count due : Nat} {clock : Clock}
  {usageCalls platformCalls : List Nat}

theorem take_eq {source : MetricSource} {n : Nat} {usage : Nat × ClusterUsage}
    {platform : Nat × PlatformStats} (husage : source.usage n = usage)
    (hplatform : source.platform n = platform) (clock : Clock) :
    take source n clock =
      (⟨{ usage.2 with timestamp := (later clock usage.1).wall },
        { platform.2 with timestamp := (later (later clock usage.1) platform.1).wall }⟩,
        later (later clock usage.1) platform.1) := by
  subst husage hplatform
  rfl

/-- A sample that is due is taken, sent and written. -/
theorem run_sample (m : Sampler) (usages platforms : Writer) (hdue : due ≤ clock.now)
    (husages : usageCalls.length = count) (hplatforms : platformCalls.length = count) :
    ∃ actions platformCall,
      let taken := take m.source (m.first + count) clock
      m.Run (resting usages platforms count due clock usageCalls platformCalls) actions
        (resting (recordUsage usages taken.1.usage) (recordPlatform platforms taken.1.platform)
          (count + 1) (nextDue m.period due clock.now) taken.2 (clock.now :: usageCalls)
          (platformCall :: platformCalls)) := by
  have husage : m.source.usage (m.first + count) =
      m.source.usage (m.first + usageCalls.length) := by rw [husages]
  have hplatform : m.source.platform (m.first + count) =
      m.source.platform (m.first + platformCalls.length) := by rw [hplatforms]
  refine ⟨[.tick, .pass (m.source.usage (m.first + usageCalls.length)).1, .usageComes,
    .pass (m.source.platform (m.first + platformCalls.length)).1, .platformComes, .sendUsage,
    .writeUsage, .sendPlatform, .writePlatform, .count],
    clock.now + (m.source.usage (m.first + usageCalls.length)).1, ?_⟩
  simp only [take_eq husage hplatform]
  exact .cons (.tick rfl hdue) <| .cons (.pass _) <| .cons (.usageComes rfl le_rfl) <|
    .cons (.pass _) <| .cons (.platformComes rfl le_rfl) <| .cons (.sendUsage rfl rfl) <|
    .cons (.writeUsage rfl) <| .cons (.sendPlatform rfl rfl rfl) <| .cons (.writePlatform rfl) <|
    .cons (.count rfl rfl rfl) (.nil _)

/-- A session has returned with these samples after the others, at this time. -/
structure Returns (usages platforms : Writer) (count : Nat) (outcome : List Sample × Nat)
    (s : Session) : Prop where
  phase : s.phase = .returned (count + outcome.1.length)
  clock : s.clock.now = outcome.2
  usage : s.usage.writer = outcome.1.foldl (fun w sample => recordUsage w sample.usage) usages
  platform :
    s.platform.writer = outcome.1.foldl (fun w sample => recordPlatform w sample.platform) platforms

/-- A sampler that is stopped between two samples returns. -/
theorem run_stop (m : Sampler) (usages platforms : Writer) (count due : Nat) (clock : Clock)
    (usageCalls platformCalls : List Nat) :
    ∃ actions s, m.Run (resting usages platforms count due clock usageCalls platformCalls)
      actions s ∧ s.Returns usages platforms count ([], max clock.now m.stop) := by
  have hstop : m.stop ≤ clock.now + (m.stop - clock.now) := by omega
  refine ⟨[.pass (m.stop - clock.now), .leave, .endUsage, .endPlatform, .finish], _,
    .cons (.pass _) <| .cons (.leave rfl hstop) <| .cons (.endUsage rfl) <|
      .cons (.endPlatform rfl) <| .cons (.finish rfl rfl rfl) (.nil _), rfl, ?_, rfl, rfl⟩
  change clock.now + (m.stop - clock.now) = max clock.now m.stop
  omega

/-- The samples that are taken one after the other until the stop are those of a session. -/
theorem run_samples (m : Sampler) (usages platforms : Writer) (fuel due : Nat) (clock : Clock)
    (husages : usageCalls.length = count) (hplatforms : platformCalls.length = count) :
    ∃ actions s, m.Run (resting usages platforms count due clock usageCalls platformCalls)
      actions s ∧ s.Returns usages platforms count
        (Sampling.samples m.source m.period m.stop fuel (m.first + count) due clock) := by
  induction fuel generalizing usages platforms count due clock usageCalls platformCalls with
  | zero => exact run_stop m usages platforms count due clock usageCalls platformCalls
  | succ fuel ih =>
    simp only [Sampling.samples]
    split
    next => exact run_stop m usages platforms count due clock usageCalls platformCalls
    next hstop =>
      -- time passes until the sample is due and the source is free
      have hwait : (resting usages platforms count due clock usageCalls platformCalls).wait
          (max due clock.now - clock.now) =
          resting usages platforms count due { clock with now := max due clock.now } usageCalls
            platformCalls := by
        have hnow : clock.now + (max due clock.now - clock.now) = max due clock.now := by omega
        rw [wait, resting, later, hnow]
        rfl
      have hdue : due ≤ ({ clock with now := max due clock.now } : Clock).now := le_max_left _ _
      obtain ⟨actions, platformCall, hsample⟩ :=
        run_sample m usages platforms hdue husages hplatforms
      have husages' : (max due clock.now :: usageCalls).length = count + 1 :=
        congrArg (· + 1) husages
      have hplatforms' : (platformCall :: platformCalls).length = count + 1 :=
        congrArg (· + 1) hplatforms
      obtain ⟨others, s, hothers, hreturns⟩ := ih _ _ _ _ husages' hplatforms'
      refine ⟨.pass (max due clock.now - clock.now) :: (actions ++ others), s,
        .cons (.pass _) (hwait ▸ hsample.append hothers), ?_, hreturns.clock, hreturns.usage,
        hreturns.platform⟩
      exact hreturns.phase.trans (congrArg Phase.returned (Nat.succ_add_eq_add_succ _ _))

end Session

/-! ## Whole samplings -/

/-- Whatever has happened in a sampling: no call was made before one period had passed, nor more
samples begun than periods have passed.  Eight things happen for each sample, and four more to come
to an end, and until then one of them can happen that is not another sample.  In the end the
number of samples is returned, for each of which both calls were made once, and which stand whole
in both files.  The sampling that is run is such a one. -/
theorem Sampler.samples_whole (m : Sampler) (clock : Clock) :
    (∀ actions s, m.Run (.begin m.period clock) actions s →
      (∀ time ∈ s.usageCalls ++ s.platformCalls, clock.now + m.period ≤ time) ∧
      clock.now + s.usageCalls.length * m.period ≤ s.clock.now ∧
      actions.countP (·.happens) ≤ 8 * actions.countP (·.isTick) + 4 ∧
      ((∃ n, s.phase = .returned n) ↔
        actions.countP (·.happens) = 8 * actions.countP (·.isTick) + 4) ∧
      ((∀ n, s.phase ≠ .returned n) → ∃ millis action s',
        action.happens = true ∧ action.isTick = false ∧ m.Step (s.wait millis) action s') ∧
      (∀ n, s.phase = .returned n → ∃ samples, n = samples.length ∧ s.Complete m samples)) ∧
    ∃ actions s, m.Run (.begin m.period clock) actions s ∧
      s.phase = .returned (run m.source m.period clock m.first m.stop).1.length ∧
      s.clock.now = (run m.source m.period clock m.first m.stop).2 ∧
      ∀ configuration files,
        fillFiles (run m.source m.period clock m.first m.stop).1 configuration files =
          (files.fill (usagePath configuration) s.usage.writer.file).fill
            (platformPath configuration) s.platform.writer.file := by
  refine ⟨fun actions s hrun => ?_, ?_⟩
  · obtain ⟨samples, hfollows⟩ := (Session.follows_begin m clock).run hrun
    have hlate := (Session.late_begin m clock).run hrun
    have hleft := (Session.follows_begin m clock).left_run hrun
    have hbegin : (Session.begin m.period clock).left = 4 := rfl
    refine ⟨hlate.calls, hlate.passed, by omega, ?_, hfollows.goes_on,
      fun n hphase => ⟨samples, hfollows.complete hphase⟩⟩
    rw [← hfollows.left_eq_zero_iff]
    omega
  · have hnone : ([] : List Nat).length = 0 := rfl
    obtain ⟨actions, s, hrun, hreturns⟩ := Session.run_samples m .start .start
      ((m.stop - clock.now) / m.period + 1) (clock.now + m.period) clock hnone hnone
    refine ⟨actions, s, hrun, ?_, hreturns.clock, fun configuration files => ?_⟩
    · rw [hreturns.phase, Nat.zero_add]
      rfl
    · rw [hreturns.usage, hreturns.platform, Session.foldl_recordUsage,
        Session.foldl_recordPlatform]
      rfl

end TraceReplay.Sampling
