import TraceReplay.Proofs.Sampling.Course
import TraceReplay.Proofs.Sampling.Recorder

/-!
# Sessions of a sampler

A session is a sampler between its clock, its source, the one who stops it and the two tasks that
write what it sends.  Whatever is possible may be the next thing to happen, and time may pass
before it does, so the runs of a session are the orders in which everything can happen.
-/

namespace TraceReplay.Sampling

/-- What samples, and when it is told to stop. -/
structure Sampler where
  source : MetricSource
  period : Nat
  /-- The samples the source has given before. -/
  first : Nat
  stop : Nat

def recordUsage (w : Writer) (usage : ClusterUsage) : Writer := w.writeLine usage.toJson

def recordPlatform (w : Writer) (stats : PlatformStats) : Writer :=
  w.writeRow PlatformStats.header stats.row

/-- Where the loop of a sampler is. -/
inductive Phase where
  /-- It waits until a sample is due or it is stopped. -/
  | choosing
  /-- The first call is under way: when it comes back, and with what. -/
  | callingUsage (back : Nat) (usage : ClusterUsage)
  /-- The second call is under way, and the first part is there. -/
  | callingPlatform (back : Nat) (stats : PlatformStats) (usage : ClusterUsage)
  | sending
  | left
  | returned (count : Nat)

structure Session where
  clock : Clock
  /-- When the next sample is due. -/
  due : Nat
  phase : Phase := .choosing
  usage : Recorder ClusterUsage := .begin 16
  platform : Recorder PlatformStats := .begin 16
  /-- When each of the two calls was made, the latest first. -/
  usageCalls : List Nat := []
  platformCalls : List Nat := []
  /-- Samples that have been counted. -/
  count : Nat := 0

inductive Action where
  | pass (millis : Nat)
  | tick
  /-- The first call comes back, and the second is made. -/
  | usageComes
  | platformComes
  | sendUsage
  | sendPlatform
  | count
  /-- The loop is left because nobody takes what is sent. -/
  | giveUp
  | leave
  | writeUsage
  | writePlatform
  | endUsage
  | endPlatform
  | finish

/-- Something happens but that time passes. -/
def Action.happens : Action → Bool
  | .pass _ => false
  | _ => true

def Action.isTick : Action → Bool
  | .tick => true
  | _ => false

/-- A clock after some more milliseconds. -/
def later (clock : Clock) (millis : Nat) : Clock := { clock with now := clock.now + millis }

namespace Session

def begin (period : Nat) (clock : Clock) : Session where
  clock := clock
  due := clock.now + period

def wait (s : Session) (millis : Nat) : Session :=
  { s with clock := later s.clock millis }

/-- Both senders go away. -/
def hangUp (s : Session) : Session :=
  { s with phase := .left, usage := s.usage.hangUp, platform := s.platform.hangUp }

end Session

namespace Sampler

/-- The first call of the next sample is made. -/
def callUsage (m : Sampler) (s : Session) : Session :=
  let (delay, usage) := m.source.usage (m.first + s.usageCalls.length)
  { s with
    due := nextDue m.period s.due s.clock.now
    phase := .callingUsage (s.clock.now + delay) usage
    usageCalls := s.clock.now :: s.usageCalls }

/-- The first part is stamped, and the second call is made. -/
def callPlatform (m : Sampler) (s : Session) (usage : ClusterUsage) : Session :=
  let (delay, stats) := m.source.platform (m.first + s.platformCalls.length)
  { s with
    phase := .callingPlatform (s.clock.now + delay) stats { usage with timestamp := s.clock.wall }
    platformCalls := s.clock.now :: s.platformCalls }

/-- The second part is stamped, and both are to be sent. -/
def offer (s : Session) (usage : ClusterUsage) (stats : PlatformStats) : Session :=
  { s with
    phase := .sending
    usage := s.usage.offer usage
    platform := s.platform.offer { stats with timestamp := s.clock.wall } }

/-- What each action needs and what it does. -/
inductive Step (m : Sampler) (s : Session) : Action → Session → Prop
  | pass (millis : Nat) : Step m s (.pass millis) (s.wait millis)
  | tick (hphase : s.phase = .choosing) (hdue : s.due ≤ s.clock.now) :
      Step m s .tick (m.callUsage s)
  | leave (hphase : s.phase = .choosing) (hstop : m.stop ≤ s.clock.now) :
      Step m s .leave s.hangUp
  | usageComes {back usage} (hphase : s.phase = .callingUsage back usage)
      (hback : back ≤ s.clock.now) : Step m s .usageComes (m.callPlatform s usage)
  | platformComes {back stats usage} (hphase : s.phase = .callingPlatform back stats usage)
      (hback : back ≤ s.clock.now) : Step m s .platformComes (offer s usage stats)
  | sendUsage {usage} (hphase : s.phase = .sending) (hsend : s.usage.send? = some usage) :
      Step m s .sendUsage { s with usage := usage }
  /-- The second part is sent when the first has been accepted. -/
  | sendPlatform {platform} (hphase : s.phase = .sending) (hsettled : s.usage.settled = true)
      (hsend : s.platform.send? = some platform) :
      Step m s .sendPlatform { s with platform := platform }
  | count (hphase : s.phase = .sending) (hsettled : s.usage.settled = true)
      (hsettled' : s.platform.settled = true) :
      Step m s .count { s with phase := .choosing, count := s.count + 1 }
  | giveUp (hphase : s.phase = .sending)
      (hrefused : s.usage.refuses = true ∨ s.usage.settled = true ∧ s.platform.refuses = true) :
      Step m s .giveUp s.hangUp
  | writeUsage {usage} (hwrite : s.usage.write? recordUsage = some usage) :
      Step m s .writeUsage { s with usage := usage }
  | writePlatform {platform} (hwrite : s.platform.write? recordPlatform = some platform) :
      Step m s .writePlatform { s with platform := platform }
  | endUsage {usage} (hend : s.usage.end? = some usage) :
      Step m s .endUsage { s with usage := usage }
  | endPlatform {platform} (hend : s.platform.end? = some platform) :
      Step m s .endPlatform { s with platform := platform }
  | finish (hphase : s.phase = .left) (hended : s.usage.ended = true)
      (hended' : s.platform.ended = true) :
      Step m s .finish { s with phase := .returned s.count }

/-- Actions one after the other. -/
inductive Run (m : Sampler) : Session → List Action → Session → Prop
  | nil (s) : Run m s [] s
  | cons {s next s' action actions} (hstep : m.Step s action next) (hrun : Run m next actions s') :
      Run m s (action :: actions) s'

variable {m : Sampler} {s s' : Session}

theorem Run.append {next : Session} {actions others : List Action} (hrun : m.Run s actions next)
    (hrun' : m.Run next others s') : m.Run s (actions ++ others) s' := by
  induction hrun with
  | nil => exact hrun'
  | cons hstep _ ih => exact .cons hstep (ih hrun')

end Sampler

/-! ## Samples -/

/-- A sample is the one of this number, but for the times it was stamped with. -/
structure IsSample (source : MetricSource) (n : Nat) (sample : Sample) : Prop where
  usage : ∃ time, sample.usage = { (source.usage n).2 with timestamp := time }
  platform : ∃ time, sample.platform = { (source.platform n).2 with timestamp := time }

/-- The samples of a source from a number on. -/
def AreSamples (source : MetricSource) (first : Nat) (samples : List Sample) : Prop :=
  ∀ k sample, samples[k]? = some sample → IsSample source (first + k) sample

theorem AreSamples.append {source : MetricSource} {first : Nat} {samples : List Sample}
    {sample : Sample} (hsamples : AreSamples source first samples)
    (hsample : IsSample source (first + samples.length) sample) :
    AreSamples source first (samples ++ [sample]) := by
  intro k other hk
  rcases Nat.lt_trichotomy k samples.length with hlt | rfl | hgt
  · rw [List.getElem?_append_left hlt] at hk
    exact hsamples k other hk
  · obtain rfl : sample = other := by simpa using hk
    exact hsample
  · rw [List.getElem?_eq_none (by simp; omega)] at hk
    exact absurd hk nofun

/-! ## What every run keeps -/

namespace Session

/-- Samples counted, and calls of both kinds. -/
def Tallies (s : Session) (count usages platforms : Nat) : Prop :=
  s.count = count ∧ s.usageCalls.length = usages ∧ s.platformCalls.length = platforms

/-- How far a session is that has taken so many whole samples. -/
def Stage (m : Sampler) (n : Nat) (s : Session) : Prop :=
  match s.phase with
  | .choosing => s.usage.Idle ∧ s.platform.Idle ∧ s.Tallies n n n
  | .callingUsage _ usage =>
    s.usage.Idle ∧ s.platform.Idle ∧ s.Tallies n (n + 1) n ∧
      usage = (m.source.usage (m.first + n)).2
  | .callingPlatform _ stats usage =>
    s.usage.Idle ∧ s.platform.Idle ∧ s.Tallies n (n + 1) (n + 1) ∧
      (∃ time, usage = { (m.source.usage (m.first + n)).2 with timestamp := time }) ∧
      stats = (m.source.platform (m.first + n)).2
  | .sending =>
    s.usage.stream.box.isOpen = true ∧ s.platform.stream.box.isOpen = true ∧
      ∃ counted, n = counted + 1 ∧ s.Tallies counted n n
  | .left => s.usage.Closed ∧ s.platform.Closed ∧ s.Tallies n n n
  | .returned count =>
    s.usage.Closed ∧ s.platform.Closed ∧ s.Tallies n n n ∧ count = n ∧
      s.usage.ended = true ∧ s.platform.ended = true

/-- Both recorders keep their parts of the same whole samples. -/
structure Follows (m : Sampler) (samples : List Sample) (s : Session) : Prop where
  are : AreSamples m.source m.first samples
  usage : s.usage.Keeps recordUsage (samples.map (·.usage))
  platform : s.platform.Keeps recordPlatform (samples.map (·.platform))
  stage : s.Stage m samples.length

variable {m : Sampler} {s s' : Session} {samples : List Sample} {action : Action}

theorem follows_begin (m : Sampler) (clock : Clock) :
    (begin m.period clock).Follows m [] where
  are _ _ hk := absurd hk nofun
  usage := Recorder.keeps_begin (by decide)
  platform := Recorder.keeps_begin (by decide)
  stage := ⟨⟨rfl, rfl⟩, ⟨rfl, rfl⟩, rfl, rfl, rfl⟩

/-- The stage stays the same while the recorders go on. -/
theorem Stage.goesOn {n : Nat} (hstage : s.Stage m n) {usage : Recorder ClusterUsage}
    {platform : Recorder PlatformStats} (husage : s.usage.GoesOn usage)
    (hplatform : s.platform.GoesOn platform) :
    Stage m n { s with usage := usage, platform := platform } := by
  unfold Stage at hstage ⊢
  split at hstage <;> rename_i hphase <;> simp only [hphase]
  · exact ⟨husage.idle hstage.1, hplatform.idle hstage.2.1, hstage.2.2⟩
  · exact ⟨husage.idle hstage.1, hplatform.idle hstage.2.1, hstage.2.2⟩
  · exact ⟨husage.idle hstage.1, hplatform.idle hstage.2.1, hstage.2.2⟩
  · exact ⟨husage.isOpen.trans hstage.1, hplatform.isOpen.trans hstage.2.1, hstage.2.2⟩
  · exact ⟨husage.closed hstage.1, hplatform.closed hstage.2.1, hstage.2.2⟩
  · obtain ⟨hclosed, hclosed', htallies, hcount, hended, hended'⟩ := hstage
    exact ⟨husage.closed hclosed, hplatform.closed hclosed', htallies, hcount,
      husage.ended hended, hplatform.ended hended'⟩

namespace Follows

variable (hfollows : s.Follows m samples)

include hfollows

/-- The recorders go on with what they have. -/
theorem goesOn {usage : Recorder ClusterUsage} {platform : Recorder PlatformStats}
    (husage : s.usage.GoesOn usage) (hplatform : s.platform.GoesOn platform)
    (hkeeps : usage.Keeps recordUsage (samples.map (·.usage)))
    (hkeeps' : platform.Keeps recordPlatform (samples.map (·.platform))) :
    Follows m samples { s with usage := usage, platform := platform } :=
  ⟨hfollows.are, hkeeps, hkeeps', hfollows.stage.goesOn husage hplatform⟩

theorem idle_of_choosing (hphase : s.phase = .choosing) :
    s.usage.Idle ∧ s.platform.Idle ∧ s.Tallies samples.length samples.length samples.length := by
  have hstage := hfollows.stage
  rwa [Stage, hphase] at hstage

theorem tick (hphase : s.phase = .choosing) : (m.callUsage s).Follows m samples := by
  obtain ⟨hidle, hidle', hcount, husages, hplatforms⟩ := hfollows.idle_of_choosing hphase
  refine ⟨hfollows.are, hfollows.usage, hfollows.platform, hidle, hidle',
    ⟨hcount, congrArg (· + 1) husages, hplatforms⟩, ?_⟩
  rw [husages]

theorem leave (hphase : s.phase = .choosing) : s.hangUp.Follows m samples := by
  obtain ⟨hidle, hidle', htallies⟩ := hfollows.idle_of_choosing hphase
  exact ⟨hfollows.are, hfollows.usage.hangUp hidle.1, hfollows.platform.hangUp hidle'.1,
    s.usage.closed_hangUp, s.platform.closed_hangUp, htallies⟩

theorem usageComes {back : Nat} {usage : ClusterUsage}
    (hphase : s.phase = .callingUsage back usage) : (m.callPlatform s usage).Follows m samples := by
  have hstage := hfollows.stage
  rw [Stage, hphase] at hstage
  obtain ⟨hidle, hidle', ⟨hcount, husages, hplatforms⟩, rfl⟩ := hstage
  refine ⟨hfollows.are, hfollows.usage, hfollows.platform, hidle, hidle',
    ⟨hcount, husages, congrArg (· + 1) hplatforms⟩, ⟨_, rfl⟩, ?_⟩
  rw [hplatforms]

/-- Both parts of one sample are offered. -/
theorem platformComes {back : Nat} {stats : PlatformStats} {usage : ClusterUsage}
    (hphase : s.phase = .callingPlatform back stats usage) :
    ∃ sample, (Sampler.offer s usage stats).Follows m (samples ++ [sample]) := by
  have hstage := hfollows.stage
  rw [Stage, hphase] at hstage
  obtain ⟨⟨-, hopen⟩, ⟨-, hopen'⟩, ⟨hcount, husages, hplatforms⟩, husage, rfl⟩ := hstage
  refine ⟨⟨usage, _⟩, hfollows.are.append ⟨husage, ⟨s.clock.wall, rfl⟩⟩, ?_, ?_, ?_⟩
  · rw [List.map_append]
    exact hfollows.usage.offer hopen usage
  · rw [List.map_append]
    exact hfollows.platform.offer hopen' _
  · rw [List.length_append]
    exact ⟨hopen, hopen', _, rfl, hcount, husages, hplatforms⟩

theorem count (hphase : s.phase = .sending) (hsettled : s.usage.settled = true)
    (hsettled' : s.platform.settled = true) :
    Follows m samples { s with phase := .choosing, count := s.count + 1 } := by
  have hstage := hfollows.stage
  rw [Stage, hphase] at hstage
  obtain ⟨hopen, hopen', counted, hcounted, hcount, hcalls⟩ := hstage
  exact ⟨hfollows.are, hfollows.usage, hfollows.platform, ⟨hsettled, hopen⟩, ⟨hsettled', hopen'⟩,
    by rw [hcount, hcounted], hcalls⟩

/-- As long as something is to be sent, somebody takes it. -/
theorem not_refused (hphase : s.phase = .sending) :
    ¬(s.usage.refuses = true ∨ s.usage.settled = true ∧ s.platform.refuses = true) := by
  have hstage := hfollows.stage
  rw [Stage, hphase] at hstage
  simp [Recorder.refuses_of_isOpen hstage.1, Recorder.refuses_of_isOpen hstage.2.1]

theorem finish (hphase : s.phase = .left) (hended : s.usage.ended = true)
    (hended' : s.platform.ended = true) :
    Follows m samples { s with phase := .returned s.count } := by
  have hstage := hfollows.stage
  rw [Stage, hphase] at hstage
  obtain ⟨hclosed, hclosed', htallies⟩ := hstage
  exact ⟨hfollows.are, hfollows.usage, hfollows.platform, hclosed, hclosed', htallies, htallies.1,
    hended, hended'⟩

theorem step (hstep : m.Step s action s') : ∃ samples, s'.Follows m samples := by
  cases hstep with
  | pass => exact ⟨samples, hfollows.are, hfollows.usage, hfollows.platform, hfollows.stage⟩
  | tick hphase => exact ⟨samples, hfollows.tick hphase⟩
  | leave hphase => exact ⟨samples, hfollows.leave hphase⟩
  | usageComes hphase => exact ⟨samples, hfollows.usageComes hphase⟩
  | platformComes hphase =>
    obtain ⟨sample, hoffered⟩ := hfollows.platformComes hphase
    exact ⟨_, hoffered⟩
  | sendUsage _ hsend =>
    exact ⟨samples, hfollows.goesOn (Recorder.goesOn_send hsend) (.refl _)
      (hfollows.usage.send hsend) hfollows.platform⟩
  | sendPlatform _ _ hsend =>
    exact ⟨samples, hfollows.goesOn (.refl _) (Recorder.goesOn_send hsend) hfollows.usage
      (hfollows.platform.send hsend)⟩
  | count hphase hsettled hsettled' => exact ⟨samples, hfollows.count hphase hsettled hsettled'⟩
  | giveUp hphase hrefused => exact absurd hrefused (hfollows.not_refused hphase)
  | writeUsage hwrite =>
    exact ⟨samples, hfollows.goesOn (Recorder.goesOn_write hwrite) (.refl _)
      (hfollows.usage.write hwrite) hfollows.platform⟩
  | writePlatform hwrite =>
    exact ⟨samples, hfollows.goesOn (.refl _) (Recorder.goesOn_write hwrite) hfollows.usage
      (hfollows.platform.write hwrite)⟩
  | endUsage hend =>
    exact ⟨samples, hfollows.goesOn (Recorder.goesOn_end hend) (.refl _)
      (hfollows.usage.finish hend) hfollows.platform⟩
  | endPlatform hend =>
    exact ⟨samples, hfollows.goesOn (.refl _) (Recorder.goesOn_end hend) hfollows.usage
      (hfollows.platform.finish hend)⟩
  | finish hphase hended hended' => exact ⟨samples, hfollows.finish hphase hended hended'⟩

theorem run {actions : List Action} (hrun : m.Run s actions s') :
    ∃ samples, s'.Follows m samples := by
  induction hrun generalizing samples with
  | nil => exact ⟨samples, hfollows⟩
  | cons hstep _ ih =>
    obtain ⟨_, hnext⟩ := hfollows.step hstep
    exact ih hnext

end Follows

end Session
end TraceReplay.Sampling
