import TraceReplay.Proofs.Replay.Ledger

/-!
# Prompt lanes

A driver that has let others go first is checked only when all outcomes that have come by
then are counted, and one that waits for its invocations has some to wait for.
-/

namespace TraceReplay.Replay

namespace View

theorem rouse_held {x : Place × Task} (hheld : (rouse x).1 = .held) : x.1 = .held := by
  obtain ⟨place, task⟩ := x
  cases place with
  | deferred => exact Place.noConfusion hheld
  | _ => exact hheld

theorem wakeAt_held (time : Nat) {x : Place × Task} (hheld : (wakeAt time x).1 = .held) :
    x.1 = .held := by
  obtain ⟨place, task⟩ := x
  cases place with
  | asleep due =>
    simp only [wakeAt] at hheld
    split at hheld <;> exact Place.noConfusion hheld
  | _ => exact hheld

end View

/-- Nothing comes to be held while tasks go on or time passes. -/
theorem held_of_map {f : Place × Task → Place × Task} (htask : ∀ x, (f x).2 = x.2)
    (hheld : ∀ {x}, (f x).1 = .held → x.1 = .held) {standing : Standing} {task : Task}
    (hmem : (.held, task) ∈ standing.map f) : (.held, task) ∈ standing := by
  obtain ⟨⟨place, other⟩, hother, heq⟩ := Multiset.mem_map.mp hmem
  obtain rfl : place = .held := hheld (congrArg Prod.fst heq)
  obtain rfl : other = task := (htask _).symm.trans (congrArg Prod.snd heq)
  exact hother

namespace Track

/-- Nobody waits too short or too long: a driver that has let others go first is checked
only when all outcomes that have come are counted, and it waits only for invocations. -/
structure Prompt (index : Nat) (t : Track) : Prop where
  settled : ∀ s, (.ready, .drive index .check s) ∈ t.standing →
    ∀ x ∈ t.standing, x.1 = .ready → x.2.awaited? = none
  awaits : ∀ point s, (.held, .drive index point s) ∈ t.standing → t.lane.inFlight ≠ 0

variable {index : Nat} {t : Track}

/-- A driver that goes on after a move is not checked yet, and it waits in its lane only for
invocations. -/
theorem mem_move_drive {s s' : Driver.State} {move : Driver.Move} {point next : Driver.Point}
    (hleads : move.Leads point) {place : Place}
    (hmem : (place, .drive index next s') ∈ (t.move index s move).standing) :
    (place, .drive index next s') ∈ t.standing ∨ (place = .ready → next ≠ .check) ∧
      (place = .held → (t.move index s move).lane.inFlight ≠ 0) := by
  have hadd {stands : Place} {other : Driver.Point} {standing : Standing}
      (hgood : (stands = .ready → other ≠ .check) ∧
        (stands = .held → (t.move index s move).lane.inFlight ≠ 0))
      (hmem : (place, .drive index next s') ∈ (stands, .drive index other s) ::ₘ standing) :
      (place, .drive index next s') ∈ standing ∨ (place = .ready → next ≠ .check) ∧
        (place = .held → (t.move index s move).lane.inFlight ≠ 0) := by
    rcases Multiset.mem_cons.mp hmem with heq | hmem
    · simp only [Prod.mk.injEq, Task.drive.injEq, true_and] at heq
      obtain ⟨rfl, rfl, -⟩ := heq
      exact .inr hgood
    · exact .inl hmem
  cases move with
  | proceed other =>
    exact hadd ⟨fun _ hcheck => by simp [Driver.Move.Leads, hcheck] at hleads, by simp⟩ hmem
  | sleep micros other => exact hadd (by simp) hmem
  | yield other => exact hadd (by simp) hmem
  | deliver pair other => exact .inl ((Multiset.mem_cons.mp hmem).resolve_left (by simp))
  | launch dispatch other =>
    refine (hadd ⟨fun _ hcheck => by simp [Driver.Move.Leads, hcheck] at hleads, by simp⟩
      hmem).imp_left fun hmem => ?_
    exact (Multiset.mem_cons.mp hmem).resolve_left (by simp)
  | await other =>
    refine hadd ⟨fun _ hcheck => by simp [Driver.Move.Leads, hcheck] at hleads, ?_⟩ hmem
    intro hheld hnone
    exact absurd hheld (by simp [show t.lane.inFlight = 0 from hnone])
  | finish report => exact .inl hmem
  | fail error => exact .inl hmem

/-- A driver that has delivered its records goes on at once. -/
theorem Delivers.stored {task : Task} {x : Place × Task} (hdelivers : Delivers task x)
    {place : Place} (hallowed : View.Allowed place task) {point : Driver.Point}
    {s : Driver.State} (hdrive : x.2 = .drive index point s) :
    x.1 = .ready ∧ point = .stored := by
  have hafter {other : Nat} {next : Task} (hnext : View.AfterStore other next)
      (hdrive : next = .drive index point s) : point = .stored := by
    rcases hnext with rfl | ⟨s', rfl⟩
    · exact absurd hdrive (by simp)
    · simp only [Task.drive.injEq] at hdrive
      exact hdrive.2.1.symm
  cases hdelivers with
  | record => exact absurd hdrive (by simp)
  | job => exact ⟨rfl, hafter hallowed.2 hdrive⟩
  | lost => exact ⟨rfl, hafter hallowed.2 hdrive⟩
  | waits hstore =>
    obtain rfl : task = .drive index point s := hdrive
    exact absurd hstore (by simp [View.isStore])

/-- A driver waits in its lane only for invocations. -/
def Awaits (index : Nat) (t : Track) : Prop :=
  ∀ point s, (.held, .drive index point s) ∈ t.standing → t.lane.inFlight ≠ 0

namespace Awaits

/-- A task takes the place of another, unless it is a driver that waits. -/
theorem replace (hawaits : t.Awaits index) {x y : Place × Task} {rest : Standing}
    (hstanding : t.standing = x ::ₘ rest)
    (hdrive : ∀ point s, y.2 = .drive index point s → y.1 ≠ .held)
    {lane : Lane} (hflight : lane.inFlight = t.lane.inFlight) :
    Awaits index { t with lane := lane, standing := y ::ₘ rest } := by
  intro point s hheld
  rw [hflight]
  rcases Multiset.mem_cons.mp hheld with rfl | hmem
  · exact absurd rfl (hdrive point s rfl)
  · apply hawaits point s
    rw [hstanding]
    exact Multiset.mem_cons_of_mem hmem

theorem step (hawaits : t.Awaits index) (hmanned : t.Manned index) (horderly : t.Orderly index)
    {t' : Track} {own : Bool} (hstep : Step index own t t') : t'.Awaits index := by
  cases hstep with
  | @drive _ point s rest hstanding =>
    obtain ⟨hrest, -⟩ := hmanned.alone hstanding (by simp [Task.driving?])
    intro next s' hheld
    have hleads := Driver.turn_leads t.lane.plan t.clock t.lane.counters point s
    rcases mem_move_drive hleads hheld with hold | ⟨-, hwaits⟩
    · exact absurd (hrest _ hold) (by simp [Task.driving?])
    · exact hwaits rfl
  | proceed hstanding hproceeds =>
    refine hawaits.replace hstanding (fun point s hdrive => ?_) rfl
    have hnone := hproceeds.driving?.2
    rw [hdrive] at hnone
    exact absurd hnone (by simp [Task.driving?])
  | answer hstanding => exact hawaits.replace hstanding (by simp) rfl
  | panic hstanding => exact hawaits.replace hstanding (by simp) rfl
  | publish hstanding => exact hawaits.replace hstanding (by simp) rfl
  | deliver hstanding _ hdelivers =>
    refine hawaits.replace hstanding (fun point s hdrive => ?_) rfl
    rw [(hdelivers.stored (horderly.first hstanding).1 hdrive).1]
    simp
  | @release _ rest hstanding hwaits =>
    intro point s hheld hnone
    exact hwaits hnone point s hheld
  | @resume _ point s rest hstanding =>
    have hswapped := hstanding.trans (Multiset.cons_swap _ _ _)
    obtain ⟨hrest, -⟩ := hmanned.alone hswapped (by simp [Task.driving?])
    intro next s' hheld
    have hmem := (Multiset.mem_cons.mp hheld).resolve_left (by simp)
    have hnone := hrest _ (Multiset.mem_cons_of_mem hmem)
    exact absurd hnone (by simp [Task.driving?])
  | rouse =>
    intro point s hheld
    exact hawaits point s (held_of_map View.rouse_task View.rouse_held hheld)
  | @tick _ time =>
    intro point s hheld
    exact hawaits point s (held_of_map (View.wakeAt_task time) (View.wakeAt_held time) hheld)

/-- If nothing of a lane can go on and nobody waits for an answer, its driver has ended: else it
would wait for an invocation, but an invocation that is not held up does not stand still. -/
theorem finished (hawaits : t.Awaits index) (hmanned : t.Manned index) (horderly : t.Orderly index)
    (hheld : ∀ x ∈ t.standing, x.1 = .held ∧ View.isStore x.2 = false)
    (hanswered : ∀ x ∈ t.standing, ∀ lane dispatch reply begin,
      x.2 ≠ .answered lane dispatch reply begin) : t.finished ≠ [] := by
  have hdriver {x : Place × Task} (hx : x ∈ t.standing) :
      ∃ point s, x = (.held, .drive index point s) := by
    obtain ⟨place, task⟩ := x
    obtain ⟨rfl, hstore⟩ : place = .held ∧ View.isStore task = false := hheld _ hx
    have hallowed := horderly.allowed _ hx
    have hown := horderly.own _ hx
    cases task with
    | drive owner point s =>
      obtain rfl : owner = index := Option.some.inj hown
      exact ⟨point, s, rfl⟩
    | answered => exact absurd rfl (hanswered _ hx _ _ _ _)
    | storeRecord => simp [View.isStore] at hstore
    | storeJob => simp [View.isStore] at hstore
    | _ => simp [View.Allowed] at hallowed
  intro hfinished
  have hone := hmanned.one
  rw [hfinished, List.length_nil, Nat.add_zero] at hone
  obtain ⟨x, hx, -⟩ := Multiset.countP_pos.mp (hone.symm ▸ Nat.one_pos)
  obtain ⟨point, s, rfl⟩ := hdriver hx
  have hflight := hawaits point s hx
  rw [hmanned.flight] at hflight
  obtain ⟨y, hy, hinvocation⟩ := Multiset.countP_pos.mp (Nat.pos_of_ne_zero hflight)
  obtain ⟨_, _, rfl⟩ := hdriver hy
  exact absurd hinvocation (by simp [Task.driving?])

end Awaits

namespace Prompt

/-- A task takes the place of another, unless it is a driver that is checked. -/
theorem settled_replace (hprompt : t.Prompt index) {x y : Place × Task} {rest : Standing}
    (hstanding : t.standing = x ::ₘ rest)
    (hdrive : ∀ s, y ≠ (.ready, .drive index .check s))
    (hawaited : y.1 = .ready → y.2.awaited? = none ∨ x.1 = .ready ∧ x.2.awaited? ≠ none)
    (s : Driver.State) (hcheck : (.ready, .drive index .check s) ∈ y ::ₘ rest) (z : Place × Task)
    (hz : z ∈ y ::ₘ rest) (hready : z.1 = .ready) : z.2.awaited? = none := by
  have hold {z : Place × Task} (hmem : z ∈ rest) : z ∈ t.standing := by
    rw [hstanding]
    exact Multiset.mem_cons_of_mem hmem
  have hcheck' : (.ready, .drive index .check s) ∈ t.standing := by
    rcases Multiset.mem_cons.mp hcheck with rfl | hmem
    · exact absurd rfl (hdrive s)
    · exact hold hmem
  rcases Multiset.mem_cons.mp hz with rfl | hmem
  · apply (hawaited hready).resolve_right
    rintro ⟨hx, hawaits⟩
    exact hawaits (hprompt.settled s hcheck' x (by simp [hstanding]) hx)
  · exact hprompt.settled s hcheck' z (hold hmem) hready

/-- Whatever happens in a manned lane, nobody waits too short or too long. -/
theorem step (hprompt : t.Prompt index) (hmanned : t.Manned index) {own : Lane} {epoch : Int}
    {counted : Multiset Failure} (haccounted : t.Accounted own epoch counted)
    (horderly : t.Orderly index) {t' : Track} {mine : Bool} (hstep : Step index mine t t') :
    t'.Prompt index := by
  refine ⟨?_, Awaits.step hprompt.awaits hmanned horderly hstep⟩
  cases hstep with
  | @drive _ point s rest hstanding =>
    obtain ⟨hrest, -⟩ := hmanned.alone hstanding (by simp [Task.driving?])
    intro s' hcheck
    have hleads := Driver.turn_leads t.lane.plan t.clock t.lane.counters point s
    rcases mem_move_drive hleads hcheck with hold | ⟨hgoesOn, -⟩
    · exact absurd (hrest _ hold) (by simp [Task.driving?])
    · exact absurd rfl (hgoesOn rfl)
  | @proceed _ task x rest hstanding hproceeds =>
    refine hprompt.settled_replace hstanding (fun s hdrive => ?_) fun _ => .inr ⟨rfl, ?_⟩
    · have hnone := hproceeds.driving?.2
      rw [hdrive] at hnone
      exact absurd hnone (by simp [Task.driving?])
    · cases hproceeds <;> simp [Task.awaited?]
  | answer hstanding => exact (haccounted.not_answered hstanding).elim
  | panic hstanding => exact hprompt.settled_replace hstanding (by simp) fun _ => .inl rfl
  | publish hstanding => exact hprompt.settled_replace hstanding (by simp) fun _ => .inl rfl
  | deliver hstanding _ hdelivers =>
    have hallowed := (horderly.first hstanding).1
    refine hprompt.settled_replace hstanding (fun s hdrive => ?_)
      fun _ => .inl (hdelivers.awaited? hallowed)
    have hstored := (hdelivers.stored hallowed (congrArg Prod.snd hdrive)).2
    exact Driver.Point.noConfusion hstored
  | @release _ rest hstanding =>
    have hold {x : Place × Task} (hmem : x ∈ rest) : x ∈ t.standing := by
      rw [hstanding]
      exact Multiset.mem_cons_of_mem hmem
    intro s hcheck x hx
    exact hprompt.settled s (hold hcheck) x (hold hx)
  | @resume _ point s rest hstanding =>
    have hswapped := hstanding.trans (Multiset.cons_swap _ _ _)
    obtain ⟨hrest, -⟩ := hmanned.alone hswapped (by simp [Task.driving?])
    obtain rfl : point = .drained := (horderly.first hswapped).1
    intro s' hcheck
    have hmem := (Multiset.mem_cons.mp hcheck).resolve_left (by simp)
    have hnone := hrest _ (Multiset.mem_cons_of_mem hmem)
    exact absurd hnone (by simp [Task.driving?])
  | rouse hready =>
    intro s hcheck x hx hready'
    obtain ⟨⟨place, task⟩, hy, rfl⟩ := Multiset.mem_map.mp hx
    cases place with
    | ready => exact absurd rfl (hready _ hy)
    | deferred =>
      -- Only drivers let others go first.
      have hallowed := horderly.allowed _ hy
      cases task with
      | drive => rfl
      | _ => simp [View.Allowed] at hallowed
    | asleep due => exact absurd hready' (by simp [View.rouse])
    | held => exact absurd hready' (by simp [View.rouse])
  | @tick _ time hready hdeferred =>
    intro s hcheck
    obtain ⟨⟨place, task⟩, hy, heq⟩ := Multiset.mem_map.mp hcheck
    obtain rfl : task = .drive index .check s :=
      (View.wakeAt_task time (place, task)).symm.trans (congrArg Prod.snd heq)
    have hstands : View.MayStand .check place := horderly.allowed _ hy
    cases place with
    | asleep due => simp [View.MayStand] at hstands
    | ready => exact absurd rfl (hready _ hy)
    | deferred => exact absurd rfl (hdeferred _ hy)
    | held => exact Driver.Point.noConfusion hstands

/-- If nothing of a lane can go on, its driver has ended, as its invocations ask nobody. -/
theorem finished (hprompt : t.Prompt index) (hmanned : t.Manned index) {own : Lane}
    {epoch : Int} {counted : Multiset Failure} (haccounted : t.Accounted own epoch counted)
    (horderly : t.Orderly index)
    (hheld : ∀ x ∈ t.standing, x.1 = .held ∧ View.isStore x.2 = false) : t.finished ≠ [] :=
  Awaits.finished hprompt.awaits hmanned horderly hheld haccounted.unasked

end Prompt
end Track

end TraceReplay.Replay
