import TraceReplay.Proofs.Replay.Lanes

/-!
# Turns in any order

A world gives its ready tasks their turns in the order in which they became ready, and lets
time pass only when none is.  A runtime with several threads keeps no such order: any ready
task may go next, and tasks that wait may go on and time may pass while others are ready.
What steps keep is kept all the same, as long as it does not matter when tasks go on.
-/

namespace TraceReplay.Replay

/-! ## Tasks that wait go on -/

/-- Some tasks become ready, but none that is held. -/
def View.Wakes (f : Place × Task → Place × Task) : Prop :=
  ∀ x, f x = x ∨ x.1 ≠ .held ∧ f x = (.ready, x.2)

def View.shifted (f : Place × Task → Place × Task) (clock : Clock) (v : View) : View :=
  { v with clock := clock, standing := v.standing.map f }

def Track.shifted (f : Place × Task → Place × Task) (clock : Clock) (t : Track) : Track :=
  { t with clock := clock, standing := t.standing.map f }

namespace View

variable {f : Place × Task → Place × Task}

theorem Wakes.task (hwakes : Wakes f) (x : Place × Task) : (f x).2 = x.2 := by
  rcases hwakes x with hsame | ⟨-, hready⟩
  · rw [hsame]
  · rw [hready]

theorem wakes_id : Wakes id := fun _ => .inl rfl

theorem wakes_rouse : Wakes rouse := by
  rintro ⟨place, task⟩
  cases place with
  | deferred => exact .inr ⟨by simp, rfl⟩
  | _ => exact .inl rfl

theorem wakes_wakeAt (time : Nat) : Wakes (wakeAt time) := by
  rintro ⟨place, task⟩
  cases place with
  | asleep due =>
    simp only [wakeAt]
    split
    · exact .inr ⟨by simp, rfl⟩
    · exact .inl rfl
  | _ => exact .inl rfl

theorem Orderly.shifted {v : View} (horderly : v.Orderly) (hwakes : Wakes f) (clock : Clock) :
    (v.shifted f clock).Orderly := by
  refine horderly.map hwakes.task (fun x hallowed => ?_) clock
  rcases hwakes x with hsame | ⟨-, hready⟩
  · rwa [hsame]
  · rw [hready]
    exact hallowed.ready

theorem drivers_shifted (v : View) (hwakes : Wakes f) (clock : Clock) (index : Nat) :
    (v.shifted f clock).drivers index = v.drivers index := by
  simp only [drivers, shifted,
    countP_map_task hwakes.task (fun task => task.driving?.map (·.1) = some index)]

theorem track_shifted (v : View) (hwakes : Wakes f) (clock : Clock) (index : Nat) (lane : Lane) :
    (v.shifted f clock).track index lane = (v.track index lane).shifted f clock := by
  simp only [track, shifted, Track.shifted, ofLane_map hwakes.task]
  rfl

end View

namespace World

/-- No task has its turn: those that stood back go on, or time passes, up to the next timer
or until the next timers go off. -/
inductive Shifts (w : World) : World → Prop
  | rouse : Shifts w { w with ready := w.ready ++ w.deferred, deferred := [] }
  | pass {time : Nat} (hlater : w.clock.now ≤ time) (hbefore : ∀ timer ∈ w.timers, time < timer.1) :
      Shifts w { w with clock := { w.clock with now := time } }
  | wake {due : Nat} {task : Task} {rest : List (Nat × Task)}
      (htimers : w.timers = (due, task) :: rest) :
      Shifts w { w with
        clock := { w.clock with now := max w.clock.now due }
        ready := w.ready ++ (w.timers.takeWhile (·.1 = due)).map (·.2)
        timers := w.timers.dropWhile (·.1 = due) }

/-- Everything that can happen in a world, with the tasks that have had their turns, the
first one first. -/
inductive Runs (w : World) : List Task → World → Prop
  | start : Runs w [] w
  | turn {tasks : List Task} {u : World} {task : Task} {rest : List Task}
      (hbefore : Runs w tasks u) (hready : u.ready.Perm (task :: rest)) :
      Runs w (tasks ++ [task]) ({ u with ready := rest }.perform task)
  | shift {tasks : List Task} {u u' : World} (hbefore : Runs w tasks u) (hshifts : u.Shifts u') :
      Runs w tasks u'

/-- The order that a world keeps on its own is one of those there can be. -/
theorem Passes.runs {w u : World} (hpasses : w.Passes u) : ∃ tasks, w.Runs tasks u := by
  induction hpasses with
  | refl => exact ⟨[], .start⟩
  | @tail u u' _ hstep ih =>
    obtain ⟨tasks, hruns⟩ := ih
    rcases step?_cases hstep with ⟨task, rest, hready, rfl⟩ | ⟨hready, -, rfl⟩ |
      ⟨due, task, rest, hready, -, htimers, rfl⟩
    · exact ⟨_, hruns.turn (.of_eq hready)⟩
    · have hrouse := Shifts.rouse (w := u)
      rw [hready, List.nil_append] at hrouse
      exact ⟨_, hruns.shift hrouse⟩
    · have hwake := Shifts.wake htimers
      rw [hready, List.nil_append] at hwake
      exact ⟨_, hruns.shift hwake⟩

theorem view_reorder (w : World) {ready : List Task} (hready : w.ready.Perm ready) :
    { w with ready := ready }.view = w.view := by
  have hplaced : placed .ready ready = placed .ready w.ready :=
    Multiset.coe_eq_coe.mpr (hready.symm.map _)
  refine View.ext rfl ?_ rfl rfl rfl rfl rfl rfl rfl
  simp only [view, standing, hplaced]
  rfl

/-- All that a shift does to the view. -/
theorem Shifts.view {w w' : World} (hkept : Kept w) (hshifts : w.Shifts w') :
    ∃ f clock, View.Wakes f ∧ w'.view = w.view.shifted f clock := by
  cases hshifts with
  | rouse =>
    refine ⟨View.rouse, w.clock, View.wakes_rouse, View.ext rfl ?_ rfl rfl rfl rfl rfl rfl rfl⟩
    have hsleeping : (sleeping w.timers).map View.rouse = sleeping w.timers := by
      simp [sleeping, Function.comp_def, View.rouse]
    have hready : (placed .ready w.ready).map View.rouse = placed .ready w.ready :=
      map_placed (fun _ => rfl) _
    have hdeferred : (placed .deferred w.deferred).map View.rouse = placed .ready w.deferred :=
      map_placed (fun _ => rfl) _
    change ofLanes _ = (ofLanes _).map View.rouse
    rw [← ofLanes_map View.rouse_task]
    simp only [standing, Multiset.map_add, hsleeping, hready, hdeferred,
      map_heldTasks (f := View.rouse) (fun _ => rfl), placed_append, placed_nil, add_zero]
    rfl
  | @pass time =>
    refine ⟨id, { w.clock with now := time }, View.wakes_id, ?_⟩
    refine View.ext rfl ?_ rfl rfl rfl rfl rfl rfl rfl
    exact (Multiset.map_id _).symm
  | @wake due task rest htimers =>
    refine ⟨View.wakeAt due, { w.clock with now := max w.clock.now due }, View.wakes_wakeAt due,
      View.ext rfl ?_ rfl rfl rfl rfl rfl rfl rfl⟩
    have hready : (placed .ready w.ready).map (View.wakeAt due) = placed .ready w.ready :=
      map_placed (fun _ => rfl) _
    have hdeferred : (placed .deferred w.deferred).map (View.wakeAt due) =
        placed .deferred w.deferred := map_placed (fun _ => rfl) _
    change ofLanes _ = (ofLanes _).map (View.wakeAt due)
    rw [← ofLanes_map (View.wakeAt_task due)]
    simp only [standing, Multiset.map_add,
      map_sleeping hkept.sorted fun _ => hkept.first_due htimers, hready, hdeferred,
      map_heldTasks (f := View.wakeAt due) (fun _ => rfl), placed_append]
    congr 1
    change _ + placed .deferred w.deferred + _ + w.heldTasks = _
    abel

end World

theorem Kept.reorder {w : World} (hkept : Kept w) {ready : List Task}
    (hready : w.ready.Perm ready) : Kept { w with ready := ready } :=
  { hkept with collects := fun htold => hready.subset (hkept.collects htold) }

theorem Kept.shift {w w' : World} (hkept : Kept w) (hshifts : w.Shifts w') : Kept w' := by
  cases hshifts with
  | rouse =>
    exact { hkept with collects := fun htold => List.mem_append_left _ (hkept.collects htold) }
  | pass _ hbefore => exact { hkept with future := hbefore }
  | @wake due task rest htimers =>
    exact { hkept with
      collects := fun htold => List.mem_append_left _ (hkept.collects htold)
      sorted := hkept.sorted.sublist (List.dropWhile_sublist _)
      future := by
        intro timer htimer
        have hlater : w.clock.now < due := hkept.future (due, task) (by simp [htimers])
        simp only [Nat.max_eq_right hlater.le]
        exact World.later_of_mem_dropWhile hkept.sorted (fun _ => hkept.first_due htimers) htimer }

/-! ## Sound worlds -/

namespace Sound

variable {w w' : World}

/-- It does not matter in which order tasks are ready. -/
theorem reorder (hsound : Sound w) {ready : List Task} (hready : w.ready.Perm ready) :
    Sound { w with ready := ready } :=
  { hsound.toKept.reorder hready with
    orderly := w.view_reorder hready ▸ hsound.orderly
    single := w.view_reorder hready ▸ hsound.single }

/-- Any ready task may have its turn. -/
theorem turn (hsound : Sound w) {task : Task} {rest : List Task}
    (hready : w.ready.Perm (task :: rest)) :
    View.Turn task.driver? w.view ({ w with ready := rest }.perform task).view ∧
      Sound ({ w with ready := rest }.perform task) := by
  obtain ⟨hturn, hkept⟩ := (hsound.reorder hready).perform rfl
  rw [w.view_reorder hready] at hturn
  exact ⟨hturn, hsound.of_turn hturn hkept⟩

theorem shift (hsound : Sound w) (hshifts : w.Shifts w') : Sound w' := by
  obtain ⟨f, clock, hwakes, hview⟩ := hshifts.view hsound.toKept
  exact { hsound.toKept.shift hshifts with
    orderly := hview ▸ hsound.orderly.shifted hwakes clock
    single := fun index => by
      rw [hview, View.drivers_shifted _ hwakes]
      exact hsound.single index }

/-- What holds at first and is kept by turns and shifts holds of whatever can happen. -/
theorem runs (hsound : Sound w) {P : List Task → World → Prop} (hstart : P [] w)
    (hturn : ∀ {tasks u task rest}, Sound u → u.ready.Perm (task :: rest) → P tasks u →
      P (tasks ++ [task]) ({ u with ready := rest }.perform task))
    (hshift : ∀ {tasks u u'}, Sound u → u.Shifts u' → P tasks u → P tasks u')
    {tasks : List Task} (hruns : w.Runs tasks w') : Sound w' ∧ P tasks w' := by
  induction hruns with
  | start => exact ⟨hsound, hstart⟩
  | turn _ hready ih => exact ⟨(ih.1.turn hready).2, hturn ih.1 hready ih.2⟩
  | shift _ hshifts ih => exact ⟨ih.1.shift hshifts, hshift ih.1 hshifts ih.2⟩

end Sound

/-- What steps of a track keep, and shifts as well. -/
structure Track.Lasting (index : Nat) (P : Track → Prop) : Prop where
  step : ∀ {t t' own}, t.Orderly index → P t → Track.Step index own t t' → P t'
  shift : ∀ {t f}, View.Wakes f → ∀ clock, P t → P (t.shifted f clock)

theorem Sound.hasTrack_turn {w : World} (hsound : Sound w) {index : Nat} {P : Track → Prop}
    (hlasting : Track.Lasting index P) (htrack : w.HasTrack index P) {task : Task}
    {rest : List Task} (hready : w.ready.Perm (task :: rest)) :
    ({ w with ready := rest }.perform task).HasTrack index P := by
  obtain ⟨lane, hlane, hP⟩ := htrack
  exact (hsound.turn hready).1.track hsound.orderly hlane hP
    (fun _ _ hstep => hlasting.step (hsound.orderly.track _ _) hP hstep)
    fun horderly hP hstep => hlasting.step (horderly.track _ _) hP hstep

theorem Sound.hasTrack_shift {w w' : World} (hsound : Sound w) {index : Nat} {P : Track → Prop}
    (hlasting : Track.Lasting index P) (htrack : w.HasTrack index P) (hshifts : w.Shifts w') :
    w'.HasTrack index P := by
  obtain ⟨lane, hlane, hP⟩ := htrack
  obtain ⟨f, clock, hwakes, hview⟩ := hshifts.view hsound.toKept
  rw [World.HasTrack, hview]
  refine ⟨lane, hlane, ?_⟩
  rw [View.track_shifted _ hwakes]
  exact hlasting.shift hwakes clock hP

/-- What lasts in a track lasts in whatever order the tasks have their turns. -/
theorem Sound.hasTrack_runs {w u : World} (hsound : Sound w) {index : Nat} {P : Track → Prop}
    (hlasting : Track.Lasting index P) (htrack : w.HasTrack index P) {tasks : List Task}
    (hruns : w.Runs tasks u) : u.HasTrack index P :=
  (hsound.runs (P := fun _ u => u.HasTrack index P) htrack
    (fun hsound hready htrack => hsound.hasTrack_turn hlasting htrack hready)
    (fun hsound hshifts htrack => hsound.hasTrack_shift hlasting htrack hshifts) hruns).2

end TraceReplay.Replay
