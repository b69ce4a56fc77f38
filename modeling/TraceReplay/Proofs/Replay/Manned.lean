import TraceReplay.Proofs.Replay.Track

/-!
# Manned lanes

A lane that was started with a driver has that one driver, and all its invocations are
the driver's own.  The driver reports after the last of them, so its report is final.
-/

namespace TraceReplay.Replay

namespace Track

/-- Tasks of a lane stand where they may. -/
structure Orderly (index : Nat) (t : Track) : Prop where
  allowed : ∀ x ∈ t.standing, View.Allowed x.1 x.2
  own : ∀ x ∈ t.standing, x.2.lane? = some index

/-- Invocations of the lane, those of no driver. -/
def invocations (t : Track) : Nat := t.standing.countP fun x => x.2.driving? = none

structure Manned (index : Nat) (t : Track) : Prop where
  /-- The driver stands somewhere or has ended. -/
  one : t.standing.countP (fun x => x.2.driving? ≠ none) + t.finished.length = 1
  flight : t.lane.inFlight = t.invocations
  landed : ∀ place s, (place, .drive index .drained s) ∈ t.standing → place ≠ .held →
    t.lane.inFlight = 0
  counted : ∀ x ∈ t.standing, ∀ lane point s, x.2.driving? = some (lane, point, s) →
    s.issued = t.issues.length
  /-- A report is final. -/
  ended : ∀ finish ∈ t.finished, ∀ r, finish.result = .ok r → t.lane.inFlight = 0 ∧
    r.successful = t.lane.counters.successful ∧ r.failed = t.lane.counters.failed ∧
    r.issued = t.issues.length

end Track

theorem View.Orderly.track {v : View} (horderly : v.Orderly) (index : Nat) (lane : Lane) :
    (v.track index lane).Orderly index where
  allowed x hx := horderly.allowed x (mem_ofLane.mp hx).1
  own _ hx := (mem_ofLane.mp hx).2

namespace Track

variable {index : Nat} {t : Track}

theorem Orderly.first (horderly : t.Orderly index) {place : Place} {task : Task}
    {rest : Standing} (hstanding : t.standing = (place, task) ::ₘ rest) :
    View.Allowed place task ∧ task.lane? = some index :=
  ⟨horderly.allowed (place, task) (by rw [hstanding]; exact Multiset.mem_cons_self _ _),
    horderly.own (place, task) (by rw [hstanding]; exact Multiset.mem_cons_self _ _)⟩

namespace Manned

/-- While the driver stands somewhere, no other does and none has ended. -/
theorem alone (hmanned : t.Manned index) {x : Place × Task} {rest : Standing}
    (hstanding : t.standing = x ::ₘ rest) (hdriver : x.2.driving? ≠ none) :
    (∀ y ∈ rest, y.2.driving? = none) ∧ t.finished = [] := by
  have hone := hmanned.one
  rw [hstanding, Multiset.countP_cons, if_pos hdriver] at hone
  constructor
  · have hzero : rest.countP (fun x => x.2.driving? ≠ none) = 0 := by omega
    intro y hy
    by_contra hy'
    exact Multiset.countP_eq_zero.mp hzero y hy hy'
  · exact List.length_eq_zero_iff.mp (by omega)

/-- The lane has one driver only. -/
theorem same (hmanned : t.Manned index) {point point' : Driver.Point} {s s' : Driver.State}
    {rest rest' : Standing} (hstanding : t.standing = (.ready, .drive index point s) ::ₘ rest)
    (hstanding' : t.standing = (.ready, .drive index point' s') ::ₘ rest') :
    (point, s) = (point', s') := by
  by_contra hne
  have hother : (.ready, .drive index point' s') ∈ rest := by
    have hmem : ((.ready, .drive index point' s') : Place × Task) ∈ t.standing := by
      simp [hstanding']
    rw [hstanding] at hmem
    refine (Multiset.mem_cons.mp hmem).resolve_left fun heq => hne ?_
    simp only [Prod.mk.injEq, Task.drive.injEq, true_and] at heq
    rw [heq.1, heq.2]
  exact absurd ((hmanned.alone hstanding (by simp [Task.driving?])).1 _ hother)
    (by simp [Task.driving?])

/-- An invocation is in flight as long as it stands somewhere. -/
theorem busy (hmanned : t.Manned index) {x : Place × Task} {rest : Standing}
    (hstanding : t.standing = x ::ₘ rest) (hinvocation : x.2.driving? = none) :
    t.lane.inFlight ≠ 0 := by
  rw [hmanned.flight, invocations, hstanding, Multiset.countP_cons, if_pos hinvocation]
  omega

/-- Nothing stands in a lane that has reported. -/
theorem standing_eq_zero (hmanned : t.Manned index) {finish : Finish}
    (hfinish : finish ∈ t.finished) {r : Driver.Report} (hresult : finish.result = .ok r) :
    t.standing = 0 := by
  have hone := hmanned.one
  have hended := List.length_pos_of_mem hfinish
  have hdriver : t.standing.countP (fun x => x.2.driving? ≠ none) = 0 := by omega
  have hflight : t.invocations = 0 :=
    hmanned.flight.symm.trans (hmanned.ended finish hfinish r hresult).1
  refine Multiset.eq_zero_of_forall_notMem fun x hx => ?_
  by_cases hnone : x.2.driving? = none
  · exact Multiset.countP_eq_zero.mp hflight x hx hnone
  · exact Multiset.countP_eq_zero.mp hdriver x hx hnone

/-- A track with its driver and invocations. -/
theorem ofDriver {x : Place × Task} {rest : Standing} {point : Driver.Point} {s : Driver.State}
    (hstanding : t.standing = x ::ₘ rest) (hrest : ∀ y ∈ rest, y.2.driving? = none)
    (hx : x.2.driving? = some (index, point, s)) (hfinished : t.finished = [])
    (hflight : t.lane.inFlight = Multiset.card rest)
    (hlanded : point = .drained → x.1 ≠ .held → t.lane.inFlight = 0)
    (hissued : s.issued = t.issues.length) : t.Manned index where
  one := by
    rw [hstanding, Multiset.countP_cons_of_pos _ (by simp [hx]), hfinished,
      Multiset.countP_eq_zero.mpr fun y hy => by simp [hrest y hy]]
    rfl
  flight := by
    rw [invocations, hstanding, Multiset.countP_cons_of_neg _ (by simp [hx]), hflight,
      Multiset.countP_eq_card.mpr hrest]
  landed place other hmem hplace := by
    rw [hstanding] at hmem
    rcases Multiset.mem_cons.mp hmem with heq | hmem
    · subst heq
      simp only [Task.driving?, Option.some.injEq, Prod.mk.injEq, true_and] at hx
      exact hlanded hx.1.symm hplace
    · exact absurd (hrest _ hmem) (by simp [Task.driving?])
  counted y hy lane other state hdriving := by
    rw [hstanding] at hy
    rcases Multiset.mem_cons.mp hy with rfl | hmem
    · rw [hx] at hdriving
      simp only [Option.some.injEq, Prod.mk.injEq] at hdriving
      rw [← hdriving.2.2, hissued]
    · rw [hrest y hmem] at hdriving
      exact absurd hdriving (by simp)
  ended := by simp [hfinished]

/-- A task takes the place of another that is as much a driver as itself. -/
theorem replace (hmanned : t.Manned index) {x y : Place × Task} {rest : Standing}
    (hstanding : t.standing = x ::ₘ rest) (hsame : y.2.driving? = x.2.driving?)
    (hlanded : ∀ s, y.2 ≠ .drive index .drained s) :
    Manned index { t with standing := y ::ₘ rest } where
  one := by
    have hone := hmanned.one
    simp only [hstanding, Multiset.countP_cons, hsame] at hone ⊢
    exact hone
  flight := by
    have hflight := hmanned.flight
    simp only [invocations, hstanding, Multiset.countP_cons, hsame] at hflight ⊢
    exact hflight
  landed place s hmem hplace := by
    rcases Multiset.mem_cons.mp hmem with rfl | hmem
    · exact absurd rfl (hlanded s)
    · exact hmanned.landed place s (by rw [hstanding]; exact Multiset.mem_cons_of_mem hmem) hplace
  counted z hz lane point s hdriving := by
    rcases Multiset.mem_cons.mp hz with rfl | hmem
    · exact hmanned.counted x (by rw [hstanding]; exact Multiset.mem_cons_self _ _) lane point s
        (by rw [← hsame, hdriving])
    · exact hmanned.counted z (by rw [hstanding]; exact Multiset.mem_cons_of_mem hmem) lane point s
        hdriving
  ended := hmanned.ended

/-- The driver has its turn while nothing is left of it but what it asks for. -/
theorem move {point : Driver.Point} {s : Driver.State} {move : Driver.Move}
    (hrest : ∀ y ∈ t.standing, y.2.driving? = none) (hfinished : t.finished = [])
    (hflight : t.lane.inFlight = Multiset.card t.standing) (hleads : move.Leads point)
    (hissued : (∃ error, move = .fail error) ∨ s.issued = t.issues.length)
    (hreport : ∀ r, move = .finish r → t.lane.inFlight = 0 ∧
      r.successful = t.lane.counters.successful ∧ r.failed = t.lane.counters.failed ∧
      r.issued = t.issues.length) : Manned index (t.move index s move) := by
  have hnone : t.standing.countP (fun x => x.2.driving? ≠ none) = 0 :=
    Multiset.countP_eq_zero.mpr fun y hy => by simp [hrest y hy]
  have hall : t.invocations = Multiset.card t.standing := Multiset.countP_eq_card.mpr hrest
  have hcounted (hgoes : ∀ error, move ≠ .fail error) : s.issued = t.issues.length :=
    hissued.resolve_left fun ⟨error, hfails⟩ => hgoes error hfails
  cases move with
  | proceed next =>
    refine ofDriver rfl hrest rfl hfinished hflight (fun hdrained => ?_) (hcounted (by simp))
    rcases hleads with rfl | rfl | ⟨gap, rfl⟩ <;> exact Driver.Point.noConfusion hdrained
  | sleep micros next =>
    refine ofDriver rfl hrest rfl hfinished hflight (fun hdrained => ?_) (hcounted (by simp))
    rcases hleads.2 with rfl | ⟨gap, rfl⟩ <;> exact Driver.Point.noConfusion hdrained
  | yield next =>
    refine ofDriver rfl hrest rfl hfinished hflight (fun hdrained => ?_) (hcounted (by simp))
    obtain rfl : next = .check := hleads
    exact Driver.Point.noConfusion hdrained
  | deliver pair next =>
    refine ofDriver rfl hrest rfl hfinished hflight (fun hdrained => ?_) (hcounted (by simp))
    obtain rfl : next = .stored := hleads
    exact Driver.Point.noConfusion hdrained
  | launch dispatch next =>
    refine ofDriver rfl (fun y hy => ?_) rfl hfinished ?_ (fun hdrained => ?_)
      (hcounted (by simp))
    · rcases Multiset.mem_cons.mp hy with rfl | hmem
      · rfl
      · exact hrest y hmem
    · exact (congrArg (· + 1) hflight).trans (Multiset.card_cons _ _).symm
    · obtain rfl : next = .advance := hleads
      exact Driver.Point.noConfusion hdrained
  | await next =>
    refine ofDriver rfl hrest rfl hfinished hflight (fun _ hplace => ?_) (hcounted (by simp))
    by_contra hbusy
    exact hplace (if_neg hbusy)
  | finish report =>
    exact {
      one := by simp [Track.move, hnone, hfinished]
      flight := hflight.trans hall.symm
      landed := fun place s hmem => absurd (hrest _ hmem) (by simp [Task.driving?])
      counted := fun x hx lane point s hdriving => absurd (hrest x hx) (by simp [hdriving])
      ended := fun finish hmem r hresult => by
        simp only [Track.move, hfinished, List.mem_singleton] at hmem
        subst hmem
        exact hreport r (by rw [Except.ok.inj hresult]) }
  | fail error =>
    exact {
      one := by simp [Track.move, hnone, hfinished]
      flight := hflight.trans hall.symm
      landed := fun place s hmem => absurd (hrest _ hmem) (by simp [Task.driving?])
      counted := fun x hx lane point s hdriving => absurd (hrest x hx) (by simp [hdriving])
      ended := fun finish hmem r hresult => by
        simp only [Track.move, hfinished, List.mem_singleton] at hmem
        subst hmem
        exact absurd hresult (by simp) }

/-- The turn of the driver. -/
theorem drive (hmanned : t.Manned index) {point : Driver.Point} {s : Driver.State}
    {rest : Standing} (hstanding : t.standing = (.ready, .drive index point s) ::ₘ rest) :
    Manned index ({ t with standing := rest }.drive index
      (Driver.turn t.lane.plan t.clock t.lane.counters point s)) := by
  obtain ⟨hrest, hfinished⟩ := hmanned.alone hstanding (by simp [Task.driving?])
  have hflight : t.lane.inFlight = Multiset.card rest := by
    rw [hmanned.flight, invocations, hstanding,
      Multiset.countP_cons_of_neg _ (by simp [Task.driving?]), Multiset.countP_eq_card.mpr hrest]
  have hcounted : s.issued = t.issues.length :=
    hmanned.counted _ (by rw [hstanding]; exact Multiset.mem_cons_self _ _) index point s rfl
  refine move hrest hfinished hflight
    (Driver.turn_leads t.lane.plan t.clock t.lane.counters point s) ?_ ?_
  · rw [List.length_append, ← hcounted]
    exact Driver.turn_issued t.lane.plan t.clock t.lane.counters point s
  · intro r hmove
    obtain ⟨rfl, rfl⟩ := Driver.turn_finish hmove
    refine ⟨hmanned.landed .ready s (by rw [hstanding]; exact Multiset.mem_cons_self _ _)
      (by simp), rfl, rfl, ?_⟩
    simpa [Driver.turn, Driver.report] using hcounted

theorem map (hmanned : t.Manned index) {f : Place × Task → Place × Task}
    (htask : ∀ x, (f x).2 = x.2) (hheld : ∀ x, (f x).1 ≠ .held → x.1 ≠ .held) (clock : Clock) :
    Manned index { t with clock := clock, standing := t.standing.map f } where
  one := by
    have hone := hmanned.one
    rwa [← View.countP_map_task htask (fun task => task.driving? ≠ none)] at hone
  flight := by
    have hflight := hmanned.flight
    rwa [invocations, ← View.countP_map_task htask (fun task => task.driving? = none)] at hflight
  landed place s hmem hplace := by
    obtain ⟨x, hx, hfx⟩ := Multiset.mem_map.mp hmem
    have htaskx : x.2 = .drive index .drained s := by rw [← htask x, hfx]
    exact hmanned.landed x.1 s (by rw [← htaskx]; exact hx) (hheld x (by rw [hfx]; exact hplace))
  counted y hy lane point s hdriving := by
    obtain ⟨x, hx, rfl⟩ := Multiset.mem_map.mp hy
    exact hmanned.counted x hx lane point s (by rw [← htask x, hdriving])
  ended := hmanned.ended

/-- Whatever happens to a manned lane, it stays manned. -/
theorem step (hmanned : t.Manned index) (horderly : t.Orderly index) {t' : Track}
    {own : Bool} (hstep : t.Step index own t') : t'.Manned index := by
  cases hstep with
  | drive hstanding => exact hmanned.drive hstanding
  | proceed hstanding hproceeds =>
    obtain ⟨htask, hx⟩ := hproceeds.driving?
    refine hmanned.replace hstanding (hx.trans htask.symm) fun s hdrive => ?_
    simp [hdrive, Task.driving?] at hx
  | answer hstanding => exact hmanned.replace hstanding rfl (by simp)
  | panic hstanding => exact hmanned.replace hstanding rfl (by simp)
  | @publish _ dispatch outcome rest hstanding =>
    have hreplaced : Manned index { t with standing :=
        (.ready, .storeRecord index (dispatch.label outcome) (.release index)) ::ₘ rest } :=
      hmanned.replace hstanding rfl (by simp)
    exact { hreplaced with
      ended := fun finish hmem r hresult =>
        absurd (hmanned.ended finish hmem r hresult).1 (hmanned.busy hstanding rfl) }
  | deliver hstanding _ hdelivers =>
    have hallowed := (horderly.first hstanding).1
    cases hdelivers with
    | record => exact hmanned.replace hstanding rfl (by simp)
    | job => exact hmanned.replace hstanding rfl (hallowed.2.ne_drained index)
    | lost => exact hmanned.replace hstanding rfl (hallowed.2.ne_drained index)
    | waits hstore =>
      refine hmanned.replace hstanding rfl fun s hdrive => ?_
      simp only at hdrive
      simp [hdrive, View.isStore] at hstore
  | release hstanding =>
    have hbusy := hmanned.busy hstanding rfl
    exact {
      one := by simpa [hstanding, Task.driving?] using hmanned.one
      flight := by
        have hflight := hmanned.flight
        simp only [invocations, hstanding, Multiset.countP_cons, Task.driving?, if_true] at hflight
        simp only [invocations]
        omega
      landed := fun place s hmem hplace => absurd
        (hmanned.landed place s (by rw [hstanding]; exact Multiset.mem_cons_of_mem hmem) hplace)
        hbusy
      counted := fun x hx => hmanned.counted x (by rw [hstanding]; exact Multiset.mem_cons_of_mem hx)
      ended := fun finish hmem r hresult =>
        absurd (hmanned.ended finish hmem r hresult).1 hbusy }
  | resume hstanding hlast =>
    have hswapped := hstanding.trans (Multiset.cons_swap _ _ _)
    obtain ⟨hrest, hfinished⟩ := hmanned.alone hswapped (by simp [Task.driving?])
    refine ofDriver rfl (fun y hy => hrest y (Multiset.mem_cons_of_mem hy)) rfl hfinished ?_
      (fun _ _ => hlast)
      (hmanned.counted _ (by rw [hswapped]; exact Multiset.mem_cons_self _ _) index _ _ rfl)
    have hflight := hmanned.flight
    rw [invocations, hswapped, Multiset.countP_cons_of_neg _ (by simp [Task.driving?]),
      Multiset.countP_eq_card.mpr hrest, Multiset.card_cons] at hflight
    simp only
    omega
  | rouse =>
    refine hmanned.map View.rouse_task (fun x hplace => ?_) t.clock
    obtain ⟨place, task⟩ := x
    cases place <;> simp_all [View.rouse]
  | tick =>
    refine hmanned.map (View.wakeAt_task _) (fun x hplace => ?_) _
    obtain ⟨place, task⟩ := x
    cases place <;> simp_all [View.wakeAt]

end Manned
/-! ## Waiting drivers -/

/-- The driver does not get on, and nothing makes it go on later than it would have. -/
structure Onward (t t' : Track) : Prop where
  driver : ∀ x ∈ t'.standing, ∀ lane point s, x.2.driving? = some (lane, point, s) →
    ∃ y ∈ t.standing, y.2.driving? = some (lane, point, s) ∧
      (y.1.time t.clock.now = x.1.time t'.clock.now ∨ point = .drained)
  plan : t'.lane.plan = t.lane.plan
  issues : t'.issues = t.issues
  finished : t'.finished = t.finished

/-- A driver delivers records without losing time. -/
theorem Delivers.driving? {task : Task} {x : Place × Task} (hdelivers : Delivers task x)
    (now : Nat) : x.2.driving? = task.driving? ∧ x.1.time now = now := by
  cases hdelivers <;> exact ⟨rfl, rfl⟩

/-- A task takes the place of another that is the same driver at the same time, or is none. -/
theorem Onward.replace {x y : Place × Task} {rest : Standing} (hstanding : t.standing = x ::ₘ rest)
    (hdriving : y.2.driving? = none ∨
      x.2.driving? = y.2.driving? ∧ x.1.time t.clock.now = y.1.time t.clock.now)
    {lane : Lane} (hplan : lane.plan = t.lane.plan) :
    t.Onward { t with lane := lane, standing := y ::ₘ rest } := by
  refine ⟨fun z hz lane point s hz' => ?_, hplan, rfl, rfl⟩
  rcases Multiset.mem_cons.mp hz with rfl | hmem
  · rcases hdriving with hnone | ⟨hsame, htime⟩
    · exact absurd hz' (by simp [hnone])
    · exact ⟨x, by simp [hstanding], hsame.trans hz', .inl htime⟩
  · exact ⟨z, by rw [hstanding]; exact Multiset.mem_cons_of_mem hmem, hz', .inl rfl⟩

/-- Only its own turns get a driver on. -/
theorem Step.onward (horderly : t.Orderly index) {t' : Track} (hstep : Step index false t t') :
    t.Onward t' := by
  cases hstep with
  | proceed hstanding hproceeds => exact .replace hstanding (.inl hproceeds.driving?.2) rfl
  | answer hstanding => exact .replace hstanding (.inl rfl) rfl
  | panic hstanding => exact .replace hstanding (.inl rfl) rfl
  | publish hstanding => exact .replace hstanding (.inl rfl) rfl
  | @deliver _ place task x rest hstanding hplace hdelivers =>
    have hnow : place.time t.clock.now = t.clock.now := by rcases hplace with rfl | rfl <;> rfl
    obtain ⟨hsame, htime⟩ := hdelivers.driving? t.clock.now
    exact .replace hstanding (.inr ⟨hsame.symm, hnow.trans htime.symm⟩) rfl
  | release hstanding =>
    refine ⟨fun x hx lane point s hdriving => ?_, rfl, rfl, rfl⟩
    exact ⟨x, by rw [hstanding]; exact Multiset.mem_cons_of_mem hx, hdriving, .inl rfl⟩
  | resume hstanding =>
    refine ⟨fun x hx lane point s hdriving => ?_, rfl, rfl, rfl⟩
    rcases Multiset.mem_cons.mp hx with rfl | hmem
    · exact ⟨(.held, _), by rw [hstanding]; simp, hdriving, .inl rfl⟩
    · exact ⟨x, by rw [hstanding]; simp [hmem], hdriving, .inl rfl⟩
  | rouse =>
    refine ⟨fun x hx lane point s hdriving => ?_, rfl, rfl, rfl⟩
    obtain ⟨y, hy, rfl⟩ := Multiset.mem_map.mp hx
    refine ⟨y, hy, (View.rouse_task y) ▸ hdriving, .inl ?_⟩
    obtain ⟨place, task⟩ := y
    cases place <;> rfl
  | @tick _ time hready hdeferred hdue hstores hlater =>
    refine ⟨fun x hx lane point s hdriving => ?_, rfl, rfl, rfl⟩
    obtain ⟨y, hy, rfl⟩ := Multiset.mem_map.mp hx
    rw [View.wakeAt_task] at hdriving
    refine ⟨y, hy, hdriving, ?_⟩
    obtain ⟨place, task⟩ := y
    cases place with
    | ready => exact absurd rfl (hready _ hy)
    | deferred => exact absurd rfl (hdeferred _ hy)
    | asleep due =>
      left
      simp only [View.wakeAt]
      split
      · rename_i hwakes
        exact hwakes
      · rfl
    | held =>
      -- Only a driver that is done with its trace is held while time passes.
      right
      exact (horderly.allowed _ hy).drained (hstores _ hy) hdriving

end Track
end TraceReplay.Replay
