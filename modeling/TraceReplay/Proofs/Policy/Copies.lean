import TraceReplay.Policy.Assignment
import Mathlib

/-!
# Drivers of serverful copies

Of a list of serverful copies every `replicas`-th function gets a driver, whichever logical
function it belongs to.  If every logical function has `replicas` copies, there are as many
drivers as logical functions.  Each of these has one if and only if no two driven places hold
copies of the same function: so it is if the copies of each function stand together, and not
in every order.
-/

namespace TraceReplay

/-- The logical functions that the assigned drivers drive, assignment by assignment. -/
def drivenNames (functions : List Function) (grouping : SiblingGrouping) : List (Option String) :=
  (assignDrivers functions grouping).map fun assignment =>
    functions[assignment.index]?.map Function.logicalName

/-- The logical functions of a list, each of them once. -/
def logicalNames (functions : List Function) : List String :=
  (functions.map Function.logicalName).dedup

/-- Every logical function has exactly one driver, and there are no other drivers. -/
def DrivesEachOnce (functions : List Function) (grouping : SiblingGrouping) : Prop :=
  (drivenNames functions grouping).Perm ((logicalNames functions).map some)

instance (functions : List Function) (grouping : SiblingGrouping) :
    Decidable (DrivesEachOnce functions grouping) :=
  inferInstanceAs (Decidable (List.Perm _ _))

/-- Every logical function of the list has `replicas` copies in it. -/
def Copied (functions : List Function) (replicas : Nat) : Prop :=
  ∀ f ∈ functions, functions.countP (fun g => g.logicalName = f.logicalName) = replicas

section Places

variable {functions : List Function} {replicas : Nat}

/-- Drivers are started at the places `replicas` divides. -/
theorem index_serverfulCopies (functions : List Function) (hpos : 0 < replicas) :
    (assignDrivers functions (.serverfulCopies replicas)).map (·.index) =
      (List.range functions.length).filter (· % replicas = 0) := by
  have hplaces : List.range functions.length = functions.zipIdx.map Prod.snd := by
    rw [List.zipIdx_map_snd, List.range_eq_range']
  have hassigned : assignDrivers functions (.serverfulCopies replicas) =
      functions.zipIdx.filterMap fun x => if x.2 % max replicas 1 = 0 then
        some ⟨x.2, (Groups.ofList functions).members x.1.logicalName⟩ else none := by
    simp [assignDrivers, SiblingGrouping.drives]
  rw [hassigned, hplaces, List.filter_map, ← List.filterMap_eq_filter, List.map_filterMap,
    List.map_filterMap, Nat.max_eq_left (Nat.succ_le_of_lt hpos)]
  congr 1
  funext x
  by_cases hdriven : x.2 % replicas = 0 <;> simp [hdriven]

/-- Of the places of as many copies as `count` groups have, every `replicas`-th is driven. -/
theorem filter_range_mul (hpos : 0 < replicas) (count : Nat) :
    (List.range (replicas * count)).filter (· % replicas = 0) =
      (List.range count).map (replicas * ·) := by
  induction count with
  | zero => rfl
  | succ count ih =>
    have hgroup : (List.range replicas).filter
        (fun place => (replicas * count + place) % replicas = 0) = [0] := by
      obtain ⟨others, rfl⟩ := Nat.exists_eq_add_of_le' hpos
      rw [List.range_succ_eq_map, List.filter_cons_of_pos (by simp)]
      refine congrArg _ (List.filter_eq_nil_iff.mpr fun place hmem => ?_)
      obtain ⟨other, hother, rfl⟩ := List.mem_map.mp hmem
      have hless : other + 1 < others + 1 := by simpa using hother
      simp [Nat.mod_eq_of_lt hless]
    have hrest : ((List.range replicas).map (replicas * count + ·)).filter (· % replicas = 0) =
        [replicas * count] := by
      rw [List.filter_map]
      exact congrArg (List.map (replicas * count + ·)) hgroup
    rw [Nat.mul_succ, List.range_add, List.filter_append, ih, hrest, List.range_succ,
      List.map_append, List.map_singleton]

/-- A list of copies is made of as many groups as it has logical functions. -/
theorem Copied.length_eq (hcopied : Copied functions replicas) :
    functions.length = replicas * (logicalNames functions).length := by
  have hcount : ∀ name ∈ logicalNames functions,
      (functions.map Function.logicalName).count name = replicas := by
    intro name hname
    obtain ⟨f, hf, rfl⟩ := List.mem_map.mp (List.mem_dedup.mp hname)
    rw [List.count, List.countP_map]
    exact hcopied f hf
  have hsum := (functions.map Function.logicalName).sum_map_count_dedup_eq_length
  have hsame : ((logicalNames functions).map fun name =>
      (functions.map Function.logicalName).count name).sum =
        (logicalNames functions).length * replicas := by
    rw [List.map_congr_left hcount, List.map_const', List.sum_replicate, smul_eq_mul]
  rw [Nat.mul_comm, ← hsame, logicalNames, hsum, List.length_map]

/-- The driven functions of a list of copies are those at every `replicas`-th place. -/
theorem drivenNames_of_length (hpos : 0 < replicas) {count : Nat}
    (hlength : functions.length = replicas * count) :
    drivenNames functions (.serverfulCopies replicas) =
      (List.range count).map fun group => functions[replicas * group]?.map Function.logicalName := by
  have hindex := index_serverfulCopies functions hpos
  rw [hlength, filter_range_mul hpos] at hindex
  have hdriven : drivenNames functions (.serverfulCopies replicas) =
      ((assignDrivers functions (.serverfulCopies replicas)).map (·.index)).map
        fun index => functions[index]?.map Function.logicalName := by
    rw [List.map_map]
    rfl
  rw [hdriven, hindex, List.map_map]
  rfl

/-- As many drivers as logical functions drive each of them once if none is driven twice. -/
theorem drivesEachOnce_iff_nodup (hpos : 0 < replicas) (hcopied : Copied functions replicas) :
    DrivesEachOnce functions (.serverfulCopies replicas) ↔
      (drivenNames functions (.serverfulCopies replicas)).Nodup := by
  have hlength := hcopied.length_eq
  rw [DrivesEachOnce, drivenNames_of_length hpos hlength]
  constructor
  · intro hperm
    exact hperm.nodup_iff.mpr ((List.nodup_dedup _).map (Option.some_injective _))
  · intro hnodup
    refine (hnodup.subperm fun name hname => ?_).perm_of_length_le (by simp)
    obtain ⟨group, hgroup, rfl⟩ := List.mem_map.mp hname
    have hplace : replicas * group < functions.length := by
      rw [hlength]
      exact Nat.mul_lt_mul_of_pos_left (List.mem_range.mp hgroup) hpos
    rw [List.getElem?_eq_getElem hplace, Option.map_some]
    exact List.mem_map_of_mem (List.mem_dedup.mpr (List.mem_map_of_mem (List.getElem_mem hplace)))

/-- If the copies of each function stand together it is driven once. -/
theorem drivesEachOnce_of_blocks (hpos : 0 < replicas) {names : List String}
    (hdistinct : names.Nodup)
    (hblocks : functions.map Function.logicalName = names.flatMap (List.replicate replicas)) :
    DrivesEachOnce functions (.serverfulCopies replicas) := by
  have hlength : functions.length = replicas * names.length := by
    simpa [List.length_flatMap, Nat.mul_comm] using congrArg List.length hblocks
  have hfirst (names : List String) (group : Nat) :
      (names.flatMap (List.replicate replicas))[replicas * group]? = names[group]? := by
    induction names generalizing group with
    | nil => rfl
    | cons name names ih =>
      cases group with
      | zero => simp [hpos]
      | succ group =>
        rw [List.flatMap_cons, Nat.mul_succ, List.getElem?_append_right (by simp)]
        simpa using ih group
  have hdriven : drivenNames functions (.serverfulCopies replicas) = names.map some := by
    rw [drivenNames_of_length hpos hlength]
    simp only [← List.getElem?_map, hblocks, hfirst]
    refine List.ext_getElem (by simp) fun group hgroup hgroup' => ?_
    rw [List.length_map] at hgroup'
    simp [hgroup']
  have hnames : names.Perm (logicalNames functions) := by
    refine (List.perm_ext_iff_of_nodup hdistinct (List.nodup_dedup _)).mpr fun name => ?_
    rw [List.mem_dedup, hblocks, List.mem_flatMap]
    simp [List.mem_replicate, hpos.ne']
  rw [DrivesEachOnce, hdriven]
  exact hnames.map some

/-- If every logical function has `replicas` copies there are as many drivers as logical
functions, and each of these has one driver exactly if no two driven places hold copies of
the same function. -/
theorem drivesEachOnce_iff_places (hpos : 0 < replicas) (hcopied : Copied functions replicas) :
    (assignDrivers functions (.serverfulCopies replicas)).length =
        (logicalNames functions).length ∧
      (DrivesEachOnce functions (.serverfulCopies replicas) ↔
        ∀ group other f g, functions[replicas * group]? = some f →
          functions[replicas * other]? = some g → f.logicalName = g.logicalName →
            group = other) := by
  have hdriven := drivenNames_of_length hpos hcopied.length_eq
  constructor
  · simpa [drivenNames] using congrArg List.length hdriven
  rw [drivesEachOnce_iff_nodup hpos hcopied, hdriven]
  have hplace {group : Nat} (hgroup : group < (logicalNames functions).length) :
      ∃ f, functions[replicas * group]? = some f := by
    refine ⟨_, List.getElem?_eq_getElem ?_⟩
    rw [hcopied.length_eq]
    exact Nat.mul_lt_mul_of_pos_left hgroup hpos
  have hgroup {group : Nat} {f : Function} (hf : functions[replicas * group]? = some f) :
      group < (logicalNames functions).length := by
    have hless := (List.getElem?_eq_some_iff.mp hf).1
    rw [hcopied.length_eq] at hless
    exact Nat.lt_of_mul_lt_mul_left hless
  rw [List.nodup_map_iff_inj_on List.nodup_range]
  constructor
  · intro hinjective group other f g hf hg hsame
    refine hinjective group (List.mem_range.mpr (hgroup hf)) other
      (List.mem_range.mpr (hgroup hg)) ?_
    rw [hf, hg, Option.map_some, Option.map_some, hsame]
  · intro hplaces group hmem other hmem' hsame
    obtain ⟨f, hf⟩ := hplace (List.mem_range.mp hmem)
    obtain ⟨g, hg⟩ := hplace (List.mem_range.mp hmem')
    rw [hf, hg] at hsame
    exact hplaces group other f g hf hg (Option.some.inj hsame)

end Places

/-! ## Two functions with two copies each -/

/-- Copies of two functions, one function after the other. -/
def copiesTogether : List Function :=
  ["bert-serverful-copy-0", "bert-serverful-copy-1", "vgg-serverful-copy-0",
    "vgg-serverful-copy-1"].map fun name => { name := name, invocationStats := [1] }

/-- Copies of two functions, both functions in turn. -/
def copiesInTurn : List Function :=
  ["bert-serverful-copy-0", "vgg-serverful-copy-0", "bert-serverful-copy-1",
    "vgg-serverful-copy-1"].map fun name => { name := name, invocationStats := [1] }

theorem drivesEachOnce_copiesTogether :
    Copied copiesTogether 2 ∧ (assignDrivers copiesTogether (.serverfulCopies 2)).length = 2 ∧
      DrivesEachOnce copiesTogether (.serverfulCopies 2) := by
  have hcopied : Copied copiesTogether 2 := by
    unfold Copied
    decide +kernel
  obtain ⟨hlength, hiff⟩ := drivesEachOnce_iff_places (by decide) hcopied
  refine ⟨hcopied, hlength.trans (by decide +kernel), hiff.mpr ?_⟩
  have hplaces : ∀ group < 2, ∀ other < 2,
      copiesTogether[2 * group]?.map Function.logicalName =
        copiesTogether[2 * other]?.map Function.logicalName → group = other := by
    decide +kernel
  intro group other f g hf hg hsame
  have hgroup := (List.getElem?_eq_some_iff.mp hf).1
  have hother := (List.getElem?_eq_some_iff.mp hg).1
  have hfour : copiesTogether.length = 4 := rfl
  refine hplaces group (by omega) other (by omega) ?_
  rw [hf, hg, Option.map_some, Option.map_some, hsame]

/-- The copies of `bert` stand at both driven places: it is driven twice, and `vgg` not at all. -/
theorem not_drivesEachOnce_copiesInTurn :
    Copied copiesInTurn 2 ∧
      drivenNames copiesInTurn (.serverfulCopies 2) = [some "bert", some "bert"] ∧
      ¬DrivesEachOnce copiesInTurn (.serverfulCopies 2) := by
  unfold Copied
  decide +kernel

end TraceReplay
