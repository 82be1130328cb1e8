import DeviceScript.Command.Bench
import DeviceScript.Proofs.Data.Sequence

/-!
What a report gets of the runs. Each pass over the scripts runs a script and fills a slot as it
finds them in the variables of the loop. Where the variables are its own, the report gets the runs
of the scripts in their order; where passes share them, there is a report only if every pass has
read its own slot.
-/

namespace DeviceScript

open Text

/-- Where no pass reads an earlier slot than its own, each reads its own if all are read. -/
theorem own_slots_of_read {count : Nat} {slot : Nat → Nat} (since : ∀ i < count, i ≤ slot i)
    (all : ∀ j < count, ∃ i < count, slot i = j) : ∀ j < count, slot j = j := by
  intro j
  induction j using Nat.strongRecOn with
  | ind j ih =>
      intro inside
      obtain ⟨i, among, same⟩ := all j inside
      have le : i ≤ j := same ▸ since i among
      rcases Nat.lt_or_eq_of_le le with earlier | rfl
      · -- The pass before has its own slot, which is another.
        have own := ih i earlier among
        omega
      · exact same

namespace BenchPlan

variable {p : BenchPlan} {scripts : List Text} {runs : List FinishedRun}

theorem read_length (p : BenchPlan) (scripts : List Text) :
    (p.read scripts).length = scripts.length :=
  List.length_mapIdx

theorem read_get {i : Nat} {path : Text} (inside : (p.surroundings.reading i).script < scripts.length)
    (found : (p.read scripts)[i]? = some path) :
    scripts[(p.surroundings.reading i).script]? = some path := by
  rw [read, List.getElem?_mapIdx] at found
  obtain ⟨_, -, rfl⟩ := Option.map_eq_some_iff.mp found
  simp [inside]

theorem read_own (own : ∀ i < scripts.length, p.surroundings.reading i = .own i) :
    p.read scripts = scripts := by
  apply List.ext_getElem (read_length p scripts)
  intro i _ inside
  simp [read, own i inside, Reading.own, inside]

theorem slots_filled {all : List FinishedRun} (full : (p.slots runs).mapM id = some all) {j : Nat}
    (inside : j < runs.length) : ∃ i < runs.length, (p.surroundings.reading i).slot = j := by
  obtain ⟨run, -, left⟩ := mem_of_forall₂ (mapM_some full).flip _
    (List.mem_map.mpr ⟨j, List.mem_range.mpr inside, rfl⟩)
  obtain ⟨⟨_, i⟩, found, -⟩ := Option.map_eq_some_iff.mp left
  have member := List.mem_reverse.mp (List.mem_of_find?_eq_some found)
  exact ⟨i, by simpa using List.snd_lt_of_mem_zipIdx member, by simpa using List.find?_some found⟩

theorem slots_own (own : ∀ i < runs.length, (p.surroundings.reading i).slot = i) :
    p.slots runs = runs.map some := by
  apply List.ext_getElem
  · simp [slots]
  · intro j _ inside
    rw [List.length_map] at inside
    have there : (runs[j], j) ∈ runs.zipIdx.reverse :=
      List.mem_reverse.mpr (List.mem_zipIdx_iff_getElem?.mpr (List.getElem?_eq_getElem inside))
    simp only [slots, List.getElem_map, List.getElem_range]
    cases found : runs.zipIdx.reverse.find? fun entry =>
        (p.surroundings.reading entry.2).slot == j with
    | none =>
        have other := List.find?_eq_none.mp found _ there
        simp [own j inside] at other
    | some entry =>
        have member := List.mem_reverse.mp (List.mem_of_find?_eq_some found)
        obtain ⟨within, at'⟩ := List.getElem?_eq_some_iff.mp (List.mem_zipIdx_iff_getElem?.mp member)
        have same : entry.2 = j := by
          rw [← own entry.2 within]
          simpa using List.find?_some found
        simp [← at', same]

theorem mapM_filled (runs : List FinishedRun) : (runs.map some).mapM id = some runs := by
  induction runs with
  | nil => rfl
  | cons run rest ih => simp [ih]

theorem run_in_turn_length {first : Nat} {w after : Bench}
    (ran : p.runInTurn first w scripts = .ok (runs, after)) : runs.length = scripts.length := by
  induction scripts generalizing first w runs with
  | nil =>
      cases ran
      rfl
  | cons path rest ih =>
      obtain ⟨⟨run, between⟩, -, others⟩ := bind_ok_iff.mp ran
      obtain ⟨⟨more, last⟩, ended, done⟩ := bind_ok_iff.mp others
      cases done
      rw [List.length_cons, List.length_cons, ih ended]

/-- The command gets to its report exactly if the scripts that it has read come to their ends and
each pass fills its own slot. -/
theorem run_scripts_ok_iff {w after : Bench}
    (since : ∀ i < scripts.length, (p.surroundings.reading i).Since scripts.length i) :
    p.runScripts w scripts = .ok (runs, after) ↔
      (∀ i < scripts.length, (p.surroundings.reading i).slot = i) ∧
        p.runInTurn 0 w (p.read scripts) = .ok (runs, after) := by
  unfold runScripts
  rw [bind_ok_iff]
  constructor
  · rintro ⟨⟨ended, world⟩, ran, reported⟩
    have length := (run_in_turn_length ran).trans (read_length p scripts)
    cases full : (p.slots ended).mapM id with
    | none => simp [full, throw, throwThe, MonadExceptOf.throw] at reported
    | some all =>
        have own : ∀ j < scripts.length, (p.surroundings.reading j).slot = j := by
          apply own_slots_of_read fun i inside => (since i inside).slot.1
          rw [← length]
          exact fun j inside => slots_filled full inside
        rw [slots_own (length ▸ own), mapM_filled] at full
        cases full
        simp only [slots_own (length ▸ own), mapM_filled, pure, Except.pure] at reported
        cases reported
        exact ⟨own, ran⟩
  · rintro ⟨own, ran⟩
    have length := (run_in_turn_length ran).trans (read_length p scripts)
    refine ⟨(runs, after), ran, ?_⟩
    simp only [slots_own (length ▸ own), mapM_filled]
    rfl

theorem run_scripts_own (own : ∀ i < scripts.length, p.surroundings.reading i = .own i) (w : Bench) :
    p.runScripts w scripts = p.runInTurn 0 w scripts := by
  unfold runScripts
  rw [read_own own]
  cases ran : p.runInTurn 0 w scripts with
  | error b => rfl
  | ok ended =>
      obtain ⟨runs, after⟩ := ended
      have slots : p.slots runs = runs.map some := by
        apply slots_own
        rw [run_in_turn_length ran]
        intro i inside
        rw [own i inside]
        rfl
      simp only [bind, Except.bind, slots, mapM_filled]
      rfl

/-- Where all passes share their variables and read them late, there is no report on several
scripts. -/
theorem late_readings_unreported (several : 2 ≤ scripts.length)
    (late : ∀ i, p.surroundings.reading i = .own (scripts.length - 1)) :
    (∀ i < scripts.length, (p.surroundings.reading i).Since scripts.length i) ∧
      ∀ w runs after, p.runScripts w scripts ≠ .ok (runs, after) := by
  have since : ∀ i < scripts.length, (p.surroundings.reading i).Since scripts.length i := by
    intro i inside
    rw [late i]
    constructor <;> simp only [Reading.own] <;> omega
  refine ⟨since, ?_⟩
  intro w runs after reported
  have first := ((run_scripts_ok_iff since).mp reported).1 0 (by omega)
  rw [late 0] at first
  simp only [Reading.own] at first
  omega

end BenchPlan
end DeviceScript
