import DeviceScript.Proofs.Run.Meaning

/-!
The bound on a run. More fuel makes a course longer and does not change one that has ended; and a
machine that goes from boundary to boundary under a generous bound on inclusions makes the same
course as far as a smaller bound lets it.
-/

namespace DeviceScript

namespace Course

variable {ω : Type}

@[simp] theorem after_nil (c : Course ω) : c.after [] = c := rfl

@[simp] theorem after_after (c : Course ω) (early earlier : List Instruction) :
    (c.after early).after earlier = c.after (earlier ++ early) := by
  simp [after]

theorem Within.refl (c : Course ω) : c.Within c := .inl rfl

theorem Within.after {part whole : Course ω} (within : part.Within whole)
    (earlier : List Instruction) : (part.after earlier).Within (whole.after earlier) := by
  rcases within with rfl | ⟨cut, beginning⟩
  · exact .refl _
  · exact .inr ⟨cut, List.prefix_append_right_inj earlier |>.mpr beginning⟩

end Course

namespace Machine

variable {ω : Type} {h : Host ω}

section Child

variable {child longer : Machine → ω → Progress ω}
variable (more : ∀ m w, (child m w).breakdown ≠ some .outOfFuel → longer m w = child m w)

include more

theorem inclusion_more (m : Machine) (line : Int) (params : List Value) (w : ω)
    (ended : (m.inclusion h child line params w).breakdown ≠ some .outOfFuel) :
    m.inclusion h longer line params w = m.inclusion h child line params w := by
  unfold inclusion at ended ⊢
  cases params with
  | nil => rfl
  | cons operand rest =>
      simp only at ended ⊢
      cases given : h.load with
      | none => rfl
      | some load =>
          simp only [given] at ended ⊢
          by_cases deep : maxDepth ≤ m.depth
          · simp only [deep, ↓reduceIte]
          · simp only [deep, ↓reduceIte] at ended ⊢
            rcases loaded : load operand.render w with ⟨b | script, w'⟩
            · cases b <;> rfl
            · simp only [loaded] at ended ⊢
              generalize h.log _ w' = told at ended ⊢
              -- An included script that is cut off would cut the inclusion off as well.
              have same : longer (m.child script) told = child (m.child script) told := by
                apply more
                intro cut
                simp only [cut] at ended
                exact ended rfl
              rw [same]

theorem execute_more (m : Machine) (i : Instruction) (params : List Value) (w : ω)
    (ended : (m.execute h child i params w).breakdown ≠ some .outOfFuel) :
    m.execute h longer i params w = m.execute h child i params w := by
  unfold execute at ended ⊢
  cases op : i.op with
  | inclusion =>
      rw [op] at ended
      exact inclusion_more more m i.line params w ended
  | _ => rfl

theorem step_more (m : Machine) (i : Instruction) (w : ω)
    (ended : (m.step h child i w).breakdown ≠ some .outOfFuel) :
    m.step h longer i w = m.step h child i w := by
  rcases step_cases h m i w with ⟨text, -, step⟩ | ⟨told, step⟩
  · rw [step longer, step child]
  · rw [step child] at ended
    rw [step longer, step child]
    exact execute_more more m i _ told ended

end Child

theorem course_next {fuel : Nat} {m m' : Machine} {w w' : ω}
    (next : m.next? h (run h fuel) w = some (m', w')) :
    m.course h (fuel + 1) w = (m'.course h fuel w').after (m.due h w) := by
  simp only [course, Course.after, run_next next, dispatched, next]

theorem course_stays {fuel : Nat} {m : Machine} {w : ω}
    (last : m.next? h (run h fuel) w = none) :
    (m.course h (fuel + 1) w).trace = m.due h w := by
  simp only [course, dispatched, last, List.append_nil]

theorem course_stuck {fuel : Nat} {m : Machine} {i : Instruction} {w : ω}
    (running : m.state = .running) (current : m.script.code[m.pc]? = some i)
    (free : stopReason? h w = none) {p : Progress ω} (step : m.step h (run h fuel) i w = p)
    (stuck : p.breakdown ≠ none ∨ p.machine.abortReason ≠ []) :
    m.next? h (run h fuel) w = none ∧
    m.course h (fuel + 1) w =
      ⟨m.due h w, ⟨p.machine.vars, p.machine.device, p.world⟩,
        some ((p.breakdown.map Breakdown.unplaced).getD
          (.fault (.located (Report.atLine .abort p.machine.abortReason m.script.path i.line)
            none)))⟩ := by
  have last : m.next? h (run h fuel) w = none := by
    rw [Option.eq_none_iff_forall_ne_some]
    rintro ⟨after, world⟩ onward
    obtain ⟨j, again, -, -, stepped, quiet⟩ := (next_iff ..).mp onward
    cases current.symm.trans again
    rw [step] at stepped
    subst stepped
    rcases stuck with broken | asked
    · exact broken rfl
    · exact asked quiet
  refine ⟨last, ?_⟩
  have trace := course_stays last
  have ends := run_stays running last
  simp only [course] at trace ⊢
  rw [trace]
  generalize m.run h (fuel + 1) w = q at ends ⊢
  -- Of the ways to end, only those by this instruction are left.
  cases ends with
  | past past => rw [current] at past; cases past
  | stopped _ stop => rw [free] at stop; cases stop
  | broken again _ stepped breaks =>
      cases current.symm.trans again
      rw [step] at stepped
      subst stepped
      simp [breaks]
  | aborted again _ stepped asked =>
      cases current.symm.trans again
      rw [step] at stepped
      subst stepped
      rfl

theorem course_cut {fuel : Nat} {m : Machine} {w : ω}
    (cut : (m.run h fuel w).breakdown = some .outOfFuel) :
    (m.course h fuel w).breakdown = some .outOfFuel := by
  simp only [course, cut, Option.map_some]
  rfl

theorem due_prefix (fuel : Nat) (m : Machine) (w : ω) :
    m.due h w <+: (m.course h (fuel + 1) w).trace := by
  simp only [course, dispatched]
  exact List.prefix_append _ _

/-- A bound on inclusions either cuts the instruction at a boundary off or makes no difference
there. -/
theorem boundary_more {fuel longer : Nat} (more : ∀ (m : Machine) (w : ω),
      (m.run h fuel w).breakdown ≠ some .outOfFuel → m.run h longer w = m.run h fuel w)
    (m : Machine) (w : ω) :
    (m.next? h (run h fuel) w = none ∧ (m.run h (fuel + 1) w).breakdown = some .outOfFuel) ∨
    m.next? h (run h longer) w = m.next? h (run h fuel) w ∧
      (m.next? h (run h fuel) w = none → m.run h (longer + 1) w = m.run h (fuel + 1) w) := by
  by_cases running : m.state = .running
  · cases current : m.script.code[m.pc]? with
    | none => exact .inr ⟨by simp [next?, current], fun _ => by simp [run, running, current]⟩
    | some i =>
        cases free : stopReason? h w with
        | some text =>
            refine .inr ⟨by simp [next?, current, free], fun _ => ?_⟩
            simp [run, running, current, free]
        | none =>
            -- Only an inclusion that was cut off can go further with more.
            by_cases cut : (m.step h (run h fuel) i w).breakdown = some .outOfFuel
            · left
              simp [next?, run, running, current, free, cut]
            · have same := step_more more m i w cut
              refine .inr ⟨by simp only [next?, current, same], ?_⟩
              intro last
              simp only [next?, running, current, free] at last
              simp only [run, running, current, free, same]
              generalize m.step h (run h fuel) i w = p at last ⊢
              obtain ⟨after, world, breakdown⟩ := p
              cases breakdown with
              | some b => cases b <;> rfl
              | none =>
                  have asked : after.abortReason ≠ [] := by simpa using last
                  simp [asked]
  · refine .inr ⟨?_, fun _ => by simp [run, running]⟩
    unfold next?
    split
    · rfl
    · simp [running]

theorem run_more {fuel longer : Nat} (most : fuel ≤ longer) (m : Machine) (w : ω)
    (ended : (m.run h fuel w).breakdown ≠ some .outOfFuel) :
    m.run h longer w = m.run h fuel w := by
  induction fuel generalizing m w longer with
  | zero => exact absurd rfl ended
  | succ fuel ih =>
      obtain ⟨longer, rfl⟩ := Nat.exists_eq_add_of_le' (Nat.le_trans (Nat.le_add_left 1 fuel) most)
      have less : fuel ≤ longer := by omega
      -- At a boundary the bound matters for included scripts only, to which `ih` applies.
      rcases boundary_more (h := h) (fun m w => ih less m w) m w with ⟨-, cut⟩ | ⟨same, stays⟩
      · exact absurd cut ended
      · cases next : m.next? h (run h fuel) w with
        | none => exact stays next
        | some further =>
            rw [run_next next] at ended ⊢
            rw [run_next (same.trans next)]
            exact ih less _ _ ended

/-- With a longer bound a course that has ended stays the same, and one that was cut off goes on
from there. -/
theorem course_more {fuel longer : Nat} (most : fuel ≤ longer) (m : Machine) (w : ω) :
    (m.course h fuel w).Within (m.course h longer w) := by
  induction fuel generalizing m w longer with
  | zero => exact .inr ⟨rfl, List.nil_prefix⟩
  | succ fuel ih =>
      obtain ⟨longer, rfl⟩ := Nat.exists_eq_add_of_le' (Nat.le_trans (Nat.le_add_left 1 fuel) most)
      have less : fuel ≤ longer := by omega
      rcases boundary_more (h := h) (fun m w => run_more less m w) m w with
        ⟨last, cut⟩ | ⟨same, stays⟩
      · refine .inr ⟨course_cut cut, ?_⟩
        rw [course_stays last]
        exact due_prefix longer m w
      · cases next : m.next? h (run h fuel) w with
        | none =>
            left
            simp only [course, dispatched, stays next, next, same]
        | some further =>
            rw [course_next next, course_next (same.trans next)]
            exact (ih less _ _).after _

/-- Boundaries in a row, with the instructions executed on the way. Inclusions run for `bound`. -/
inductive Steps (h : Host ω) (bound : Nat) :
    Nat → Machine → ω → List Instruction → Machine → ω → Prop
  | refl (m : Machine) (w : ω) : Steps h bound 0 m w [] m w
  | step {count : Nat} {m m' n : Machine} {w w' v : ω} {trace : List Instruction}
      (next : m.next? h (run h bound) w = some (m', w'))
      (rest : Steps h bound count m' w' trace n v) :
      Steps h bound (count + 1) m w (m.due h w ++ trace) n v

theorem Steps.one {bound : Nat} {m m' : Machine} {w w' : ω}
    (next : m.next? h (run h bound) w = some (m', w')) :
    Steps h bound 1 m w (m.due h w) m' w' := by
  simpa using Steps.step next (.refl m' w')

theorem Steps.append {bound first second : Nat} {m n o : Machine} {w v u : ω}
    {early late : List Instruction} (front : Steps h bound first m w early n v)
    (back : Steps h bound second n v late o u) :
    Steps h bound (first + second) m w (early ++ late) o u := by
  induction front with
  | refl => simpa using back
  | step next _ ih =>
      have all := Steps.step next (ih back)
      rw [← List.append_assoc] at all
      rwa [Nat.add_right_comm]

/-- With the same bound on inclusions, or a larger one, the course goes over the same boundaries. -/
theorem Steps.course {bound count fuel : Nat} {m n : Machine} {w v : ω}
    {trace : List Instruction} (steps : Steps h bound count m w trace n v) (enough : bound ≤ fuel) :
    m.course h (fuel + count) w = (n.course h fuel v).after trace := by
  induction steps with
  | refl => rfl
  | @step count m m' n w w' v trace next rest ih =>
      have more : bound ≤ fuel + count := by omega
      have again : m.next? h (run h (fuel + count)) w = some (m', w') := by
        rcases boundary_more (h := h) (fun m w => run_more more m w) m w with ⟨last, -⟩ | ⟨same, -⟩
        · rw [last] at next
          cases next
        · exact same.trans next
      rw [← Nat.add_assoc, course_next again, ih, Course.after_after]

/-- With less fuel the course goes over some of these boundaries, or over all of them. -/
theorem Steps.shorter {bound count fuel : Nat} {m n : Machine} {w v : ω}
    {trace : List Instruction} (steps : Steps h bound count m w trace n v) (less : fuel ≤ bound) :
    ((m.course h fuel w).breakdown = some .outOfFuel ∧ (m.course h fuel w).trace <+: trace) ∨
    ∃ left, fuel = left + count ∧ m.course h fuel w = (n.course h left v).after trace := by
  induction steps generalizing fuel with
  | refl => exact .inr ⟨fuel, rfl, rfl⟩
  | @step count m m' n w w' v trace next rest ih =>
      cases fuel with
      | zero => exact .inl ⟨rfl, List.nil_prefix⟩
      | succ fuel =>
          have most : fuel ≤ bound := by omega
          -- The smaller bound is cut off in an inclusion here, or takes the same step.
          rcases boundary_more (h := h) (fun m w => run_more most m w) m w with
            ⟨last, cut⟩ | ⟨same, -⟩
          · refine .inl ⟨course_cut cut, ?_⟩
            rw [course_stays last]
            exact List.prefix_append _ _
          · rw [course_next (same.symm.trans next)]
            rcases ih most with ⟨cut, beginning⟩ | ⟨left, rfl, whole⟩
            · exact .inl ⟨cut, (List.prefix_append_right_inj _).mpr beginning⟩
            · refine .inr ⟨left, by omega, ?_⟩
              rw [whole, Course.after_after]

end Machine
end DeviceScript
