import DeviceScript.Proofs.Operation.Binding
import DeviceScript.Operation.Standard
import DeviceScript.Schema.Standard

/-!
Sleeping when the run is canceled. A sleep counts nanoseconds in 64 bits, so a number of seconds
keeps its sign only while its nanoseconds do.
-/

namespace DeviceScript

open Text

/-- Nanoseconds that come out positive: the product has no sign, and what lies in the upper half of
the 64-bit range stands for a negative number. -/
def PositiveNanos (seconds : Int) : Prop :=
  0 < seconds * 1000000000 % 18446744073709551616 ∧
    seconds * 1000000000 % 18446744073709551616 < 9223372036854775808

instance (seconds : Int) : Decidable (PositiveNanos seconds) :=
  inferInstanceAs (Decidable (_ ∧ _))

theorem wrap64_pos_iff (n : Int) :
    0 < wrap64 n ↔
      0 < n % 18446744073709551616 ∧ n % 18446744073709551616 < 9223372036854775808 := by
  unfold wrap64
  rw [Int.bmod_def]
  split <;> omega

theorem seconds_to_nanos_pos_iff (seconds : Int) :
    0 < Standard.secondsToNanos seconds ↔ PositiveNanos seconds := wrap64_pos_iff _

/-- Up to a little over 292 years, nanoseconds do not leave the 64-bit range. -/
theorem positive_nanos_small {seconds : Int} (least : -9223372036 ≤ seconds)
    (most : seconds ≤ 9223372036) : PositiveNanos seconds ↔ 0 < seconds := by
  have fits : Standard.secondsToNanos seconds = seconds * 1000000000 :=
    Int.bmod_eq_of_le_mul_two (by omega) (by omega)
  rw [← seconds_to_nanos_pos_iff, fits]
  omega

/-- How long to sleep, given as a number or as a text that reads as one. -/
def GivesSeconds (slot : Value) (seconds : Int) : Prop :=
  slot = .int seconds ∨ ∃ t, slot = .text t ∧ readInt t = some seconds

def sleepOperation : OperationSpec :=
  ⟨"sleep", .positional, [⟨"seconds", 0, true, .absent, .int, false⟩]⟩

theorem standard_sleep : Schema.standard.operation? "sleep" = some sleepOperation := by decide

theorem sleep_bound {slot : Value} {seconds : Int} (given : GivesSeconds slot seconds) :
    ∃ bound, sleepOperation.bind [slot] = .ok bound ∧ bound.int "seconds" = seconds := by
  have reads : (⟨"seconds", 0, true, .absent, .int, false⟩ : ParamSpec).bindSlot "sleep" slot =
      .ok (some (.int seconds)) := by
    rcases given with rfl | ⟨t, rfl, read⟩
    · exact ParamSpec.bind_slot_int "sleep" rfl seconds
    · rw [ParamSpec.bind_slot_text]
      simp [ParamSpec.reads, read]
  refine ⟨Bound.set ⟨"sleep", []⟩ "seconds" (.int seconds), ?_, ?_⟩
  · simp [OperationSpec.bind, sleepOperation, OperationSpec.bindParams, reads]
  · simp [Bound.int, Bound.value_set, Value.int?]

variable {ω : Type}

theorem canceled_sleep (s : Services ω) (site : CallSite) (bound : Bound) (vars : Vars) {w : ω}
    (canceled : s.canceled w = true) :
    Standard.sleep s site bound vars w =
      ⟨.absent, if PositiveNanos (bound.int "seconds") then some (.plain .canceled) else none, vars,
        none, w⟩ := by
  unfold Standard.sleep
  by_cases positive : PositiveNanos (bound.int "seconds")
  · have waits := Int.not_le.mpr ((seconds_to_nanos_pos_iff _).mpr positive)
    simp [positive, waits, canceled, Reaction.fail]
  · have ended := Int.not_lt.mp (mt (seconds_to_nanos_pos_iff _).mp positive)
    simp [positive, ended, Reaction.ok]

/-- A sleep of any number of seconds in 64 bits is bound, and when the run is canceled it either
errs with the cancellation or passes, without another effect. It errs for the positive numbers and
passes for the others exactly where nanoseconds have the sign of their seconds, which they do for
all numbers of at most 9223372036 either way. -/
theorem canceled_sleep_errs_iff (s : Services ω) (site : CallSite) (vars : Vars) (w : ω)
    (canceled : s.canceled w = true) (seconds : Int) (slot : Value)
    (given : GivesSeconds slot seconds) :
    ∃ spec bound fault,
      Schema.standard.operation? "sleep" = some spec ∧ spec.bind [slot] = .ok bound ∧
      Standard.sleep s site bound vars w = ⟨.absent, fault, vars, none, w⟩ ∧
      (fault = some (.plain .canceled) ∨ fault = none) ∧
      ((fault = some (.plain .canceled) ↔ 0 < seconds) ∧ (fault = none ↔ seconds ≤ 0) ↔
        (PositiveNanos seconds ↔ 0 < seconds)) ∧
      (-9223372036 ≤ seconds → seconds ≤ 9223372036 →
        (fault = some (.plain .canceled) ↔ 0 < seconds) ∧ (fault = none ↔ seconds ≤ 0)) := by
  obtain ⟨bound, bind, read⟩ := sleep_bound given
  have slept := canceled_sleep s site bound vars canceled
  rw [read] at slept
  refine ⟨sleepOperation, bound, _, standard_sleep, bind, slept, ?_, ?_, ?_⟩
  · by_cases positive : PositiveNanos seconds <;> simp [positive]
  · by_cases positive : PositiveNanos seconds
    · simp [positive]
    · simp [positive]
  · intro down up
    have sign := positive_nanos_small down up
    by_cases positive : PositiveNanos seconds
    · have more := sign.mp positive
      simp [positive, more]
    · have less := mt sign.mpr positive
      simp [positive, less, Int.not_lt.mp less]

def Services.interrupted : Services Unit := ⟨fun _ => true, fun _ w => w, fun _ w => w, none, none⟩

/-- The longest sleep whose nanoseconds fit is canceled, given as the text of a variable. -/
theorem longest_sleep_canceled :
    Services.interrupted.canceled () = true ∧ GivesSeconds (.text "9223372036") 9223372036 ∧
    ∃ bound, sleepOperation.bind [.text "9223372036"] = .ok bound ∧
      (Standard.sleep .interrupted ⟨"run", "main", 1, "sleep", []⟩ bound .empty ()).fault =
        some (.plain .canceled) := by
  have given : GivesSeconds (.text "9223372036") 9223372036 := .inr ⟨_, rfl, by decide⟩
  obtain ⟨spec, bound, fault, declared, bind, slept, -, -, law⟩ :=
    canceled_sleep_errs_iff .interrupted ⟨"run", "main", 1, "sleep", []⟩ .empty () rfl
      9223372036 _ given
  rw [standard_sleep] at declared
  cases declared
  refine ⟨rfl, given, bound, bind, ?_⟩
  rw [slept]
  exact (law (by decide) (by decide)).1.mpr (by decide)

/-- A second more is no sleep at all, and as many seconds below zero are canceled. -/
theorem longer_sleep_not_canceled :
    (∃ bound, sleepOperation.bind [.int 9223372037] = .ok bound ∧
      (Standard.sleep .interrupted ⟨"run", "main", 1, "sleep", []⟩ bound .empty ()).fault = none) ∧
    ∃ bound, sleepOperation.bind [.int (-9223372037)] = .ok bound ∧
      (Standard.sleep .interrupted ⟨"run", "main", 1, "sleep", []⟩ bound .empty ()).fault =
        some (.plain .canceled) := by
  have above : ¬ PositiveNanos 9223372037 := by decide
  have below : PositiveNanos (-9223372037) := by decide
  constructor
  · obtain ⟨bound, bind, read⟩ := sleep_bound (.inl rfl : GivesSeconds _ 9223372037)
    refine ⟨bound, bind, ?_⟩
    rw [canceled_sleep _ _ _ _ rfl, read, if_neg above]
  · obtain ⟨bound, bind, read⟩ := sleep_bound (.inl rfl : GivesSeconds _ (-9223372037))
    refine ⟨bound, bind, ?_⟩
    rw [canceled_sleep _ _ _ _ rfl, read, if_pos below]

end DeviceScript
