import DeviceScript.Outcome.Basic
import DeviceScript.Text.Integer

/-! Finished runs and what they come to together. -/

namespace DeviceScript

/-- One run of a script as reports see it; its duration is in nanoseconds. -/
structure FinishedRun where
  id : Text
  script : Text
  duration : Int
  fault : Option Fault
  results : List Result

namespace FinishedRun

/-- The script came to its end and every expectation was met. -/
def passed (r : FinishedRun) : Bool := r.fault.isNone && (Result.tally r.results).2 == 0

end FinishedRun

structure RunStats where
  runs : Int
  passed : Int
  failed : Int
  checks : Int
  checksFailed : Int
  time : Int
deriving Repr, DecidableEq

namespace RunStats

def zero : RunStats := ⟨0, 0, 0, 0, 0, 0⟩

def add (s : RunStats) (r : FinishedRun) : RunStats :=
  let (pass, fail) := Result.tally r.results
  { runs := s.runs + 1
    passed := if r.passed then s.passed + 1 else s.passed
    failed := if r.passed then s.failed else s.failed + 1
    checks := s.checks + (pass + fail)
    checksFailed := s.checksFailed + fail
    time := Text.wrap64 (s.time + r.duration) }

def of (rs : List FinishedRun) : RunStats := rs.foldl add zero

end RunStats

inductive ReportFormat where
  | plain
  | json
  | junit
deriving Repr, DecidableEq

open Text in
/-- The form with a name; no name is the plain form. -/
def ReportFormat.ofName? (n : Text) : Option ReportFormat :=
  if n.isEmpty || n == ofString "text" then some plain
  else if n == ofString "json" then some json
  else if n == ofString "junit" then some junit
  else none

end DeviceScript
