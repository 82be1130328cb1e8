import DeviceScript.Fault

/-! Outcomes that scripts report as they run, and the memory that keeps them. -/

namespace DeviceScript

inductive Outcome where
  | pass
  | fail
  | info
  | other (name : Text)
deriving Repr, DecidableEq

namespace Outcome

def name : Outcome → Text
  | pass => "pass"
  | fail => "fail"
  | info => "info"
  | other name => name

def ofName (n : Text) : Outcome := ([pass, fail, info].find? fun o => o.name == n).getD (other n)

end Outcome

/-- One outcome with the instruction that reported it. The time is in nanoseconds since 1970,
where it is known. -/
structure Result where
  runId : Text
  script : Text
  line : Int
  op : Text
  device : Text
  outcome : Outcome
  detail : Text
  time : Option Int
deriving Repr, DecidableEq

namespace Result

/-- The results of one run, or all of them for the empty run id. -/
def ofRun (runId : Text) (rs : List Result) : List Result :=
  rs.filter fun r => runId.isEmpty || r.runId == runId

def tally (rs : List Result) : Nat × Nat :=
  (rs.countP fun r => r.outcome == .pass, rs.countP fun r => r.outcome == .fail)

end Result

/-- A recorder that takes results up to a limit, where one is set. -/
structure Ledger where
  results : List Result
  limit : Option Nat
deriving Repr, DecidableEq

namespace Ledger

def empty : Ledger := ⟨[], none⟩

def record (l : Ledger) (r : Result) : Except Fault Unit × Ledger :=
  if l.limit.any fun most => most ≤ l.results.length then (.error (.said "recorder full"), l)
  else (.ok (), { l with results := l.results ++ [r] })

end Ledger
end DeviceScript
