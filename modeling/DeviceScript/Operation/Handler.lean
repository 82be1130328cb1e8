import DeviceScript.Operation.Binding
import DeviceScript.Outcome.Basic
import DeviceScript.Run.Log
import DeviceScript.Run.Vars
import DeviceScript.Session.Basic

/-! What an operation may use, and what it gives back. -/

namespace DeviceScript

/-- The surroundings of an operation, over a world `ω`. Without a session device operations
fail; without a recorder results are dropped. -/
structure Services (ω : Type) where
  canceled : ω → Bool
  /-- Lets a number of nanoseconds pass. -/
  pause : Int → ω → ω
  log : LogEntry → ω → ω
  session : Option (Session ω)
  record : Option (Result → ω → Reply ω Unit)

structure CallSite where
  runId : Text
  script : Text
  line : Int
  op : Text
  device : Text
deriving Repr, DecidableEq

/-- What a call leaves behind. A fault may stand beside a value when only recording failed. -/
structure Reaction (ω : Type) where
  value : Value
  fault : Option Fault
  vars : Vars
  /-- Why the script shall not go on after this instruction. -/
  abort : Option Text
  world : ω

abbrev Handler (ω : Type) := Services ω → CallSite → Bound → Vars → ω → Reaction ω

namespace Reaction

variable {ω : Type}

def ok (value : Value) (vars : Vars) (world : ω) : Reaction ω := ⟨value, none, vars, none, world⟩

def fail (fault : Fault) (vars : Vars) (world : ω) : Reaction ω :=
  ⟨.absent, some fault, vars, none, world⟩

end Reaction

/-- The variable that holds the output of the last command. -/
def outputVar : Text := "_output"

namespace Services

variable {ω : Type}

def report (s : Services ω) (site : CallSite) (outcome : Outcome) (detail : Text) (w : ω) :
    Reply ω Unit :=
  match s.record with
  | none => (.ok (), w)
  | some record =>
      record ⟨site.runId, site.script, site.line, site.op, site.device, outcome, detail, none⟩ w

def sendText (s : Services ω) (site : CallSite) (command : Text) (vars : Vars) (w : ω) :
    Reaction ω :=
  match s.session with
  | none => .fail (.plain (.noSession site.op)) vars w
  | some session =>
      match session.send command w with
      | (.error fault, w) => .fail fault vars w
      | (.ok output, w) => .ok (.text output) (vars.set outputVar output) w

end Services
end DeviceScript
