import DeviceScript.Operation.Handler
import DeviceScript.Pattern.Search

/-! The operations that every script may call. -/

namespace DeviceScript.Standard

open Text

variable {ω : Type}

def comment : Handler ω := fun s site p vars w =>
  let text := p.text "text"
  let entry : LogEntry := ⟨.info, "comment",
    [("text", text), ("script", site.script), ("line", ofInt site.line)]⟩
  let (answer, w) := s.report site .info text (s.log entry w)
  ⟨.text text, (match answer with | .error fault => some fault | .ok _ => none), vars, none, w⟩

def setVar : Handler ω := fun _ _ p vars w =>
  .ok .absent (vars.set (p.text "name") (p.text "value")) w

def unsetVar : Handler ω := fun _ _ p vars w => .ok .absent (vars.erase (p.text "name")) w

/-- The number that a variable counts from; one that is not set or empty counts from zero. -/
def counter (vars : Vars) (name : Text) : Except Reason Int :=
  match vars.get? name with
  | none | some [] => .ok 0
  | some held =>
      match readInt held with
      | some n => .ok n
      | none => .error (.variableNotInt name held)

def count (sign : Int) : Handler ω := fun _ _ p vars w =>
  let name := p.text "name"
  match counter vars name with
  | .error reason => .fail (.plain reason) vars w
  | .ok n =>
      let next := wrap64 (n + wrap64 (sign * p.int "by"))
      .ok (.int next) (vars.set name (ofInt next)) w

/-- Whole seconds in nanoseconds, in the signed 64-bit range. -/
def secondsToNanos (seconds : Int) : Int := wrap64 (seconds * 1000000000)

def sleep : Handler ω := fun s _ p vars w =>
  let nanos := secondsToNanos (p.int "seconds")
  if nanos ≤ 0 then .ok .absent vars w
  else if s.canceled w then .fail (.plain .canceled) vars w
  else .ok .absent vars (s.pause nanos w)

def send : Handler ω := fun s site p vars w => s.sendText site (p.text "text") vars w

/-- Waits for a pattern. A mismatch is a result, not a fault. -/
def expect : Handler ω := fun s site p vars w =>
  match s.session with
  | none => .fail (.plain (.noSession site.op)) vars w
  | some session =>
      let pattern := p.text "pattern"
      match session.await pattern (secondsToNanos (p.int "timeout")) (p.flag "clear") w with
      | (.error fault, w) => .fail fault vars w
      | (.ok matched, w) =>
          let vars :=
            if p.has "var" then vars.set (p.text "var") (if matched then "1" else "0") else vars
          let entry : LogEntry := ⟨.debug, "expect",
            [("pattern", pattern), ("matched", (Value.bool matched).render),
             ("device", site.device)]⟩
          let outcome : Outcome := if matched then .pass else .fail
          let (answer, w) := s.report site outcome pattern (s.log entry w)
          ⟨.bool matched, (match answer with | .error fault => some fault | .ok _ => none),
            vars, none, w⟩

/-- What a pattern finds in a text: its first group, or the whole match if it has none. -/
def captured (searcher : Pattern.Searcher) (text : Text) : Text :=
  (searcher.capture? text).getD []

def capture : Handler ω := fun _ _ p vars w =>
  match Pattern.compile (p.text "pattern") with
  | .error refusal => .fail (.plain (.captureRefused refusal)) vars w
  | .ok searcher =>
      let found := captured searcher ((vars.get? outputVar).getD [])
      .ok (.text found) (vars.set (p.text "var") found) w

/-- Records a failure and fails. -/
def fail : Handler ω := fun s site p vars w =>
  let message := p.text "message"
  match s.report site .fail message w with
  | (.error fault, w) => .fail fault vars w
  | (.ok _, w) => .fail (.said message) vars w

def stop : Handler ω := fun _ _ p vars w =>
  let reason := p.text "reason"
  ⟨.absent, none, vars, some (if reason.isEmpty then "stopped by script" else reason), w⟩

/-- Sends a fixed command with the words of the call after it. -/
def commandFor (command : Text) : Handler ω := fun s site p vars w =>
  let words := p.text "args"
  s.sendText site (if words.isEmpty then command else command ++ " " ++ words) vars w

end DeviceScript.Standard
