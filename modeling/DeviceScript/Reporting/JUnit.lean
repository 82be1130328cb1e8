import DeviceScript.Reporting.Basic
import DeviceScript.Reporting.Duration
import DeviceScript.Text.Utf8

/-! Reports as JUnit documents: a suite for each run, a case for each check. -/

namespace DeviceScript.JUnitReport

open Text

inductive Trouble where
  | failure (message : Text)
  | error (message : Text)
deriving Repr, DecidableEq

structure Case where
  name : Text
  className : Text
  trouble : Option Trouble
deriving Repr, DecidableEq

structure Suite where
  name : Text
  time : Binary64
  cases : List Case
deriving Repr, DecidableEq

namespace Suite

def tests (s : Suite) : Nat := s.cases.length

def failures (s : Suite) : Nat :=
  s.cases.countP fun c => match c.trouble with
    | some (.failure _) => true
    | _ => false

def errors (s : Suite) : Nat :=
  s.cases.countP fun c => match c.trouble with
    | some (.error _) => true
    | _ => false

end Suite

/-- The case of a result, unless it is information only. -/
def caseOf? (script : Text) (r : Result) : Option Case :=
  if r.outcome = .info then none
  else
    some
      { name := "line " ++ ofInt r.line ++ ": " ++ r.op ++ " " ++ r.detail
        className := script
        trouble := if r.outcome = .fail then some (.failure r.detail) else none }

/-- The case that stands for the end of a run that broke off. -/
def runCase? (r : FinishedRun) : Option Case :=
  r.fault.map fun f => ⟨"run", r.script, some (.error f.message)⟩

def Suite.ofRun (r : FinishedRun) : Suite :=
  { name := r.script
    time := Duration.seconds r.duration
    cases := r.results.filterMap (caseOf? r.script) ++ (runCase? r).toList }

def isCharacter (code : Nat) : Bool :=
  code == 9 || code == 10 || code == 13 || (0x20 ≤ code && code ≤ 0xD7FF)
    || (0xE000 ≤ code && code ≤ 0xFFFD) || (0x10000 ≤ code && code ≤ 0x10FFFF)

/-- A character of an attribute. What a document may not hold becomes the replacement
character. -/
def escape (r : Rune) : Text :=
  if r.code == 0x22 then "&#34;"
  else if r.code == 0x27 then "&#39;"
  else if r.code == 0x26 then "&amp;"
  else if r.code == 0x3c then "&lt;"
  else if r.code == 0x3e then "&gt;"
  else if r.code == 9 then "&#x9;"
  else if r.code == 10 then "&#xA;"
  else if r.code == 13 then "&#xD;"
  else if isCharacter r.code && r.isValid then r.raw
  else encode replacement

def attributes (as : List (Text × Text)) : Text :=
  as.flatMap fun (name, value) => " " ++ name ++ "=\"" ++ (runes value).flatMap escape ++ "\""

/-- An element whose content is indented by one level, each child on a line of its own. -/
def element (depth : Nat) (name : Text) (as : List (Text × Text)) (children : List Text) : Text :=
  let indent : Text := List.replicate (2 * depth) (ascii ' ')
  let close : Text := if children.isEmpty then [] else "\n" ++ indent
  indent ++ "<" ++ name ++ attributes as ++ ">" ++ children.flatMap (newline :: ·) ++ close
    ++ "</" ++ name ++ ">"

def Trouble.render : Trouble → Text
  | failure message =>
      element 3 "failure" [("message", message), ("type", "ExpectationFailed")] []
  | error message => element 3 "error" [("message", message), ("type", "ScriptError")] []

def Case.render (c : Case) : Text :=
  element 2 "testcase" [("name", c.name), ("classname", c.className)]
    (c.trouble.map Trouble.render).toList

def Suite.render (s : Suite) : Text :=
  element 1 "testsuite"
    [("name", s.name), ("tests", ofNat s.tests), ("failures", ofNat s.failures),
     ("errors", ofNat s.errors), ("time", s.time.general)]
    (s.cases.map Case.render)

def render (rs : List FinishedRun) : Text :=
  "<?xml version=\"1.0\" encoding=\"UTF-8\"?>\n"
    ++ element 0 "testsuites" [] (rs.map fun r => (Suite.ofRun r).render) ++ "\n"

end DeviceScript.JUnitReport
