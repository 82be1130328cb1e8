import DeviceScript.Reporting.Basic
import DeviceScript.Text.Utf8

/-! Reports as JSON documents. -/

namespace DeviceScript.JsonReport

open Text

inductive Doc where
  | text (t : Text)
  | int (n : Int)
  | bool (b : Bool)
  | list (items : List Doc)
  | object (fields : List (Text × Doc))

/-- A character of a string. Quotes, controls, marks of markup and the two separators that end
lines elsewhere are escaped; an octet that is no character becomes the replacement character. -/
def escape (r : Rune) : Text :=
  if !r.isValid then "\\ufffd"
  else if r.code == 0x22 then "\\\""
  else if r.code == 0x5c then "\\\\"
  else if r.code == 8 then "\\b"
  else if r.code == 12 then "\\f"
  else if r.code == 10 then "\\n"
  else if r.code == 13 then "\\r"
  else if r.code == 9 then "\\t"
  else if r.code < 32 || r.code == 0x3c || r.code == 0x3e || r.code == 0x26
      || r.code == 0x2028 || r.code == 0x2029 then "\\u" ++ hex 4 r.code
  else r.raw

def string (t : Text) : Text := "\"" ++ (runes t).flatMap escape ++ "\""

private def indent (depth : Nat) : Text := "\n" ++ List.replicate (2 * depth) (ascii ' ')

mutual

def Doc.render (depth : Nat) : Doc → Text
  | .text t => string t
  | .int n => ofInt n
  | .bool true => "true"
  | .bool false => "false"
  | .list [] => "[]"
  | .list items => "[" ++ joinWith "," (renderItems (depth + 1) items) ++ indent depth ++ "]"
  | .object [] => "\x7b\x7d"
  | .object fields =>
      "\x7b" ++ joinWith "," (renderFields (depth + 1) fields) ++ indent depth ++ "\x7d"

def renderItems (depth : Nat) : List Doc → List Text
  | [] => []
  | item :: rest => (indent depth ++ item.render depth) :: renderItems depth rest

def renderFields (depth : Nat) : List (Text × Doc) → List Text
  | [] => []
  | (key, value) :: rest =>
      (indent depth ++ string key ++ ": " ++ value.render depth) :: renderFields depth rest

end

/-- A field that is left out when its text is empty. -/
private def optional (key value : Text) : List (Text × Doc) :=
  if value.isEmpty then [] else [(key, .text value)]

def ofResult (r : Result) : Doc :=
  let head : List (Text × Doc) := [("line", .int r.line), ("op", .text r.op)]
  let outcome : List (Text × Doc) := [("outcome", .text r.outcome.name)]
  .object (head ++ optional "device" r.device ++ outcome ++ optional "detail" r.detail)

def ofRun (r : FinishedRun) : Doc :=
  let head : List (Text × Doc) :=
    [("id", .text r.id), ("script", .text r.script), ("passed", .bool r.passed),
     ("duration", .int r.duration)]
  let results : List (Text × Doc) := [("results", .list (r.results.map ofResult))]
  .object (head ++ optional "error" ((r.fault.map Fault.message).getD []) ++ results)

def document (rs : List FinishedRun) (st : RunStats) : Doc :=
  .object [("runs", .list (rs.map ofRun)), ("total", .int st.runs), ("passed", .int st.passed),
    ("failed", .int st.failed), ("checks", .int st.checks),
    ("checks_failed", .int st.checksFailed), ("total_time", .int st.time)]

def render (rs : List FinishedRun) (st : RunStats) : Text := (document rs st).render 0 ++ "\n"

end DeviceScript.JsonReport
