import DeviceScript.Files.Tree
import DeviceScript.Outcome.Basic

/-!
A database of results. Every opening numbers what it records from one, and the results of a run
come in the order of these numbers. A database in a file outlives its openings.
-/

namespace DeviceScript

open Text

inductive Database where
  | sqlite
  | postgres
  | mysql
  | sqlserver
deriving Repr, DecidableEq

def Database.ofName? (n : Text) : Option Database :=
  let among (names : List String) : Bool := names.any fun s => ofString s == n
  if among ["", "sqlite", "sqlite3"] then some sqlite
  else if among ["postgres", "postgresql"] then some postgres
  else if among ["mysql"] then some mysql
  else if among ["sqlserver", "mssql"] then some sqlserver
  else none

inductive StoreProblem where
  | unsupported (kind : Text)
  | malformedSource
  | openingCanceled
  | cannotOpen
  | notDatabase
  | noServer
  | recordingClosed
  | recordingCanceled
  | queryClosed
  | queryCanceled
deriving Repr, DecidableEq

def StoreProblem.message : StoreProblem → Text
  | unsupported kind => "unsupported results database type: " ++ kind
  | malformedSource =>
      "open results database: invalid DSN: missing the slash separating the database name"
  | openingCanceled => "ping results database: context canceled"
  | cannotOpen => "ping results database: unable to open database file: out of memory (14)"
  | notDatabase => "create results table: file is not a database (26)"
  | noServer => "ping results database: connection refused"
  | recordingClosed => "record result: sql: database is closed"
  | recordingCanceled => "record result: context canceled"
  | queryClosed => "query results: sql: database is closed"
  | queryCanceled => "query results: context canceled"

structure StoredRow where
  number : Nat
  result : Result
deriving Repr, DecidableEq

namespace StoredRow

def write (r : StoredRow) : Text :=
  let time : Text :=
    match r.result.time with
    | some t => ofInt t
    | none => "-"
  joinWith [9]
    [ofNat r.number, time, ofInt r.result.line, quote r.result.runId, quote r.result.script,
     quote r.result.op, quote r.result.device, quote r.result.outcome.name, quote r.result.detail]

def read? (line : Text) : Option StoredRow :=
  match splitOn 9 line with
  | [number, time, at', runId, script, op, device, outcome, detail] => do
      let number ← readInt number
      let time ← if time == ofString "-" then some none else (readInt time).map some
      let result : Result :=
        ⟨← unquote runId, ← unquote script, ← readInt at', ← unquote op, ← unquote device,
          Outcome.ofName (← unquote outcome), ← unquote detail, time⟩
      return ⟨number.toNat, result⟩
  | _ => none

/-- What the file of a database begins with. -/
def heading : Text := "results"

def writeAll (rows : List StoredRow) : Text :=
  (heading :: rows.map write).flatMap fun line => line ++ "\n"

/-- The rows in the file of a database. An empty file is a database without rows. -/
def readAll? (content : Text) : Option (List StoredRow) :=
  if content.isEmpty then some []
  else
    match (lines content).reverse with
    | [] :: rows =>
        match rows.reverse with
        | first :: rows => if first == heading then rows.mapM read? else none
        | [] => none
    | _ => none

end StoredRow

structure Store where
  /-- The file it is kept in, if it is kept. -/
  file : Option Text
  rows : List StoredRow
  /-- How many results this opening was asked to record. -/
  asked : Nat
  isOpen : Bool
deriving Repr, DecidableEq

namespace Store

/-- The file that a source names; memory and nameless sources have none. -/
def fileOf (source : Text) : Option Text :=
  let named := (dropStart? "file:" source).getD source
  let path := named.takeWhile (· != ascii '?')
  if path.isEmpty || path == ofString ":memory:" then none else some path

/-- The database in a file; a file that does not exist is made where a directory is. -/
def openFile (files : FileTree) (path : Text) : Except StoreProblem Store :=
  match files.read path with
  | .ok content =>
      match StoredRow.readAll? content with
      | some rows => .ok ⟨some path, rows, 0, true⟩
      | none => .error .notDatabase
  | .error .notFound =>
      match files.find (Path.directory path) with
      | .ok (.directory _) => .ok ⟨some path, [], 0, true⟩
      | _ => .error .cannotOpen
  | .error _ => .error .cannotOpen

def openAt (files : FileTree) (canceled : Bool) (kind source : Text) : Except StoreProblem Store :=
  match Database.ofName? kind with
  | none => .error (.unsupported kind)
  | some database =>
      if database = .mysql ∧ !source.isEmpty ∧ !source.contains Path.slash then
        .error .malformedSource
      else if canceled then .error .openingCanceled
      else if database = .sqlite then
        match fileOf source with
        | none => .ok ⟨none, [], 0, true⟩
        | some path => openFile files path
      else .error .noServer

def record (s : Store) (canceled : Bool) (r : Result) : Except StoreProblem Unit × Store :=
  let s := { s with asked := s.asked + 1 }
  if !s.isOpen then (.error .recordingClosed, s)
  else if canceled then (.error .recordingCanceled, s)
  else (.ok (), { s with rows := s.rows ++ [⟨s.asked, r⟩] })

/-- The results of one run by their numbers; equal numbers stay as they were recorded. -/
def results (s : Store) (canceled : Bool) (runId : Text) : Except StoreProblem (List Result) :=
  if !s.isOpen then .error .queryClosed
  else if canceled then .error .queryCanceled
  else
    .ok (((s.rows.filter fun row => row.result.runId == runId).mergeSort
      fun a b => a.number ≤ b.number).map StoredRow.result)

def close (s : Store) : Store := { s with isOpen := false }

/-- The files with what the database holds. -/
def save (s : Store) (files : FileTree) : FileTree :=
  match s.file with
  | none => files
  | some path => files.write path (StoredRow.writeAll s.rows)

end Store
end DeviceScript
