import DeviceScript.Reporting.Basic
import DeviceScript.Reporting.Duration

/-! Reports for people. -/

namespace DeviceScript.PlainReport

open Text

/-- Whether passed checks are shown too, and whether marks have colours. -/
structure Style where
  verbose : Bool
  color : Bool
deriving Repr, DecidableEq

inductive Color where
  | green
  | red
  | yellow
deriving Repr, DecidableEq

def Color.code : Color → Text
  | green => "\x1b[32m"
  | red => "\x1b[31m"
  | yellow => "\x1b[33m"

def Style.paint (s : Style) (c : Color) (t : Text) : Text :=
  if s.color then c.code ++ t ++ "\x1b[0m" else t

def Style.mark (s : Style) (passed : Bool) : Text :=
  if passed then s.paint .green "✓" else s.paint .red "✗"

def grouped (n : Int) : Text :=
  let rec group : Nat → Nat → List Text
    | 0, n => [ofNat n]
    | fuel + 1, n => if n < 1000 then [ofNat n] else padded 3 (n % 1000) :: group fuel (n / 1000)
  let size := joinWith "," (group 7 n.natAbs).reverse
  if n < 0 then ascii '-' :: size else size

/-- The lines of one result; results that are no checks are shown only on demand. -/
def result (s : Style) (r : Result) : Text :=
  let place : Text := " line " ++ ofInt r.line ++ ": "
  if r.outcome = .fail then "  " ++ s.mark false ++ place ++ r.op ++ " " ++ r.detail ++ "\n"
  else if !s.verbose then []
  else if r.outcome = .pass then "  " ++ s.mark true ++ place ++ r.op ++ " " ++ r.detail ++ "\n"
  else "  " ++ s.paint .yellow "·" ++ place ++ r.detail ++ "\n"

def fault (f : Fault) : Text := (lines f.message).flatMap fun line => "  " ++ line ++ "\n"

def run (s : Style) (r : FinishedRun) : Text :=
  s.mark r.passed ++ " " ++ r.script ++ " (" ++ Duration.brief r.duration ++ ")\n"
    ++ r.results.flatMap (result s)
    ++ (match r.fault with
      | some f => fault f
      | none => [])

def summary (s : Style) (st : RunStats) : Text :=
  let passed : Text :=
    if 0 < st.passed then s.paint .green ("Passed:    " ++ grouped st.passed) ++ "\n" else []
  let failed : Text :=
    if 0 < st.failed then s.paint .red ("Failed:    " ++ grouped st.failed) ++ "\n" else []
  "\n" ++ List.replicate 60 (ascii '=') ++ "\nScripts:   " ++ grouped st.runs ++ "\n"
    ++ passed ++ failed
    ++ "Checks:    " ++ grouped st.checks ++ " (" ++ grouped st.checksFailed ++ " failed)\n"
    ++ "Time:      " ++ Duration.brief st.time ++ "\n"

def render (s : Style) (rs : List FinishedRun) (st : RunStats) : Text :=
  rs.flatMap (run s) ++ summary s st

end DeviceScript.PlainReport
