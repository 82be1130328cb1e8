import DeviceScript.Fault
import DeviceScript.Number.Reading
import DeviceScript.Pattern.Search
import DeviceScript.Text.Blank

/-! Conditions of branches and loops: comparisons joined from left to right. -/

namespace DeviceScript.Condition

open Text

def number? (t : Text) : Option Binary64 := Binary64.read (trim t)

/-- Equality by number where both sides are numbers, by text otherwise. -/
def equal (left right : Text) : Bool :=
  match number? left, number? right with
  | some l, some r => Binary64.equal l r
  | _, _ => left == right

inductive Comparison where
  | equal
  | notEqual
  | less
  | greater
  | lessEqual
  | greaterEqual
  | contains
  | lacks
  | fits
deriving Repr, DecidableEq

def Comparison.ofWord? (w : Text) : Option Comparison :=
  let among (ws : List String) : Bool := ws.any fun s => ofString s == w
  if among ["eq", "=="] then some .equal
  else if among ["ne", "!="] then some .notEqual
  else if among ["lt", "<"] then some .less
  else if among ["gt", ">"] then some .greater
  else if among ["le", "<="] then some .lessEqual
  else if among ["ge", ">="] then some .greaterEqual
  else if among ["contains"] then some .contains
  else if among ["!contains"] then some .lacks
  else if among ["match"] then some .fits
  else none

def numbers (word left right : Text) : Except Reason (Binary64 × Binary64) :=
  match number? left, number? right with
  | some l, some r => .ok (l, r)
  | _, _ => .error (.notNumeric word left right)

def compare (left word right : Text) : Except Reason Bool :=
  match Comparison.ofWord? word with
  | none => .error (.unknownOperator word)
  | some .equal => .ok (equal left right)
  | some .notEqual => .ok (!equal left right)
  | some .less => (numbers word left right).map fun (l, r) => Binary64.less l r
  | some .greater => (numbers word left right).map fun (l, r) => Binary64.less r l
  | some .lessEqual => (numbers word left right).map fun (l, r) => Binary64.lessEqual l r
  | some .greaterEqual => (numbers word left right).map fun (l, r) => Binary64.lessEqual r l
  | some .contains => .ok (hasPart right left)
  | some .lacks => .ok (!hasPart right left)
  | some .fits =>
      match Pattern.compile right with
      | .ok searcher => .ok (searcher.isMatch left)
      | .error refusal => .error (.invalidPattern right refusal)

/-- Joins further comparisons, four words each, to a result. -/
def joinFrom (result : Bool) : List Text → Except Reason Bool
  | conjunction :: left :: word :: right :: rest =>
      match compare left word right with
      | .error reason => .error reason
      | .ok next =>
          if conjunction == ofString "and" then joinFrom (result && next) rest
          else if conjunction == ofString "or" then joinFrom (result || next) rest
          else .error (.unknownConjunction conjunction)
  | _ => .ok result

/-- The value of a condition: three words, then any number of groups of four. -/
def evaluate (words : List Text) : Except Reason Bool :=
  match words with
  | left :: word :: right :: rest =>
      if rest.length % 4 == 0 then
        match compare left word right with
        | .error reason => .error reason
        | .ok first => joinFrom first rest
      else .error (.malformedCondition (joinWith " " words))
  | _ => .error (.malformedCondition (joinWith " " words))

end DeviceScript.Condition
