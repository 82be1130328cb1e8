import DeviceScript.Text.Integer

/-! Values that instructions carry and that operations take. -/

namespace DeviceScript

inductive Value where
  | text (t : Text)
  | int (n : Int)
  | bool (b : Bool)
  | absent
deriving Repr, DecidableEq

namespace Value

/-- The text of a value where an instruction is listed or an operand is read. -/
def render : Value → Text
  | text t => t
  | int n => Text.ofInt n
  | bool true => "true"
  | bool false => "false"
  | absent => "None"

/-- The text of a value where a message quotes it. -/
def describe : Value → Text
  | absent => "<nil>"
  | v => v.render

def int? : Value → Option Int
  | int n => some n
  | _ => none

end Value
end DeviceScript
