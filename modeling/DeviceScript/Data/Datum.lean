import DeviceScript.Data.Moment
import DeviceScript.Number.Writing

/-! Values of configuration and schema documents, and the text they have as a parameter. -/

namespace DeviceScript

inductive Datum where
  | null
  | bool (value : Bool)
  | int (value : Int)
  | float (value : Binary64)
  | text (value : Text)
  | moment (value : Moment)
  | list (items : List Datum)
  | table (entries : List (Datum × Datum))
deriving Repr

namespace Datum

/-- Keys of a table in the order they are written: numbers by size, texts by octets. -/
def keyPrecedes : Datum → Datum → Bool
  | .int a, .int b => a ≤ b
  | .float a, .float b => !Binary64.less b a
  | .text a, .text b => Text.precedes a b
  | .bool a, .bool b => !a || b
  | _, _ => true

mutual

def render : Datum → Text
  | .null => "<nil>"
  | .bool true => "true"
  | .bool false => "false"
  | .int n => Text.ofInt n
  | .float f => f.general
  | .text t => t
  | .moment m => m.render
  | .list items => "[" ++ Text.joinWith " " (renderItems items) ++ "]"
  | .table entries =>
      "map[" ++ Text.joinWith " "
        (((renderEntries entries).mergeSort fun a b => keyPrecedes a.1 b.1).map Prod.snd) ++ "]"

def renderItems : List Datum → List Text
  | [] => []
  | item :: rest => item.render :: renderItems rest

def renderEntries : List (Datum × Datum) → List (Datum × Text)
  | [] => []
  | (key, value) :: rest => (key, key.render ++ ":" ++ value.render) :: renderEntries rest

end

end Datum
end DeviceScript
