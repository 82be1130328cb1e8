import DeviceScript.Text.Quoted

/-! Records of what happens, for whoever watches. -/

namespace DeviceScript

open Text

inductive LogLevel where
  | debug
  | info
  | warn
deriving Repr, DecidableEq

def LogLevel.name : LogLevel → Text
  | debug => "DEBUG"
  | info => "INFO"
  | warn => "WARN"

structure LogEntry where
  level : LogLevel
  message : Text
  fields : List (Text × Text)
deriving Repr, DecidableEq

namespace LogEntry

/-- A value on the line of a record; quoted where a blank, a quote or an equals sign would make
its end unclear. -/
def value (t : Text) : Text :=
  let quoted := quote t
  let plain := quoted.drop 1 |>.dropLast
  if t.isEmpty || plain != t || t.any fun b => isBlankByte b || b == ascii '=' then quoted else t

def render (e : LogEntry) : Text :=
  let fields : List (Text × Text) := ("level", e.level.name) :: ("msg", e.message) :: e.fields
  joinWith " " (fields.map fun field => value field.1 ++ "=" ++ value field.2)

end LogEntry
end DeviceScript
