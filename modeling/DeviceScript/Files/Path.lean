import DeviceScript.Text.Basic

/-! Slash-separated paths as texts. -/

namespace DeviceScript.Path

open Text

def slash : UInt8 := 0x2f

def isAbsolute (p : Text) : Bool := p.head? == some slash

/-- One component joins those before it, which are kept last first: a double dot takes the last
one back, and beyond the root there is nothing to take. -/
def joinComponent (rooted : Bool) (before : List Text) (component : Text) : List Text :=
  if component.isEmpty || component == ofString "." then before
  else if component == ofString ".." then
    match before with
    | [] => if rooted then [] else [component]
    | last :: rest => if last == ofString ".." then component :: before else rest
  else component :: before

/-- The shortest path that names the same place if there are no links. -/
def clean (p : Text) : Text :=
  let rooted := isAbsolute p
  let components := ((splitOn slash p).foldl (joinComponent rooted) []).reverse
  if rooted then slash :: joinWith [slash] components
  else if components.isEmpty then "."
  else joinWith [slash] components

def join (parts : List Text) : Text :=
  let parts := parts.filter fun part => !part.isEmpty
  if parts.isEmpty then [] else clean (joinWith [slash] parts)

def absolute (cwd p : Text) : Text := if isAbsolute p then clean p else join [cwd, p]

/-- All but the last component. -/
def directory (p : Text) : Text := clean (dropRightWhile (· != slash) p)

def base (p : Text) : Text :=
  let trimmed := dropRightWhile (· == slash) p
  if p.isEmpty then "."
  else if trimmed.isEmpty then [slash]
  else (trimmed.reverse.takeWhile (· != slash)).reverse

end DeviceScript.Path
