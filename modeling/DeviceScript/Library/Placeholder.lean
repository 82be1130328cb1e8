import DeviceScript.Text.Segment

/-!
Placeholders for values that are known before a script runs, written as a section and a name
with a colon between them.
-/

namespace DeviceScript

open Text

structure Placeholder where
  sectionName : Text
  name : Text
deriving Repr, DecidableEq

abbrev Lookup := Text → Text → Option Text

namespace Placeholder

def isNameByte (b : UInt8) : Bool := isNamePart b || b == ascii '-'

def isSectionByte (b : UInt8) : Bool := isNameByte b || b == ascii '.'

def written (p : Placeholder) : Text := p.sectionName ++ ":" ++ p.name

def value? (lookup : Lookup) (p : Placeholder) : Option Text := lookup p.sectionName p.name

/-- The longest word at the front of a text, if it begins as a name does. -/
def word? (allowed : UInt8 → Bool) (t : Text) : Option (Text × Text) :=
  if t.head?.any isNameStart then some (t.takeWhile allowed, t.dropWhile allowed) else none

/-- A placeholder at the front of a text and what follows it. -/
def lead? (t : Text) : Option (Placeholder × Text) := do
  let (sectionName, rest) ← word? isSectionByte t
  let rest ← dropStart? ":" rest
  let (name, rest) ← word? isNameByte rest
  return (⟨sectionName, name⟩, rest)

def bare? (t : Text) : Option (Placeholder × Nat) :=
  (lead? t).map fun (p, _) => (p, p.written.length)

def braced? (t : Text) : Option (Placeholder × Nat) := do
  let inside ← dropStart? [0x7b] t
  let (p, rest) ← lead? inside
  if rest.head? == some 0x7d then some (p, p.written.length + 2) else none

/-- Fills in the placeholders in braces that have a value. -/
def expandLine (lookup : Lookup) (line : Text) : Text :=
  (Segment.cut braced? line).flatMap (Segment.expand (value? lookup))

/-- The placeholders of a kind that have no value. -/
def unresolved (lookup : Lookup) (find : Text → Option (Placeholder × Nat)) (t : Text) :
    List Placeholder :=
  ((Segment.cut find t).filterMap Segment.what?).filter fun p => (p.value? lookup).isNone

/-- Fills in all placeholders of a path, those in braces first. The ones without a value are
given back if there are any. -/
def expandPath (lookup : Lookup) (path : Text) : Except (List Placeholder) Text :=
  let missing := unresolved lookup braced? path
  if missing.isEmpty then
    let path := expandLine lookup path
    let missing := unresolved lookup bare? path
    if missing.isEmpty then .ok ((Segment.cut bare? path).flatMap (Segment.expand (value? lookup)))
    else .error missing
  else .error missing

end Placeholder
end DeviceScript
