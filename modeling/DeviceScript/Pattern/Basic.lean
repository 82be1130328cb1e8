import DeviceScript.Text.Fold

/-!
Search patterns: sets of characters, assertions, groups and prioritized repetition.
-/

namespace DeviceScript

/-- A union of ranges of code points, or its complement. -/
structure CharRanges where
  negated : Bool
  ranges : List (Nat × Nat)
deriving Repr, DecidableEq

/-- A character class. With `fold`, a range holds every character that differs from one of its
members by case only; complements are taken after that. -/
structure CharClass where
  negated : Bool
  fold : Bool
  items : List CharRanges
deriving Repr, DecidableEq

namespace CharRanges

def covers (ranges : List (Nat × Nat)) (code : Nat) : Bool :=
  ranges.any fun (lo, hi) => lo ≤ code && code ≤ hi

def mem (item : CharRanges) (fold : Bool) (code : Nat) : Bool :=
  let held :=
    if fold then (Text.foldOrbit code).any (covers item.ranges) else covers item.ranges code
  held != item.negated

end CharRanges

namespace CharClass

def mem (c : CharClass) (code : Nat) : Bool :=
  (c.items.any fun item => item.mem c.fold code) != c.negated

def single (fold : Bool) (code : Nat) : CharClass := ⟨false, fold, [⟨false, [(code, code)]⟩]⟩

def any : CharClass := ⟨true, false, []⟩

def anyButNewline : CharClass := ⟨true, false, [⟨false, [(10, 10)]⟩]⟩

end CharClass

inductive Assertion where
  | beginLine
  | endLine
  | beginText
  | endText
  | wordBoundary
  | noWordBoundary
deriving Repr, DecidableEq

inductive Pattern where
  | empty
  | char (c : CharClass)
  | assertion (a : Assertion)
  | capture (index : Nat) (body : Pattern)
  | seq (first second : Pattern)
  | alt (first second : Pattern)
  | repetition (body : Pattern) (least : Nat) (most : Option Nat) (greedy : Bool)
deriving Repr

namespace Pattern

def nullable : Pattern → Bool
  | empty => true
  | char _ => false
  | assertion _ => true
  | capture _ body => body.nullable
  | seq first second => first.nullable && second.nullable
  | alt first second => first.nullable || second.nullable
  | repetition body least _ _ => least == 0 || body.nullable

/-- The product of nested bounded repetitions stays within `limit`. -/
def repeatsWithin (limit : Nat) : Pattern → Bool
  | empty | char _ | assertion _ => true
  | capture _ body => body.repeatsWithin limit
  | seq first second => first.repeatsWithin limit && second.repeatsWithin limit
  | alt first second => first.repeatsWithin limit && second.repeatsWithin limit
  | repetition body least most _ =>
      let count := most.getD least
      if most == some 0 then true
      else if limit < count then false
      else body.repeatsWithin (if count == 0 then limit else limit / count)

end Pattern
end DeviceScript
