import DeviceScript.Pattern.Reader

/-!
Searching a text for a pattern. A pattern is laid out as instructions; the search keeps, at
each position, the threads that are still alive in the order of their priority, and no two at
one instruction, so its time is the product of the two lengths. The leftmost match wins, and
among those the one of highest priority.
-/

namespace DeviceScript.Pattern

open Text

inductive Inst where
  | accept
  | char (c : CharClass) (next : Nat)
  | assertion (a : Assertion) (next : Nat)
  | save (slot next : Nat)
  | fork (first second : Nat)

structure Searcher where
  insts : Array Inst
  start : Nat
  groups : Nat

def forked (greedy : Bool) (more done : Nat) : Inst :=
  if greedy then .fork more done else .fork done more

/-- Lays something out in front of an instruction and gives the place it starts at. -/
abbrev Layer := Nat → Array Inst → Nat × Array Inst

namespace Layer

/-- The layer `count` times in a row, the last of them being where `entry` starts. -/
def copies (layer : Layer) : Nat → Nat × Array Inst → Nat × Array Inst
  | 0, entry => entry
  | count + 1, entry =>
      let (start, code) := copies layer count entry
      layer start code

def optional (layer : Layer) (greedy : Bool) (next entry : Nat) (code : Array Inst) :
    Nat × Array Inst :=
  let (start, code) := layer entry code
  (code.size, code.push (forked greedy start next))

/-- The layer up to `count` times. The copies nest, so that each needs the one before it. -/
def upTo (layer : Layer) (greedy : Bool) (next : Nat) : Nat → Array Inst → Nat × Array Inst
  | 0, code => (next, code)
  | count + 1, code =>
      let (entry, code) := upTo layer greedy next count code
      optional layer greedy next entry code

/-- The layer, then a fork back to it; gives the start of the layer. The fork is at the place
that the instructions reach up to before. -/
def oneOrMore (layer : Layer) (greedy : Bool) (next : Nat) (code : Array Inst) :
    Nat × Array Inst :=
  let fork := code.size
  let (start, code) := layer fork (code.push (.fork next next))
  (start, code.setIfInBounds fork (forked greedy start next))

/-- With a layer that can be passed without reading, one more pass in front of the loop decides
whether there is any. -/
def zeroOrMore (layer : Layer) (nullable greedy : Bool) (next : Nat) (code : Array Inst) :
    Nat × Array Inst :=
  let (start, laid) := oneOrMore layer greedy next code
  if nullable then (laid.size, laid.push (forked greedy start next)) else (code.size, laid)

end Layer

/-- Lays out a pattern in front of the instruction `next` and gives the place it starts at. -/
def layOut : Pattern → Layer
  | .empty, next, code => (next, code)
  | .char c, next, code => (code.size, code.push (.char c next))
  | .assertion a, next, code => (code.size, code.push (.assertion a next))
  | .capture index body, next, code =>
      let closing := code.size
      let (start, code) := layOut body closing (code.push (.save (2 * index + 1) next))
      (code.size, code.push (.save (2 * index) start))
  | .seq first second, next, code =>
      let (start, code) := layOut second next code
      layOut first start code
  | .alt first second, next, code =>
      let (left, code) := layOut first next code
      let (right, code) := layOut second next code
      (code.size, code.push (.fork left right))
  | .repetition body 0 none greedy, next, code =>
      Layer.zeroOrMore (layOut body) body.nullable greedy next code
  | .repetition body (least + 1) none greedy, next, code =>
      Layer.copies (layOut body) least (Layer.oneOrMore (layOut body) greedy next code)
  | .repetition body least (some most) greedy, next, code =>
      Layer.copies (layOut body) least (Layer.upTo (layOut body) greedy next (most - least) code)

def Searcher.ofPattern (p : Pattern) (groups : Nat) : Searcher :=
  let (start, insts) := layOut p 1 #[.accept, .save 1 0]
  ⟨insts.push (.save 0 start), insts.size, groups⟩

def compile (t : Text) : Except Refusal Searcher :=
  (read t).map fun (p, groups) => Searcher.ofPattern p groups

/-- A thread of the search: where it is and where its groups began and ended. -/
structure Thread where
  place : Nat
  slots : Array (Option Nat)

def isWordCode (code : Nat) : Bool := code < 128 && isNamePart code.toUInt8

def Assertion.holds (a : Assertion) (previous following : Option Nat) : Bool :=
  let onBoundary := previous.any isWordCode != following.any isWordCode
  match a with
  | .beginLine => previous.all (· == 10)
  | .endLine => following.all (· == 10)
  | .beginText => previous.isNone
  | .endText => following.isNone
  | .wordBoundary => onBoundary
  | .noWordBoundary => !onBoundary

/-- Follows the instructions that read nothing, and keeps the threads that wait for a character
or accept. An instruction that an earlier thread reached is not entered again, so every entry
of the work list is either dropped or marks a new instruction. -/
def settle (insts : Array Inst) (position : Nat) (previous following : Option Nat) :
    Nat → Array Bool → List Thread → List Thread
  | 0, _, _ => []
  | _, _, [] => []
  | fuel + 1, reached, thread :: work =>
      if (reached[thread.place]?).getD true then
        settle insts position previous following fuel reached work
      else
        let marked := reached.setIfInBounds thread.place true
        match insts[thread.place]? with
        | none => settle insts position previous following fuel marked work
        | some (.assertion a next) =>
            let work :=
              if Assertion.holds a previous following then { thread with place := next } :: work
              else work
            settle insts position previous following fuel marked work
        | some (.save slot next) =>
            let moved := ⟨next, thread.slots.setIfInBounds slot (some position)⟩
            settle insts position previous following fuel marked (moved :: work)
        | some (.fork first second) =>
            settle insts position previous following fuel marked
              ({ thread with place := first } :: { thread with place := second } :: work)
        | some _ => thread :: settle insts position previous following fuel marked work

/-- Moves the threads over one character, in order, up to the first that accepts. -/
def advance (insts : Array Inst) (following : Option Nat) :
    List Thread → List Thread × Option (Array (Option Nat))
  | [] => ([], none)
  | thread :: rest =>
      match insts[thread.place]? with
      | some .accept => ([], some thread.slots)
      | some (.char c next) =>
          let (moved, accepted) := advance insts following rest
          if following.any c.mem then ({ thread with place := next } :: moved, accepted)
          else (moved, accepted)
      | _ => advance insts following rest

def searchFrom (s : Searcher) (previous : Option Nat) (position : Nat)
    (threads : List Thread) (best : Option (Array (Option Nat))) :
    List Rune → Option (Array (Option Nat))
  | [] =>
      let seeds := if best.isNone then threads ++ [fresh] else threads
      let alive := settle s.insts position previous none fuel blank seeds
      (advance s.insts none alive).2.or best
  | r :: rest =>
      let seeds := if best.isNone then threads ++ [fresh] else threads
      if seeds.isEmpty then best
      else
        let alive := settle s.insts position previous (some r.code) fuel blank seeds
        let (moved, accepted) := advance s.insts (some r.code) alive
        searchFrom s (some r.code) (position + r.raw.length) moved (accepted.or best) rest
where
  fresh : Thread := ⟨s.start, Array.replicate (2 * s.groups + 2) none⟩
  blank : Array Bool := Array.replicate s.insts.size false
  fuel : Nat := 4 * s.insts.size + 2 * threads.length + 4

/-- The octet positions where the match and each group begin and end. -/
def Searcher.find (s : Searcher) (t : Text) : Option (Array (Option Nat)) :=
  searchFrom s none 0 [] none (runes t)

def Searcher.isMatch (s : Searcher) (t : Text) : Bool := (s.find t).isSome

def Searcher.matchEnd? (s : Searcher) (t : Text) : Option Nat :=
  (s.find t).bind fun slots => (slots[1]?).join

/-- The text of a group of the match; empty if the group took no part. -/
def groupText (t : Text) (slots : Array (Option Nat)) (index : Nat) : Text :=
  match (slots[2 * index]?).join, (slots[2 * index + 1]?).join with
  | some start, some stop => (t.take stop).drop start
  | _, _ => []

/-- The first group of the leftmost match, or the whole match if there are no groups. -/
def Searcher.capture? (s : Searcher) (t : Text) : Option Text :=
  (s.find t).map fun slots => groupText t slots (if s.groups > 0 then 1 else 0)

end DeviceScript.Pattern
