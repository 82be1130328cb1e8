import DeviceScript.Text.Basic

/-! Texts with marks in them: stretches to copy, and references to something else. -/

namespace DeviceScript.Text

/-- A stretch of a text: octets to copy, or a mark and the way it is written. -/
inductive Segment (α : Type) where
  | literal (t : Text)
  | mark (what : α) (written : Text)
deriving Repr, DecidableEq

namespace Segment

variable {α : Type}

def written : Segment α → Text
  | literal t => t
  | mark _ w => w

def what? : Segment α → Option α
  | literal _ => none
  | mark a _ => some a

/-- The text of a segment; a mark without a value stays as it is written. -/
def expand (value? : α → Option Text) : Segment α → Text
  | literal t => t
  | mark a w => (value? a).getD w

/-- Puts an octet in front of the literal that the segments begin with. -/
def consByte (b : UInt8) : List (Segment α) → List (Segment α)
  | literal t :: rest => literal (b :: t) :: rest
  | segments => literal [b] :: segments

/-- Cuts a text at the marks that `find` recognises at the front of what is left; with a mark
comes its width. The first `skip` octets belong to an earlier mark. -/
def cutAfter (find : Text → Option (α × Nat)) : Nat → Text → List (Segment α)
  | _, [] => []
  | skip + 1, _ :: rest => cutAfter find skip rest
  | 0, b :: rest =>
      match find (b :: rest) with
      | some (a, width) => mark a ((b :: rest).take width) :: cutAfter find (width - 1) rest
      | none => consByte b (cutAfter find 0 rest)

def cut (find : Text → Option (α × Nat)) (t : Text) : List (Segment α) := cutAfter find 0 t

end Segment
end DeviceScript.Text
