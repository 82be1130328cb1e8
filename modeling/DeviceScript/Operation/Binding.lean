import DeviceScript.Schema.Basic

/-! Parameters by name: the slots of a call bound to what the operation declares. -/

namespace DeviceScript

open Text

/-- The named parameters of one call. Every value is a text or an int. -/
structure Bound where
  op : Text
  values : List (Text × Value)
deriving Repr, DecidableEq

namespace Bound

def value? (b : Bound) (label : Text) : Option Value :=
  (b.values.find? fun entry => entry.1 == label).map Prod.snd

def has (b : Bound) (label : Text) : Bool := (b.value? label).isSome

def text (b : Bound) (label : Text) : Text :=
  match b.value? label with
  | some (.text t) => t
  | some (.int n) => ofInt n
  | _ => []

def int (b : Bound) (label : Text) : Int := ((b.value? label).bind Value.int?).getD 0

def flag (b : Bound) (label : Text) : Bool := b.int label != 0

/-- The last value that a parameter receives is the one that counts. -/
def set (b : Bound) (label : Text) (v : Value) : Bound :=
  { b with values := (label, v) :: b.values.filter fun entry => entry.1 != label }

end Bound

namespace ParamSpec

def convert (op : Text) (p : ParamSpec) (given : Value) : Except Reason Value :=
  if p.type = .int then
    match given with
    | .int n => .ok (.int n)
    | .text t =>
        match readInt t with
        | some n => .ok (.int n)
        | none => .error (.textNotInt op p.label t)
    | other => .error (.valueNotInt op p.label other)
  else .ok (.text given.render)

/-- The value of a parameter whose slot holds `slot`: the slot, else the declared fallback. -/
def bindSlot (op : Text) (p : ParamSpec) (slot : Value) : Except Reason (Option Value) :=
  let given := if slot = .absent then p.fallback else slot
  if given = .absent then
    if p.required then .error (.missingParam op p.label) else .ok none
  else (p.convert op given).map some

end ParamSpec

namespace OperationSpec

/-- Binds parameters in order, slot by slot; a missing slot counts as absent. -/
def bindParams (op : Text) : List ParamSpec → List Value → Bound → Except Reason Bound
  | [], _, bound => .ok bound
  | p :: rest, slots, bound =>
      match p.bindSlot op (slots.head?.getD .absent) with
      | .error reason => .error reason
      | .ok none => bindParams op rest slots.tail bound
      | .ok (some v) => bindParams op rest slots.tail (bound.set p.label v)

def bind (o : OperationSpec) (slots : List Value) : Except Reason Bound :=
  if o.params.length < slots.length then
    .error (.tooManyParams o.name o.params.length slots.length)
  else bindParams o.name o.params slots ⟨o.name, []⟩

end OperationSpec
end DeviceScript
