import DeviceScript.Data.Datum
import DeviceScript.Number.Reading

/-!
Nodes of a YAML document and the values that their scalars stand for.
-/

namespace DeviceScript.Yaml

open Text

inductive Node where
  | scalar (tag : Text) (quoted : Bool) (value : Text)
  | sequence (tag : Text) (items : List Node)
  | mapping (tag : Text) (entries : List (Node × Node))
deriving Repr

def Node.empty : Node := .scalar [] false []

def Node.withTag (tag : Text) (node : Node) : Node :=
  if tag.isEmpty then node
  else
    match node with
    | .scalar _ quoted value => .scalar tag quoted value
    | .sequence _ items => .sequence tag items
    | .mapping _ entries => .mapping tag entries

private def words (ws : List String) (t : Text) : Bool := ws.any fun w => ofString w == t

/-- A whole number in a base given by its mark: `0x`, `0o` or a leading zero, `0b`. -/
private def readBased (t : Text) : Option Int :=
  let (sign, body) : Int × Text :=
    match t with
    | [] => (1, [])
    | b :: rest =>
        if b == ascii '-' then (-1, rest) else if b == ascii '+' then (1, rest) else (1, b :: rest)
  let (base, digits) : Nat × Text :=
    match body with
    | z :: mark :: rest =>
        if z == ascii '0' then
          let letter := toLowerByte mark
          if letter == ascii 'x' then (16, rest)
          else if letter == ascii 'o' then (8, rest)
          else if letter == ascii 'b' then (2, rest)
          else (8, mark :: rest)
        else (10, body)
    | _ => (10, body)
  let value? := digits.foldlM
    (fun value b => ((hexValue? b).filter (· < base)).map (value * base + ·)) 0
  if digits.isEmpty then none
  else
    value?.bind fun (value : Nat) =>
      let signed := sign * (value : Int)
      let unsigned := t == body
      if minInt ≤ signed && (signed ≤ maxInt || (unsigned && signed < 18446744073709551616)) then some signed
      else none

/-- Decimal notation of a float: digits with at most one point and an optional exponent. -/
private def isPlainFloat (t : Text) : Bool :=
  let body :=
    match t with
    | [] => []
    | b :: rest => if b == ascii '-' || b == ascii '+' then rest else b :: rest
  let whole := body.takeWhile isDigit
  let rest := body.drop whole.length
  let afterPoint? : Option Text :=
    match rest with
    | [] => some []
    | b :: after =>
        if b == ascii '.' then
          let part := after.takeWhile isDigit
          if whole.isEmpty && part.isEmpty then none else some (after.drop part.length)
        else if whole.isEmpty then none
        else some (b :: after)
  match afterPoint? with
  | none => false
  | some [] => !body.isEmpty
  | some (e :: exponent) =>
      let digits :=
        match exponent with
        | [] => []
        | b :: more => if b == ascii '-' || b == ascii '+' then more else b :: more
      toLowerByte e == ascii 'e' && !digits.isEmpty && digits.all isDigit

private def readMoment (t : Text) : Option Moment := do
  let (year, month, day, rest) ← Moment.readDate false t
  match rest with
  | [] => Moment.checked ⟨year, month, day, 0, 0, 0, 0, 0, "UTC"⟩
  | b :: afterDate =>
      let (hour, minute, second, nanosecond, rest) ← Moment.readTime false afterDate
      if b == ascii 'T' || b == ascii 't' then
        let (offset, zone) ← Moment.readZone rest
        Moment.checked ⟨year, month, day, hour, minute, second, nanosecond, offset, zone⟩
      else do
        guard (b == ascii ' ' && rest.isEmpty)
        Moment.checked ⟨year, month, day, hour, minute, second, nanosecond, 0, "UTC"⟩

def resolvePlain (t : Text) : Datum :=
  if words ["", "~", "null", "Null", "NULL"] t then .null
  else if words ["true", "True", "TRUE"] t then .bool true
  else if words ["false", "False", "FALSE"] t then .bool false
  else if words [".nan", ".NaN", ".NAN"] t then .float .nan
  else if words [".inf", ".Inf", ".INF", "+.inf", "+.Inf", "+.INF"] t then .float (.infinite false)
  else if words ["-.inf", "-.Inf", "-.INF"] t then .float (.infinite true)
  else
    match t with
    | [] => .null
    | b :: _ =>
        if b == ascii '.' then
          match Binary64.read t with
          | some f => .float f
          | none => .text t
        else if isDigit b || b == ascii '-' || b == ascii '+' then
          match readMoment t with
          | some m => .moment m
          | none =>
              let plain := t.filter (· != ascii '_')
              match readBased plain with
              | some n => .int n
              | none =>
                  if isPlainFloat plain then
                    match Binary64.read plain with
                    | some f => .float f
                    | none => .text t
                  else .text t
        else .text t

/-- The value of a scalar; nothing if it does not fit its tag. -/
def resolveScalar (tag : Text) (quoted : Bool) (value : Text) : Option Datum :=
  if tag.isEmpty then some (if quoted then .text value else resolvePlain value)
  else if tag == ofString "!!str" || tag == ofString "!" then some (.text value)
  else if tag == ofString "!!int" then
    match resolvePlain value with
    | .int n => some (.int n)
    | _ => none
  else if tag == ofString "!!float" then
    match resolvePlain value with
    | .float f => some (.float f)
    | .int n => some (.float (Binary64.ofInt n))
    | _ => none
  else if tag == ofString "!!bool" then
    match resolvePlain value with
    | .bool b => some (.bool b)
    | _ => none
  else if tag == ofString "!!null" then
    match resolvePlain value with
    | .null => some .null
    | _ => none
  else some (.text value)

def Node.keyText : Node → Text
  | .scalar _ _ value => value
  | _ => []

/-- Two keys are the same if they are written the same, quotes aside. -/
def hasRepeatedKey : List Text → Bool
  | [] => false
  | key :: rest => rest.contains key || hasRepeatedKey rest

mutual

/-- The value of a node where any value may stand. Keys of a mapping must be scalars and must
not repeat. -/
def Node.toDatum : Node → Option Datum
  | .scalar tag quoted value => resolveScalar tag quoted value
  | .sequence _ items => (itemsToData items).map .list
  | .mapping _ entries =>
      if hasRepeatedKey (entries.map fun entry => entry.1.keyText) then none
      else (entriesToData entries).map .table

def itemsToData : List Node → Option (List Datum)
  | [] => some []
  | item :: rest =>
      match item.toDatum, itemsToData rest with
      | some first, some others => some (first :: others)
      | _, _ => none

def entriesToData : List (Node × Node) → Option (List (Datum × Datum))
  | [] => some []
  | (key, value) :: rest =>
      match key.toDatum, value.toDatum, entriesToData rest with
      | some (.list _), _, _ => none
      | some (.table _), _, _ => none
      | some first, some second, some others => some ((first, second) :: others)
      | _, _, _ => none

end

end DeviceScript.Yaml
