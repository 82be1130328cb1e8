import DeviceScript.Text.Basic

/-! What a source can get wrong, and how it is told. -/

namespace DeviceScript

open Text

inductive SyntaxProblem where
  | danglingTerminator (keyword : Text)
  | outsideLoop (keyword : Text)
  | takesNoExpression (keyword : Text)
  | unexpectedKeyword (keyword : Text) (expected : List Text)
  | missingTerminator (expected : List Text)
  | conditionRequired (keyword : Text)
  | conditionShape (keyword : Text)
  | badOperand (keyword : Text)
  | notComparison (keyword word : Text)
  | notConjunction (keyword word : Text)
  | emptySection
  | inclusionWithoutPath
  | inclusionOfVariable (path : Text)
  | unknownToken (kind : Text)
  | missingParam (op label : Text)
  | tooManyParams (op : Text) (most given : Nat)
  | notAFlag (op word : Text)
  | unknownFlag (op flag : Text)
  | repeatedFlag (op flag : Text)
  | flagWithoutValue (op flag : Text)
  | missingOption (op label : Text)
  | notInt (op label word : Text)
deriving Repr, DecidableEq

namespace SyntaxProblem

private def expectation (terms : List Text) : Text :=
  joinWith " or " (terms.map fun t => "<" ++ t ++ ">")

def message : SyntaxProblem → Text
  | danglingTerminator keyword => "dangling terminator <" ++ keyword ++ ">: no open block"
  | outsideLoop keyword => "<" ++ keyword ++ "> outside of a loop"
  | takesNoExpression keyword => "<" ++ keyword ++ "> takes no expression"
  | unexpectedKeyword keyword expected =>
      "unexpected <" ++ keyword ++ ">: expected " ++ expectation expected
  | missingTerminator expected => "missing terminator: expected " ++ expectation expected
  | conditionRequired keyword => "<" ++ keyword ++ "> requires a condition"
  | conditionShape keyword =>
      "malformed condition in <" ++ keyword ++ ">: expected 'value operator value'"
  | badOperand keyword => "malformed condition in <" ++ keyword ++ ">: bad operand"
  | notComparison keyword word =>
      "malformed condition in <" ++ keyword ++ ">: '" ++ word ++ "' is not a comparison operator"
  | notConjunction keyword word =>
      "malformed condition in <" ++ keyword ++ ">: expected 'and' or 'or', got '" ++ word ++ "'"
  | emptySection => "empty section header"
  | inclusionWithoutPath => "include requires a path"
  | inclusionOfVariable path => "include path '" ++ path ++ "' references a runtime variable"
  | unknownToken kind => "unknown token type " ++ kind
  | missingParam op label => op ++ ": missing required parameter '" ++ label ++ "'"
  | tooManyParams op most given =>
      op ++ ": takes at most " ++ ofNat most ++ " parameters, got " ++ ofNat given
  | notAFlag op word => op ++ ": expected an option flag, got '" ++ word ++ "'"
  | unknownFlag op flag => op ++ ": unknown option '" ++ flag ++ "'"
  | repeatedFlag op flag => op ++ ": option '" ++ flag ++ "' given twice"
  | flagWithoutValue op flag => op ++ ": option '" ++ flag ++ "' needs a value"
  | missingOption op label => op ++ ": missing required option '-" ++ label ++ "'"
  | notInt op label word =>
      op ++ ": parameter '" ++ label ++ "' expects an int, got '" ++ word ++ "'"

end SyntaxProblem
end DeviceScript
