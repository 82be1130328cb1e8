import DeviceScript.Text.Basic

/-! Tokens of a script: one that starts a statement, then its arguments. -/

namespace DeviceScript

inductive TokenKind where
  | sectionName
  | command
  | operation
  | keyword
  | comment
  | inclusion
  | variableRef
  | comparison
  | word
  | number
  | quoted
  | other (name : Text)
deriving Repr, DecidableEq

structure Token where
  kind : TokenKind
  text : Text
  line : Int
deriving Repr, DecidableEq

namespace TokenKind

def named : List (String × TokenKind) :=
  [("SECTION", sectionName), ("COMMAND", command), ("API", operation), ("KEYWORD", keyword),
   ("COMMENT", comment), ("INCLUDE", inclusion), ("VARIABLE", variableRef),
   ("OPERATOR", comparison), ("IDENT", word), ("NUMBER", number), ("STRING", quoted)]

def name : TokenKind → Text
  | sectionName => "SECTION"
  | command => "COMMAND"
  | operation => "API"
  | keyword => "KEYWORD"
  | comment => "COMMENT"
  | inclusion => "INCLUDE"
  | variableRef => "VARIABLE"
  | comparison => "OPERATOR"
  | word => "IDENT"
  | number => "NUMBER"
  | quoted => "STRING"
  | other name => name

def ofName (name : Text) : TokenKind :=
  match named.find? fun entry => Text.ofString entry.1 == name with
  | some (_, kind) => kind
  | none => other name

def isPrimary : TokenKind → Bool
  | sectionName | command | operation | keyword | comment | inclusion => true
  | _ => false

end TokenKind

namespace Token

def isPrimary (t : Token) : Bool := t.kind.isPrimary

def render (t : Token) : Text :=
  Text.ofInt t.line ++ " [" ++ t.kind.name ++ "] '" ++ t.text ++ "'"

end Token

/-- Words that lex as operators among the arguments. -/
def operatorWords : List Text :=
  ["==", "!=", "<=", ">=", "<", ">", "eq", "ne", "lt", "gt", "le", "ge", "contains",
   "!contains", "match", "and", "or"]

def isOperator (t : Text) : Bool := operatorWords.contains t

/-- A statement: its first token and the argument tokens after it. -/
structure Statement where
  head : Token
  args : List Token
deriving Repr, DecidableEq

/-- Cuts a token list before every primary token. -/
def statements : List Token → List Statement
  | [] => []
  | head :: rest =>
      match statements rest with
      | [] => [⟨head, []⟩]
      | following :: others =>
          if following.head.isPrimary then ⟨head, []⟩ :: following :: others
          else ⟨head, following.head :: following.args⟩ :: others

end DeviceScript
