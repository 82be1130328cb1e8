import DeviceScript.Token.Basic
import DeviceScript.Text.Quoted
import DeviceScript.Text.Blank

/-! Writing tokens back as source text, one line per statement. -/

namespace DeviceScript

open Text

namespace Token

/-- A token as an argument: quoted text gets its quotes back. -/
def argumentText (t : Token) : Text :=
  match t.kind with
  | .quoted => quote t.text
  | _ => t.text

def headText (t : Token) : Text :=
  match t.kind with
  | .sectionName => "[" ++ t.text ++ "]"
  | .comment => "#" ++ t.text
  | .inclusion => trim ("include " ++ t.text)
  | .keyword => "<" ++ t.text
  | _ => t.argumentText

end Token

def Statement.render (s : Statement) : Text :=
  joinWith " " (s.head.headText :: s.args.map Token.argumentText)
    ++ (if s.head.kind = .keyword then [ascii '>'] else [])

def renderTokens (tokens : List Token) : Text :=
  joinWith [newline] ((statements tokens).map Statement.render)

end DeviceScript
