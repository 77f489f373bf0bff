import TerminalMarkup.Text.Blank
import TerminalMarkup.Text.Lowercase

/-!
# Names of styles

Names are compared in a normal form: without blanks and underscores around them, and in lower case. A namespace is put
in front of a name with an underscore, and the names of a namespace are those that start with its normal form and an
underscore.
-/

namespace TerminalMarkup

namespace Name

/-- An underscore. -/
def isUnderscore (c : Char) : Bool := c == '_'

/-- The normal form of a name. -/
def normalize (s : Text) : Text := ((s.trim).strip isUnderscore).lowercase

/-- The start that the normal forms of the names of a namespace share. -/
def namespaceKey (ns : Text) : Text := normalize ns ++ ['_']

/-- Puts a namespace in front of a name. A namespace of blanks and underscores is none. -/
def qualify (ns : Option Text) (name : Text) : Text :=
  match ns.map fun ns => ns.trim.dropEndWhile isUnderscore with
  | some (c :: cs) => c :: cs ++ '_' :: name
  | _ => name

end Name
end TerminalMarkup
