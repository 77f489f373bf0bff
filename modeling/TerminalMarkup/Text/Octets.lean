import TerminalMarkup.Text.Basic

/-!
# Texts as octets

Files and streams hold octets, which stand for a text if they are well-formed UTF-8.
-/

namespace TerminalMarkup

namespace Text

/-- The octets of a text. -/
def octets (s : Text) : List UInt8 := (String.ofList s).toUTF8.toList

/-- The text that octets stand for. -/
def ofOctets? (bytes : List UInt8) : Option Text := (String.fromUTF8? ⟨bytes.toArray⟩).map String.toList

end Text
end TerminalMarkup
