import DeclGraph.Text.Utf8

/-!
The text of a file: its characters in UTF-8, and line feeds as its only line breaks.
-/

namespace DeclGraph.Text

/-- Carriage returns, with or without a line feed after them, become line feeds. -/
def unifyBreaks : List Char → List Char
  | [] => []
  | '\r' :: '\n' :: rest => '\n' :: unifyBreaks rest
  | c :: rest => (if c = '\r' then '\n' else c) :: unifyBreaks rest

def ofBytes (bytes : ByteArray) : Except Flaw String := do
  let text ← ofUtf8 bytes
  pure (String.ofList (unifyBreaks text.toList))

end DeclGraph.Text
