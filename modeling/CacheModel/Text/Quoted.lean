import CacheModel.Text.Numeral

/-!
# Quoted text in structured data

A text between double quotes, in which the quote, the backslash and the control characters below
the blank are written as escapes and everything else stands as it is.
-/

namespace CacheModel.Text

/-- How one character is written inside quotes. -/
def escape (c : Char) : List Char :=
  match c with
  | '"' => ['\\', '"']
  | '\\' => ['\\', '\\']
  | '\x08' => ['\\', 'b']
  | '\x0c' => ['\\', 'f']
  | '\n' => ['\\', 'n']
  | '\r' => ['\\', 'r']
  | '\t' => ['\\', 't']
  | c => if c.toNat < 0x20 then '\\' :: 'u' :: (hexPadded 4 c.toNat).toList else [c]

/-- `text` between double quotes. -/
def quote (text : String) : String :=
  String.ofList ('"' :: text.toList.flatMap escape ++ ['"'])

end CacheModel.Text
