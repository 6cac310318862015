import CacheModel.Text.Hidden
import CacheModel.Text.Numeral

/-!
# Text shown for inspection

A text between double quotes in which every character can be seen: what leaves no mark of its own
is written as an escape, the common control characters by a letter and all others by their number.
-/

namespace CacheModel.Text

/-- How one character is shown. -/
def expose (c : Char) : List Char :=
  match c with
  | '"' => ['\\', '"']
  | '\\' => ['\\', '\\']
  | '\n' => ['\\', 'n']
  | '\r' => ['\\', 'r']
  | '\t' => ['\\', 't']
  | '\x00' => ['\\', '0']
  | c =>
    if isHidden c then '\\' :: 'u' :: '{' :: Nat.toDigits 16 c.toNat ++ ['}'] else [c]

/-- `text` between double quotes, for inspection. -/
def inspect (text : String) : String :=
  String.ofList ('"' :: text.toList.flatMap expose ++ ['"'])

end CacheModel.Text
