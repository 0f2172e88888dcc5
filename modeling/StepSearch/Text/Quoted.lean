import StepSearch.Text.Escaped

/-!
# Quoted text

A text in double quotes as it stands in messages: the quote and the backslash after a backslash, the
common control characters by letter, and every other character without a glyph of its own by its
code point.
-/

namespace StepSearch.Text

/-- The code point of a character in lower-case hexadecimal, without padding. -/
def hexCode (c : Char) : List Char :=
  Nat.toDigits 16 c.toNat

def quoteChar (c : Char) : List Char :=
  match c with
  | '"' => ['\\', '"']
  | '\\' => ['\\', '\\']
  | '\t' => ['\\', 't']
  | '\r' => ['\\', 'r']
  | '\n' => ['\\', 'n']
  | '\x00' => ['\\', '0']
  | c => if isEscaped c then ['\\', 'u', '\x7b'] ++ hexCode c ++ ['\x7d'] else [c]

def quote (text : String) : String :=
  String.ofList (['"'] ++ text.toList.flatMap quoteChar ++ ['"'])

end StepSearch.Text
