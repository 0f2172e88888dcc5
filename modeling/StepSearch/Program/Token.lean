import StepSearch.Text.Blank

/-!
# Tokens of program text

A program text consists of braces and words. A brace is a token by itself; a word is a longest run
of characters that are neither braces nor white space. A token knows the byte offset of its first
character in the UTF-8 form of the text.
-/

namespace StepSearch

inductive Lexeme where
  | opening
  | closing
  | word (text : String)
deriving DecidableEq, Repr

def Lexeme.text : Lexeme → String
  | opening => "\x7b"
  | closing => "\x7d"
  | word text => text

/-- A token and the byte offset at which it starts. -/
structure Token where
  offset : Nat
  lexeme : Lexeme
deriving DecidableEq, Repr

namespace Token

/-- The brace that a character is, if it is one. -/
def brace? (c : Char) : Option Lexeme :=
  if c = '\x7b' then some .opening else if c = '\x7d' then some .closing else none

def isWordChar (c : Char) : Bool :=
  !Text.isBlank c && (brace? c).isNone

/-- The number of bytes of some characters in UTF-8. -/
def byteSize : List Char → Nat
  | [] => 0
  | c :: cs => c.utf8Size + byteSize cs

/-- The tokens of a text that starts at the given byte offset. -/
def scan (offset : Nat) : List Char → List Token
  | [] => []
  | c :: cs =>
    match brace? c with
    | some lexeme => ⟨offset, lexeme⟩ :: scan (offset + c.utf8Size) cs
    | none =>
      if isWordChar c then
        let word := c :: cs.takeWhile isWordChar
        ⟨offset, .word (String.ofList word)⟩ ::
          scan (offset + byteSize word) (cs.dropWhile isWordChar)
      else scan (offset + c.utf8Size) cs
termination_by cs => cs.length
decreasing_by
  all_goals simp only [List.length_cons]
  · omega
  · exact Nat.lt_succ_of_le (List.dropWhile_sublist _).length_le
  · omega

def scanText (text : String) : List Token :=
  scan 0 text.toList

end Token

end StepSearch
