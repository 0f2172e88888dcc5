/-!
# Lines

A text is a sequence of lines. A line ends with a line feed, and a carriage return right before it
belongs to the end of the line; the last line may lack its end. Writing ends every line with a line
feed.
-/

namespace StepSearch.Text

/-- Puts a character at the front of the first line. -/
def consLine (c : Char) : List (List Char) → List (List Char)
  | [] => [[c]]
  | line :: rest => (c :: line) :: rest

/-- Splits a text into its lines, without their ends. -/
def splitLines : List Char → List (List Char)
  | [] => []
  | '\n' :: cs => [] :: splitLines cs
  | '\r' :: '\n' :: cs => [] :: splitLines cs
  | c :: cs => consLine c (splitLines cs)

def lines (text : String) : List String :=
  (splitLines text.toList).map String.ofList

/-- The text that consists of the given lines, each ended by a line feed. -/
def unlines (lines : List String) : String :=
  lines.foldl (fun text line => text ++ line ++ "\n") ""

end StepSearch.Text
