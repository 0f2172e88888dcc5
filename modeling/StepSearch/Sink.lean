/-!
# Sinks

Where text goes. A sink may have a capacity; text that does not fit is cut at the last byte that
does and the write fails.
-/

namespace StepSearch

/-- The bytes written so far, and how many bytes there may be. -/
structure Sink where
  capacity : Option Nat := none
  written : ByteArray := .empty

namespace Sink

/-- Why a sink refuses a byte. -/
def refusal : String := "sink is full"

/-- Writes a text, and says whether all of it was accepted. -/
def write (s : Sink) (text : String) : Bool × Sink :=
  let bytes := text.toUTF8
  match s.capacity with
  | none => (true, { s with written := s.written ++ bytes })
  | some capacity =>
    let room := capacity - s.written.size
    if bytes.size ≤ room then (true, { s with written := s.written ++ bytes })
    else (false, { s with written := s.written ++ bytes.extract 0 room })

end Sink

end StepSearch
