import SliderCalculator.Text.Ascii

/-!
# Lines of input

The input of a dialogue is bytes. A line ends with a line feed, before which a carriage
return is not part of the line; what follows the last line feed is a line too unless it is
empty. A line is text when its bytes are UTF-8.
-/

namespace SliderCalculator.CommandLine

/-- The byte that ends a line. -/
def lineFeed : UInt8 := 10

/-- The byte that is dropped before the end of a line. -/
def carriageReturn : UInt8 := 13

/-- The line that consists of bytes, the last of which comes first, and is ended by a line
feed. -/
def endLine : List UInt8 → List UInt8
  | [] => []
  | b :: bytes => if b = carriageReturn then bytes.reverse else (b :: bytes).reverse

/-- The lines of an input after bytes that belong to its first line, the last of which
comes first. -/
def linesAfter (read : List UInt8) : List UInt8 → List (List UInt8)
  | [] => if read.isEmpty then [] else [read.reverse]
  | b :: bytes =>
    if b = lineFeed then
      endLine read :: linesAfter [] bytes
    else
      linesAfter (b :: read) bytes

/-- The lines of an input without what ends them. -/
def lines (input : List UInt8) : List (List UInt8) :=
  linesAfter [] input

/-- The text of a line, if its bytes are UTF-8. -/
def decode? (line : List UInt8) : Option Text :=
  (String.fromUTF8? ⟨line.toArray⟩).map String.toList

end SliderCalculator.CommandLine
