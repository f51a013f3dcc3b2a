import SliderCalculator.CommandLine.Run

/-!
# The program

The program reads its input line by line as the dialogue goes on, and writes each answer
before it reads the next line.
-/

namespace SliderCalculator.CommandLine

/-- Writes an answer and its diagnostics. -/
def write (output diagnostics : Text) : IO Unit := do
  (← IO.getStderr).putStr (String.ofList diagnostics)
  let out ← IO.getStdout
  out.putStr (String.ofList output)
  out.flush

/-- Reads a line after bytes that belong to it, the last of which comes first. There is
none at the end of the input. -/
partial def readLine (input : IO.FS.Stream) (read : List UInt8) :
    IO (Option (List UInt8)) := do
  let bytes ← input.read 1
  match bytes.toList with
  | [] => return if read.isEmpty then none else some read.reverse
  | b :: _ =>
    if b == lineFeed then
      return some (endLine read)
    else
      readLine input (b :: read)

/-- Asks for lines and answers them. -/
partial def loop (level : LogLevel) (s : Session) : IO UInt32 := do
  write prompt []
  match ← readLine (← IO.getStdin) [] with
  | none => return 0
  | some line =>
    match respond s (decode? line) with
    | .finished => return 0
    | .unreadable =>
      write [] badInputText
      return 1
    | .answered after output events =>
      write output (Event.log level events)
      loop level after

end SliderCalculator.CommandLine

open SliderCalculator.CommandLine in
/-- Runs the program. -/
def main (arguments : List String) : IO UInt32 := do
  match start (arguments.map String.toList) with
  | .ended ending =>
    write ending.output ending.diagnostics
    return ending.exitCode.toUInt32
  | .dialogue level session => loop level session
