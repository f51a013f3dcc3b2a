import SliderCalculator.CommandLine.Input
import SliderCalculator.Log

/-!
# The dialogue

In a dialogue each line is a step of a session: an assignment when it holds an equals
sign, and a formula otherwise. The answer shows the variables and the number, or what is
wrong. A blank line ends the dialogue, and so does a line that is not text.
-/

namespace SliderCalculator

/-- The step that a line stands for. -/
def Step.ofLine (line : Text) : Step :=
  if '=' ∈ line then .assign line else .formula line

namespace CommandLine

/-- What is written to ask for a line. -/
def prompt : Text :=
  "> ".toList

/-- The variables on a line, as assignments. Nothing is written when there are none. -/
def showVariables (values : Variables) : Text :=
  match values.entries with
  | [] => []
  | e :: es =>
    ", ".toList.intercalate ((e :: es).map fun e => Assignment.text ⟨e.1, e.2⟩) ++ ['\n']

/-- The number on a line, or what is wrong. -/
def showResult : Except Error Float → Text
  | .ok x => Number.text x ++ ['\n']
  | .error e => "Error, ".toList ++ e.message ++ ['\n']

/-- The answer to a step. -/
def report (s : Session) (outcome : Outcome) : Text :=
  showVariables s.values ++ showResult outcome.result

/-- What follows a line. -/
inductive Response where
  /-- The line is blank, and the dialogue ends. -/
  | finished
  /-- The line is not text, and the dialogue ends. -/
  | unreadable
  /-- The line is answered, and the dialogue goes on. -/
  | answered (session : Session) (output : Text) (events : List Event)

/-- Responds to a line. -/
def respond (s : Session) : Option Text → Response
  | none => .unreadable
  | some line =>
    if line.isAllBlank then
      .finished
    else
      let t := Step.ofLine line
      let (after, outcome) := s.step t
      .answered after (report after outcome) (s.events t)

/-- What a dialogue leaves behind. -/
structure Transcript where
  output : Text
  events : List Event
  /-- Whether a line was met that is not text. -/
  unreadable : Bool

/-- The dialogue over the lines of an input, after the first prompt. -/
def converse (s : Session) : List (Option Text) → Transcript
  | [] => ⟨[], [], false⟩
  | line :: lines =>
    match respond s line with
    | .finished => ⟨[], [], false⟩
    | .unreadable => ⟨[], [], true⟩
    | .answered after output events =>
      let rest := converse after lines
      ⟨output ++ prompt ++ rest.output, events ++ rest.events, rest.unreadable⟩

/-- The dialogue over an input. -/
def dialogue (s : Session) (input : List UInt8) : Transcript :=
  let rest := converse s ((lines input).map decode?)
  { rest with output := prompt ++ rest.output }

end CommandLine

end SliderCalculator
