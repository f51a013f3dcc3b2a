import SliderCalculator.CommandLine.Arguments
import SliderCalculator.CommandLine.Dialogue

/-!
# Runs of the program

A run has arguments and an input, and ends with an exit code, an output and diagnostics.
With a formula among the arguments the formula is calculated, and the input is not read;
without one there is a dialogue. The log comes first in the diagnostics, and the report of
a failure last.
-/

namespace SliderCalculator.CommandLine

/-- How a run ends. -/
structure Ending where
  exitCode : Nat
  output : Text
  diagnostics : Text
deriving DecidableEq

/-- The version that the program reports. -/
def versionText : Text :=
  "formula_calc 0.1.0\n".toList

/-- How the program is called. -/
def usageText : Text :=
  "Usage: formula_calc [OPTIONS] [FORMULA]\n".toList

/-- What the program is for, and its arguments. -/
def helpText : Text :=
  "Formula calculator with single-letter variables and implicit multiplication\n\n".toList
  ++ usageText
  ++ ("\nArguments:\n" ++
    "  [FORMULA]  Formula to evaluate once; starts an interactive session when omitted\n" ++
    "\nOptions:\n" ++
    "      --set <NAME=VALUE>  Variable value, e.g. `--set a=5`\n" ++
    "      --min <MIN>         Lowest slider value, not negative [default: 0]\n" ++
    "      --max <MAX>         Highest slider value [default: 100]\n" ++
    "      --step <STEP>       Slider granularity [default: 1]\n" ++
    "  -v, --verbose           Enable debug logging\n" ++
    "  -h, --help              Print help\n" ++
    "  -V, --version           Print version\n").toList

/-- The report of a failure: what failed, and why. -/
def failureText (context cause : Text) : Text :=
  "Error: ".toList ++ context ++ "\n\nCaused by:\n    ".toList ++ cause ++ ['\n']

/-- The report that a slider cannot be made. -/
def badSliderText (e : Error) : Text :=
  failureText "bad --min/--max/--step".toList e.message

/-- The report that a formula has no number. -/
def badFormulaText (formula : Text) (e : Error) : Text :=
  failureText ("failed to evaluate ".toList ++ Error.quoted formula) e.message

/-- The report that a line is not text. -/
def badInputText : Text :=
  failureText "failed to read input".toList "stream did not contain valid UTF-8".toList

/-- How a run ends whose arguments are not read to their end. -/
def Halt.ending : Halt → Ending
  | fault => ⟨2, [], "error: invalid arguments\n\n".toList ++ usageText⟩
  | help => ⟨0, helpText, []⟩
  | version => ⟨0, versionText, []⟩

namespace Options

/-- The level of the log. -/
def level (o : Options) : LogLevel :=
  .ofVerbose o.verbose

/-- The values that are given to names, in the order of the arguments. -/
def entries (o : Options) : List (Char × Float) :=
  o.assignments.map fun a => (a.name, a.value)

end Options

/-- How a run ends that calculates one formula. -/
def calculateOnce (level : LogLevel) (formula : Text) (values : Variables) : Ending :=
  let log := Event.log level (Event.ofCalculation formula values)
  match calculate formula values with
  | .ok x => ⟨0, Number.text x ++ ['\n'], log⟩
  | .error e => ⟨1, [], log ++ badFormulaText formula e⟩

/-- How a run ends that is a dialogue. -/
def Transcript.ending (level : LogLevel) (t : Transcript) : Ending :=
  let log := Event.log level t.events
  if t.unreadable then
    ⟨1, t.output, log ++ badInputText⟩
  else
    ⟨0, t.output, log⟩

/-- What the arguments lead to. -/
inductive Start where
  /-- The run ends without a dialogue. -/
  | ended (ending : Ending)
  /-- A dialogue begins. -/
  | dialogue (level : LogLevel) (session : Session)

/-- Begins a run. -/
def start (arguments : List Text) : Start :=
  match readArguments arguments with
  | .error halt => .ended halt.ending
  | .ok o =>
    match Slider.make o.minimum o.maximum o.step with
    | .error e => .ended ⟨1, [], badSliderText e⟩
    | .ok slider =>
      match o.formula with
      | some formula => .ended (calculateOnce o.level formula (slider.snapAll o.entries))
      | none => .dialogue o.level (.withVariables slider (.ofList o.entries))

/-- A whole run. -/
def run (arguments : List Text) (input : List UInt8) : Ending :=
  match start arguments with
  | .ended ending => ending
  | .dialogue level session => (dialogue session input).ending level

end SliderCalculator.CommandLine
