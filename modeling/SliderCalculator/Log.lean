import SliderCalculator.Session

/-!
# The log

What a calculator does is told in events, each with a level, a message and fields. A log
at a level shows the events of that level and of the more severe ones, a line for each.
-/

namespace SliderCalculator

/-- How severe an event is. -/
inductive LogLevel where
  | debug
  | info
  | warn
deriving DecidableEq, Repr

namespace LogLevel

/-- The level of a log that is to be verbose or not. -/
def ofVerbose (verbose : Bool) : LogLevel :=
  if verbose then debug else warn

/-- The name of a level. -/
def name : LogLevel → String
  | debug => "debug"
  | info => "info"
  | warn => "warn"

/-- The label of a level in the lines of a log. -/
def label : LogLevel → String
  | debug => "DEBUG"
  | info => "INFO"
  | warn => "WARN"

/-- The rank of a level among the levels. -/
def severity : LogLevel → Nat
  | debug => 0
  | info => 1
  | warn => 2

/-- Whether a log at a level shows the events of another level. -/
def shows (threshold level : LogLevel) : Bool :=
  decide (threshold.severity ≤ level.severity)

end LogLevel

/-- Something that a calculator does. -/
inductive Event where
  /-- Values were put in place of the names in a formula. -/
  | substituted (formula expression : Text)
  /-- The tokens were put into postfix order. -/
  | converted (tokens : List Token)
  /-- The tokens in postfix order were reduced. -/
  | evaluated (result : Except Error Float)
  /-- A formula was refused. -/
  | refused (formula : Text) (error : Error)
  /-- A value was given for a name that is not a variable. -/
  | ignored (name : Char)

namespace Event

/-- In the log a whole number has a point too, and a number with many zeros is written
with an exponent: one from `10 ^ 16` on, and one below `10 ^ -4`. -/
def resultLayout : Number.Layout where
  isPositional e := decide (-4 ≤ e) && decide (e < 16)
  wholeEnding := ['.', '0']

/-- The text of a result in the log. -/
def resultText : Except Error Float → Text
  | .ok x => "Ok(".toList ++ resultLayout.write x ++ [')']
  | .error e => "Err(".toList ++ e.name.toList ++ [')']

/-- How severe an event is. -/
def level : Event → LogLevel
  | refused .. => .warn
  | _ => .debug

/-- What an event is about. -/
def message : Event → String
  | substituted .. => "substituted variables"
  | converted _ => "converted to postfix"
  | evaluated _ => "evaluated"
  | refused .. => "rejected formula"
  | ignored _ => "ignoring unknown variable"

/-- The details of an event. -/
def fields : Event → List (String × Text)
  | substituted formula expression => [("formula", formula), ("expression", expression)]
  | converted tokens => [("postfix", Token.render tokens)]
  | evaluated result => [("result", resultText result)]
  | refused formula error => [("formula", formula), ("error", error.message)]
  | ignored name => [("name", [name])]

/-- The line of an event: its level in five columns, its message, and its fields. -/
def line (e : Event) : Text :=
  let label := e.level.label.toList
  List.replicate (5 - label.length) ' ' ++ label ++ ' ' :: e.message.toList
    ++ e.fields.flatMap (fun f => ' ' :: f.1.toList ++ '=' :: f.2) ++ ['\n']

/-- The lines of a log at a level. -/
def log (threshold : LogLevel) (es : List Event) : Text :=
  (es.filter fun e => threshold.shows e.level).flatMap line

/-- What the calculation of a formula consists of. -/
def ofCalculation (formula : Text) (values : Variables) : List Event :=
  if formula.isAllBlank then
    []
  else
    substituted formula (Formula.expression values formula)
      :: match toPostfix (Formula.tokens values formula) with
        | .error _ => []
        | .ok ts => [converted ts, evaluated (evaluate ts)]

end Event

namespace Session

/-- What the latest calculation of a session consisted of. -/
def calculationEvents (s : Session) : List Event :=
  Event.ofCalculation s.formula s.values

/-- What a session does when the slider of a variable is moved. -/
def setVariableEvents (s : Session) (name : Char) (value : Float) : List Event :=
  let done := (s.setVariable name value).1.calculationEvents
  if name ∈ s.values.names then done else .ignored name :: done

/-- What a session does in a step. -/
def events (s : Session) : Step → List Event
  | .formula t =>
    match Formula.check t with
    | .error e => [.refused t e]
    | .ok () => (s.setFormula t).1.calculationEvents
  | .set name value => s.setVariableEvents name value
  | .assign t =>
    match Assignment.read t with
    | .error _ => []
    | .ok a => s.setVariableEvents a.name a.value

end Session

end SliderCalculator
