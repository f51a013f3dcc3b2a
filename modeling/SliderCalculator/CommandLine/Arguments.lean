import SliderCalculator.Assignment

/-!
# Arguments of the command line

The arguments are words. A word that starts with `-` gives options, by a long name after
`--` or by letters after `-`; the value of a long option follows an equals sign or is the
next word. Any other word is the formula, and so is every word after the word `--`.

The words are read from left to right, and the first that is wrong, or that asks for help
or for the version, ends the reading.
-/

namespace SliderCalculator.CommandLine

/-- What the program is to do. -/
structure Options where
  /-- The formula to calculate. Without one there is a dialogue. -/
  formula : Option Text
  assignments : List Assignment
  minimum : Float
  maximum : Float
  step : Float
  verbose : Bool
deriving DecidableEq

/-- Why the reading of the arguments ends early. -/
inductive Halt where
  /-- The arguments are wrong. -/
  | fault
  /-- They ask for help. -/
  | help
  /-- They ask for the version. -/
  | version
deriving DecidableEq, Repr

/-- What the words read so far give. -/
structure Draft where
  formula : Option Text
  assignments : List Assignment
  minimum : Option Float
  maximum : Option Float
  step : Option Float
  verbose : Bool

/-- The long options that have a value. -/
inductive ValueOption where
  | set
  | minimum
  | maximum
  | step
deriving DecidableEq, Repr

/-- The value option with a long name. -/
def ValueOption.ofName? (name : Text) : Option ValueOption :=
  if name = "set".toList then some set
  else if name = "min".toList then some minimum
  else if name = "max".toList then some maximum
  else if name = "step".toList then some step
  else none

/-- The letter of an option without a value, by its long name. -/
def letterOfName? (name : Text) : Option Char :=
  if name = "verbose".toList then some 'v'
  else if name = "help".toList then some 'h'
  else if name = "version".toList then some 'V'
  else none

namespace Draft

/-- What no words give. -/
def empty : Draft where
  formula := none
  assignments := []
  minimum := none
  maximum := none
  step := none
  verbose := false

/-- The options, with a range from zero to a hundred in steps of one where none is
given. -/
def options (d : Draft) : Options where
  formula := d.formula
  assignments := d.assignments
  minimum := d.minimum.getD 0
  maximum := d.maximum.getD 100
  step := d.step.getD 1
  verbose := d.verbose

/-- Takes a word for the formula, of which there is only one. -/
def addFormula (d : Draft) (word : Text) : Except Halt Draft :=
  if d.formula.isSome then .error .fault else .ok { d with formula := some word }

/-- Reads a number that is given at most once. -/
def readNumber (present : Option Float) (value : Text) : Except Halt Float :=
  match present, Number.read? value with
  | none, some x => .ok x
  | _, _ => .error .fault

/-- Takes the value of an option. Only assignments are given more than once. -/
def addValue (d : Draft) (value : Text) : ValueOption → Except Halt Draft
  | .set =>
    match Assignment.read? value with
    | some a => .ok { d with assignments := d.assignments ++ [a] }
    | none => .error .fault
  | .minimum => do
    let x ← readNumber d.minimum value
    return { d with minimum := some x }
  | .maximum => do
    let x ← readNumber d.maximum value
    return { d with maximum := some x }
  | .step => do
    let x ← readNumber d.step value
    return { d with step := some x }

/-- Takes the letter of an option without a value. -/
def addLetter (d : Draft) : Char → Except Halt Draft
  | 'v' => if d.verbose then .error .fault else .ok { d with verbose := true }
  | 'h' => .error .help
  | 'V' => .error .version
  | _ => .error .fault

end Draft

/-- Whether a word gives options or ends them. A single `-` does not. -/
def isOptionWord : Text → Bool
  | '-' :: _ :: _ => true
  | _ => false

/-- Reads words after others. -/
def readWords (d : Draft) : List Text → Except Halt Draft
  | [] => .ok d
  | word :: words =>
    match word with
    | ['-', '-'] => words.foldlM Draft.addFormula d
    | '-' :: '-' :: long =>
      let name := long.takeWhile (· != '=')
      match ValueOption.ofName? name, long.dropWhile (· != '='), words with
      | some o, _ :: value, words => do
        readWords (← d.addValue value o) words
      | some o, [], value :: words =>
        if isOptionWord value then
          .error .fault
        else do
          readWords (← d.addValue value o) words
      | some _, [], [] => .error .fault
      | none, [], words =>
        match letterOfName? name with
        | some letter => do readWords (← d.addLetter letter) words
        | none => .error .fault
      | none, _ :: _, _ => .error .fault
    | '-' :: letter :: letters => do
      readWords (← (letter :: letters).foldlM Draft.addLetter d) words
    | _ => do readWords (← d.addFormula word) words

/-- Reads the arguments. -/
def readArguments (words : List Text) : Except Halt Options := do
  return (← readWords Draft.empty words).options

end SliderCalculator.CommandLine
