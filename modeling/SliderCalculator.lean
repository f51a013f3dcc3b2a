import SliderCalculator.Main
import SliderCalculator.Proofs.Formula.Sweeps
import SliderCalculator.Proofs.Formula.Product
import SliderCalculator.Proofs.Formula.Substitution
import SliderCalculator.Proofs.Token.Scan
import SliderCalculator.Proofs.Postfix.Conversion
import SliderCalculator.Proofs.Postfix.Arrangement
import SliderCalculator.Proofs.Postfix.Group
import SliderCalculator.Proofs.Postfix.Segments
import SliderCalculator.Proofs.Postfix.Reduction
import SliderCalculator.Proofs.Postfix.Recognition
import SliderCalculator.Proofs.Postfix.Precedence
import SliderCalculator.Proofs.Number.Rounding
import SliderCalculator.Proofs.Number.Scientific
import SliderCalculator.Proofs.Number.RoundTrip
import SliderCalculator.Proofs.Formula.Expression
import SliderCalculator.Proofs.Calculation.Meaning
import SliderCalculator.Proofs.Number.NotANumber
import SliderCalculator.Proofs.Token.Balance
import SliderCalculator.Proofs.Token.Places
import SliderCalculator.Proofs.Token.Scanner
import SliderCalculator.Proofs.Calculation.Grammatical
import SliderCalculator.Proofs.Calculation.Unbound
import SliderCalculator.Proofs.Number.Order
import SliderCalculator.Proofs.Slider.Range
import SliderCalculator.Proofs.Variables.Lookup
import SliderCalculator.Proofs.Formula.Letters
import SliderCalculator.Proofs.Calculation.Values
import SliderCalculator.Proofs.Session.Change
import SliderCalculator.Proofs.Session.Consistency
import SliderCalculator.Proofs.Session.History
import SliderCalculator.Proofs.Session.Presets
import SliderCalculator.Proofs.Formula.Operands
import SliderCalculator.Proofs.Number.Sign
import SliderCalculator.Proofs.Calculation.Operands
import SliderCalculator.Proofs.Session.Operands
import SliderCalculator.Proofs.Calculation.Outcome
import SliderCalculator.Proofs.Calculation.Products
import SliderCalculator.Proofs.Calculation.Chain
import SliderCalculator.Proofs.Session.Idle
import SliderCalculator.Proofs.CommandLine.Input
import SliderCalculator.Proofs.CommandLine.Dialogue
import SliderCalculator.Proofs.CommandLine.Arguments
import SliderCalculator.Proofs.CommandLine.Verbosity
import SliderCalculator.Proofs.Token.Rendering
import SliderCalculator.Proofs.Number.Numeral
import SliderCalculator.Proofs.Number.Nearest
import SliderCalculator.Proofs.Number.Reading
import SliderCalculator.Proofs.Number.Grid
import SliderCalculator.Proofs.Number.Brevity
import SliderCalculator.Proofs.Assignment.Grammar
import SliderCalculator.Proofs.Calculation.Name
import SliderCalculator.Proofs.CommandLine.Listing
import SliderCalculator.Proofs.Number.Monotonicity
import SliderCalculator.Proofs.Number.Operations
import SliderCalculator.Proofs.Number.Whole
import SliderCalculator.Proofs.Slider.Monotonicity
import SliderCalculator.Proofs.Slider.Whole
import SliderCalculator.Proofs.Session.Standstill
