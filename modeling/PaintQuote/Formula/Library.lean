import PaintQuote.Formula.Functions.Arithmetic
import PaintQuote.Formula.Functions.Inspection
import PaintQuote.Formula.Functions.Logic
import PaintQuote.Formula.Functions.Lookup
import PaintQuote.Formula.Functions.Statistics
import PaintQuote.Formula.Functions.Text

/-!
# The library of functions

All functions that a formula can call, in the order of their names, with the numbers of arguments
they take.  A function is found under its name in any case.
-/

namespace PaintQuote.Formula

open Functions

namespace Function

/-- A function on values. -/
def eager (name : String) (least : Nat) (most : Option Nat) (answer : List Value → Answer) :
    Function :=
  ⟨name, least, most, .eager answer⟩

/-- A function on computations. -/
def deferred (name : String) (least : Nat) (most : Option Nat)
    (answer : List (Logged Value) → Logged Answer) : Function :=
  ⟨name, least, most, .lazy answer⟩

end Function

/-- All functions, ordered by name. -/
def library : List Function :=
  [.eager "ABS" 1 (some 1) (withOne absolute),
    .eager "AND" 1 none conjunction,
    .eager "AVERAGE" 1 none average,
    .eager "AVERAGEIF" 2 (some 3) (withTwoOrThree averageIf),
    .eager "CEILING" 2 (some 2) (withTwo ceiling),
    .eager "CEILING.MATH" 1 (some 3) (withOneToThree ceilingMath),
    .deferred "CHOOSE" 2 none choose,
    .eager "CONCAT" 1 none joinedCells,
    .eager "CONCATENATE" 1 none concatenation,
    .eager "COUNT" 1 none count,
    .eager "COUNTA" 1 none countFilled,
    .eager "COUNTIF" 2 (some 2) (withTwo countIf),
    .eager "EXACT" 2 (some 2) (withTwo identical),
    .eager "FALSE" 0 (some 0) (withNone (.ok (.boolean false))),
    .eager "FLOOR" 2 (some 2) (withTwo floor),
    .eager "FLOOR.MATH" 1 (some 3) (withOneToThree floorMath),
    .eager "HLOOKUP" 3 (some 4) (withThreeOrFour horizontalLookup),
    .deferred "IF" 2 (some 3) choice,
    .deferred "IFERROR" 2 (some 2) replacingErrors,
    .deferred "IFNA" 2 (some 2) replacingMissing,
    .deferred "IFS" 2 none choices,
    .eager "INDEX" 2 (some 3) (withTwoOrThree index),
    .eager "INT" 1 (some 1) (withOne integer),
    .eager "ISBLANK" 1 (some 1) (withOne isBlank),
    .eager "ISERROR" 1 (some 1) (withOne isError),
    .eager "ISLOGICAL" 1 (some 1) (withOne isLogical),
    .eager "ISNA" 1 (some 1) (withOne isNotAvailable),
    .eager "ISNUMBER" 1 (some 1) (withOne isNumber),
    .eager "ISTEXT" 1 (some 1) (withOne isText),
    .eager "LEFT" 1 (some 2) (withOneOrTwo leftPart),
    .eager "LEN" 1 (some 1) (withOne textLength),
    .eager "LOWER" 1 (some 1) (withOne lowerCase),
    .eager "MATCH" 2 (some 3) (withTwoOrThree position),
    .eager "MAX" 1 none maximum,
    .eager "MID" 3 (some 3) (withThree middlePart),
    .eager "MIN" 1 none minimum,
    .eager "MOD" 2 (some 2) (withTwo modulo),
    .eager "MROUND" 2 (some 2) (withTwo nearestMultiple),
    .eager "N" 1 (some 1) (withOne numberOf),
    .eager "NA" 0 (some 0) (withNone notAvailable),
    .eager "NOT" 1 (some 1) (withOne negation),
    .eager "OR" 1 none disjunction,
    .eager "POWER" 2 (some 2) (withTwo powerOf),
    .eager "PRODUCT" 1 none product,
    .eager "RIGHT" 1 (some 2) (withOneOrTwo rightPart),
    .eager "ROUND" 2 (some 2) (withTwo (roundBy .halfAway)),
    .eager "ROUNDDOWN" 2 (some 2) (withTwo (roundBy .towardZero)),
    .eager "ROUNDUP" 2 (some 2) (withTwo (roundBy .away)),
    .eager "SIGN" 1 (some 1) (withOne sign),
    .eager "SQRT" 1 (some 1) (withOne squareRoot),
    .eager "SUM" 1 none sum,
    .eager "SUMIF" 2 (some 3) (withTwoOrThree sumIf),
    .eager "SUMPRODUCT" 1 none sumProduct,
    .deferred "SWITCH" 3 none switch,
    .eager "TEXT" 2 (some 2) (withTwo textFromNumber),
    .eager "TRIM" 1 (some 1) (withOne spaced),
    .eager "TRUE" 0 (some 0) (withNone (.ok (.boolean true))),
    .eager "TRUNC" 1 (some 2) (withOneOrTwo truncate),
    .eager "UPPER" 1 (some 1) (withOne upperCase),
    .eager "VALUE" 1 (some 1) (withOne numberFromText),
    .eager "VLOOKUP" 3 (some 4) (withThreeOrFour verticalLookup),
    .eager "XOR" 1 none parity]

/-- The function with exactly the given name. -/
def functionNamed? (name : String) : Option Function := library.find? fun f => f.name == name

/-- The function with the given name, in any case. -/
def function? (name : String) : Option Function :=
  (functionNamed? name).or (functionNamed? (Text.upper name))

theorem length_library : library.length = 62 := rfl

end PaintQuote.Formula
