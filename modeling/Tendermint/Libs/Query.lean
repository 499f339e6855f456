import Tendermint.Types.Basic
import Tendermint.Lib.GoMap

/-!
# Event queries (libs/pubsub/query)

A query is a conjunction of conditions `tag op operand`.  `Conditions` lists them as the parser
produces them; the model takes that list as the query.  `Matches` decides a query against a map
from composite keys (`type.attribute`) to the values the events carry: an `EXISTS` condition
asks for the key (or, for a key without a dot, for any key it starts), and every other condition
for some value that `matchValue` accepts.

Go strings are byte strings here (`Bytes`): event types, keys and values are arbitrary bytes in
Go, and the indexer that answers the same queries (`State.TxIndex`) works on their bytes.
Numbers in event values are read as Go does: the first run of digits and dots (`numRegex`),
then `strconv.ParseInt`, or `strconv.ParseFloat` and a truncation when the run has a dot.
-/

namespace Tendermint.Query

/-- The bytes of a Go string literal. -/
def goString (s : String) : Bytes := s.toUTF8.toList

/-- A byte string shown in a message, byte by byte. -/
def showBytes (b : Bytes) : String := String.ofList (b.map fun x => Char.ofNat x.toNat)

inductive Operator where
  | OpLessEqual
  | OpGreaterEqual
  | OpLess
  | OpGreater
  | OpEqual
  | OpContains
  | OpExists
  deriving DecidableEq, Repr

/-- An operand as `Conditions` builds it: a quoted string, an integer, or none for `EXISTS`.
(Float, time and date operands are not modelled.) -/
inductive Operand where
  | str (s : Bytes)
  | int (n : Int)
  | nil
  deriving DecidableEq, Repr

structure Condition where
  CompositeKey : Bytes
  Op : Operator
  Operand : Operand
  deriving DecidableEq, Repr

/-- `strings.Contains(s, substr)`. -/
def stringsContains (s substr : Bytes) : Bool :=
  substr.isPrefixOf s || match s with
    | [] => false
    | _ :: t => stringsContains t substr

/-! ## Numbers in event values -/

def isDigit (b : UInt8) : Bool := 48 ≤ b && b ≤ 57

/-- The byte `.`. -/
def dot : UInt8 := 46

/-- `numRegex.FindString`, with `numRegex` = `([0-9\.]+)`: the first maximal run of digits and
dots, or the empty string. -/
def numRegexFindString (value : Bytes) : Bytes :=
  (value.dropWhile fun b => !(isDigit b || b == dot)).takeWhile fun b => isDigit b || b == dot

/-- The value of a non-empty run of decimal digits. -/
def digitsValue (ds : Bytes) : Nat := ds.foldl (fun n d => 10 * n + (d.toNat - 48)) 0

/-- `strconv.NumError` for a syntax error. -/
def syntaxError (fn : String) (s : Bytes) : String :=
  "strconv." ++ fn ++ ": parsing \"" ++ showBytes s ++ "\": invalid syntax"

/-- `strconv.ParseInt(s, 10, 64)`: an optional sign, then decimal digits, within `int64`. -/
def parseInt (s : Bytes) : Except String Int :=
  let (neg, ds) := match s with
    | 45 :: ds => (true, ds)
    | 43 :: ds => (false, ds)
    | ds => (false, ds)
  if ds.isEmpty || !ds.all isDigit then throw (syntaxError "ParseInt" s)
  else
    let v : Int := if neg then -(digitsValue ds : Int) else digitsValue ds
    if InInt64 v then pure v
    else throw ("strconv.ParseInt: parsing \"" ++ showBytes s ++ "\": value out of range")

/-- `int64(strconv.ParseFloat(s, 64))` on a run of digits and dots: one dot at most and a digit
somewhere, truncated to its integer part (float rounding is not modelled). -/
def parseFloatTrunc (s : Bytes) : Except String Int :=
  let intPart := s.takeWhile isDigit
  let rest := s.dropWhile isDigit
  match rest with
  | 46 :: frac =>
    if frac.all isDigit && !(intPart.isEmpty && frac.isEmpty) then pure (digitsValue intPart)
    else throw (syntaxError "ParseFloat" s)
  | _ => if intPart.isEmpty then throw (syntaxError "ParseFloat" s) else pure (digitsValue intPart)

/-! ## Matching -/

/-- `matchValue`: one event value against the operator and operand. -/
def matchValue (value : Bytes) (op : Operator) (operand : Operand) : Except String Bool :=
  match operand with
  | .int operandInt => do
    let filteredValue := numRegexFindString value
    -- a run with a dot is read as a float, then truncated
    let v ← if filteredValue.contains dot then
        (parseFloatTrunc filteredValue).mapError fun e => "failed to convert value " ++
          showBytes filteredValue ++ " from event attribute to float64: " ++ e
      else
        (parseInt filteredValue).mapError fun e => "failed to convert value " ++
          showBytes filteredValue ++ " from event attribute to int64: " ++ e
    match op with
    | .OpLessEqual => pure (v ≤ operandInt)
    | .OpGreaterEqual => pure (v ≥ operandInt)
    | .OpLess => pure (v < operandInt)
    | .OpGreater => pure (v > operandInt)
    | .OpEqual => pure (v == operandInt)
    | _ => pure false
  | .str s =>
    match op with
    | .OpEqual => pure (value == s)
    | .OpContains => pure (stringsContains value s)
    | _ => pure false
  | .nil => throw "unknown kind of operand invalid"

/-- The loop of `match` over the values of one key: true at the first value that matches. -/
def matchValues (op : Operator) (operand : Operand) : List Bytes → Except String Bool
  | [] => pure false
  | value :: values => do
    if ← matchValue value op operand then pure true else matchValues op operand values

/-- `match`: some value of the attribute matches. -/
def matchAttr (attr : Bytes) (op : Operator) (operand : Operand)
    (events : GoMap.Map Bytes (List Bytes)) : Except String Bool :=
  match events.lookup attr with
  | none => pure false
  | some values => matchValues op operand values

/-- The conditions of `Matches`, in order: the first that fails decides. -/
def matchConditions (events : GoMap.Map Bytes (List Bytes)) : List Condition → Except String Bool
  | [] => pure true
  | c :: cs =>
    match c.Op with
    | .OpExists =>
      -- a full `type.attribute` key, or a prefix of one
      let found := if c.CompositeKey.contains dot then (events.lookup c.CompositeKey).isSome
        else events.entries.any fun e => c.CompositeKey.isPrefixOf e.1
      if found then matchConditions events cs else pure false
    | op => do
      if ← matchAttr c.CompositeKey op c.Operand events then matchConditions events cs
      else pure false

def Matches (conditions : List Condition) (events : GoMap.Map Bytes (List Bytes)) :
    Except String Bool :=
  if events.entries.length = 0 then pure false else matchConditions events conditions

end Tendermint.Query
