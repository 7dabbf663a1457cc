import NetGraph.Decimal.Binary64
import NetGraph.Yaml.Chars

/-!
# What a plain scalar stands for

`PlainValue.resolve` reads an unquoted text as null, a boolean, a number or, failing these, a text:

* null is `null`, `Null`, `NULL`, `~` or nothing; booleans are `true` and `false` in three cases;
* integers are decimal, or `0x`, `0o`, `0b` with a sign in front, within 128 bits; digits after a
  leading zero are a text;
* floating-point numbers are decimal fractions with an optional exponent, as far as binary64 holds
  them, and `.inf`, `-.inf`, `.nan`.
-/

namespace NetGraph.Yaml

/-- A floating-point number. -/
inductive FloatValue where
  | finite (negative : Bool) (size : Binary64)
  | infinite (negative : Bool)
  | nan
  deriving DecidableEq, Repr

/-- The reading of a plain scalar. -/
inductive PlainValue where
  | null
  | bool (b : Bool)
  | int (n : Int)
  | float (x : FloatValue)
  | text
  deriving DecidableEq, Repr

/-- The four spellings of null. -/
def isNull (s : String) : Bool := s ∈ ["null", "Null", "NULL", "~"]

/-- The six spellings of a boolean. -/
def bool? (s : String) : Option Bool :=
  if s ∈ ["true", "True", "TRUE"] then some true
  else if s ∈ ["false", "False", "FALSE"] then some false
  else none

namespace PlainValue

/-- The value of a digit in a base up to 16. -/
def digit? (base : Nat) (c : Char) : Option Nat := (hexValue? c).filter (· < base)

/-- The value of one or more digits. -/
def digits? (base : Nat) (cs : List Char) : Option Nat :=
  if cs.isEmpty then none
  else cs.foldlM (fun n c => (digit? base c).map (base * n + ·)) 0

/-- A leading zero before more digits, with or without a sign: such a text is no number. -/
def hasLeadingZero (cs : List Char) : Bool :=
  match cs with
  | '+' :: '0' :: d :: ds | '-' :: '0' :: d :: ds | '0' :: d :: ds => (d :: ds).all Char.isDigit
  | _ => false

/-- The digits of an unsigned number, after a mark of their base. -/
def unsigned? (cs : List Char) : Option Nat :=
  match cs with
  | '0' :: 'x' :: ds => digits? 16 ds
  | '0' :: 'o' :: ds => digits? 8 ds
  | '0' :: 'b' :: ds => digits? 2 ds
  | _ => digits? 10 cs

/-- An integer of 128 bits. -/
def int? (cs : List Char) : Option Int :=
  if hasLeadingZero cs then none
  else match cs with
    | '-' :: ds => do
      let n ← unsigned? ds
      if n ≤ Nat.pow 2 127 then some (-(n : Int)) else none
    | _ => do
      let n ← unsigned? (match cs with | '+' :: ds => ds | _ => cs)
      if n < Nat.pow 2 128 then some (n : Int) else none

/-- The exponent that is left after the digits of a number. -/
def exponent? (cs : List Char) : Option Int :=
  match cs with
  | [] => some 0
  | e :: rest =>
    if e = 'e' ∨ e = 'E' then
      match rest with
      | '-' :: ds => (digits? 10 ds).map fun n => -(n : Int)
      | '+' :: ds => (digits? 10 ds).map (Int.ofNat ·)
      | ds => (digits? 10 ds).map (Int.ofNat ·)
    else none

/-- An unsigned decimal number: digits around an optional point, and an optional exponent. -/
def decimal? (cs : List Char) : Option Binary64 :=
  let whole := cs.takeWhile Char.isDigit
  let rest := cs.dropWhile Char.isDigit
  let (part, rest) := match rest with
    | '.' :: r => (r.takeWhile Char.isDigit, r.dropWhile Char.isDigit)
    | r => ([], r)
  if whole.isEmpty && part.isEmpty then none
  else do
    let e ← exponent? rest
    let m ← digits? 10 (whole ++ part)
    Binary64.ofDecimal? m (e - part.length)

/-- A decimal number with an optional sign. -/
def signed? (cs : List Char) : Option FloatValue :=
  match cs with
  | '+' :: ds => (decimal? ds).map (.finite false)
  | '-' :: ds => (decimal? ds).map (.finite true)
  | _ => (decimal? cs).map (.finite false)

/-- A floating-point number. -/
def float? (s : String) : Option FloatValue :=
  if s ∈ [".inf", ".Inf", ".INF", "+.inf", "+.Inf", "+.INF"] then some (.infinite false)
  else if s ∈ ["-.inf", "-.Inf", "-.INF"] then some (.infinite true)
  else if s ∈ [".nan", ".NaN", ".NAN"] then some .nan
  else signed? s.toList

/-- What the plain scalar `s` stands for. -/
def resolve (s : String) : PlainValue :=
  if s.isEmpty || isNull s then .null
  else match bool? s with
    | some b => .bool b
    | none => match int? s.toList with
      | some n => .int n
      | none =>
        if hasLeadingZero s.toList then .text
        else match float? s with
          | some x => .float x
          | none => .text

end PlainValue

/-- Whether the text `s` has to be quoted so as not to be taken for something else. -/
def needsQuotes (s : String) : Bool :=
  PlainValue.resolve s != .text || PlainValue.hasLeadingZero s.toList

end NetGraph.Yaml
