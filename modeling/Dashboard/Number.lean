import Dashboard.Fault

/-!
# Numbers in a configuration

A numeral is an optional sign and one or more ASCII digits. A place that wants a number gives the bounds for
it, and a token is refused there for being no numeral, too small or too large.

Long numerals are cut short. Of more than ten digits without the leading zeros, the sign alone tells on which
side of the bounds the number lies. What is left and still has more than `digitLimit` digits, leading zeros
counted, is not converted at all.
-/

namespace Dashboard

namespace Number

def greatest : Int := 2147483647

def leastWaittime : Int := 15

/-- How many digits a number that is not plainly out of bounds has at most, leading zeros aside. -/
def significantLimit : Nat := 10

/-- How many digits are converted at most, leading zeros counted. -/
def digitLimit : Nat := 4300

end Number

structure Numeral where
  negative : Bool
  digits : Text
deriving DecidableEq, Repr

namespace Numeral

/-- The numeral with the given sign, if there are digits and nothing else. -/
def ofDigits? (negative : Bool) (digits : Text) : Option Numeral :=
  if digits ≠ [] ∧ digits.all Text.isDigit then some ⟨negative, digits⟩ else none

def ofText? : Text → Option Numeral
  | [] => none
  | b :: rest =>
    if b = Text.plusSign then ofDigits? false rest
    else if b = Text.minusSign then ofDigits? true rest
    else ofDigits? false (b :: rest)

def value (n : Numeral) : Int :=
  if n.negative then -(Decimal.value n.digits : Int) else Decimal.value n.digits

def significant (n : Numeral) : Text := n.digits.dropWhile (· == Text.zeroDigit)

end Numeral

namespace Number

/-- The refusal of a token where a number is wanted. -/
def bad (what reason token : Text) : Except Refusal Int :=
  .error (.fault (.badNumber what reason token))

/-- The number that a token stands for, if it lies between the bounds. -/
def read (what : Text) (least greatest : Int) (token : Text) : Except Refusal Int :=
  match Numeral.ofText? token with
  | none => bad what "invalid" token
  | some n =>
    if significantLimit < n.significant.length then
      bad what (if n.negative then "too small" else "too large") token
    else if digitLimit < n.digits.length then .error (.tooManyDigits n.digits.length)
    else if n.value < least then bad what "too small" token
    else if greatest < n.value then bad what "too large" token
    else .ok n.value

end Number

end Dashboard
