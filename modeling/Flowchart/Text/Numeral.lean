import Flowchart.Decimal.Nearest
import Flowchart.Text.Blank
import Flowchart.Text.Digit

/-!
# Numbers in text

* `doubleOfText?`: a double from its numeral or name. White space around it is ignored, a single
  underscore may stand between two digits, and digits are those of ASCII.
* `intOfText?`: an integer, in the same way; a point with nothing but zeros after it is ignored.
-/

namespace Flowchart

/-- The text without the underscores that stand between two digits; none if one stands elsewhere. -/
def dropUnderscores? : Bool → List Char → Option (List Char)
  | _, [] => some []
  | afterDigit, '_' :: rest =>
    if afterDigit && (rest.head?.any Char.isDigit) then dropUnderscores? false rest else none
  | _, c :: rest => (dropUnderscores? c.isDigit rest).map (c :: ·)

/-- Splits a sign off a numeral. -/
def splitSign : List Char → Bool × List Char
  | '+' :: rest => (false, rest)
  | '-' :: rest => (true, rest)
  | text => (false, text)

/-- An unsigned numeral: digits, a point, digits and an exponent, at least one digit before the
exponent. -/
def unsignedDouble? (text : List Char) : Option Float :=
  let whole := text.takeWhile Char.isDigit
  let afterWhole := text.drop whole.length
  let (places, afterPlaces) := match afterWhole with
    | '.' :: rest => (rest.takeWhile Char.isDigit, rest.dropWhile Char.isDigit)
    | rest => ([], rest)
  if whole.isEmpty && places.isEmpty then none
  else
    let digits := naturalOfDigits (whole ++ places)
    match afterPlaces with
    | [] => some (nearestDouble digits (-(places.length : Int)))
    | mark :: rest =>
      let (negative, power) := splitSign rest
      if (mark == 'e' || mark == 'E') && !power.isEmpty && power.all Char.isDigit then
        let exponent : Int := naturalOfDigits power
        some (nearestDouble digits ((if negative then -exponent else exponent) - places.length))
      else none

/-- A double from its numeral or its name in any case. -/
def doubleOfText? (text : String) : Option Float := do
  let chars ← dropUnderscores? false (trim isWhiteSpace text.toList)
  let (negative, unsigned) := splitSign chars
  let name := String.ofList (unsigned.map Char.toLower)
  let magnitude ←
    if name == "inf" || name == "infinity" then some infinity
    else if name == "nan" then some notANumber
    else unsignedDouble? unsigned
  return if negative then -magnitude else magnitude

/-- An integer from its numeral. -/
def intOfText? (text : String) : Option Int := do
  let chars ← dropUnderscores? false (trim isWhiteSpace text.toList)
  let (negative, unsigned) := splitSign chars
  let digits := unsigned.takeWhile Char.isDigit
  let ends := match unsigned.drop digits.length with
    | [] => true
    | '.' :: zeros => zeros.all (· == '0')
    | _ => false
  if digits.isEmpty || !ends then none
  else
    let magnitude : Int := naturalOfDigits digits
    return if negative then -magnitude else magnitude

end Flowchart
