import Flowchart.Schema.Scalar

/-!
# Points in time

* `Timestamp`: what a clock and a calendar show, with the offset from universal time if it is known.
* `Timestamp.text`: the usual written form.
* `Timestamp.check`: reads a date with or without a time, or the seconds since 1970 as a number.
  Numbers beyond `secondsLimit` count milliseconds.
-/

namespace Flowchart

/-- A calendar day. -/
structure Day where
  year : Int
  month : Nat
  day : Nat
  deriving DecidableEq, Repr

namespace Day

/-- Days since the first of March of year zero are counted in cycles of four hundred years, with
years that begin in March so that the leap day comes last. -/
def daysPerCycle : Int := 146097

/-- The day on which the count of days starts, in such a count from year zero. -/
def epoch : Int := 719468

/-- Days since the start of 1970. -/
def toNumber (d : Day) : Int :=
  let year := if d.month ≤ 2 then d.year - 1 else d.year
  let cycle := year / 400
  let yearOfCycle := year % 400
  let month : Int := (d.month + 9) % 12
  let dayOfYear := (153 * month + 2) / 5 + d.day - 1
  let dayOfCycle := yearOfCycle * 365 + yearOfCycle / 4 - yearOfCycle / 100 + dayOfYear
  cycle * daysPerCycle + dayOfCycle - epoch

/-- The day with a number of days since the start of 1970. -/
def ofNumber (n : Int) : Day :=
  let shifted := n + epoch
  let cycle := shifted / daysPerCycle
  let dayOfCycle := shifted % daysPerCycle
  let yearOfCycle :=
    (dayOfCycle - dayOfCycle / 1460 + dayOfCycle / 36524 - dayOfCycle / 146096) / 365
  let dayOfYear := dayOfCycle - (365 * yearOfCycle + yearOfCycle / 4 - yearOfCycle / 100)
  let month := (5 * dayOfYear + 2) / 153
  let day := dayOfYear - (153 * month + 2) / 5 + 1
  let calendarMonth := if month < 10 then month + 3 else month - 9
  let year := yearOfCycle + cycle * 400
  ⟨if calendarMonth ≤ 2 then year + 1 else year, calendarMonth.toNat, day.toNat⟩

def isLeapYear (year : Int) : Bool := year % 4 == 0 && (year % 100 != 0 || year % 400 == 0)

def daysOfMonth (year : Int) (month : Nat) : Nat :=
  if month = 2 then (if isLeapYear year then 29 else 28)
  else if month = 4 ∨ month = 6 ∨ month = 9 ∨ month = 11 then 30
  else 31

/-- Years count from one to four digits. -/
def isValid (d : Day) : Bool :=
  1 ≤ d.year && 1 ≤ d.month && d.month ≤ 12 && 1 ≤ d.day && d.day ≤ daysOfMonth d.year d.month

end Day

/-- What a clock shows: microseconds since the start of 1970, and the seconds by which it is ahead of
universal time, if that is known. -/
structure Timestamp where
  micros : Int
  offset : Option Int
  deriving DecidableEq, Repr

namespace Timestamp

def microsPerSecond : Int := 1000000

def secondsPerDay : Int := 86400

/-- A number in decimal, filled up with zeros to a width. -/
def padded (width n : Nat) : String :=
  let digits := Nat.toDigits 10 n
  String.ofList (List.replicate (width - digits.length) '0' ++ digits)

def offsetText : Option Int → String
  | none => ""
  | some 0 => "Z"
  | some seconds =>
    let minutes := seconds.natAbs / 60
    (if seconds < 0 then "-" else "+") ++ padded 2 (minutes / 60) ++ ":" ++ padded 2 (minutes % 60)

/-- Date and time joined by a letter, with microseconds if there are any. -/
def text (t : Timestamp) : String :=
  let seconds := t.micros / microsPerSecond
  let micros := (t.micros % microsPerSecond).toNat
  let day := Day.ofNumber (seconds / secondsPerDay)
  let second := (seconds % secondsPerDay).toNat
  let date := padded 4 day.year.toNat ++ "-" ++ padded 2 day.month ++ "-" ++ padded 2 day.day
  let time := padded 2 (second / 3600) ++ ":" ++ padded 2 (second / 60 % 60) ++ ":" ++
    padded 2 (second % 60)
  let fraction := if micros = 0 then "" else "." ++ padded 6 micros
  date ++ "T" ++ time ++ fraction ++ offsetText t.offset

/-- Whether two timestamps can be put in order: both know their offsets, or neither does. -/
def comparable (a b : Timestamp) : Bool := a.offset.isSome == b.offset.isSome

/-- The microseconds in universal time, or in the time of the clock if its offset is not known. -/
def instant (t : Timestamp) : Int := t.micros - t.offset.getD 0 * microsPerSecond

/-! ### Numbers -/

/-- The largest count of seconds; larger numbers count milliseconds. -/
def secondsLimit : Nat := 20000000000

/-- The first second of 1600 and the last of 9999. -/
def earliest : Int := -11676096000

def latest : Int := 253402300799

/-- The time after a count of seconds or milliseconds and some microseconds. -/
def ofCount? (count : Int) (micros : Nat) : Option Timestamp :=
  let whole :=
    if count.natAbs ≤ secondsLimit then count * microsPerSecond + micros
    else count * 1000 + micros
  let seconds := whole / microsPerSecond
  if seconds < earliest ∨ latest < seconds then none else some ⟨whole, some 0⟩

/-- The time after a fractional count. The fraction is added to the integer below the count. -/
def ofDouble? (x : Float) : Option Timestamp :=
  if x.isNaN || x.isInf then none
  else do
    let whole ← intOfDouble? x.floor
    let towardsZero := if x < 0 then x.ceil else x.floor
    let micros ← intOfDouble? ((x - towardsZero).abs * 1000000).round
    ofCount? whole micros.toNat

/-! ### Text -/

/-- A number of exactly so many digits, and what follows it. -/
def digits? (count : Nat) (text : List Char) : Option (Nat × List Char) :=
  let digits := text.take count
  if digits.length = count ∧ digits.all Char.isDigit then
    some (naturalOfDigits digits, text.drop count)
  else none

def expect? (c : Char) : List Char → Option (List Char)
  | d :: rest => if d = c then some rest else none
  | [] => none

/-- A date with dashes. -/
def date? (text : List Char) : Option (Day × List Char) := do
  let (year, rest) ← digits? 4 text
  let (month, rest) ← digits? 2 (← expect? '-' rest)
  let (day, rest) ← digits? 2 (← expect? '-' rest)
  let day : Day := ⟨year, month, day⟩
  if day.isValid then some (day, rest) else none

/-- The fraction of a second in microseconds; digits beyond the sixth are dropped. -/
def fraction? : List Char → Option (Nat × List Char)
  | mark :: rest =>
    if mark = '.' ∨ mark = ',' then
      let digits := rest.takeWhile Char.isDigit
      if digits.isEmpty then none
      else
        let kept := digits.take 6
        some (naturalOfDigits kept * Nat.pow 10 (6 - kept.length), rest.dropWhile Char.isDigit)
    else some (0, mark :: rest)
  | [] => some (0, [])

/-- A time of day in microseconds. Seconds may be left out. -/
def timeOfDay? (text : List Char) : Option (Nat × List Char) := do
  let (hour, rest) ← digits? 2 text
  let (minute, rest) ← digits? 2 (← expect? ':' rest)
  if hour > 23 ∨ minute > 59 then none
  let (second, micros, rest) ← match rest with
    | ':' :: rest => do
      let (second, rest) ← digits? 2 rest
      if second > 59 then none
      let (micros, rest) ← fraction? rest
      some (second, micros, rest)
    | rest => some (0, 0, rest)
  some (((hour * 60 + minute) * 60 + second) * 1000000 + micros, rest)

/-- The offset at the end of a text; there may be none. -/
def offset? : List Char → Option (Option Int)
  | [] => some none
  | ['Z'] | ['z'] => some (some 0)
  | sign :: rest => do
    let negative ← if sign = '+' then some false
      else if sign = '-' ∨ sign = '−' then some true else none
    let (hours, rest) ← digits? 2 rest
    let rest := match rest with
      | ':' :: rest => rest
      | rest => rest
    let (minutes, rest) ← digits? 2 rest
    if rest ≠ [] ∨ minutes > 59 ∨ hours > 23 then none
    let seconds : Int := hours * 3600 + minutes * 60
    some (some (if negative then -seconds else seconds))

def isSeparator (c : Char) : Bool := c == 'T' || c == 't' || c == ' ' || c == '_'

/-- A date and a time. -/
def dateTime? (text : List Char) : Option Timestamp := do
  let (day, rest) ← date? text
  match rest with
  | separator :: rest =>
    if !isSeparator separator then none
    let (micros, rest) ← timeOfDay? rest
    let offset ← offset? rest
    some ⟨day.toNumber * secondsPerDay * microsPerSecond + micros, offset⟩
  | [] => none

/-- A count in decimal, with a fraction perhaps. -/
def count? (text : List Char) : Option Timestamp := do
  let (negative, unsigned) := splitSign text
  let whole := unsigned.takeWhile Char.isDigit
  if whole.isEmpty then none
  let magnitude : Int := naturalOfDigits whole
  match unsigned.drop whole.length with
  | [] => ofCount? (if negative then -magnitude else magnitude) 0
  | '.' :: places =>
    if places.isEmpty || !places.all Char.isDigit then none
    else ofDouble? (← doubleOfText? (String.ofList text))
  | _ => none

/-- A date alone stands for its first moment. -/
def ofText? (text : List Char) : Option Timestamp :=
  (dateTime? text).or <| (count? text).or <| do
    let (day, rest) ← date? text
    if rest.isEmpty then some ⟨day.toNumber * secondsPerDay * microsPerSecond, none⟩ else none

def check (v : Json) : Checked Timestamp :=
  let read? := match v with
    | .string text => ofText? text.toList
    | .int n => ofCount? n 0
    | .double x => ofDouble? x
    | _ => none
  read?.elim (.flaw .unreadableTime v) .ok

end Timestamp

end Flowchart
