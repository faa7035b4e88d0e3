import Flowchart.Proofs.Json.Numeral
import Flowchart.Storage.Timestamp

/-!
# Points in time that are read back

* `Day.exists_march`: the day with a number, in a count of years that begin in March.
* `Day.toNumber_ofNumber`, `Day.isValid_ofNumber`: such a day is a day of the calendar and has that number.
* `Timestamp.check_text`: a time of the years from 1 to 9999 is read back from its text.
-/

namespace Flowchart

/-! ### The calendar -/

namespace Day

/-- Whether years that begin in March have a day of that kind; the last month has 29 days in leap years
only. -/
structure InMarchYear (year month day : Int) : Prop where
  yearLow : 0 ≤ year
  yearHigh : year ≤ 399
  monthLow : 0 ≤ month
  monthHigh : month ≤ 11
  dayLow : 1 ≤ day
  dayHigh : day ≤ if month = 1 ∨ month = 3 ∨ month = 6 ∨ month = 8 then 30 else 31
  lastMonth : month = 11 → day ≤ 28 ∨ day = 29 ∧ year % 4 = 3 ∧ (year % 100 = 99 → year = 399)

/-- The year of a day in a century. The count of leap days is at most one ahead, which the division does not
notice. -/
theorem yearOfCentury {century day leaps year quarter : Int} (centuryLow : 0 ≤ century)
    (centuryHigh : century ≤ 3) (low : 0 ≤ day) (high : day ≤ 36524) (last : day = 36524 → century = 3)
    (isLeaps : leaps = (24 * century + day) / 1460) (isYear : year = (day - leaps) / 365)
    (isQuarter : quarter = year / 4) :
    0 ≤ year ∧ year ≤ 99 ∧ 0 ≤ day - (365 * year + quarter) ∧ day - (365 * year + quarter) ≤ 365 ∧
      (day - (365 * year + quarter) = 365 → year % 4 = 3 ∧ (year = 99 → century = 3)) := by
  have atLeast : quarter ≤ leaps := by omega
  have atMost : leaps ≤ quarter + 1 := by omega
  have within : year ≤ 99 := by omega
  refine ⟨by omega, within, by omega, by omega, fun leapDay => ?_⟩
  have ahead : leaps = quarter + 1 := by omega
  have lastOfFour : ¬year ≤ 4 * quarter + 2 := by omega
  omega

theorem monthOfYear {day month : Int} (low : 0 ≤ day) (high : day ≤ 365) (isMonth : month = (5 * day + 2) / 153) :
    0 ≤ month ∧ month ≤ 11 ∧ 1 ≤ day - (153 * month + 2) / 5 + 1 ∧
      day - (153 * month + 2) / 5 + 1 ≤ (if month = 1 ∨ month = 3 ∨ month = 6 ∨ month = 8 then 30 else 31) ∧
      (month = 11 → day - (153 * month + 2) / 5 + 1 = day - 336) := by
  refine ⟨by omega, by omega, by omega, ?_, by omega⟩
  split <;> omega

/-- A day of a cycle of four hundred years has a year, a month and a day in it. -/
theorem exists_inMarchYear {day year dayOfYear month : Int} (low : 0 ≤ day) (high : day ≤ 146096)
    (isYear : year = (day - day / 1460 + day / 36524 - day / 146096) / 365)
    (isDay : dayOfYear = day - (365 * year + year / 4 - year / 100))
    (isMonth : month = (5 * dayOfYear + 2) / 153) :
    InMarchYear year month (dayOfYear - (153 * month + 2) / 5 + 1) := by
  -- the last day of a cycle is the 36525th of its last century
  obtain ⟨century, within, centuryLow, centuryHigh, withinLow, withinHigh, last, isCentury, total⟩ :
      ∃ century within : Int, 0 ≤ century ∧ century ≤ 3 ∧ 0 ≤ within ∧ within ≤ 36524 ∧
        (within = 36524 → century = 3) ∧ century = day / 36524 - day / 146096 ∧
        day = 36524 * century + within :=
    ⟨day / 36524 - day / 146096, day - 36524 * (day / 36524 - day / 146096), by omega, by omega, by omega,
      by omega, by omega, rfl, by omega⟩
  obtain ⟨yearLow, yearHigh, dayLow, dayHigh, leapDay⟩ :=
    yearOfCentury centuryLow centuryHigh withinLow withinHigh last rfl rfl rfl
  generalize isRest : (within - (24 * century + within) / 1460) / 365 = rest at *
  have split : year = 100 * century + rest := by omega
  have fourths : year / 4 = 25 * century + rest / 4 := by omega
  have hundredths : year / 100 = century := by omega
  have sameDay : dayOfYear = within - (365 * rest + rest / 4) := by omega
  rw [← sameDay] at dayLow dayHigh leapDay
  obtain ⟨monthLow, monthHigh, first, final, inLast⟩ := monthOfYear dayLow dayHigh isMonth
  refine ⟨by omega, by omega, monthLow, monthHigh, first, final, fun isLast => ?_⟩
  rw [inLast isLast]
  by_cases whole : dayOfYear = 365
  · obtain ⟨fourth, hundredth⟩ := leapDay whole
    exact .inr ⟨by omega, by omega, by omega⟩
  · exact .inl (by omega)

/-- The day with a number, in years that begin in March. -/
theorem exists_march (n : Int) : ∃ cycle year month day, InMarchYear year month day ∧
    n + epoch = cycle * daysPerCycle + (year * 365 + year / 4 - year / 100 +
      ((153 * month + 2) / 5 + day - 1)) ∧
    ofNumber n = if month < 10 then ⟨year + cycle * 400, (month + 3).toNat, day.toNat⟩
      else ⟨year + cycle * 400 + 1, (month - 9).toNat, day.toNat⟩ := by
  have low : 0 ≤ (n + epoch) % daysPerCycle := Int.emod_nonneg _ (by decide)
  have high : (n + epoch) % daysPerCycle ≤ 146096 :=
    Int.le_of_lt_add_one (Int.emod_lt_of_pos _ (by decide))
  have inYear := exists_inMarchYear low high rfl rfl rfl
  refine ⟨(n + epoch) / daysPerCycle, _, _, _, inYear, ?_, ?_⟩
  · have whole := Int.mul_ediv_add_emod (n + epoch) daysPerCycle
    rw [Int.mul_comm] at whole
    omega
  · obtain ⟨-, -, monthLow, -, -, -, -⟩ := inYear
    unfold ofNumber
    dsimp only
    split
    next early => rw [if_neg (by omega)]
    next late => rw [if_pos (by omega)]

theorem toNumber_ofNumber (n : Int) : (ofNumber n).toNumber = n := by
  obtain ⟨cycle, year, month, day, inYear, count, isDay⟩ := exists_march n
  obtain ⟨yearLow, yearHigh, monthLow, monthHigh, dayLow, -, -⟩ := inYear
  rw [isDay]
  have cycles : (year + cycle * 400) / 400 = cycle := by omega
  have inCycle : (year + cycle * 400) % 400 = year := by omega
  split
  next early =>
    have calendar : ¬(month + 3).toNat ≤ 2 := by omega
    have march : (((month + 3).toNat : Int) + 9) % 12 = month := by omega
    simp only [toNumber, if_neg calendar, cycles, inCycle, march]
    omega
  next late =>
    have calendar : (month - 9).toNat ≤ 2 := by omega
    have march : (((month - 9).toNat : Int) + 9) % 12 = month := by omega
    simp only [toNumber, if_pos calendar, Int.add_sub_cancel, cycles, inCycle, march]
    omega

/-- The months that begin a March year have the days that they have in the calendar. -/
theorem InMarchYear.le_daysOfMonth {year month day : Int} (inYear : InMarchYear year month day)
    (early : month < 10) (calendarYear : Int) : day.toNat ≤ daysOfMonth calendarYear (month + 3).toNat := by
  obtain ⟨-, -, monthLow, -, -, dayHigh, -⟩ := inYear
  rw [daysOfMonth, if_neg (by omega)]
  by_cases short : month = 1 ∨ month = 3 ∨ month = 6 ∨ month = 8
  · rw [if_pos short] at dayHigh
    rw [if_pos (by omega)]
    omega
  · rw [if_neg short] at dayHigh
    rw [if_neg (by omega)]
    omega

/-- So have January and February, which belong to the next year. -/
theorem InMarchYear.le_daysOfMonth_next {year month day : Int} (inYear : InMarchYear year month day)
    (late : ¬month < 10) (cycle : Int) :
    day.toNat ≤ daysOfMonth (year + cycle * 400 + 1) (month - 9).toNat := by
  obtain ⟨yearLow, yearHigh, -, monthHigh, -, dayHigh, lastMonth⟩ := inYear
  unfold daysOfMonth
  by_cases february : month = 11
  · rw [if_pos (by omega)]
    obtain short | ⟨long, fourth, hundredth⟩ := lastMonth february
    · split <;> omega
    · have leap : isLeapYear (year + cycle * 400 + 1) = true := by
        simp only [isLeapYear, Bool.and_eq_true, Bool.or_eq_true, beq_iff_eq, bne_iff_ne]
        omega
      rw [if_pos leap]
      omega
  · rw [if_neg (by omega), if_neg (by omega)]
    rw [if_neg (by omega)] at dayHigh
    omega

theorem isValid_ofNumber {n : Int} (low : 1 ≤ (ofNumber n).year) : (ofNumber n).isValid = true := by
  obtain ⟨cycle, year, month, day, inYear, -, isDay⟩ := exists_march n
  rw [isDay] at low ⊢
  simp only [isValid, Bool.and_eq_true, decide_eq_true_eq]
  obtain ⟨-, -, monthLow, monthHigh, dayLow, -, -⟩ := id inYear
  split at low
  next early =>
    rw [if_pos early]
    dsimp only
    exact ⟨⟨⟨⟨low, by omega⟩, by omega⟩, by omega⟩, inYear.le_daysOfMonth early _⟩
  next late =>
    rw [if_neg late]
    dsimp only
    exact ⟨⟨⟨⟨low, by omega⟩, by omega⟩, by omega⟩, inYear.le_daysOfMonth_next late cycle⟩

/-- The year of a day is found from the number of the day. -/
theorem year_ofNumber_bounds {n : Int} (low : -719162 ≤ n) (high : n ≤ 2932896) :
    1 ≤ (ofNumber n).year ∧ (ofNumber n).year ≤ 9999 := by
  obtain ⟨cycle, year, month, day, inYear, count, isDay⟩ := exists_march n
  obtain ⟨yearLow, yearHigh, monthLow, monthHigh, dayLow, dayHigh, -⟩ := inYear
  have monthDays : day ≤ 31 := by split at dayHigh <;> omega
  simp only [epoch, daysPerCycle] at count
  rw [isDay]
  split
  next early => constructor <;> dsimp only <;> omega
  next late => constructor <;> dsimp only <;> omega

end Day

/-! ### Text -/

namespace Timestamp

open Decimal (zeros)

theorem padded_toList (width n : Nat) :
    (padded width n).toList = zeros (width - (Nat.toDigits 10 n).length) ++ Nat.toDigits 10 n := by
  simp only [padded, String.toList_ofList, zeros]

theorem padded_isDigit (width n : Nat) : ∀ c ∈ (padded width n).toList, c.isDigit := by
  rw [padded_toList]
  exact List.forall_mem_append.mpr ⟨Json.zeros_isDigit _, Json.toDigits_isDigit n⟩

theorem length_padded (width n : Nat) (positive : 0 < width) (fits : n < 10 ^ width) :
    (padded width n).toList.length = width := by
  have short := Nat.toDigits_length 10 n width positive fits
  rw [padded_toList, List.length_append, Json.length_zeros]
  omega

theorem naturalOfDigits_padded (width n : Nat) : naturalOfDigits (padded width n).toList = n := by
  rw [padded_toList, Json.naturalOfDigits_append, Json.naturalOfDigits_zeros, Json.naturalOfDigits_toDigits,
    Nat.zero_mul, Nat.zero_add]

/-- A number that is filled up to a width is read back from exactly so many digits. -/
theorem digits?_padded (width n : Nat) (positive : 0 < width) (fits : n < 10 ^ width) (rest : List Char) :
    digits? width ((padded width n).toList ++ rest) = some (n, rest) := by
  have length := length_padded width n positive fits
  have digits : ((padded width n).toList ++ rest).take width = (padded width n).toList :=
    List.take_left' length
  have after : ((padded width n).toList ++ rest).drop width = rest := List.drop_left' length
  rw [digits?, digits, after, naturalOfDigits_padded]
  exact if_pos ⟨length, List.all_eq_true.mpr (padded_isDigit width n)⟩

theorem date?_text {day : Day} (valid : day.isValid = true) (high : day.year ≤ 9999) (rest : List Char) :
    date? ((padded 4 day.year.toNat).toList ++ '-' :: ((padded 2 day.month).toList ++ '-' ::
      ((padded 2 day.day).toList ++ rest))) = some (day, rest) := by
  have bounds := valid
  simp only [Day.isValid, Bool.and_eq_true, decide_eq_true_eq] at bounds
  obtain ⟨⟨⟨⟨low, -⟩, months⟩, -⟩, days⟩ := bounds
  have length : Day.daysOfMonth day.year day.month ≤ 31 := by
    unfold Day.daysOfMonth
    repeat' split
    all_goals decide
  have same : (⟨day.year.toNat, day.month, day.day⟩ : Day) = day := by
    rw [Int.toNat_of_nonneg (by omega)]
  simp only [date?, digits?_padded 4 day.year.toNat (by decide) (by omega),
    digits?_padded 2 day.month (by decide) (by omega),
    digits?_padded 2 day.day (by decide) (by omega), expect?, if_pos, Option.bind_eq_bind,
    Option.bind_some, same, valid]

theorem fraction?_text {micros : Nat} (fits : micros < 1000000) {c : Char} (ends : c.isDigit = false)
    (noMark : ¬(c = '.' ∨ c = ',')) (rest : List Char) :
    fraction? ((if micros = 0 then "" else "." ++ padded 6 micros).toList ++ c :: rest) =
      some (micros, c :: rest) := by
  by_cases whole : micros = 0
  · rw [if_pos whole, String.toList_empty, List.nil_append, fraction?, if_neg noMark, whole]
  · have length := length_padded 6 micros (by decide) fits
    have digits : ((padded 6 micros).toList ++ c :: rest).takeWhile Char.isDigit = (padded 6 micros).toList := by
      rw [List.takeWhile_append_of_pos (padded_isDigit 6 micros)]
      simp [ends]
    have after : ((padded 6 micros).toList ++ c :: rest).dropWhile Char.isDigit = c :: rest := by
      rw [List.dropWhile_append_of_pos (padded_isDigit 6 micros)]
      simp [ends]
    have some_ : (padded 6 micros).toList.isEmpty = false := by
      cases digits : (padded 6 micros).toList with
      | nil => simp [digits] at length
      | cons _ _ => rfl
    have kept : (padded 6 micros).toList.take 6 = (padded 6 micros).toList :=
      List.take_of_length_le (Nat.le_of_eq length)
    rw [if_neg whole, String.toList_append]
    have point : ".".toList = ['.'] := rfl
    rw [point, List.append_assoc, List.singleton_append]
    simp only [fraction?, true_or, if_true, digits, after, some_, kept, length, naturalOfDigits_padded,
      Bool.false_eq_true, if_false, Nat.sub_self]
    rw [show Nat.pow 10 0 = 1 from rfl, Nat.mul_one]

theorem timeOfDay?_text (hour minute second micros : Nat) (hours : hour ≤ 23) (minutes : minute ≤ 59)
    (seconds : second ≤ 59) (fits : micros < 1000000) {c : Char} (ends : c.isDigit = false)
    (noMark : ¬(c = '.' ∨ c = ',')) (rest : List Char) :
    timeOfDay? ((padded 2 hour).toList ++ ':' :: ((padded 2 minute).toList ++ ':' ::
      ((padded 2 second).toList ++
        ((if micros = 0 then "" else "." ++ padded 6 micros).toList ++ c :: rest)))) =
      some (((hour * 60 + minute) * 60 + second) * 1000000 + micros, c :: rest) := by
  have inRange : ¬(hour > 23 ∨ minute > 59) := by omega
  have inMinute : ¬second > 59 := by omega
  simp only [timeOfDay?, digits?_padded 2 hour (by decide) (by omega),
    digits?_padded 2 minute (by decide) (by omega),
    digits?_padded 2 second (by decide) (by omega), expect?, if_pos, Option.bind_eq_bind,
    Option.bind_some, inRange, inMinute, if_false, fraction?_text fits ends noMark]

/-- A time of the years from 1 to 9999 on a clock that shows universal time. -/
structure IsUniversal (t : Timestamp) : Prop where
  offset : t.offset = some 0
  low : -62135596800000000 ≤ t.micros
  high : t.micros < 253402300800000000

/-- The text of a universal time in one piece: the day, the time of day and the mark of universal time. -/
theorem toList_text {t : Timestamp} (offset : t.offset = some 0) :
    let day := Day.ofNumber (t.micros / microsPerSecond / secondsPerDay)
    let second := (t.micros / microsPerSecond % secondsPerDay).toNat
    let micros := (t.micros % microsPerSecond).toNat
    t.text.toList = (padded 4 day.year.toNat).toList ++ '-' :: ((padded 2 day.month).toList ++ '-' ::
      ((padded 2 day.day).toList ++ 'T' :: ((padded 2 (second / 3600)).toList ++ ':' ::
        ((padded 2 (second / 60 % 60)).toList ++ ':' :: ((padded 2 (second % 60)).toList ++
          ((if micros = 0 then "" else "." ++ padded 6 micros).toList ++ ['Z'])))))) := by
  have dash : "-".toList = ['-'] := rfl
  have letter : "T".toList = ['T'] := rfl
  have colon : ":".toList = [':'] := rfl
  have zone : (offsetText (some 0)).toList = ['Z'] := rfl
  unfold Timestamp.text
  simp only [offset, String.toList_append, List.append_assoc, dash, letter, colon, zone,
    List.cons_append, List.nil_append]

theorem ofText?_text {t : Timestamp} (universal : t.IsUniversal) : ofText? t.text.toList = some t := by
  obtain ⟨offset, low, high⟩ := universal
  have text := toList_text offset
  dsimp only at text
  generalize isDay : Day.ofNumber (t.micros / microsPerSecond / secondsPerDay) = day at text
  generalize isSecond : (t.micros / microsPerSecond % secondsPerDay).toNat = second at text
  generalize isMicros : (t.micros % microsPerSecond).toNat = micros at text
  simp only [microsPerSecond, secondsPerDay] at isDay isSecond isMicros
  obtain ⟨yearLow, yearHigh⟩ :=
    Day.year_ofNumber_bounds (n := t.micros / 1000000 / 86400) (by omega) (by omega)
  have valid := Day.isValid_ofNumber yearLow
  have number := Day.toNumber_ofNumber (t.micros / 1000000 / 86400)
  rw [isDay] at yearHigh valid number
  have time := timeOfDay?_text (second / 3600) (second / 60 % 60) (second % 60) micros (by omega) (by omega)
    (by omega) (by omega) (c := 'Z') rfl (by decide) []
  have whole : day.toNumber * 86400 * 1000000 +
      ((((second / 3600 * 60 + second / 60 % 60) * 60 + second % 60) * 1000000 + micros : Nat) : Int) =
        t.micros := by
    omega
  have dateTime : dateTime? t.text.toList = some t := by
    have separates : isSeparator 'T' = true := rfl
    have zone : offset? ['Z'] = some (some 0) := rfl
    simp only [text, dateTime?, date?_text valid yearHigh, Option.bind_eq_bind, Option.bind_some, separates,
      Bool.not_true, Bool.false_eq_true, if_false, time, zone, microsPerSecond, secondsPerDay, whole]
    rw [← offset]
  rw [ofText?, dateTime]
  rfl

/-- Such a time is read back from its text. -/
theorem check_text {t : Timestamp} (universal : t.IsUniversal) : check (.string t.text) = .ok t := by
  rw [check, ofText?_text universal]
  rfl

end Timestamp

end Flowchart
