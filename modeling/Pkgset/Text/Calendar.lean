import Pkgset.Text.Decimal

/-!
# Calendar

Days are counted from the first of January 1970, and leap years have one day more. A
moment is a number of seconds, none of which is left out.
-/

namespace Pkgset

/-- A day of the calendar. -/
structure Day where
  year : Int
  month : Nat
  day : Nat
  deriving DecidableEq, Repr

namespace Day

/-- The number of a day. Years are taken to start in March, so that the day that only
    leap years have is the last one. -/
def number (date : Day) : Int :=
  let year : Int := if date.month ≤ 2 then date.year - 1 else date.year
  let era := Int.fdiv year 400
  let ofEra := (year - era * 400).toNat
  let month := if date.month ≤ 2 then date.month + 9 else date.month - 3
  let ofYear := (153 * month + 2) / 5 + date.day
  era * 146097 + (ofEra * 365 + ofEra / 4 - ofEra / 100 + ofYear : Nat) - 719469

/-- The day of a number. -/
def ofNumber (n : Int) : Day :=
  let n := n + 719468
  let era := Int.fdiv n 146097
  let ofEra := (n - era * 146097).toNat
  let yearOfEra := (ofEra - ofEra / 1460 + ofEra / 36524 - ofEra / 146096) / 365
  let ofYear := ofEra - (365 * yearOfEra + yearOfEra / 4 - yearOfEra / 100)
  let month := (5 * ofYear + 2) / 153
  let day := ofYear - (153 * month + 2) / 5 + 1
  let shifted := if month < 10 then month + 3 else month - 9
  ⟨(yearOfEra : Int) + era * 400 + (if shifted ≤ 2 then 1 else 0), shifted, day⟩

/-- Whether a year has a day more than others. -/
def isLeap (year : Int) : Bool := year % 4 = 0 && (year % 100 ≠ 0 || year % 400 = 0)

/-- The number of days of a month. -/
def daysOf (year : Int) (month : Nat) : Nat :=
  match month with
  | 2 => if isLeap year then 29 else 28
  | 4 | 6 | 9 | 11 => 30
  | _ => 31

/-- The day of the week of a number, from Sunday on. -/
def weekday (n : Int) : Nat := (Int.emod (n + 4) 7).toNat

/-- The names of the days of the week. -/
def weekdays : List String := ["Sunday", "Monday", "Tuesday", "Wednesday", "Thursday", "Friday", "Saturday"]

/-- The names of the months. -/
def months : List String :=
  ["January", "February", "March", "April", "May", "June", "July", "August", "September", "October", "November",
    "December"]

/-- The day of its year that a day is, from one on. -/
def ofYear (date : Day) : Nat := (date.number - Day.number ⟨date.year, 1, 1⟩).toNat + 1

/-- The year and the week that a day belongs to; the first week of a year has its first
    Thursday. -/
def week (date : Day) : Int × Nat :=
  let n := date.number
  let fromMonday := (weekday n + 6) % 7
  let thursday := n - fromMonday + 3
  let year := (ofNumber thursday).year
  (year, ((thursday - Day.number ⟨year, 1, 1⟩) / 7).toNat + 1)

end Day

namespace Moment

/-- The number of seconds of a day. -/
def daySeconds : Int := 86400

/-- The day of a moment, and the seconds since it began. -/
def split (seconds : Int) : Day × Nat :=
  (Day.ofNumber (Int.fdiv seconds daySeconds), (Int.emod seconds daySeconds).toNat)

/-- A number with zeros or blanks in front, to a width. -/
def padded (fill : Char) (width : Nat) (n : Int) : String :=
  let digits := String.ofList (Decimal.digits n.natAbs)
  (if n < 0 then "-" else "") ++ String.ofList (List.replicate (width - digits.length) fill) ++ digits

/-- The first three characters of a name. -/
def short (name : String) : String := (name.take 3).toString

/-- What a letter of a format stands for, or a format that it stands for. -/
def field (seconds : Int) (nanoseconds : Nat) (fill : Option Char) (letter : Char) : Option (String ⊕ String) :=
  let (date, time) := split seconds
  let n := date.number
  let hour := time / 3600
  let hour12 := if hour % 12 = 0 then 12 else hour % 12
  let weekday := Day.weekday n
  let number (standard : Char) (width : Nat) (value : Int) : Option (String ⊕ String) :=
    let fill := fill.getD standard
    some (.inl (if fill = '-' then padded '0' 0 value else padded (if fill = '_' then ' ' else fill) width value))
  let word (text : String) : Option (String ⊕ String) :=
    some (.inl (if fill = some '^' then text.toUpper else text))
  let format (text : String) : Option (String ⊕ String) := some (.inr text)
  let dayName := Day.weekdays[weekday]?.getD ""
  let monthName := Day.months[date.month - 1]?.getD ""
  match letter with
  | 'a' => word (short dayName)
  | 'A' => word dayName
  | 'b' | 'h' => word (short monthName)
  | 'B' => word monthName
  | 'c' => format "%a %b %e %H:%M:%S %Y"
  | 'C' => number '0' 2 (Int.fdiv date.year 100)
  | 'd' => number '0' 2 date.day
  | 'D' | 'x' => format "%m/%d/%y"
  | 'e' => number ' ' 2 date.day
  | 'F' => format "%Y-%m-%d"
  | 'g' => number '0' 2 (Int.emod date.week.1 100)
  | 'G' => number '0' 4 date.week.1
  | 'H' => number '0' 2 hour
  | 'I' => number '0' 2 hour12
  | 'j' => number '0' 3 date.ofYear
  | 'k' => number ' ' 2 hour
  | 'l' => number ' ' 2 hour12
  | 'm' => number '0' 2 date.month
  | 'M' => number '0' 2 (time / 60 % 60 : Nat)
  | 'n' => word "\n"
  | 'N' => word (padded '0' 9 nanoseconds)
  | 'p' => word (if hour < 12 then "AM" else "PM")
  | 'P' => word (if hour < 12 then "am" else "pm")
  | 'q' => number '0' 1 ((date.month - 1) / 3 + 1 : Nat)
  | 'r' => format "%I:%M:%S %p"
  | 'R' => format "%H:%M"
  | 's' => number '0' 1 seconds
  | 'S' => number '0' 2 (time % 60 : Nat)
  | 't' => word "\t"
  | 'T' | 'X' => format "%H:%M:%S"
  | 'u' => number '0' 1 (if weekday = 0 then 7 else weekday : Nat)
  | 'U' => number '0' 2 ((date.ofYear + 6 - weekday) / 7 : Nat)
  | 'V' => number '0' 2 date.week.2
  | 'w' => number '0' 1 weekday
  | 'W' => number '0' 2 ((date.ofYear + 6 - (weekday + 6) % 7) / 7 : Nat)
  | 'y' => number '0' 2 (Int.emod date.year 100)
  | 'Y' => number '0' 4 date.year
  | 'z' => word "+0000"
  | 'Z' => word "UTC"
  | '%' => word "%"
  | _ => none

/-- Writes a moment by a format, within a number of steps. -/
def formatWithin (seconds : Int) (nanoseconds : Nat) : Nat → List Char → String
  | 0, _ => ""
  | _, [] => ""
  | bound + 1, '%' :: rest =>
    let flags := rest.takeWhile fun c => c = '-' || c = '_' || c = '0' || c = '^' || c = '#'
    let fill := flags.getLast?
    let after := rest.drop flags.length
    let colons := after.takeWhile (· = ':')
    let width := (after.drop colons.length).takeWhile Char.isDigit
    match (after.drop colons.length).drop width.length with
    | [] => String.ofList ('%' :: rest)
    | letter :: more =>
      let text := match if letter = 'z' && !colons.isEmpty then some (.inl "+00:00") else field seconds nanoseconds fill letter with
        | some (.inl text) => text
        | some (.inr format) => formatWithin seconds nanoseconds bound format.toList
        | none => String.ofList ('%' :: (rest.take (rest.length - more.length)))
      let text := if width.isEmpty then text
        else if letter = 'N' then (text.take (Decimal.ofDigits width)).toString
        else String.ofList (List.replicate (Decimal.ofDigits width - text.length) '0') ++ text
      text ++ formatWithin seconds nanoseconds bound more
  | bound + 1, c :: rest => c.toString ++ formatWithin seconds nanoseconds bound rest

/-- Writes a moment by a format. -/
def format (seconds : Int) (nanoseconds : Nat) (text : String) : String :=
  formatWithin seconds nanoseconds (2 * text.length + 30) text.toList

/-! ## Reading -/

/-- The parts of a text that tells a moment. -/
inductive Part where
  | number (sign : Option Char) (digits : List Char)
  | word (text : String)
  | mark (c : Char)
  deriving DecidableEq, Repr

/-- Cuts a text into parts, within a number of them. -/
def partsWithin : Nat → List Char → List Part
  | 0, _ => []
  | _, [] => []
  | bound + 1, c :: rest =>
    if c = ' ' || c = '\t' || c = '\n' then partsWithin bound rest
    else if c.isDigit then
      let digits := (c :: rest).takeWhile Char.isDigit
      .number none digits :: partsWithin bound ((c :: rest).drop digits.length)
    else if (c = '+' || c = '-') && rest.head?.any Char.isDigit then
      let digits := rest.takeWhile Char.isDigit
      .number (some c) digits :: partsWithin bound (rest.drop digits.length)
    else if c.isAlpha then
      let word := (c :: rest).takeWhile Char.isAlpha
      .word (String.ofList word).toLower :: partsWithin bound ((c :: rest).drop word.length)
    else .mark c :: partsWithin bound rest

/-- A moment that is being read: its day, its time of day if it is told, what is added in
    months and in seconds, and how far it is from the time of reference. -/
structure Told where
  date : Day
  time : Option Int
  hasDate : Bool
  months : Int
  seconds : Int
  offset : Int
  hasShift : Bool

/-- The seconds, or the months, of a unit. -/
def unit? (word : String) : Option (Int × Int) :=
  let word := if word.endsWith "s" && word.length > 3 then (word.dropEnd 1).toString else word
  match word with
  | "year" => some (12, 0)
  | "month" => some (1, 0)
  | "fortnight" => some (0, 14 * daySeconds)
  | "week" => some (0, 7 * daySeconds)
  | "day" => some (0, daySeconds)
  | "hour" => some (0, 3600)
  | "minute" | "min" => some (0, 60)
  | "second" | "sec" => some (0, 1)
  | _ => none

/-- The place of a name in a list of names, of which three letters are enough. -/
def place? (names : List String) (word : String) : Option Nat :=
  if word.length < 3 then none else names.findIdx? fun name => name.toLower.startsWith word

/-- Adds so many of a unit. -/
def Told.add (told : Told) (count : Int) (unit : Int × Int) : Told :=
  { told with months := told.months + count * unit.1, seconds := told.seconds + count * unit.2, hasShift := true }

/-- Reads the parts of a moment, within a number of them. -/
def tell (now : Day) : Nat → List Part → Told → Option Told
  | 0, _, _ => none
  | _, [], told => some told
  | bound + 1, parts, told =>
    let go (rest : List Part) (told : Told) : Option Told := tell now bound rest told
    let number (digits : List Char) : Nat := Decimal.ofDigits digits
    let signed (sign : Option Char) (digits : List Char) : Int :=
      if sign = some '-' then -(number digits : Int) else number digits
    let dated (year : Int) (month day : Nat) (rest : List Part) : Option Told :=
      if month = 0 || 12 < month || day = 0 || Day.daysOf year month < day then none
      else go rest { told with date := ⟨year, month, day⟩, hasDate := true }
    let timed (hour minute second : Nat) (rest : List Part) : Option Told :=
      let (hour, rest) := match rest with
        | .word "am" :: rest => (hour % 12, rest)
        | .word "pm" :: rest => (hour % 12 + 12, rest)
        | rest => (hour, rest)
      if 23 < hour || 59 < minute || 60 < second then none
      else
        let told := { told with time := some (hour * 3600 + minute * 60 + second : Nat) }
        match rest with
        | .number (some sign) [a, b] :: .mark ':' :: .number none [c, d] :: rest =>
          let shift : Int := (number [a, b] * 3600 + number [c, d] * 60 : Nat)
          go rest { told with offset := if sign = '-' then -shift else shift }
        | .number (some sign) [a, b, c, d] :: rest =>
          let shift : Int := (number [a, b] * 3600 + number [c, d] * 60 : Nat)
          go rest { told with offset := if sign = '-' then -shift else shift }
        | .number (some sign) [a, b] :: rest =>
          let shift : Int := (number [a, b] * 3600 : Nat)
          match rest with
          | .word word :: _ => if (unit? word).isSome then go (.number (some sign) [a, b] :: rest) told
            else go rest { told with offset := if sign = '-' then -shift else shift }
          | rest => go rest { told with offset := if sign = '-' then -shift else shift }
        | rest => go rest told
    let clock (hour : List Char) (rest : List Part) : Option Told :=
      match rest with
      | .number none minute :: .mark ':' :: .number none second :: .mark '.' :: .number none _ :: rest =>
        timed (number hour) (number minute) (number second) rest
      | .number none minute :: .mark ':' :: .number none second :: rest =>
        timed (number hour) (number minute) (number second) rest
      | .number none minute :: rest => timed (number hour) (number minute) 0 rest
      | _ => none
    match parts with
    | .number none year :: .number (some '-') month :: .number (some '-') day :: rest =>
      let rest := match rest with
        | .word "t" :: rest => rest
        | rest => rest
      let full : Int := if year.length ≤ 2 then (if number year < 69 then 2000 else 1900) + number year else number year
      dated full (number month) (number day) rest
    | .number none first :: .mark '/' :: .number none second :: .mark '/' :: .number none third :: rest =>
      if first.length = 4 then dated (number first) (number second) (number third) rest
      else
        let year : Int := if third.length ≤ 2 then (if number third < 69 then 2000 else 1900) + number third else number third
        dated year (number first) (number second) rest
    | .number none hour :: .mark ':' :: rest => clock hour rest
    | .number sign digits :: .word word :: rest =>
      match unit? word with
      | some unit =>
        let count := signed sign digits
        match rest with
        | .word "ago" :: rest => go rest (told.add (-count) unit)
        | rest => go rest (told.add count unit)
      | none =>
        if sign.isNone && (word = "am" || word = "pm") then timed (number digits) 0 0 (.word word :: rest)
        else match place? Day.months word with
          | some month =>
            match rest with
            | .number none year :: rest =>
              if year.length = 4 then
                match rest with
                | .mark ':' :: _ => dated now.year (month + 1) (number digits) (.number none year :: rest)
                | rest => dated (number year) (month + 1) (number digits) rest
              else dated now.year (month + 1) (number digits) (.number none year :: rest)
            | rest => dated now.year (month + 1) (number digits) rest
          | none => none
    | .number none digits :: rest =>
      if digits.length = 8 then
        dated (number (digits.take 4)) (number ((digits.drop 4).take 2)) (number (digits.drop 6)) rest
      else if digits.length = 4 && told.hasDate && told.time.isSome then
        go rest { told with date := { told.date with year := number digits } }
      else if digits.length ≤ 2 && told.time.isNone then timed (number digits) 0 0 rest
      else if digits.length = 4 then timed (number (digits.take 2)) (number (digits.drop 2)) 0 rest
      else none
    | .word word :: rest =>
      match word with
      | "now" | "today" => go rest { told with hasShift := true }
      | "yesterday" => go rest (told.add (-1) (0, daySeconds))
      | "tomorrow" => go rest (told.add 1 (0, daySeconds))
      | "utc" | "gmt" | "z" => go rest told
      | "noon" => go rest { told with time := some 43200 }
      | "midnight" => go rest { told with time := some 0 }
      | "next" | "last" =>
        match rest with
        | .word name :: rest => (unit? name).bind fun unit => go rest (told.add (if word = "next" then 1 else -1) unit)
        | _ => none
      | word =>
        match place? Day.months word with
        | some month =>
          match rest with
          | .number none day :: .mark ',' :: .number none year :: rest => dated (number year) (month + 1) (number day) rest
          | .number none day :: .number none year :: rest =>
            match rest, year.length with
            | .mark ':' :: _, _ => dated now.year (month + 1) (number day) (.number none year :: rest)
            | rest, 4 => dated (number year) (month + 1) (number day) rest
            | rest, _ => dated now.year (month + 1) (number day) (.number none year :: rest)
          | .number none day :: rest => dated now.year (month + 1) (number day) rest
          | _ => none
        | none =>
          match place? Day.weekdays word, unit? word with
          | some _, _ =>
            match rest with
            | .mark ',' :: rest => go rest told
            | rest => go rest told
          | none, some unit =>
            match rest with
            | .word "ago" :: rest => go rest (told.add (-1) unit)
            | rest => go rest (told.add 1 unit)
          | none, none => none
    | .mark ',' :: rest => go rest told
    | _ => none

/-- The moment that a text tells, in seconds and nanoseconds, at a moment that is now. -/
def ofText? (now : Int) (text : String) : Option (Int × Nat) :=
  match text.toList.dropWhile (· = ' ') with
  | '@' :: rest =>
    let (negative, rest) := match rest with
      | '-' :: rest => (true, rest)
      | rest => (false, rest)
    let whole := rest.takeWhile Char.isDigit
    let seconds : Int := Decimal.ofDigits whole
    let sign : Int := if negative then -1 else 1
    match whole, rest.drop whole.length with
    | [], _ => none
    | _, [] => some (sign * seconds, 0)
    | _, '.' :: places =>
      if places.all Char.isDigit then
        let places := places.take 9
        some (sign * seconds, Decimal.ofDigits places * Nat.pow 10 (9 - places.length))
      else none
    | _, _ => none
  | _ =>
    let (today, time) := split now
    let parts := partsWithin (text.length + 1) text.toList
    (tell today (2 * parts.length + 2) parts ⟨today, none, false, 0, 0, 0, false⟩).map fun told =>
      let base : Int := told.time.getD (if told.hasDate || !told.hasShift then 0 else time)
      let months : Int := (told.date.month : Int) - 1 + told.months
      let year := told.date.year + Int.fdiv months 12
      let month := (Int.emod months 12).toNat + 1
      let day := Day.number ⟨year, month, 1⟩ + told.date.day - 1
      (day * daySeconds + base + told.seconds - told.offset, 0)

end Moment
end Pkgset
