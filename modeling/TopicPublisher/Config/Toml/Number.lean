import TopicPublisher.Config.Digits
import TopicPublisher.Config.Setting
import TopicPublisher.Config.Toml.Text

/-!
# Numbers and dates in TOML files

Integers in four bases that fit 64 bits, doubles, and dates and times. Digits may be set apart by
single underscores. A decimal number has no leading zeros. Of a date or time only the text is kept,
in the one form that it has: with a `T` between date and time, and without zeros at the end of a
fraction of a second, which has nine places at most.
-/

namespace TopicPublisher

namespace Toml

/-! ## 1. Digits -/

/-- Digits with single underscores between them. -/
def moreDigits (digit : Char → Bool) : List Char → List Char × List Char
  | '_' :: c :: rest =>
    if digit c then
      let (ds, rest) := moreDigits digit rest
      (c :: ds, rest)
    else ([], '_' :: c :: rest)
  | c :: rest =>
    if digit c then
      let (ds, rest) := moreDigits digit rest
      (c :: ds, rest)
    else ([], c :: rest)
  | [] => ([], [])

/-- At least one digit. -/
def digits? (digit : Char → Bool) : List Char → Read (List Char)
  | c :: rest =>
    if digit c then
      let (ds, rest) := moreDigits digit rest
      some (c :: ds, rest)
    else none
  | [] => none

/-- A sign, where there is one; `true` is the sign `-`. -/
def sign : List Char → Bool × List Char
  | '-' :: rest => (true, rest)
  | '+' :: rest => (false, rest)
  | cs => (false, cs)

/-- A lone zero, or digits that do not begin with one. -/
def whole? : List Char → Read (List Char)
  | '0' :: rest => some (['0'], rest)
  | cs => digits? Char.isDigit cs

/-! ## 2. Numbers -/

/-- An exponent part. -/
def exponent? : List Char → Read Int
  | c :: rest =>
    if c = 'e' || c = 'E' then
      let (negative, rest) := sign rest
      (digits? Char.isDigit rest).map fun (ds, rest) =>
        (if negative then -(Digits.natOf 10 ds : Int) else Digits.natOf 10 ds, rest)
    else none
  | [] => none

/-- A double with a fraction, an exponent, or both. One that is too large is none, but the negative
one too large is infinite. -/
def float? (cs : List Char) : Read Scalar :=
  let (negative, cs) := sign cs
  (whole? cs).bind fun (whole, cs) =>
    let parts : Read (List Char × Int) := match cs with
      | '.' :: rest =>
        (digits? Char.isDigit rest).bind fun (ds, rest) =>
          match exponent? rest with
          | some (e, rest) => some ((ds, e), rest)
          | none => some ((ds, 0), rest)
      | cs => (exponent? cs).map fun (e, rest) => (([], e), rest)
    parts.bind fun ((fraction, e), rest) =>
      let x := Binary64.ofDecimal negative (Digits.natOf 10 (whole ++ fraction)) (e - fraction.length)
      if x.isInfinite && !negative then none else some (.float x, rest)

/-- Infinity and not a number. -/
def specialFloat? (cs : List Char) : Read Scalar :=
  let (negative, cs) := sign cs
  match cs with
  | 'i' :: 'n' :: 'f' :: rest => some (.float (.infinity negative), rest)
  | 'n' :: 'a' :: 'n' :: rest => some (.float .nan, rest)
  | _ => none

/-- An integer that fits 64 bits. -/
def bounded? (n : Int) (rest : List Char) : Read Scalar :=
  if Word.isSigned n then some (.int n, rest) else none

def based? (base : Nat) (digit : Char → Bool) (cs : List Char) : Read Scalar :=
  (digits? digit cs).bind fun (ds, rest) => bounded? (Digits.natOf base ds) rest

def integer? (cs : List Char) : Read Scalar :=
  match cs with
  | '0' :: 'x' :: rest => based? 16 (fun c => (Json.hexValue c).isSome) rest
  | '0' :: 'o' :: rest => based? 8 (fun c => '0' ≤ c && c ≤ '7') rest
  | '0' :: 'b' :: rest => based? 2 (fun c => c = '0' || c = '1') rest
  | cs =>
    let (negative, cs) := sign cs
    (whole? cs).bind fun (ds, rest) =>
      bounded? (if negative then -(Digits.natOf 10 ds : Int) else Digits.natOf 10 ds) rest

/-! ## 3. Dates and times -/

/-- A number of exactly so many digits, within bounds. -/
def field? (count low high : Nat) (cs : List Char) : Read Nat :=
  let ds := cs.take count
  if ds.length = count ∧ ds.all Char.isDigit then
    let n := Digits.natOf 10 ds
    if low ≤ n ∧ n ≤ high then some (n, cs.drop count) else none
  else none

/-- A number with zeros before it, so that it has so many digits. -/
def padded (count n : Nat) : String :=
  let ds := toString n
  String.ofList (List.replicate (count - ds.length) '0') ++ ds

def isLeapYear (year : Nat) : Bool := year % 4 = 0 && (year % 100 != 0 || year % 400 = 0)

def daysIn (year month : Nat) : Nat :=
  if month = 2 then (if isLeapYear year then 29 else 28)
  else if month = 4 ∨ month = 6 ∨ month = 9 ∨ month = 11 then 30
  else 31

def expect? (c : Char) : List Char → Option (List Char)
  | d :: rest => if d = c then some rest else none
  | [] => none

def date? (cs : List Char) : Option (String × List Char) := do
  let (year, cs) ← field? 4 0 9999 cs
  let cs ← expect? '-' cs
  let (month, cs) ← field? 2 1 12 cs
  let cs ← expect? '-' cs
  let (day, cs) ← field? 2 1 31 cs
  if day ≤ daysIn year month then
    return (padded 4 year ++ "-" ++ padded 2 month ++ "-" ++ padded 2 day, cs)
  else none

/-- The fraction of a second. -/
def fraction? : List Char → Read String
  | '.' :: rest =>
    match rest.span Char.isDigit with
    | ([], _) => none
    | (ds, rest) =>
      let places := ((ds.take 9).reverse.dropWhile fun c => c = '0').reverse
      some (if places.isEmpty then "" else "." ++ String.ofList places, rest)
  | cs => some ("", cs)

def time? (cs : List Char) : Option (String × List Char) := do
  let (hour, cs) ← field? 2 0 23 cs
  let cs ← expect? ':' cs
  let (minute, cs) ← field? 2 0 59 cs
  let cs ← expect? ':' cs
  let (second, cs) ← field? 2 0 60 cs
  let (places, cs) ← fraction? cs
  return (padded 2 hour ++ ":" ++ padded 2 minute ++ ":" ++ padded 2 second ++ places, cs)

/-- The offset from universal time, where there is one. An offset of nothing is positive. -/
def offset? : List Char → Option (String × List Char)
  | c :: rest =>
    if c = 'Z' || c = 'z' then some ("Z", rest)
    else if c = '+' || c = '-' then do
      let (hour, rest) ← field? 2 0 23 rest
      let rest ← expect? ':' rest
      let (minute, rest) ← field? 2 0 59 rest
      let mark := if c = '-' ∧ (hour, minute) ≠ (0, 0) then "-" else "+"
      return (mark ++ padded 2 hour ++ ":" ++ padded 2 minute, rest)
    else some ("", c :: rest)
  | [] => some ("", [])

/-- Whether a time begins here. -/
def isTimeAhead (cs : List Char) : Bool :=
  match field? 2 0 23 cs with
  | some (_, ':' :: _) => true
  | _ => false

/-- What follows a date: a time and an offset, or nothing. -/
def afterDate? (date : String) (cs : List Char) : Option (Scalar × List Char) :=
  match cs with
  | c :: rest =>
    if (c = 'T' || c = 't' || c = ' ') && isTimeAhead rest then do
      let (time, rest) ← time? rest
      let (offset, rest) ← offset? rest
      return (.str (date ++ "T" ++ time ++ offset), rest)
    else some (.str date, cs)
  | [] => some (.str date, [])

/-- Whether a date begins here. -/
def isDateAhead (cs : List Char) : Bool :=
  match field? 4 0 9999 cs with
  | some (_, '-' :: _) => true
  | _ => false

/-- A number, a date or a time. -/
def number? (cs : List Char) : Read Scalar :=
  if isDateAhead cs then (date? cs).bind fun (date, rest) => afterDate? date rest
  else if isTimeAhead cs then (time? cs).map fun (time, rest) => (.str time, rest)
  else (float? cs).orElse fun _ => (specialFloat? cs).orElse fun _ => integer? cs

end Toml

end TopicPublisher
