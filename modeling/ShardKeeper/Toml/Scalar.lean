import ShardKeeper.Toml.Basic
import ShardKeeper.Text.Decimal
import ShardKeeper.Text.Double

/-!
# Numbers, booleans and dates in TOML

## Main definitions

* `Toml.Scalar.ofWord?` — the value that an unquoted word spells
-/

namespace ShardKeeper.Toml.Scalar

/-! ### Integers -/

/-- The digits of a run such as `1_000`, where single underscores stand between digits only. -/
def digits? (isDigit : Char → Bool) : List Char → Option (List Char)
  | [] => none
  | c :: rest =>
    if isDigit c then
      match rest with
      | [] => some [c]
      | '_' :: rest => (digits? isDigit rest).map (c :: ·)
      | d :: rest => (digits? isDigit (d :: rest)).map (c :: ·)
    else none

/-- The value of a digit in a base of at most sixteen. -/
def digitValue (c : Char) : Nat :=
  if c.isDigit then c.toNat - 48 else if c.isUpper then c.toNat - 55 else c.toNat - 87

/-- Whether a character is a digit in a base. -/
def isDigitIn (base : Nat) (c : Char) : Bool :=
  if base = 16 then c.isDigit || ('a' ≤ c && c ≤ 'f') || ('A' ≤ c && c ≤ 'F')
  else c.isDigit && digitValue c < base

/-- The number that digits spell in a base. -/
def valueIn (base : Nat) (digits : List Char) : Nat :=
  digits.foldl (fun n c => base * n + digitValue c) 0

/-- Decimal digits with neither misplaced underscores nor a needless leading zero. -/
def wholeDigits? (word : List Char) : Option (List Char) :=
  match digits? Char.isDigit word with
  | some ['0'] => some ['0']
  | some ('0' :: _) => none
  | d => d

/-- The sign in front of a word, if it has one, and the rest. -/
def splitSign : List Char → Bool × Bool × List Char
  | '-' :: rest => (true, true, rest)
  | '+' :: rest => (true, false, rest)
  | word => (false, false, word)

/-- An integer: decimal with an optional sign, or unsigned after `0x`, `0o` or `0b`. -/
def integer? (word : List Char) : Option Int :=
  match word with
  | '0' :: 'x' :: rest => (digits? (isDigitIn 16) rest).map fun d => (valueIn 16 d : Int)
  | '0' :: 'o' :: rest => (digits? (isDigitIn 8) rest).map fun d => (valueIn 8 d : Int)
  | '0' :: 'b' :: rest => (digits? (isDigitIn 2) rest).map fun d => (valueIn 2 d : Int)
  | word =>
    let (_, negative, rest) := splitSign word
    (wholeDigits? rest).map fun d =>
      let n : Int := valueIn 10 d
      if negative then -n else n

/-! ### Other numbers -/

/-- The characters in front of the first one that satisfies `stop`, and those from it on. -/
def splitAt (stop : Char → Bool) (word : List Char) : List Char × List Char :=
  (word.takeWhile fun c => !stop c, word.dropWhile fun c => !stop c)

/-- The fraction after a dot: no digits when there is no dot. -/
def fraction? : List Char → Option (List Char)
  | [] => some []
  | '.' :: rest => digits? Char.isDigit rest
  | _ => none

/-- The exponent after a letter `e`, zero when there is none. -/
def exponent? : List Char → Option Int
  | [] => some 0
  | _ :: rest =>
    let (_, negative, digits) := splitSign rest
    (digits? Char.isDigit digits).map fun d =>
      let n : Int := valueIn 10 d
      if negative then -n else n

/-- A number with a fraction or an exponent, or one that is infinite or none at all by name. -/
def float? (word : List Char) : Option Toml :=
  let (_, _, rest) := splitSign word
  if rest = ['i', 'n', 'f'] || rest = ['n', 'a', 'n'] then some (.float true)
  else
    let (mantissa, exponent) := splitAt (fun c => c == 'e' || c == 'E') rest
    let (whole, fraction) := splitAt (· == '.') mantissa
    if exponent.isEmpty && fraction.isEmpty then none
    else do
      let whole ← wholeDigits? whole
      let places ← fraction? fraction
      let power ← exponent? exponent
      return .float
        (Double.isFinite (valueIn 10 (whole ++ places)) (power - places.length))

/-! ### Dates and times -/

/-- A number of exactly `width` digits at the front of a word, and the rest. -/
def fixed? (width : Nat) (word : List Char) : Option (Nat × List Char) :=
  let front := word.take width
  if front.length = width && front.all Char.isDigit then
    some (valueIn 10 front, word.drop width)
  else none

/-- What follows a given character at the front of a word. -/
def after? (c : Char) : List Char → Option (List Char)
  | d :: rest => if c = d then some rest else none
  | [] => none

/-- The number of days in a month. -/
def daysIn (year month : Nat) : Nat :=
  if month = 2 then
    if year % 4 = 0 && (year % 100 ≠ 0 || year % 400 = 0) then 29 else 28
  else if month = 4 || month = 6 || month = 9 || month = 11 then 30
  else 31

/-- A date at the front of a word; the result is what follows it. -/
def date? (word : List Char) : Option (List Char) := do
  let (year, rest) ← fixed? 4 word
  let (month, rest) ← fixed? 2 (← after? '-' rest)
  let (day, rest) ← fixed? 2 (← after? '-' rest)
  if 1 ≤ month && month ≤ 12 && 1 ≤ day && day ≤ daysIn year month then some rest else none

/-- The fraction of a second at the front of a word, if there is one. -/
def secondFraction? : List Char → Option (List Char)
  | '.' :: c :: rest => if c.isDigit then some (rest.dropWhile Char.isDigit) else none
  | '.' :: [] => none
  | word => some word

/-- A time of day at the front of a word, with seconds or without. -/
def time? (word : List Char) : Option (List Char) := do
  let (hour, rest) ← fixed? 2 word
  let (minute, rest) ← fixed? 2 (← after? ':' rest)
  if 23 < hour || 59 < minute then none
  else
    match rest with
    | ':' :: rest => do
      let (second, rest) ← fixed? 2 rest
      if second ≤ 60 then secondFraction? rest else none
    | rest => some rest

/-- The offset of a time zone, which is all that is left of a word. -/
def isOffset : List Char → Bool
  | [] => true
  | ['Z'] => true
  | ['z'] => true
  | c :: rest =>
    (c == '+' || c == '-') &&
      match (do
        let (hour, rest) ← fixed? 2 rest
        let (minute, rest) ← fixed? 2 (← after? ':' rest)
        return hour ≤ 23 && minute ≤ 59 && rest.isEmpty : Option Bool) with
      | some b => b
      | none => false

/-- Whether a word is a date, a time of day, or both. -/
def isMoment (word : List Char) : Bool :=
  match date? word with
  | some [] => true
  | some (c :: rest) =>
    (c == 'T' || c == 't' || c == ' ') && (time? rest).any isOffset
  | none => (time? word).any List.isEmpty

/-- The value that a word without quotes spells. -/
def ofWord? (word : List Char) : Option Toml :=
  if word = "true".toList then some (.boolean true)
  else if word = "false".toList then some (.boolean false)
  else if isMoment word then some .moment
  else
    match integer? word with
    | some n => some (.integer n)
    | none => float? word

end ShardKeeper.Toml.Scalar
