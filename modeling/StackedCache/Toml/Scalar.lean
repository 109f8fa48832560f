import StackedCache.Text.Decimal
import StackedCache.Toml.Value

/-!
# TOML scalars

Numbers, dates and times, and the words for truth values and special numbers,
each read from the whole of a bare word.
-/

namespace StackedCache.Toml

open Text (isDigit isHex numberOf signed withSign)

def isOctal (c : Char) : Bool := '0' ≤ c && c ≤ '7'

def isBinary (c : Char) : Bool := c == '0' || c == '1'

def underscored (ok : Char → Bool) : List Char → Option (List Char)
  | [] => none
  | [c] => if ok c then some [c] else none
  | c :: '_' :: rest => if ok c then (underscored ok rest).map (c :: ·) else none
  | c :: rest => if ok c then (underscored ok rest).map (c :: ·) else none

def wholePart (text : List Char) : Option (List Char) :=
  match underscored isDigit text with
  | some ['0'] => some ['0']
  | some ('0' :: _) => none
  | digits => digits

def integer? (text : List Char) : Option Int :=
  match text with
  | '0' :: 'x' :: rest => (underscored isHex rest).map fun digits => numberOf 16 digits
  | '0' :: 'o' :: rest => (underscored isOctal rest).map fun digits => numberOf 8 digits
  | '0' :: 'b' :: rest => (underscored isBinary rest).map fun digits => numberOf 2 digits
  | _ =>
    let (negative, rest) := signed text
    (wholePart rest).map fun digits => withSign negative (numberOf 10 digits)

def exponent? (text : List Char) : Option Int :=
  let (negative, rest) := signed text
  (underscored isDigit rest).map fun digits => withSign negative (numberOf 10 digits)

def float? (text : List Char) : Option Binary64 := do
  let (negative, rest) := signed text
  match rest with
  | ['i', 'n', 'f'] => some (Binary64.infinity negative)
  | ['n', 'a', 'n'] => some (Binary64.nan negative)
  | _ =>
    let mantissa := rest.takeWhile (!Text.Decimal.isExponentMark ·)
    let exponent ← match rest.dropWhile (!Text.Decimal.isExponentMark ·) with
      | [] => some 0
      | _ :: digits => exponent? digits
    let whole ← wholePart (mantissa.takeWhile (· != '.'))
    let fraction ← match mantissa.dropWhile (· != '.') with
      | [] => some []
      | _ :: digits => underscored isDigit digits
    let nearest := Text.Decimal.nearest negative (whole ++ fraction) (exponent - fraction.length)
    if nearest.isInfinite then none else some nearest

def fixedDigits (n : Nat) (text : List Char) : Option (Nat × List Char) :=
  let digits := text.take n
  if digits.length = n ∧ digits.all isDigit then some (numberOf 10 digits, text.drop n) else none

def expect (c : Char) : List Char → Option (List Char)
  | d :: rest => if d = c then some rest else none
  | [] => none

def isLeapYear (year : Nat) : Bool := year % 4 == 0 && (year % 100 != 0 || year % 400 == 0)

def monthLength (year month : Nat) : Nat :=
  if month = 2 then (if isLeapYear year then 29 else 28)
  else if month = 4 ∨ month = 6 ∨ month = 9 ∨ month = 11 then 30
  else 31

def date? (text : List Char) : Option (List Char) := do
  let (year, text) ← fixedDigits 4 text
  let text ← expect '-' text
  let (month, text) ← fixedDigits 2 text
  let text ← expect '-' text
  let (day, text) ← fixedDigits 2 text
  if 1 ≤ month ∧ month ≤ 12 ∧ 1 ≤ day ∧ day ≤ monthLength year month then some text else none

def fraction? (text : List Char) : Option (List Char) :=
  match text with
  | '.' :: rest => if rest.takeWhile isDigit = [] then none else some (rest.dropWhile isDigit)
  | _ => some text

/-- Passes over a time of the day. Seconds may be left out; one may be a leap second. -/
def time? (text : List Char) : Option (List Char) := do
  let (hour, text) ← fixedDigits 2 text
  let text ← expect ':' text
  let (minute, text) ← fixedDigits 2 text
  if 23 < hour ∨ 59 < minute then none
  else
    match text with
    | ':' :: rest =>
      let (second, rest) ← fixedDigits 2 rest
      if 60 < second then none else fraction? rest
    | _ => some text

def offset? (text : List Char) : Option (List Char) :=
  match text with
  | 'Z' :: rest | 'z' :: rest => some rest
  | '+' :: rest | '-' :: rest => do
    let (hour, rest) ← fixedDigits 2 rest
    let rest ← expect ':' rest
    let (minute, rest) ← fixedDigits 2 rest
    if 23 < hour ∨ 59 < minute then none else some rest
  | _ => some text

def isDatetime (text : List Char) : Bool :=
  match date? text with
  | some [] => true
  | some (c :: rest) =>
    (c == 'T' || c == 't' || c == ' ') && ((time? rest).bind offset?) == some []
  | none => time? text == some []

def scalar? (text : List Char) : Option Value :=
  if text = "true".toList then some (.boolean true)
  else if text = "false".toList then some (.boolean false)
  else
    match integer? text with
    | some n => if -2 ^ 127 ≤ n ∧ n < 2 ^ 128 then some (.integer n) else none
    | none =>
      match float? text with
      | some d => some (.float d)
      | none => if isDatetime text then some .datetime else none

end StackedCache.Toml
