import StackedCache.Toml.Scalar

/-!
# TOML strings and keys

Basic strings have escapes, literal strings have none; either may run over
several lines between triple quotes.
-/

namespace StackedCache.Toml

open Text (isDigit isHex numberOf)

abbrev Reader (α : Type) : Type := List Char → Option (α × List Char)

/-- Control characters stand nowhere in a document, the tab and line ends apart. -/
def isPlain (c : Char) : Bool := c == '\t' || (0x20 ≤ c.toNat && c.toNat != 0x7f)

def codePoint (n : Nat) : Reader Char := fun text =>
  let digits := text.take n
  if digits.length = n ∧ digits.all isHex then
    let code := numberOf 16 digits
    if Nat.isValidChar code then some (Char.ofNat code, text.drop n) else none
  else none

def escape : Reader Char
  | 'b' :: rest => some ('\x08', rest)
  | 't' :: rest => some ('\t', rest)
  | 'n' :: rest => some ('\n', rest)
  | 'f' :: rest => some ('\x0c', rest)
  | 'r' :: rest => some ('\r', rest)
  | 'e' :: rest => some ('\x1b', rest)
  | '"' :: rest => some ('"', rest)
  | '\\' :: rest => some ('\\', rest)
  | 'x' :: rest => codePoint 2 rest
  | 'u' :: rest => codePoint 4 rest
  | 'U' :: rest => codePoint 8 rest
  | _ => none

def isBlank (c : Char) : Bool := c == ' ' || c == '\t'

def skipLines : List Char → List Char
  | ' ' :: rest | '\t' :: rest | '\n' :: rest => skipLines rest
  | '\r' :: '\n' :: rest => skipLines rest
  | text => text

def continuation? (text : List Char) : Option (List Char) :=
  match text.dropWhile isBlank with
  | '\n' :: rest => some (skipLines rest)
  | '\r' :: '\n' :: rest => some (skipLines rest)
  | _ => none

def basicString (read : List Char) : Nat → Reader String
  | 0, _ => none
  | fuel + 1, text =>
    match text with
    | '"' :: rest => some (String.ofList read.reverse, rest)
    | '\\' :: rest =>
      match escape rest with
      | some (c, rest) => basicString (c :: read) fuel rest
      | none => none
    | c :: rest => if isPlain c then basicString (c :: read) fuel rest else none
    | [] => none

def literalString (read : List Char) : Reader String
  | '\'' :: rest => some (String.ofList read.reverse, rest)
  | c :: rest => if isPlain c then literalString (c :: read) rest else none
  | [] => none

/-- Three quotes end a string over several lines; up to two more before them belong to it. -/
def closing? (quote : Char) (text : List Char) : Option (List Char × List Char) :=
  let quotes := text.takeWhile (· == quote)
  if 3 ≤ quotes.length then
    let kept := min (quotes.length - 3) 2
    some (List.replicate kept quote, text.drop (kept + 3))
  else none

def multilineString (quote : Char) (escapes : Bool) (read : List Char) : Nat → Reader String
  | 0, _ => none
  | fuel + 1, text =>
    match closing? quote text with
    | some (kept, rest) => some (String.ofList (read.reverse ++ kept), rest)
    | none =>
      match text with
      | [] => none
      | '\n' :: rest => multilineString quote escapes ('\n' :: read) fuel rest
      | '\r' :: '\n' :: rest => multilineString quote escapes ('\n' :: '\r' :: read) fuel rest
      | c :: rest =>
        if c = '\\' ∧ escapes then
          match continuation? rest with
          | some rest => multilineString quote escapes read fuel rest
          | none =>
            match escape rest with
            | some (c, rest) => multilineString quote escapes (c :: read) fuel rest
            | none => none
        else if isPlain c then multilineString quote escapes (c :: read) fuel rest
        else none

def afterOpening : List Char → List Char
  | '\n' :: rest => rest
  | '\r' :: '\n' :: rest => rest
  | text => text

def stringValue : Reader String
  | '"' :: '"' :: '"' :: rest => multilineString '"' true [] (rest.length + 1) (afterOpening rest)
  | '\'' :: '\'' :: '\'' :: rest => multilineString '\'' false [] (rest.length + 1) (afterOpening rest)
  | '"' :: rest => basicString [] (rest.length + 1) rest
  | '\'' :: rest => literalString [] rest
  | _ => none

def isBareKey (c : Char) : Bool :=
  isDigit c || ('a' ≤ c && c ≤ 'z') || ('A' ≤ c && c ≤ 'Z') || c == '_' || c == '-'

def simpleKey : Reader String
  | '"' :: rest => basicString [] (rest.length + 1) rest
  | '\'' :: rest => literalString [] rest
  | text =>
    let bare := text.takeWhile isBareKey
    if bare = [] then none else some (String.ofList bare, text.dropWhile isBareKey)

def keyParts : Nat → Reader (List String × String)
  | 0, _ => none
  | limit + 1, text =>
    match simpleKey (text.dropWhile isBlank) with
    | none => none
    | some (part, rest) =>
      match rest.dropWhile isBlank with
      | '.' :: rest =>
        (keyParts limit rest).map fun ((path, key), rest) => ((part :: path, key), rest)
      | rest => some (([], part), rest)

def dottedKey : Reader (List String × String) := keyParts 80

end StackedCache.Toml
