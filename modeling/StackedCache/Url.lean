import StackedCache.Url.Host

/-!
# Addresses

URLs of schemes without rules of their own: a scheme, perhaps a user with a
password, a host with a port, the segments of a path, and a query. What
follows the mark of a fragment is left out.
-/

namespace StackedCache

open Text

structure Url where
  /-- In lower case. -/
  scheme : String
  user : List Char := []
  password : List Char := []
  /-- Empty when there is none. -/
  host : List Char := []
  port : Option Nat := none
  /-- What stands between and after the slashes of a path that begins with one. -/
  segments : List (List Char) := []
  query : List Char := []

namespace Url

def trimmed (text : List Char) : List Char :=
  let rest := text.dropWhile (·.toNat ≤ 0x20)
  let core := (rest.reverse.dropWhile (·.toNat ≤ 0x20)).reverse
  core.filter fun c => c != '\t' && c != '\n' && c != '\r'

def isLetter (c : Char) : Bool := ('a' ≤ c && c ≤ 'z') || ('A' ≤ c && c ≤ 'Z')

def isSchemePart (c : Char) : Bool := isLetter c || isDigit c || c == '+' || c == '-' || c == '.'

def scheme? (text : List Char) : Option (String × List Char) :=
  let name := text.takeWhile isSchemePart
  match name, text.dropWhile isSchemePart with
  | first :: _, ':' :: rest =>
    if isLetter first then some (String.ofList (name.map Char.toLower), rest) else none
  | _, _ => none

def port? (digits : List Char) : Option (Option Nat) :=
  if digits = [] then some none
  else ((natural? digits).filter (· < 2 ^ 16)).map some

def dots : List (List Char) := ["." , "%2e", "%2E"].map String.toList

def isHere (segment : List Char) : Bool := dots.contains segment

def isUp (segment : List Char) : Bool := dots.any fun a => dots.any fun b => segment == a ++ b

/-- A segment that names a drive is not left again. -/
def isDrive : List Char → Bool
  | letter :: mark :: rest =>
    isLetter letter && (mark == ':' || mark == '|') && (rest.isEmpty || rest.head? == some '\\')
  | _ => false

def leave : List (List Char) → List (List Char)
  | [] => []
  | segment :: before => if isDrive segment then segment :: before else before

/-- Follows the segments that mean "here" and "up"; those to the left stand in reverse. -/
def resolve (before : List (List Char)) : List (List Char) → List (List Char)
  | [] => before.reverse
  | segment :: rest =>
    let before :=
      if isUp segment then leave before
      else if isHere segment then before
      else segment :: before
    if rest = [] ∧ (isUp segment ∨ isHere segment) then ([] :: before).reverse
    else resolve before rest

/-- The segments of a path that begins with a slash. Any other path has none. -/
def segmentsOf : List Char → List (List Char)
  | '/' :: path => resolve [] (pieces '/' path)
  | _ => []

def endsPath (c : Char) : Bool := c == '?' || c == '#'

def withPath (url : Url) (text : List Char) : Url :=
  let query := match text.dropWhile (!endsPath ·) with
    | '?' :: query => query.takeWhile (· != '#')
    | _ => []
  { url with segments := segmentsOf (text.takeWhile (!endsPath ·)), query }

def endsAuthority (c : Char) : Bool := c == '/' || c == '?' || c == '#'

def splitUser (authority : List Char) : Option (List Char) × List Char :=
  let place := (authority.reverse.takeWhile (· != '@')).reverse
  (if place.length < authority.length then some (authority.take (authority.length - place.length - 1))
    else none, place)

def rooted (path : List Char) : List Char :=
  match path with
  | [] | '/' :: _ | '?' :: _ | '#' :: _ => path
  | _ => '/' :: path

/-- Adds what follows the double slash. A port and a user need a host; only where nothing
stands before and after the at sign the path may follow at once. -/
def withAuthority? (url : Url) (text : List Char) : Option Url := do
  let (userInfo, place) := splitUser (text.takeWhile (!endsAuthority ·))
  let rest := text.dropWhile (!endsAuthority ·)
  let (user, password) := cut ':' (userInfo.getD [])
  let password := password.getD []
  let (host, place) ← host? place
  let (port, path) ← match place with
    | ':' :: place =>
      (port? (place.takeWhile (· != '\\'))).map fun port => (port, place.dropWhile (· != '\\'))
    | _ => some (none, [])
  guard (!host.isEmpty ||
    (place.isEmpty && user.isEmpty && password.isEmpty && (userInfo != some [] || rest.isEmpty)))
  some ({ url with user, password, host, port }.withPath (rooted (path ++ rest)))

def parse? (text : String) : Option Url := do
  let (scheme, rest) ← scheme? (trimmed text.toList)
  match rest with
  | '/' :: '/' :: rest => withAuthority? { scheme } rest
  | rest => some ({ scheme : Url }.withPath rest)

def decoded (text : List Char) : Bytes := Percent.decode (String.ofList text).toUTF8.toList

def decodedField (text : List Char) : Bytes :=
  Percent.decodeField (String.ofList text).toUTF8.toList

/-- The last value that the query gives to a name. A name without a value has an empty one. -/
def parameter? (url : Url) (name : String) : Option Bytes :=
  (pieces '&' url.query).reverse.findSome? fun field =>
    let (key, value) := cut '=' field
    if decodedField key = name.toUTF8.toList then some (decodedField (value.getD [])) else none

end Url

end StackedCache
