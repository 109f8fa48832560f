import StackedCache.Redis.Reply
import StackedCache.Text.Reading

/-!
# The wire format of replies

A first byte tells the kind of a reply and a line follows it; strings and
collections go on for as much more as the line says.
-/

namespace StackedCache.Redis

open Text

abbrev WireReader (α : Type) : Type := Bytes → Option (α × Bytes)

namespace Wire

def lineAfter (read : Bytes) : WireReader Bytes
  | 0x0d :: 0x0a :: rest => some (read.reverse, rest)
  | b :: rest => lineAfter (b :: read) rest
  | [] => none

def line (input : Bytes) : Option (String × Bytes) := do
  let (bytes, rest) ← lineAfter [] input
  let text ← String.fromUTF8? ⟨bytes.toArray⟩
  some (text, rest)

def trimmed (text : String) : List Char :=
  ((text.toList.dropWhile isWhiteSpace).reverse.dropWhile isWhiteSpace).reverse

def number (input : Bytes) : Option (Int × Bytes) := do
  let (text, rest) ← line input
  let n ← int64? (trimmed text)
  some (n, rest)

def counted (n : Nat) : WireReader Bytes := fun input =>
  match input.drop n with
  | 0x0d :: 0x0a :: rest => if n ≤ input.length then some (input.take n, rest) else none
  | _ => none

def countedText (input : Bytes) : Option (String × Bytes) := do
  match ← number input with
  | (.ofNat n, rest) =>
    let (bytes, rest) ← counted n rest
    let text ← String.fromUTF8? ⟨bytes.toArray⟩
    some (text, rest)
  | _ => none

def bigNumber? (text : List Char) : Option Int :=
  let (negative, rest) := match text with
    | '-' :: '+' :: _ => (false, text)
    | '-' :: rest => (true, rest)
    | _ => (false, text)
  let digits := match rest with
    | '+' :: '+' :: _ => rest
    | '+' :: digits => digits
    | _ => rest
  if digits.head? = some '_' then none
  else (natural? (digits.filter (· != '_'))).map (withSign negative)

def verbatim? (text : String) : Option Reply :=
  match text.toList.dropWhile (· != ':') with
  | _ :: content =>
    some (.verbatim (String.ofList (text.toList.takeWhile (· != ':'))) (String.ofList content))
  | [] => none

def push? : List Reply → Option Reply
  | .status kind :: items => some (.push kind items)
  | .bulk kind :: items => (String.fromUTF8? ⟨kind.toArray⟩).map fun kind => .push kind items
  | _ => none

def many (one : WireReader Reply) : Nat → WireReader (List Reply)
  | 0, input => some ([], input)
  | n + 1, input =>
    match one input with
    | none => none
    | some (reply, rest) => (many one n rest).map fun (replies, rest) => (reply :: replies, rest)

/-- A collection of as many replies as the line says, or of a multiple of that. A negative
number stands for an absent one. -/
def collection (one : WireReader Reply) (times : Nat) (absent : Option Reply)
    (make : List Reply → Option Reply) : WireReader Reply := fun input => do
  match ← number input with
  | (.ofNat n, rest) =>
    let (items, rest) ← many one (times * n) rest
    let reply ← make items
    some (reply, rest)
  | (_, rest) => absent.map fun reply => (reply, rest)

def remarked (one : WireReader Reply) : WireReader Reply := fun input => do
  match ← number input with
  | (.ofNat n, rest) =>
    let (remarks, rest) ← many one (2 * n) rest
    let (content, rest) ← one rest
    some (.remarked remarks content, rest)
  | _ => none

def lineReply (read : String → Option Reply) : WireReader Reply := fun input => do
  let (text, rest) ← line input
  let reply ← read text
  some (reply, rest)

def statusOf (text : String) : Reply := if text = "OK" then .okay else .status text

def boolean? (text : String) : Option Reply :=
  if text = "t" then some (.boolean true)
  else if text = "f" then some (.boolean false)
  else none

def bulk (input : Bytes) : Option (Reply × Bytes) := do
  match ← number input with
  | (.ofNat n, rest) => (counted n rest).map fun (bytes, rest) => (.bulk bytes, rest)
  | (_, rest) => some (.nil, rest)

def depthLimit : Nat := 100

/-- One reply inside so many collections. Every collection has a byte for its kind, so no more
than `fuel` of them can be open in an input of that length. -/
def reply (depth : Nat) : Nat → WireReader Reply
  | 0, _ => none
  | _, [] => none
  | fuel + 1, kind :: input =>
    let one := reply (depth + 1) fuel
    if kind = 0x2b then lineReply (fun text => some (statusOf text)) input
    else if kind = 0x2d then lineReply (fun text => some (.error text)) input
    else if kind = 0x3a then (number input).map fun (n, rest) => (.integer n, rest)
    else if kind = 0x24 then bulk input
    else if kind = 0x2a then
      if depthLimit ≤ depth then none
      else collection one 1 (some .nil) (fun items => some (.array items)) input
    else if kind = 0x25 then collection one 2 none (fun items => some (.map items)) input
    else if kind = 0x7e then collection one 1 (some .nil) (fun items => some (.set items)) input
    else if kind = 0x7c then remarked one input
    else if kind = 0x3e then
      collection one 1 (some (.push "" []))
        (fun items => if items.isEmpty then some (.push "" []) else push? items) input
    else if kind = 0x5f then lineReply (fun _ => some .nil) input
    else if kind = 0x2c then
      lineReply (fun text => (Decimal.double? (trimmed text)).map .double) input
    else if kind = 0x23 then lineReply boolean? input
    else if kind = 0x28 then
      lineReply (fun text => (bigNumber? text.toList).map .bigNumber) input
    else if kind = 0x21 then (countedText input).map fun (line, rest) => (.error line, rest)
    else if kind = 0x3d then do
      let (text, rest) ← countedText input
      let reply ← verbatim? text
      some (reply, rest)
    else none

/-- Messages about subscriptions stand for replies; all others come in between. -/
def isReply : Reply → Bool
  | .push kind _ =>
    ["subscribe", "psubscribe", "ssubscribe", "unsubscribe", "punsubscribe",
      "sunsubscribe"].contains kind
  | _ => true

def repliesWithin : Nat → Bytes → List Reply
  | 0, _ => []
  | fuel + 1, input =>
    if input.isEmpty then []
    else
      match reply 0 (input.length + 1) input with
      | some (reply, rest) =>
        if isReply reply then reply :: repliesWithin fuel rest else repliesWithin fuel rest
      | none => [.garbled]

def replies (input : Bytes) : List Reply := repliesWithin (input.length + 1) input

end Wire

end StackedCache.Redis
