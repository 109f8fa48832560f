import StackedCache.Toml.Text

/-!
# TOML documents

A document is a list of lines: headers of tables, and keys with values that
belong to the table of the last header. Reading gives the table of all keys.
-/

namespace StackedCache.Toml

open Text (isDigit)

def comment? (text : List Char) : Option (List Char) :=
  match text.dropWhile isPlain with
  | [] => some []
  | '\n' :: rest => some ('\n' :: rest)
  | '\r' :: '\n' :: rest => some ('\r' :: '\n' :: rest)
  | _ => none

def gap? : Nat → List Char → Option (List Char)
  | 0, _ => none
  | fuel + 1, text =>
    match skipLines text with
    | '#' :: rest =>
      match comment? rest with
      | some rest => gap? fuel rest
      | none => none
    | rest => some rest

def gap (text : List Char) : Option (List Char) := gap? (text.length + 1) text

def isBareValue (c : Char) : Bool := isBareKey c || c == '+' || c == '.' || c == ':'

/-- A bare word. A date takes in the time that follows it after one blank. -/
def bareWord (text : List Char) : List Char × List Char :=
  let word := text.takeWhile isBareValue
  let rest := text.dropWhile isBareValue
  match date? word, rest with
  | some [], ' ' :: c :: more =>
    if isDigit c then
      (word ++ ' ' :: (c :: more).takeWhile isBareValue, (c :: more).dropWhile isBareValue)
    else (word, rest)
  | _, _ => (word, rest)

def depthLimit : Nat := 80

mutual
/-- A value; `depth` more containers may be opened. Every container takes two of the fuel and
has two brackets, every further item takes one and has a comma. -/
def value (depth : Nat) : Nat → Reader Value
  | 0, _ => none
  | fuel + 1, text =>
    match text with
    | '[' :: rest =>
      match depth with
      | 0 => none
      | depth + 1 => (items depth fuel rest).map fun (items, rest) => (.array items, rest)
    | '{' :: rest =>
      match depth with
      | 0 => none
      | depth + 1 => (members depth fuel [] rest).map fun (rows, rest) =>
        (.table .inlined rows, rest)
    | c :: _ =>
      if c = '"' ∨ c = '\'' then (stringValue text).map fun (s, rest) => (.string s, rest)
      else
        let (word, rest) := bareWord text
        (scalar? word).map fun v => (v, rest)
    | [] => none
def items (depth : Nat) : Nat → Reader (List Value)
  | 0, _ => none
  | fuel + 1, text => do
    match ← gap text with
    | ']' :: rest => some ([], rest)
    | text =>
      let (item, rest) ← value depth fuel text
      match ← gap rest with
      | ',' :: rest => (items depth fuel rest).map fun (items, rest) => (item :: items, rest)
      | ']' :: rest => some ([item], rest)
      | _ => none
def members (depth : Nat) : Nat → Rows → Reader Rows
  | 0, _, _ => none
  | fuel + 1, rows, text => do
    match ← gap text with
    | '}' :: rest => some (rows, rest)
    | text =>
      let ((path, key), rest) ← dottedKey text
      let rest ← expect '=' rest
      let (v, rest) ← value depth fuel (rest.dropWhile isBlank)
      let rows ← rows.assign path key v
      match ← gap rest with
      | ',' :: rest => members depth fuel rows rest
      | '}' :: rest => some (rows, rest)
      | _ => none
end

def lineEnd (text : List Char) : Option (List Char) := do
  let text ← match text.dropWhile isBlank with
    | '#' :: rest => comment? rest
    | rest => some rest
  match text with
  | [] => some []
  | '\n' :: rest => some rest
  | '\r' :: '\n' :: rest => some rest
  | _ => none

structure Draft where
  root : Rows := []
  current : List String := []

def Draft.assign (draft : Draft) (path : List String) (key : String) (v : Value) : Option Draft :=
  (draft.root.update false (fun _ rows => rows.assign path key v) .header draft.current).map
    fun root => { draft with root }

def line (draft : Draft) (text : List Char) : Option (Draft × List Char) :=
  match text with
  | '[' :: '[' :: rest => do
    let ((path, key), rest) ← dottedKey rest
    let rest ← expect ']' rest
    let rest ← expect ']' rest
    let rest ← lineEnd rest
    let root ← draft.root.append path key
    some (⟨root, path ++ [key]⟩, rest)
  | '[' :: rest => do
    let ((path, key), rest) ← dottedKey rest
    let rest ← expect ']' rest
    let rest ← lineEnd rest
    let root ← draft.root.define path key
    some (⟨root, path ++ [key]⟩, rest)
  | _ => do
    let ((path, key), rest) ← dottedKey text
    let rest ← expect '=' rest
    let (v, rest) ← value depthLimit (2 * (text.length + 1)) (rest.dropWhile isBlank)
    let rest ← lineEnd rest
    let draft ← draft.assign path key v
    some (draft, rest)

def lines (draft : Draft) : Nat → List Char → Option Rows
  | 0, _ => none
  | fuel + 1, text =>
    match gap text with
    | none => none
    | some [] => some draft.root
    | some text =>
      match line draft text with
      | none => none
      | some (draft, rest) => lines draft fuel rest

def read? (document : String) : Option Rows :=
  let text := match document.toList with
    | '\ufeff' :: rest => rest
    | text => text
  lines {} (text.length + 1) text

end StackedCache.Toml
