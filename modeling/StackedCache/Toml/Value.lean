import StackedCache.Binary64

/-!
# TOML values

What a TOML document holds. A table remembers how it came to be, because that
decides whether a later line may add to it.
-/

namespace StackedCache.Toml

inductive Origin where
  /-- Written in braces. -/
  | inlined
  /-- Named by a header of its own. -/
  | header
  /-- Passed on the way by the header of another table. -/
  | implied
  /-- Passed on the way by a dotted key. -/
  | dotted
  deriving DecidableEq

inductive Value where
  | string (text : String)
  | integer (n : Int)
  | float (d : Binary64)
  | boolean (b : Bool)
  /-- A date or a time, of which only the validity is kept. -/
  | datetime
  | array (items : List Value)
  | table (origin : Origin) (rows : List (String × Value))
  /-- An array of tables, each named by a header. -/
  | tables (items : List (List (String × Value)))

instance : Inhabited Value := ⟨.datetime⟩

abbrev Rows : Type := List (String × Value)

namespace Rows

def get? (key : String) : Rows → Option Value
  | [] => none
  | (k, value) :: rest => if k = key then some value else get? key rest

def replace (key : String) (value : Value) : Rows → Rows
  | [] => []
  | (k, v) :: rest => if k = key then (k, value) :: rest else (k, v) :: replace key value rest

/-- Changes the table at the end of a path, making the tables on the way that are missing.
Where an array of tables stands on the way, its last table is meant. A dotted path may not
go through a table that has a header of its own. -/
def update (dotted : Bool) (change : Origin → Rows → Option Rows) (origin : Origin) :
    List String → Rows → Option Rows
  | [], rows => change origin rows
  | key :: path, rows =>
    match get? key rows with
    | none =>
      let made : Origin := if dotted then .dotted else .implied
      (update dotted change made path []).map fun inner => rows ++ [(key, .table made inner)]
    | some (.table origin inner) =>
      if origin = .inlined ∨ (dotted ∧ origin = .header) then none
      else (update dotted change origin path inner).map fun inner =>
        replace key (.table origin inner) rows
    | some (.tables items) =>
      match items.reverse with
      | last :: before =>
        (update dotted change .header path last).map fun last =>
          replace key (.tables (last :: before).reverse) rows
      | [] => none
    | some _ => none

/-- A key gets its value once. Under a dotted key the table has to be made by dotted keys. -/
def assign (path : List String) (key : String) (value : Value) (rows : Rows) : Option Rows :=
  update true
    (fun origin rows =>
      if (get? key rows).isSome ∨ (!path.isEmpty ∧ origin ≠ .dotted) then none
      else some (rows ++ [(key, value)]))
    .header path rows

def define (path : List String) (key : String) (rows : Rows) : Option Rows :=
  update false
    (fun _ rows =>
      match get? key rows with
      | none => some (rows ++ [(key, .table .header [])])
      | some (.table .implied inner) => some (replace key (.table .header inner) rows)
      | some _ => none)
    .header path rows

def append (path : List String) (key : String) (rows : Rows) : Option Rows :=
  update false
    (fun _ rows =>
      match get? key rows with
      | none => some (rows ++ [(key, .tables [[]])])
      | some (.tables items) => some (replace key (.tables (items ++ [[]])) rows)
      | some _ => none)
    .header path rows

end Rows

end StackedCache.Toml
