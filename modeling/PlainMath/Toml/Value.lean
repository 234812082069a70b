import PlainMath.Decimal.Binary

/-! Values, and tables in the making. A key that is there already, or a table that
has a header already, is a fault. -/
namespace PlainMath.Toml

inductive Value where
  | boolean (value : Bool)
  | integer (value : Int)
  | floating (value : Binary64)
  | text (value : String)
  | array (items : List Value)
  | table (entries : List (String × Value))

/-- How a table came to be. -/
inductive Made where
  /-- as the parent of a table with a header -/
  | implied
  | header
  /-- as the parent of a key with several parts -/
  | dotted
deriving DecidableEq, Repr

inductive Node where
  | leaf (value : Value)
  | table (made : Made) (entries : List (String × Node))
  /-- tables with one header; the last one is the current one -/
  | tables (items : List (List (String × Node)))

abbrev Entries := List (String × Node)

namespace Entries

/-- Changes the node under a key; the change may refuse. -/
def change? (key : String) (f : Option Node → Option Node) : Entries → Option Entries
  | [] => (f none).map fun node => [(key, node)]
  | (own, node) :: entries =>
    if own = key then (f (some node)).map fun node => (own, node) :: entries
    else (change? key f entries).map ((own, node) :: ·)

def changeLast? (f : Entries → Option Entries) : List Entries → Option (List Entries)
  | [] => none
  | [last] => (f last).map ([·])
  | first :: rest => (changeLast? f rest).map (first :: ·)

/-- Changes the table under a key. A missing one is implied. -/
def below? (key : String) (f : Entries → Option Entries) (entries : Entries) : Option Entries :=
  change? key (fun
    | none => (f []).map (.table .implied)
    | some (.table made inner) => (f inner).map (.table made)
    | some (.tables items) => (changeLast? f items).map .tables
    | some (.leaf _) => none) entries

/-- Changes the node at the end of a key. -/
def at? (f : Option Node → Option Node) : List String → Entries → Option Entries
  | [], _ => none
  | [key], entries => change? key f entries
  | key :: keys, entries => below? key (at? f keys) entries

def open? (key : List String) (entries : Entries) : Option Entries :=
  at? (fun
    | none => some (.table .header [])
    | some (.table .implied inner) => some (.table .header inner)
    | some _ => none) key entries

def append? (key : List String) (entries : Entries) : Option Entries :=
  at? (fun
    | none => some (.tables [[]])
    | some (.tables items) => some (.tables (items ++ [[]]))
    | some _ => none) key entries

/-- Puts a value under a key of the current table. Its parts may not lead through a
table with a header, and the last table is one that only such keys have made. -/
def assign? (value : Value) : List String → Entries → Option Entries
  | [], _ => none
  | [key], entries => change? key (fun
      | none => some (.leaf value)
      | some _ => none) entries
  | key :: keys, entries => change? key (fun
      | none => (assign? value keys []).map (.table .dotted)
      | some (.table .header _) => none
      | some (.table .implied inner) =>
        if keys.length = 1 then none else (assign? value keys inner).map (.table .implied)
      | some (.table .dotted inner) => (assign? value keys inner).map (.table .dotted)
      | some (.tables items) =>
        if keys.length = 1 then none else (changeLast? (assign? value keys) items).map .tables
      | some (.leaf _) => none) entries

def within? (f : Entries → Option Entries) : List String → Entries → Option Entries
  | [], entries => f entries
  | key :: keys, entries => below? key (within? f keys) entries

end Entries

mutual

def Node.value : Node → Value
  | .leaf value => value
  | .table _ entries => .table (values entries)
  | .tables items => .array (tableValues items)

def values : List (String × Node) → List (String × Value)
  | [] => []
  | (key, node) :: entries => (key, node.value) :: values entries

def tableValues : List (List (String × Node)) → List Value
  | [] => []
  | entries :: items => .table (values entries) :: tableValues items

end

end PlainMath.Toml
