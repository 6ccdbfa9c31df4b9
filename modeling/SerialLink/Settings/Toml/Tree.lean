-- The tables of a TOML document while it is read. A table may be told in
-- parts, but never twice; how it came about decides what may still be added.
import SerialLink.Settings.Value

namespace SerialLink.Settings.Toml

/-- How a table came about. -/
inductive Origin
  /-- It lies on the way to a table with a header. -/
  | passed
  /-- It lies on the way to a dotted key. -/
  | dotted
  /-- It has a header of its own. -/
  | headed
  deriving DecidableEq

/-- What stands under a key. -/
inductive Node
  /-- Something complete. -/
  | value (v : Value)
  | table (origin : Origin) (entries : List (String × Node))
  /-- A list of tables, each under a header of its own; the last one is still open. -/
  | tables (before : List (List (String × Node))) (last : List (String × Node))

/-- Nodes by key. -/
abbrev Nodes := List (String × Node)

namespace Node

/-! ## As a setting -/

mutual

/-- A node as a setting. -/
def toValue : Node → Value
  | .value v => v
  | .table _ entries => .table (entriesOf entries)
  | .tables before last => .list (tablesOf before ++ [.table (entriesOf last)])

/-- Nodes as settings. -/
def entriesOf : List (String × Node) → List (String × Value)
  | [] => []
  | (key, node) :: rest => (key, toValue node) :: entriesOf rest

/-- Tables as settings. -/
def tablesOf : List (List (String × Node)) → List Value
  | [] => []
  | entries :: rest => .table (entriesOf entries) :: tablesOf rest

end

end Node

namespace Nodes

/-- Changes the table at the end of a path of headers, making tables on the way. A list of tables
stands for its last one. -/
def within (f : Nodes → Option Nodes) : List String → Nodes → Option Nodes
  | [], nodes => f nodes
  | key :: path, nodes =>
    match valueAt? key nodes with
    | none => (within f path []).map fun inner => putEntry key (.table .passed inner) nodes
    | some (.table origin inner) =>
      (within f path inner).map fun inner => putEntry key (.table origin inner) nodes
    | some (.tables before last) =>
      (within f path last).map fun last => putEntry key (.tables before last) nodes
    | some (.value _) => none

/-- Opens a table by its header. -/
def openTable (path : List String) (key : String) (nodes : Nodes) : Option Nodes :=
  within (fun nodes =>
    match valueAt? key nodes with
    | none => some (putEntry key (.table .headed []) nodes)
    | some (.table .passed inner) => some (putEntry key (.table .headed inner) nodes)
    | some _ => none) path nodes

/-- Opens one more table of a list by its header. -/
def openItem (path : List String) (key : String) (nodes : Nodes) : Option Nodes :=
  within (fun nodes =>
    match valueAt? key nodes with
    | none => some (putEntry key (.tables [] []) nodes)
    | some (.tables before last) => some (putEntry key (.tables (before ++ [last]) []) nodes)
    | some _ => none) path nodes

/-- Adds a value under a dotted key. The keys on the way may not lead into a table that has a
header, and the last of them has to be there for the sake of dotted keys alone. -/
def add (value : Value) (key : String) : List String → Nodes → Option Nodes
  | [], nodes =>
    if (valueAt? key nodes).isSome then none else some (putEntry key (.value value) nodes)
  | name :: path, nodes =>
    match valueAt? name nodes with
    | none => (add value key path []).map fun inner => putEntry name (.table .dotted inner) nodes
    | some (.table origin inner) =>
      if origin = .headed ∨ (path = [] ∧ origin ≠ .dotted) then none
      else (add value key path inner).map fun inner => putEntry name (.table origin inner) nodes
    | some (.tables before last) =>
      if path = [] then none
      else (add value key path last).map fun last => putEntry name (.tables before last) nodes
    | some (.value _) => none

end Nodes

end SerialLink.Settings.Toml
