/-
# Tables of TOML documents

Each line of a document with a key adds to one tree of tables:

| line | effect |
| --- | --- |
| `a.b.c = v` | sets `c` in the table `a.b`, seen from the last header |
| `[a.b.c]` | opens the table `c` in `a.b` |
| `[[a.b.c]]` | opens a new element of the array of tables `c` in `a.b` |

Tables on the way are made as needed. Which lines may lead into a table again
depends on how it was made:

| made | a header of its own | dotted keys |
| --- | --- | --- |
| by its header | no | no |
| on the way of a header | once | no |
| on the way of a dotted key | no | yes |
-/

import ModulePolicy.Toml.Scalar

namespace ModulePolicy.Toml

/-- How a table was made. -/
inductive TableOrigin
  | header
  | onHeaderWay
  | onKeyWay
deriving DecidableEq

/-- What a key leads to. Of an array of tables only the last element can be
reached, so it stands for all. -/
inductive Node
  | value (v : Value)
  | table (origin : TableOrigin) (entries : List (String × Node))
  | tables (last : List (String × Node))

/-- A table: how it was made, and its entries in the order they came. -/
structure Table where
  origin : TableOrigin
  entries : List (String × Node)

namespace Table

/-- The table of a document before its first line. -/
def root : Table := ⟨.header, []⟩

def get? (t : Table) (key : String) : Option Node := t.entries.lookup key

/-- Sets a key to a node. -/
def setEntry (key : String) (node : Node) : List (String × Node) → List (String × Node)
  | [] => [(key, node)]
  | e :: rest => if e.1 = key then (key, node) :: rest else e :: setEntry key node rest

def set (t : Table) (key : String) (node : Node) : Table :=
  { t with entries := setEntry key node t.entries }

def toNode (t : Table) : Node := .table t.origin t.entries

/-- The table to go on with at a node; `dotted` tells whether the keys are those
of a value. -/
def into? (dotted : Bool) : Option Node → Option Table
  | none => some ⟨if dotted then .onKeyWay else .onHeaderWay, []⟩
  | some (.value _) => none
  | some (.table origin entries) =>
    if dotted ∧ origin = .header then none else some ⟨origin, entries⟩
  | some (.tables last) => some ⟨.header, last⟩

/-- The node for a changed table, at the place of an old one. -/
def back (old : Option Node) (t : Table) : Node :=
  match old with
  | some (.tables _) => .tables t.entries
  | _ => t.toNode

/-- Changes the table at the end of a path. -/
def editAt (dotted : Bool) (edit : Table → Option Table) : List String → Table → Option Table
  | [], t => edit t
  | key :: path, t =>
    match into? dotted (t.get? key) with
    | none => none
    | some inner =>
      match editAt dotted edit path inner with
      | none => none
      | some inner' => some (t.set key (back (t.get? key) inner'))

/-- Sets a key that is not there yet. -/
def addNew (key : String) (node : Node) (t : Table) : Option Table :=
  match t.get? key with
  | none => some (t.set key node)
  | some _ => none

/-- A line `path.key = v`. Without a path the table itself must not be one of a
dotted key, and with a path the table at its end must. -/
def assign (path : List String) (key : String) (v : Value) : Table → Option Table :=
  editAt true (fun t =>
    if (t.origin = .onKeyWay) ↔ path = [] then none else addNew key (.value v) t) path

/-- A header `[path.key]`. -/
def openTable (path : List String) (key : String) : Table → Option Table :=
  editAt false (fun t =>
    match t.get? key with
    | none => some (t.set key (.table .header []))
    | some (.table .onHeaderWay entries) => some (t.set key (.table .header entries))
    | some _ => none) path

/-- A header `[[path.key]]`. -/
def openElement (path : List String) (key : String) : Table → Option Table :=
  editAt false (fun t =>
    match t.get? key with
    | none => some (t.set key (.tables []))
    | some (.tables _) => some (t.set key (.tables []))
    | some _ => none) path

end Table

end ModulePolicy.Toml
