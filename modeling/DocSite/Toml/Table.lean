import DocSite.Toml.Value
/-! Tables while a document is read. How a table came about decides what may still
be added to it. -/
namespace DocSite.Toml

/-- How a table came about. -/
inductive Origin where
  /-- It has a header of its own. -/
  | header
  /-- It stands in the header of a table inside it. -/
  | implied
  /-- It stands before a dot in a key. -/
  | dotted
deriving DecidableEq, Repr

mutual

inductive Slot where
  | value (v : Value)
  | table (t : Table)
  /-- The tables that one header has begun again and again, latest first. -/
  | tables (latest : Table) (earlier : List Table)

inductive Table where
  | mk (origin : Origin) (entries : List (String × Slot))

end

namespace Table

def origin : Table → Origin
  | mk o _ => o

def entries : Table → List (String × Slot)
  | mk _ es => es

def slot? (t : Table) (key : String) : Option Slot := t.entries.lookup key

def putIn (entries : List (String × Slot)) (key : String) (slot : Slot) : List (String × Slot) :=
  match entries with
  | [] => [(key, slot)]
  | (k, s) :: rest => if k = key then (k, slot) :: rest else (k, s) :: putIn rest key slot

def put (t : Table) (key : String) (slot : Slot) : Table := mk t.origin (putIn t.entries key slot)

/-- Changes the table at the end of a path and makes the tables missing on the way. Keys
with dots do not lead into tables that have a header. -/
def update (dotted : Bool) (change : Table → Option Table) (t : Table) :
    List String → Option Table
  | [] => change t
  | key :: path =>
    match t.slot? key with
    | none => do
      let inner ← update dotted change (mk (if dotted then .dotted else .implied) []) path
      return t.put key (.table inner)
    | some (.value _) => none
    | some (.tables latest earlier) => do
      return t.put key (.tables (← update dotted change latest path) earlier)
    | some (.table inner) =>
      if dotted ∧ inner.origin = .header then none
      else do return t.put key (.table (← update dotted change inner path))

/-- Gives a key with dots its value. -/
def define? (t : Table) (path : List String) (key : String) (value : Value) : Option Table :=
  update true (fun inner =>
    if (inner.origin == .dotted) == path.isEmpty || (inner.slot? key).isSome then none
    else some (inner.put key (.value value))) t path

def begin? (t : Table) (path : List String) (key : String) : Option Table :=
  update false (fun inner =>
    match inner.slot? key with
    | none => some (inner.put key (.table (mk .header [])))
    | some (.table (mk .implied entries)) => some (inner.put key (.table (mk .header entries)))
    | some _ => none) t path

def beginNext? (t : Table) (path : List String) (key : String) : Option Table :=
  update false (fun inner =>
    match inner.slot? key with
    | none => some (inner.put key (.tables (mk .header []) []))
    | some (.tables latest earlier) =>
      some (inner.put key (.tables (mk .header []) (latest :: earlier)))
    | some _ => none) t path

/-- Changes the table that a header has begun. -/
def inside? (t : Table) (header : List String) (change : Table → Option Table) : Option Table :=
  update false change t header

mutual

def Slot.toValue : Slot → Value
  | .value v => v
  | .table t => toValue t
  | .tables latest earlier => .array ((toValue latest :: valuesOf earlier).reverse)

def toValue : Table → Value
  | mk _ entries => .table (entriesOf entries)

def valuesOf : List Table → List Value
  | [] => []
  | t :: rest => toValue t :: valuesOf rest

def entriesOf : List (String × Slot) → List (String × Value)
  | [] => []
  | (key, slot) :: rest => (key, Slot.toValue slot) :: entriesOf rest

end

end Table
end DocSite.Toml
