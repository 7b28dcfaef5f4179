/-! Names bound to text. Parameters of a tag and the placeholders of an engine
are both bindings: names keep the order in which they were first bound. -/
namespace DocSite.Template

/-- Names bound to text, in the order of their first binding. -/
structure Bindings where
  entries : List (String × String) := []
  deriving Repr, DecidableEq, Inhabited

namespace Bindings

def empty : Bindings := {}

/-- The value of the first entry called `name`. -/
def find? (name : String) : List (String × String) → Option String
  | [] => none
  | (n, v) :: rest => if n = name then some v else find? name rest

/-- Replaces the value at the first entry called `name`, or adds an entry at the end. -/
def put (name value : String) : List (String × String) → List (String × String)
  | [] => [(name, value)]
  | (n, v) :: rest => if n = name then (n, value) :: rest else (n, v) :: put name value rest

def get? (b : Bindings) (name : String) : Option String := find? name b.entries

def getD (b : Bindings) (name default : String) : String := (b.get? name).getD default

/-- A name bound before keeps its place and takes the new value. -/
def insert (b : Bindings) (name value : String) : Bindings := ⟨put name value b.entries⟩

/-- Binds many names in order, so a later value wins. -/
def extend (b : Bindings) (more : List (String × String)) : Bindings :=
  more.foldl (fun b p => b.insert p.1 p.2) b

def ofList (entries : List (String × String)) : Bindings := empty.extend entries

def toList (b : Bindings) : List (String × String) := b.entries

def contains (b : Bindings) (name : String) : Bool := (b.get? name).isSome

def erase (b : Bindings) (name : String) : Bindings := ⟨b.entries.filter fun p => p.1 ≠ name⟩

def size (b : Bindings) : Nat := b.entries.length

def isEmpty (b : Bindings) : Bool := b.entries.isEmpty

/-- Both bind the same names to the same values, in whatever order. -/
def agree (a b : Bindings) : Bool :=
  a.entries.all (fun p => a.get? p.1 == b.get? p.1) &&
    b.entries.all (fun p => a.get? p.1 == b.get? p.1)

theorem find?_put (name value n : String) (entries : List (String × String)) :
    find? n (put name value entries) = if n = name then some value else find? n entries := by
  induction entries with
  | nil => simp [put, find?, eq_comm]
  | cons p rest ih =>
      obtain ⟨m, v⟩ := p
      by_cases hm : m = name
      · subst hm
        by_cases h : n = m
        · simp [put, find?, h]
        · simp [put, find?, h, Ne.symm h]
      · by_cases hn : m = n
        · subst hn
          simp [put, find?, hm]
        · simp [put, find?, hm, hn, ih]

@[simp] theorem get?_insert (b : Bindings) (name value n : String) :
    (b.insert name value).get? n = if n = name then some value else b.get? n :=
  find?_put name value n b.entries

@[simp] theorem get?_empty (n : String) : empty.get? n = none := rfl

theorem find?_filter_ne (name n : String) (entries : List (String × String)) :
    find? n (entries.filter fun p => p.1 ≠ name) = if n = name then none else find? n entries := by
  induction entries with
  | nil => simp [find?]
  | cons p rest ih =>
      obtain ⟨m, v⟩ := p
      by_cases hm : m = name
      · subst hm
        by_cases hn : n = m
        · simpa [find?, hn] using ih
        · simpa [find?, hn, Ne.symm hn] using ih
      · by_cases hn : m = n
        · subst hn
          simp [find?, hm]
        · simpa [find?, hm, hn] using ih

@[simp] theorem get?_erase (b : Bindings) (name n : String) :
    (b.erase name).get? n = if n = name then none else b.get? n :=
  find?_filter_ne name n b.entries

end Bindings

/-- The parameters of a tag. -/
abbrev Params := Bindings

/-- The placeholder values of an engine. -/
abbrev Placeholders := Bindings

end DocSite.Template
