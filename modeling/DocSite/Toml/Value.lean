import DocSite.Number.Binary64
import DocSite.Toml.DateTime
/-! Values of TOML, and the overlay of one on another: tables are joined key by
key, anything else is replaced. -/
namespace DocSite.Toml

inductive Value where
  | string (s : String)
  | integer (n : Int)
  | float (x : Number.Binary64.Numeral)
  | bool (b : Bool)
  | dateTime (d : DateTime)
  | array (items : List Value)
  /-- Each key stands once. -/
  | table (entries : List (String × Value))
deriving Inhabited, Repr

namespace Value

/-- Gives a key its value, in place if it has one already. -/
def put (entries : List (String × Value)) (key : String) (value : Value) :
    List (String × Value) :=
  match entries with
  | [] => [(key, value)]
  | (k, v) :: rest => if k = key then (k, value) :: rest else (k, v) :: put rest key value

mutual

/-- The first value with the second laid over it. -/
def merge (base : Value) : Value → Value
  | .table overlay =>
    match base with
    | .table entries => .table (mergeEntries entries overlay)
    | _ => .table overlay
  | overlay => overlay

def mergeEntries (base : List (String × Value)) : List (String × Value) → List (String × Value)
  | [] => base
  | (key, value) :: rest =>
    let merged := match base.lookup key with
      | some below => merge below value
      | none => value
    mergeEntries (put base key merged) rest

end

theorem lookup_put_self (entries : List (String × Value)) (key : String) (value : Value) :
    (put entries key value).lookup key = some value := by
  induction entries with
  | nil => simp [put]
  | cons entry rest ih =>
      obtain ⟨k, v⟩ := entry
      by_cases h : k = key
      · simp [put, h]
      · have hne : (key == k) = false := by simpa using fun e => h e.symm
        simp [put, h, List.lookup_cons, hne, ih]

theorem lookup_put_of_ne {key other : String} (h : other ≠ key) (entries : List (String × Value))
    (value : Value) : (put entries key value).lookup other = entries.lookup other := by
  induction entries with
  | nil =>
      have : (other == key) = false := by simpa using h
      simp [put, List.lookup_cons, this]
  | cons entry rest ih =>
      obtain ⟨k, v⟩ := entry
      by_cases hk : k = key
      · subst hk
        have : (other == k) = false := by simpa using h
        simp [put, List.lookup_cons, this]
      · simp [put, hk, List.lookup_cons, ih]

end Value
end DocSite.Toml
