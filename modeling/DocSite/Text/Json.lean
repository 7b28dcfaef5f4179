import DocSite.Text.Quoted
/-! JSON values whose objects keep the order of their members, in a compact
written form and in one with a line for each value. -/
namespace DocSite.Text

inductive Json where
  | null
  | bool (b : Bool)
  | number (n : Nat)
  | string (s : String)
  | array (items : List Json)
  | object (members : List (String × Json))

namespace Json

def strings (texts : List String) : Json := .array (texts.map .string)

def indentation (depth : Nat) : String := String.join (List.replicate depth "  ")

def atom : Json → String
  | .null => "null"
  | .bool b => if b then "true" else "false"
  | .number n => toString n
  | .string s => Quoted.json s
  | .array _ => "[]"
  | .object _ => "\x7b\x7d"

mutual

/-- The written form without blanks. -/
def compact : Json → String
  | .array items => "[" ++ ",".intercalate (compactItems items) ++ "]"
  | .object members => "\x7b" ++ ",".intercalate (compactMembers members) ++ "\x7d"
  | other => other.atom

def compactItems : List Json → List String
  | [] => []
  | item :: rest => item.compact :: compactItems rest

def compactMembers : List (String × Json) → List String
  | [] => []
  | (name, value) :: rest => (Quoted.json name ++ ":" ++ value.compact) :: compactMembers rest

end

mutual

/-- The written form with each item and member on a line of its own. -/
def pretty (depth : Nat) : Json → String
  | .array [] => "[]"
  | .array (item :: rest) =>
    "[\n" ++ ",\n".intercalate (prettyItems (depth + 1) (item :: rest)) ++ "\n" ++
      indentation depth ++ "]"
  | .object [] => "\x7b\x7d"
  | .object (m :: rest) =>
    "\x7b\n" ++ ",\n".intercalate (prettyMembers (depth + 1) (m :: rest)) ++ "\n" ++
      indentation depth ++ "\x7d"
  | other => other.atom

def prettyItems (depth : Nat) : List Json → List String
  | [] => []
  | item :: rest => (indentation depth ++ item.pretty depth) :: prettyItems depth rest

def prettyMembers (depth : Nat) : List (String × Json) → List String
  | [] => []
  | (name, value) :: rest =>
    (indentation depth ++ Quoted.json name ++ ": " ++ value.pretty depth) ::
      prettyMembers depth rest

end

end Json
end DocSite.Text
