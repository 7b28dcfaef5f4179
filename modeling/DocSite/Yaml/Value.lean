import DocSite.Number.Integer
import DocSite.Number.Text
import DocSite.Yaml.Node
/-! What YAML nodes stand for. A plain scalar is a null, a truth value or a number
if it is written like one; with quotes it is text. -/
namespace DocSite.Yaml

open Number

inductive Value where
  | null
  | bool (b : Bool)
  | integer (n : Int)
  | float (x : Binary64.Numeral)
  | string (s : String)
  | sequence (items : List Value)
  | mapping (entries : List (Value × Value))
  | tagged (tag : String) (value : Value)
deriving Inhabited, Repr

/-- Nodes are nested at most this deep. -/
def maxDepth : Nat := 128

def isNull (text : String) : Bool := ["null", "Null", "NULL", "~"].contains text

def bool? (text : String) : Option Bool :=
  if ["true", "True", "TRUE"].contains text then some true
  else if ["false", "False", "FALSE"].contains text then some false
  else none

def hasLeadingZero (text : List Char) : Bool :=
  let digits := match text with
    | '-' :: rest | '+' :: rest => rest
    | rest => rest
  1 < digits.length && digits.head? == some '0' && digits.all Char.isDigit

/-- Digits in the base that their beginning names. -/
def based? (digits : List Char) : Option Nat :=
  match digits with
  | '0' :: 'x' :: rest => natural? 16 rest
  | '0' :: 'o' :: rest => natural? 8 rest
  | '0' :: 'b' :: rest => natural? 2 rest
  | _ => none

inductive IntegerText where
  | value (n : Int)
  /-- Too large to be an integer, yet not so large that it is read as another number. -/
  | unsupported
  | notInteger

def IntegerText.ofInt (n : Int) : IntegerText :=
  if -0x8000000000000000 ≤ n ∧ n < 0x10000000000000000 then .value n
  else if -0x80000000000000000000000000000000 ≤ n ∧ n < 0x100000000000000000000000000000000 then
    .unsupported
  else .notInteger

def IntegerText.of (text : List Char) : IntegerText :=
  let plain? (digits : List Char) : Option Nat :=
    (based? digits).or (if hasLeadingZero text then none else natural? 10 digits)
  let found? : Option Int := match text with
    | '-' :: digits => (plain? digits).map fun n => -(n : Int)
    | '+' :: digits => (plain? digits).map Int.ofNat
    | digits => (plain? digits).map Int.ofNat
  found?.elim .notInteger .ofInt

/-- The number with a point or an exponent that a text stands for. -/
def float? (text : List Char) : Option Binary64.Numeral :=
  let unsigned := match text with
    | '+' :: rest => rest
    | rest => rest
  let isWord (words : List String) (s : List Char) : Bool := words.contains (String.ofList s)
  if text.head? = some '+' ∧ unsigned.head?.any (fun c => c == '+' || c == '-') then none
  else if isWord [".inf", ".Inf", ".INF"] unsigned then some (.notFinite false)
  else if isWord ["-.inf", "-.Inf", "-.INF"] text then some (.notFinite true)
  else if isWord [".nan", ".NaN", ".NAN"] text then some .notANumber
  else (Binary64.finite? unsigned).map .finite

namespace Value

def ofPlain? (text : String) : Option Value :=
  if text.isEmpty || isNull text then some .null
  else
    match bool? text with
    | some b => some (.bool b)
    | none =>
      match IntegerText.of text.toList with
      | .value n => some (.integer n)
      | .unsupported => none
      | .notInteger =>
        match if hasLeadingZero text.toList then none else float? text.toList with
        | some x => some (.float x)
        | none => some (.string text)

def coreTag (name : String) : String := "tag:yaml.org,2002:" ++ name

/-- The value of a scalar whose tag says what it has to be. -/
def ofTagged? (tag text : String) : Option Value :=
  if tag = coreTag "bool" then (bool? text).map .bool
  else if tag = coreTag "int" then
    match IntegerText.of text.toList with
    | .value n => some (.integer n)
    | _ => none
  else if tag = coreTag "float" then (float? text.toList).map .float
  else if tag = coreTag "null" then if isNull text then some .null else none
  else some (.string text)

def localTag? (tag? : Option String) : Option String :=
  tag?.bind fun tag =>
    match tag.toList with
    | '!' :: name => some (String.ofList name)
    | _ => none

def ofScalar? (tag? : Option String) (style : Style) (text : String) : Option Value :=
  match tag? with
  | some tag => ofTagged? tag text
  | none => if style = .plain then ofPlain? text else some (.string text)

/-- Numbers are the same if they are equal, and so is what is no number. -/
def sameFloat (x y : Binary64.Numeral) : Bool :=
  match x, y with
  | .finite a, .finite b => a.value == b.value
  | _, _ => x == y

mutual

/-- Whether two values are the same. The order of a mapping's entries does not matter. -/
def same : Value → Value → Bool
  | .null, .null => true
  | .bool a, .bool b => a == b
  | .integer a, .integer b => a == b
  | .float a, .float b => sameFloat a b
  | .string a, .string b => a == b
  | .sequence a, .sequence b => sameItems a b
  | .mapping a, .mapping b => a.length == b.length && sameEntries a b
  | .tagged s a, .tagged t b => s == t && same a b
  | _, _ => false

def sameItems : List Value → List Value → Bool
  | [], [] => true
  | a :: as, b :: bs => same a b && sameItems as bs
  | _, _ => false

def sameEntries : List (Value × Value) → List (Value × Value) → Bool
  | [], _ => true
  | (k, v) :: rest, others =>
    others.any (fun (l, w) => same k l && same v w) && sameEntries rest others

end

def mapping? (entries : List (Value × Value)) : Option Value :=
  let distinct := entries.foldl
    (fun seen? (key, _) => do
      let seen ← seen?
      if seen.any (same key) then none else some (key :: seen))
    (some [])
  distinct.map fun _ => .mapping entries

def withTag? (known : Bool) (tag? : Option String) (value? : Option Value) : Option Value :=
  match localTag? tag? with
  | some name => if known && !name.isEmpty then value?.map (.tagged name) else none
  | none => value?

mutual

/-- The value of a node with at most `depth` levels. Tags of the document's own are an
error unless they are known. -/
def ofNode? (known : Bool) (depth : Nat) : Node → Option Value
  | .scalar tag? style text =>
    match localTag? tag? with
    | some _ => withTag? known tag? (ofScalar? none style text)
    | none => ofScalar? tag? style text
  | .sequence tag? items =>
    if depth = 0 then none
    else withTag? known tag? ((ofItems? known (depth - 1) items).map .sequence)
  | .mapping tag? entries =>
    if depth = 0 then none
    else withTag? known tag? ((ofEntries? known (depth - 1) entries).bind mapping?)

def ofItems? (known : Bool) (depth : Nat) : List Node → Option (List Value)
  | [] => some []
  | item :: rest => do return (← ofNode? known depth item) :: (← ofItems? known depth rest)

def ofEntries? (known : Bool) (depth : Nat) : List (Node × Node) → Option (List (Value × Value))
  | [] => some []
  | (key, value) :: rest => do
    let entry := (← ofNode? known depth key, ← ofNode? known depth value)
    return entry :: (← ofEntries? known depth rest)

end

def text? : Value → Option String
  | .null => some ""
  | .bool b => some (if b then "true" else "false")
  | .integer n => some (toString n)
  | .float (.finite b) => some b.text
  | .float (.notFinite negative) => some (if negative then "-.inf" else ".inf")
  | .float .notANumber => some ".nan"
  | .string s => some s
  | _ => none

end Value
end DocSite.Yaml
