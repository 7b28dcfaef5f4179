import DocSite.Number.Binary64
import DocSite.Template.Action
import DocSite.Text.Blank
/-! The snippet `if`: it compares its subject with its operand and gives one of
two texts. -/
namespace DocSite.Template.Conditional

inductive Operator where
  | equal
  | notEqual
  | less
  | lessOrEqual
  | greater
  | greaterOrEqual
  | empty
  | notEmpty
  deriving Repr, DecidableEq

def Operator.ofString? : String → Option Operator
  | "==" => some .equal
  | "!=" => some .notEqual
  | "<" => some .less
  | "<=" => some .lessOrEqual
  | ">" => some .greater
  | ">=" => some .greaterOrEqual
  | "empty" => some .empty
  | "!empty" => some .notEmpty
  | _ => none

/-- The finite number that a text stands for, blanks around it aside. -/
def number? (text : String) : Option Number.Binary64 :=
  Number.Binary64.finite? (Text.trim text.toList)

/-- By value if both texts are finite numbers, otherwise by code points. -/
def order (a b : String) : Ordering :=
  match number? a, number? b with
  | some x, some y => compare x.value y.value
  | _, _ => compare a b

/-- Blank text and `0` count as empty. -/
def isEmpty (text : String) : Bool :=
  let inner := Text.trim text.toList
  inner.isEmpty || inner == ['0']

def Operator.holds (subject operand : String) : Operator → Bool
  | .equal => order subject operand == .eq
  | .notEqual => order subject operand != .eq
  | .less => order subject operand == .lt
  | .lessOrEqual => order subject operand != .gt
  | .greater => order subject operand == .gt
  | .greaterOrEqual => order subject operand != .lt
  | .empty => isEmpty subject
  | .notEmpty => !isEmpty subject

/-- The text that the parameters choose. An unknown operator never holds. -/
def choose (params : Params) : String :=
  let holds := match Operator.ofString? (params.getD "operator" "") with
    | some o => o.holds (params.getD "subject" "") (params.getD "operand" "")
    | none => false
  params.getD (if holds then "then" else "else") ""

/-- The snippet itself. It does nothing to the engine. -/
def snippet : Snippet := .program fun params => .done (choose params)

end DocSite.Template.Conditional
