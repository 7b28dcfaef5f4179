import DocSite.Template.Span

/-! Markup as trees: texts in which every `[[` that is read opens a tag, and the spans and
pieces that the trees stand for. -/
namespace DocSite.Template

/-- A text is searched for its own characters, not all characters for those of the text. -/
instance decidableAllChars (p : Char → Prop) [DecidablePred p] (chars : List Char) :
    Decidable (∀ c ∈ chars, p c) := List.decidableBAll p chars

/-- How a tag begins. -/
structure Head where
  deferred : Bool
  kind : TagKind
  name : List Char
  deriving DecidableEq

namespace Head

/-- The text between `[[` and what follows the name. -/
def chars (h : Head) : List Char :=
  (if h.deferred then ['!'] else []) ++ h.kind.sigil ++ h.name

structure WellFormed (h : Head) : Prop where
  named : h.name ≠ []
  chars : ∀ c ∈ h.name, isNameChar c = true

instance (h : Head) : Decidable h.WellFormed :=
  decidable_of_iff (h.name ≠ [] ∧ ∀ c ∈ h.name, isNameChar c = true)
    ⟨fun ⟨named, chars⟩ => ⟨named, chars⟩, fun ⟨named, chars⟩ => ⟨named, chars⟩⟩

end Head

mutual

/-- A tag as written. -/
inductive Mark where
  | mk (head : Head) (tail : Tail)

/-- What follows the name of a tag. -/
inductive Tail where
  | close
  /-- An `&` and text up to `]]` that a placeholder does not look at. -/
  | ignored (chars : List Char)
  | blank (c : Char) (rest : Tail)
  | nonBreaking (rest : Tail)
  /-- A parameter, whose `&` may be written as an entity. -/
  | param (entity : Bool) (name : List Char) (value : Markup) (rest : Tail)

/-- Literal text with tags in it. -/
inductive Markup where
  | text (chars : List Char)
  | tag (chars : List Char) (mark : Mark) (rest : Markup)

end

/-- How a parameter begins, up to its name. -/
def paramLead (entity : Bool) : List Char := if entity then Span.ampersand else ['&']

mutual

def Mark.source : Mark → List Char
  | .mk head tail => '[' :: '[' :: (head.chars ++ tail.source)

def Tail.source : Tail → List Char
  | .close => [']', ']']
  | .ignored chars => '&' :: chars ++ [']', ']']
  | .blank c rest => c :: rest.source
  | .nonBreaking rest => Span.nonBreakingSpace ++ rest.source
  | .param entity name value rest =>
    paramLead entity ++ name ++ '=' :: '\x60' :: value.source ++ '\x60' :: rest.source

def Markup.source : Markup → List Char
  | .text chars => chars
  | .tag chars mark rest => chars ++ mark.source ++ rest.source

end

/-- A literal ends before the next tag, and before the end of a value that it is in. -/
def LiteralIn (value : Bool) (chars : List Char) : Prop :=
  ∀ c ∈ chars, c ≠ '[' ∧ (value = true → c ≠ '\x60')

instance (value : Bool) (chars : List Char) : Decidable (LiteralIn value chars) :=
  inferInstanceAs (Decidable (∀ c ∈ chars, c ≠ '[' ∧ (value = true → c ≠ '\x60')))

/-- What a placeholder ignores ends with the first `]]`, is no `&nbsp;` and opens no tag. -/
structure Ignorable (chars : List Char) : Prop where
  closes : Span.closeWidth? (chars ++ [']', ']']) = some (chars.length + 2)
  noEntity : Span.nonBreakingSpace.isPrefixOf ('&' :: chars) = false
  free : ∀ c ∈ chars, c ≠ '['

instance (chars : List Char) : Decidable (Ignorable chars) :=
  decidable_of_iff (Span.closeWidth? (chars ++ [']', ']']) = some (chars.length + 2) ∧
      Span.nonBreakingSpace.isPrefixOf ('&' :: chars) = false ∧ ∀ c ∈ chars, c ≠ '[')
    ⟨fun ⟨closes, noEntity, free⟩ => ⟨closes, noEntity, free⟩,
      fun ⟨closes, noEntity, free⟩ => ⟨closes, noEntity, free⟩⟩

mutual

def Mark.WellFormed : Mark → Prop
  | .mk head tail => head.WellFormed ∧ tail.WellFormed head.kind

/-- Only tags of a kind that has parameters carry them. -/
def Tail.WellFormed (kind : TagKind) : Tail → Prop
  | .close => True
  | .ignored chars => kind = .placeholder ∧ Ignorable chars
  | .blank c rest => Text.isBlank c = true ∧ rest.WellFormed kind
  | .nonBreaking rest => rest.WellFormed kind
  | .param _ name value rest => kind ≠ .placeholder ∧
    (name ≠ [] ∧ ∀ c ∈ name, isParamChar c = true) ∧
    value.WellFormed true ∧ rest.WellFormed kind

/-- The text is the value of a parameter, or it stands outside all tags. -/
def Markup.WellFormed (value : Bool) : Markup → Prop
  | .text chars => LiteralIn value chars
  | .tag chars mark rest => LiteralIn value chars ∧ mark.WellFormed ∧ rest.WellFormed value

end

mutual

def Mark.decideWellFormed : ∀ mark : Mark, Decidable mark.WellFormed
  | .mk head tail =>
    have := tail.decideWellFormed head.kind
    inferInstanceAs (Decidable (_ ∧ _))

def Tail.decideWellFormed : ∀ (tail : Tail) (kind : TagKind), Decidable (tail.WellFormed kind)
  | .close, _ => .isTrue trivial
  | .ignored _, _ => inferInstanceAs (Decidable (_ ∧ _))
  | .blank _ rest, kind =>
    have := rest.decideWellFormed kind
    inferInstanceAs (Decidable (_ ∧ _))
  | .nonBreaking rest, kind => rest.decideWellFormed kind
  | .param _ _ value rest, kind =>
    have := value.decideWellFormed true
    have := rest.decideWellFormed kind
    inferInstanceAs (Decidable (_ ∧ (_ ∧ ∀ c ∈ _, isParamChar c = true) ∧ _ ∧ _))

def Markup.decideWellFormed : ∀ (text : Markup) (value : Bool), Decidable (text.WellFormed value)
  | .text chars, value => inferInstanceAs (Decidable (LiteralIn value chars))
  | .tag chars mark rest, value =>
    have := mark.decideWellFormed
    have := rest.decideWellFormed value
    inferInstanceAs (Decidable (LiteralIn value chars ∧ _ ∧ _))

end

instance (text : Markup) (value : Bool) : Decidable (text.WellFormed value) :=
  text.decideWellFormed value

mutual

/-- How many tags lie inside one another within the values of a tag. -/
def Mark.height : Mark → Nat
  | .mk _ tail => tail.height

def Tail.height : Tail → Nat
  | .close | .ignored _ => 0
  | .blank _ rest | .nonBreaking rest => rest.height
  | .param _ _ value rest => max value.height rest.height

def Markup.height : Markup → Nat
  | .text _ => 0
  | .tag _ mark rest => max (mark.height + 1) rest.height

end

mutual

/-- How the tags of a text begin, those inside values included. -/
def Mark.heads : Mark → List Head
  | .mk head tail => head :: tail.heads

def Tail.heads : Tail → List Head
  | .close | .ignored _ => []
  | .blank _ rest | .nonBreaking rest => rest.heads
  | .param _ _ value rest => value.heads ++ rest.heads

def Markup.heads : Markup → List Head
  | .text _ => []
  | .tag _ mark rest => mark.heads ++ rest.heads

end

/-- A literal of a value with each entity as the character that it stands for. -/
def decode (s : List Char) : List Char :=
  match s with
  | [] => []
  | c :: rest =>
    if Span.nonBreakingSpace.isPrefixOf (c :: rest) then ' ' :: decode (rest.drop 5)
    else if Span.ampersand.isPrefixOf (c :: rest) then '&' :: decode (rest.drop 4)
    else c :: decode rest
termination_by s.length
decreasing_by all_goals simp only [List.length_drop, List.length_cons]; omega

/-- The pieces of a literal outside all values. -/
def wholePiece (chars : List Char) : List Piece :=
  if chars.isEmpty then [] else [.text chars]

/-- The pieces of a literal in a value, where entities are pieces of their own. -/
def literalPieces (chars : List Char) : List Piece := (Span.readValue none chars).pieces

mutual

def Mark.span : Mark → Span
  | .mk head tail =>
    .tag head.deferred head.kind (String.ofList head.name) tail.arguments
      ('[' :: '[' :: (head.chars ++ tail.source))

def Tail.arguments : Tail → List Argument
  | .close | .ignored _ => []
  | .blank _ rest | .nonBreaking rest => rest.arguments
  | .param _ name value rest => .mk (String.ofList name) (value.pieces literalPieces) :: rest.arguments

def Markup.pieces (literal : List Char → List Piece) : Markup → List Piece
  | .text chars => literal chars
  | .tag chars mark rest => literal chars ++ .span mark.span :: rest.pieces literal

end

end DocSite.Template
