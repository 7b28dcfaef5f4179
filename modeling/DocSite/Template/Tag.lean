import DocSite.Template.Bindings
/-! Tags and their canonical written form. A tag names a placeholder, a chunk
or a snippet, and may carry parameters and the mark that defers it. -/
namespace DocSite.Template

/-- What a tag resolves against. -/
inductive TagKind where
  /-- Written `+`: a placeholder without parameters. -/
  | placeholder
  /-- Written `*`: a placeholder whose parameters are read and ignored. -/
  | starred
  /-- Written `$`: a named piece of template text. -/
  | chunk
  /-- No sigil: a named executable unit. -/
  | snippet
  deriving Repr, DecidableEq, Inhabited

namespace TagKind

def ofSigil? : Char → Option TagKind
  | '+' => some .placeholder
  | '*' => some .starred
  | '$' => some .chunk
  | _ => none

def sigil : TagKind → List Char
  | .placeholder => ['+']
  | .starred => ['*']
  | .chunk => ['$']
  | .snippet => []

def isPlaceholder : TagKind → Bool
  | .placeholder | .starred => true
  | .chunk | .snippet => false

theorem sigil_of_ofSigil? {c : Char} {k : TagKind} (h : ofSigil? c = some k) : k.sigil = [c] := by
  unfold ofSigil? at h
  split at h <;> simp_all [sigil] <;> subst h <;> rfl

end TagKind

def isAsciiAlphanumeric (c : Char) : Bool :=
  ('a' ≤ c && c ≤ 'z') || ('A' ≤ c && c ≤ 'Z') || ('0' ≤ c && c ≤ '9')

/-- The characters of a tag name. -/
def isNameChar (c : Char) : Bool := isAsciiAlphanumeric c || c == '_' || c == '.' || c == '/'

/-- The characters of a parameter name. -/
def isParamChar (c : Char) : Bool := isAsciiAlphanumeric c || c == '_'

structure Tag where
  deferred : Bool := false
  kind : TagKind
  name : String
  params : Params := {}
  deriving Repr, DecidableEq, Inhabited

namespace Tag

/-- The same tag without the mark that defers it. -/
def undeferred (t : Tag) : Tag := { t with deferred := false }

/-- A parameter in the canonical form, with the blank in front of it. -/
def paramChars (p : String × String) : List Char :=
  ' ' :: '&' :: p.1.toList ++ '=' :: '\x60' :: p.2.toList ++ ['\x60']

/-- The canonical written form, with one blank before each parameter. -/
def chars (t : Tag) : List Char :=
  '[' :: '[' :: (if t.deferred then ['!'] else []) ++ t.kind.sigil ++ t.name.toList ++
    t.params.entries.flatMap paramChars ++ [']', ']']

instance : ToString Tag := ⟨fun t => String.ofList t.chars⟩

end Tag
end DocSite.Template
