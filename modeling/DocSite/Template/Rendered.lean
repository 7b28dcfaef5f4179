/-! Partly rendered text. Text from placeholder values is kept apart from text
that the next pass reads again, so a value never turns into a tag. -/
namespace DocSite.Template

/-- Whether the next pass reads a piece of text again. -/
inductive SegmentKind where
  /-- Read again on the next pass. -/
  | text
  /-- Carried through as it stands. -/
  | verbatim
  deriving Repr, DecidableEq, Inhabited

structure Segment where
  kind : SegmentKind
  content : String
  deriving Repr, DecidableEq, Inhabited

/-- Segments with the newest first, so that a push looks at one segment only. -/
structure Rendered where
  newestFirst : List Segment := []
  deriving Repr, DecidableEq, Inhabited

namespace Rendered

def empty : Rendered := {}

/-- Adds text at the end. It joins a last segment of its kind, and empty text adds nothing. -/
def push (kind : SegmentKind) (content : String) : Rendered → Rendered
  | ⟨segments⟩ =>
    if content.isEmpty then ⟨segments⟩
    else match segments with
      | ⟨k, last⟩ :: rest =>
        if k = kind then ⟨⟨k, last ++ content⟩ :: rest⟩ else ⟨⟨kind, content⟩ :: ⟨k, last⟩ :: rest⟩
      | [] => ⟨[⟨kind, content⟩]⟩

def pushText (r : Rendered) (content : String) : Rendered := r.push .text content

def pushVerbatim (r : Rendered) (content : String) : Rendered := r.push .verbatim content

def segments (r : Rendered) : List Segment := r.newestFirst.reverse

def append (r other : Rendered) : Rendered :=
  other.segments.foldl (fun r s => r.push s.kind s.content) r

instance : Append Rendered := ⟨append⟩

def ofText (content : String) : Rendered := empty.pushText content

/-- All text in order, whatever its kind. -/
def flatten (r : Rendered) : String :=
  r.segments.foldl (fun acc s => acc ++ s.content) ""

instance : ToString Rendered := ⟨flatten⟩

/-- The view that pushes act on: every character with its kind. -/
def kinded (r : Rendered) : List (SegmentKind × Char) :=
  r.segments.flatMap fun s => s.content.toList.map (s.kind, ·)

end Rendered
end DocSite.Template
