import Mathlib.Data.List.Induction
import Mathlib.Data.List.TakeWhile
import DocSite.Proofs.Deferral
import DocSite.Proofs.Literal
import DocSite.Proofs.Visits

/-! Templates in parts. A pass over what some parts come to, in whatever segments that is kept, does
what each part asks for, one after the other. -/
namespace DocSite.Template

/-- A part of a template. -/
inductive Part where
  | text (content : String)
  /-- Text that is not read again. -/
  | value (content : String)
  /-- A tag as it is written. -/
  | tag (tag : Tag) (source : List Char)
  deriving DecidableEq

namespace Part

def source : Part → String
  | .text content | .value content => content
  | .tag _ source => String.ofList source

def kind : Part → SegmentKind
  | .text _ | .tag .. => .text
  | .value _ => .verbatim

/-- The whole text of some parts. -/
def flat (parts : List Part) : String := String.join (parts.map source)

/-- The parts as the next pass gets them, behind others. -/
def write (parts : List Part) (out : Rendered) : Rendered :=
  parts.foldl (fun r part => r.push part.kind part.source) out

/-- Text holds no bracket, and a tag is read as such whatever follows it. -/
def Legible : Part → Prop
  | .text content => BracketFree content.toList
  | .value _ => True
  | .tag t source => ∀ rest, Begins t source (source ++ rest)

theorem flat_cons (part : Part) (parts : List Part) :
    flat (part :: parts) = part.source ++ flat parts := by
  rw [flat, List.map_cons, String.join_cons]
  rfl

theorem flat_singleton (part : Part) : flat [part] = part.source := by
  rw [flat_cons, flat, List.map_nil, String.join_nil, String.append_empty]

theorem flat_append (a b : List Part) : flat (a ++ b) = flat a ++ flat b := by
  rw [flat, List.map_append, String.join_append]
  rfl

theorem flatten_write (parts : List Part) (out : Rendered) :
    (write parts out).flatten = out.flatten ++ flat parts := by
  induction parts generalizing out with
  | nil => exact String.append_empty.symm
  | cons part rest ih =>
    have step : write (part :: rest) out = write rest (out.push part.kind part.source) := rfl
    rw [step, ih, Rendered.flatten_push, flat_cons, String.append_assoc]

end Part

section Resolving

variable {m : Type → Type} [Monad m]

/-- What comes into the place of a tag. -/
def Tag.resolve (dispatch : Dispatcher m) (tag : Tag) (source : List Char) : m (Rendered × Bool) :=
  if tag.deferred then pure (Rendered.ofText (toString tag.undeferred), true)
  else dispatch tag source

namespace Part

/-- Does what the parts ask for, and tells whether a tag was resolved or undeferred. -/
def resolveAll (dispatch : Dispatcher m) : List Part → Rendered → Bool → m (Rendered × Bool)
  | [], out, dirty => pure (out, dirty)
  | .text content :: rest, out, dirty => resolveAll dispatch rest (out.pushText content) dirty
  | .value content :: rest, out, dirty => resolveAll dispatch rest (out.pushVerbatim content) dirty
  | .tag t source :: rest, out, dirty => do
    let place ← t.resolve dispatch source
    resolveAll dispatch rest (out ++ place.1) (dirty || place.2)

variable (dispatch : Dispatcher m)

/-- Text without brackets is added to the output, whatever comes next. -/
theorem pieces_text {content : List Char} (free : BracketFree content) (rest : List Char)
    (out : Rendered) (dirty : Bool) :
    Piece.resolveAll dispatch (Piece.readAll (content ++ rest)) out dirty =
      Piece.resolveAll dispatch (Piece.readAll rest) (out.pushText (String.ofList content)) dirty := by
  have whole {chars : List Char} (free : BracketFree chars) {rest : List Char}
      (stops : ∀ c, rest.head? = some c → c = '[') (out : Rendered) :
      Piece.resolveAll dispatch (Piece.readAll (chars ++ rest)) out dirty =
        Piece.resolveAll dispatch (Piece.readAll rest) (out.pushText (String.ofList chars)) dirty := by
    rw [Piece.readAll_literal (fun c member => ⟨free c member, fun no => by cases no⟩) stops]
    cases chars with
    | nil => rfl
    | cons c more => exact Piece.resolveAll.eq_def ..
  -- What follows up to the next bracket is read together with the text.
  have split := List.takeWhile_append_dropWhile (p := (· != '[')) (l := rest)
  have stops : ∀ c, (rest.dropWhile (· != '[')).head? = some c → c = '[' := by
    intro c first
    have := List.head?_dropWhile_not (· != '[') rest
    rw [first] at this
    simpa using this
  have run : BracketFree (rest.takeWhile (· != '[')) := fun c member => by
    simpa using List.mem_takeWhile_imp member
  rw [← split, ← List.append_assoc, whole (free.append _ _ run) stops, whole run stops,
    String.ofList_append, Rendered.pushText, Rendered.pushText, Rendered.pushText, Rendered.push_push]

variable [LawfulMonad m]

theorem resolveAll_append (a b : List Part) (out : Rendered) (dirty : Bool) :
    resolveAll dispatch (a ++ b) out dirty =
      resolveAll dispatch a out dirty >>= fun x => resolveAll dispatch b x.1 x.2 := by
  induction a generalizing out dirty with
  | nil => rw [List.nil_append, resolveAll, pure_bind]
  | cons part rest ih =>
    cases part with
    | text | value => exact ih _ _
    | tag t source =>
      rw [List.cons_append, resolveAll, resolveAll, bind_assoc]
      simp only [ih]

theorem resolveAll_dirty (parts : List Part) (out : Rendered) (before dirty : Bool) :
    resolveAll dispatch parts out (before || dirty) =
      resolveAll dispatch parts out dirty >>= fun x => pure (x.1, before || x.2) := by
  induction parts generalizing out dirty with
  | nil => rw [resolveAll, resolveAll, pure_bind]
  | cons part rest ih =>
    cases part with
    | text | value => exact ih _ _
    | tag t source =>
      rw [resolveAll, resolveAll, bind_assoc]
      simp only [Bool.or_assoc, ih]

theorem pieces_flat {parts : List Part} (legible : ∀ part ∈ parts, part.Legible)
    (read : ∀ part ∈ parts, part.kind = .text) (out : Rendered) (dirty : Bool) :
    Piece.resolveAll dispatch (Piece.readAll (flat parts).toList) out dirty =
      resolveAll dispatch parts out dirty := by
  induction parts generalizing out dirty with
  | nil =>
    have done : Piece.readAll (flat []).toList = [] := by simp [flat, Piece.readAll]
    rw [done, Piece.resolveAll, resolveAll]
  | cons part rest ih =>
    obtain ⟨here, later⟩ := List.forall_mem_cons.mp legible
    obtain ⟨shown, others⟩ := List.forall_mem_cons.mp read
    rw [flat_cons, String.toList_append]
    cases part with
    | text content =>
      rw [source, pieces_text dispatch here, ih later others, String.ofList_toList, resolveAll]
    | value content => cases shown
    | tag t source =>
      obtain ⟨span, is, found⟩ := here (flat rest).toList
      rw [Part.source, String.toList_ofList, found, List.drop_left, Piece.resolveAll, is.resolve,
        resolveAll, Tag.resolve]
      simp only [ih later others]

end Part
end Resolving

/-- The next pass reads the text as some parts. -/
def Reads (chars : List Char) : Prop := ∃ parts : List Part,
  (∀ part ∈ parts, part.Legible) ∧ (∀ part ∈ parts, part.kind = .text) ∧ chars = (Part.flat parts).toList

theorem Reads.append (a b : List Char) (first : Reads a) (second : Reads b) : Reads (a ++ b) := by
  obtain ⟨parts, legible, read, rfl⟩ := first
  obtain ⟨more, legible', read', rfl⟩ := second
  refine ⟨parts ++ more, List.forall_mem_append.mpr ⟨legible, legible'⟩,
    List.forall_mem_append.mpr ⟨read, read'⟩, ?_⟩
  rw [Part.flat_append, String.toList_append]

theorem Part.Legible.reads {part : Part} (legible : part.Legible) (read : part.kind = .text) :
    Reads part.source.toList := by
  refine ⟨[part], List.forall_mem_singleton.mpr legible, List.forall_mem_singleton.mpr read, ?_⟩
  rw [flat_singleton]

namespace Traced

variable (dispatch : Dispatcher Traced)

theorem passOver_append (a b : List Segment) (out : Rendered) (dirty : Bool) :
    passOver dispatch (a ++ b) out dirty =
      passOver dispatch a out dirty >>= fun x => passOver dispatch b x.1 x.2 := by
  induction a generalizing out dirty with
  | nil => rw [List.nil_append, passOver, pure_bind]
  | cons segment rest ih =>
    obtain ⟨kind, content⟩ := segment
    cases kind with
    | verbatim => exact ih _ _
    | text =>
      rw [List.cons_append, passOver, passOver, bind_assoc]
      simp only [ih]

theorem passOver_text {parts : List Part} (legible : ∀ part ∈ parts, part.Legible)
    (read : ∀ part ∈ parts, part.kind = .text) {content : String}
    (text : content.toList = (Part.flat parts).toList) (out : Rendered) (dirty : Bool) :
    passOver dispatch [⟨.text, content⟩] out dirty = Part.resolveAll dispatch parts out dirty := by
  have scanned : scanPass dispatch content out = Part.resolveAll dispatch parts out false := by
    rw [scanPass, text, Part.pieces_flat dispatch legible read]
  have threaded := Part.resolveAll_dirty dispatch parts out dirty false
  rw [Bool.or_false] at threaded
  rw [passOver, scanned, threaded]
  rfl

/-- Wherever the segments part, text is read in the same way. -/
theorem passOver_push {r : Rendered} (reads : r.Reread Reads) {kind : SegmentKind} {content : String}
    (more : kind = .text → Reads content.toList) (out : Rendered) (dirty : Bool) :
    passOver dispatch (r.push kind content).segments out dirty =
      passOver dispatch r.segments out dirty >>= fun x =>
        passOver dispatch [⟨kind, content⟩] x.1 x.2 := by
  rcases Rendered.push_cases kind content r with ⟨rfl, same⟩ | ⟨last, older, rfl, joined⟩ | added
  · have nothing (out : Rendered) (dirty : Bool) :
        passOver dispatch [⟨kind, ""⟩] out dirty = pure (out, dirty) := by
      cases kind with
      | verbatim => rfl
      | text => exact @passOver_text dispatch [] nofun nofun _ (by simp [Part.flat]) out dirty
    simp only [same, nothing]
    exact (bind_pure _).symm
  · have both (out : Rendered) (dirty : Bool) :
        passOver dispatch [⟨kind, last ++ content⟩] out dirty =
          passOver dispatch [⟨kind, last⟩] out dirty >>= fun x =>
            passOver dispatch [⟨kind, content⟩] x.1 x.2 := by
      cases kind with
      | verbatim =>
        simp only [passOver, pure_bind]
        rw [Rendered.pushVerbatim, Rendered.pushVerbatim, Rendered.pushVerbatim, Rendered.push_push]
      | text =>
        obtain ⟨parts, legible, read, text⟩ := reads _ (List.mem_cons_self ..) rfl
        obtain ⟨parts', legible', read', text'⟩ := more rfl
        have whole : (last ++ content).toList = (Part.flat (parts ++ parts')).toList := by
          rw [String.toList_append, Part.flat_append, String.toList_append, text', ← text]
        rw [passOver_text dispatch (List.forall_mem_append.mpr ⟨legible, legible'⟩)
          (List.forall_mem_append.mpr ⟨read, read'⟩) whole, passOver_text dispatch legible read text,
          Part.resolveAll_append]
        simp only [passOver_text dispatch legible' read' text']
    rw [joined, Rendered.segments, Rendered.segments, List.reverse_cons, List.reverse_cons,
      passOver_append, passOver_append, bind_assoc]
    simp only [both]
  · rw [added, Rendered.segments, List.reverse_cons, passOver_append]
    rfl

theorem write_reads {parts : List Part} (legible : ∀ part ∈ parts, part.Legible) {out : Rendered}
    (before : out.Reread Reads) : (Part.write parts out).Reread Reads := by
  induction parts generalizing out with
  | nil => exact before
  | cons part rest ih =>
    obtain ⟨here, later⟩ := List.forall_mem_cons.mp legible
    exact ih later (.push (Rendered.Reread.joins _ Reads.append) before here.reads)

/-- A pass over what parts come to does what they ask for. -/
theorem passOver_write {parts : List Part} (legible : ∀ part ∈ parts, part.Legible)
    (out : Rendered) (dirty : Bool) :
    passOver dispatch (Part.write parts {}).segments out dirty =
      Part.resolveAll dispatch parts out dirty := by
  induction parts using List.reverseRecOn with
  | nil => rfl
  | append_singleton parts part ih =>
    obtain ⟨before, here⟩ := List.forall_mem_append.mp legible
    have here := List.forall_mem_singleton.mp here
    have step : Part.write (parts ++ [part]) {} = (Part.write parts {}).push part.kind part.source :=
      List.foldl_append
    have one (out : Rendered) (dirty : Bool) :
        passOver dispatch [⟨part.kind, part.source⟩] out dirty =
          Part.resolveAll dispatch [part] out dirty := by
      cases kind : part.kind with
      | verbatim =>
        cases part with
        | value content => rfl
        | text | tag => cases kind
      | text =>
        have single : ∀ p ∈ [part], p.Legible := List.forall_mem_singleton.mpr here
        refine passOver_text dispatch single (List.forall_mem_singleton.mpr kind) ?_ out dirty
        rw [Part.flat_singleton]
    rw [step, passOver_push dispatch (write_reads before .empty) here.reads, ih before,
      Part.resolveAll_append]
    simp only [one]

end Traced
end DocSite.Template
