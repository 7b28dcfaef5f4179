import DocSite.Proofs.Reading
import DocSite.Proofs.Rendered
import DocSite.Template.Resolve

/-! Literals. The text between tags is resolved to itself, or to what its entities stand for,
and no tag comes out of it. -/
namespace DocSite.Template

/-- Text in which the next pass finds no tag. -/
def BracketFree (chars : List Char) : Prop := ∀ c ∈ chars, c ≠ '['

instance (chars : List Char) : Decidable (BracketFree chars) :=
  inferInstanceAs (Decidable (∀ c ∈ chars, c ≠ '['))

theorem BracketFree.append (a b : List Char) (first : BracketFree a) (second : BracketFree b) :
    BracketFree (a ++ b) :=
  fun c member => (List.mem_append.mp member).elim (first c) (second c)

theorem mem_of_mem_decode {c : Char} : ∀ {chars : List Char}, c ∈ decode chars →
    c ∈ chars ∨ c = ' ' := by
  intro chars
  fun_induction decode chars with
  | case1 => exact .inl
  | case2 d rest found ih =>
    intro member
    rcases List.mem_cons.mp member with rfl | member
    · exact .inr rfl
    · exact (ih member).imp_left fun m => List.mem_cons_of_mem _ (List.mem_of_mem_drop m)
  | case3 d rest none found ih =>
    intro member
    rcases List.mem_cons.mp member with rfl | member
    · exact .inl ((List.isPrefixOf_iff_prefix.mp found).subset (by decide))
    · exact (ih member).imp_left fun m => List.mem_cons_of_mem _ (List.mem_of_mem_drop m)
  | case4 d rest none none' ih =>
    intro member
    rcases List.mem_cons.mp member with rfl | member
    · exact .inl (List.mem_cons_self ..)
    · exact (ih member).imp_left (List.mem_cons_of_mem _)

/-- A literal is shown as texts that make up its value, which is a literal too. -/
structure Shows (inValue : Bool) (shown : List Char → List Piece) (value : List Char → List Char)
    (chars : List Char) : Prop where
  texts : ∃ texts : List (List Char), shown chars = texts.map Piece.text ∧
    texts.flatten = value chars
  literal : LiteralIn inValue (value chars)

theorem shows_whole {chars : List Char} {inValue : Bool} (literal : LiteralIn inValue chars) :
    Shows inValue wholePiece id chars := by
  refine ⟨?_, literal⟩
  cases chars with
  | nil => exact ⟨[], rfl, rfl⟩
  | cons c more => exact ⟨[c :: more], rfl, by simp⟩

theorem shows_decoded {chars : List Char} (literal : LiteralIn true chars) :
    Shows true literalPieces decode chars := by
  refine ⟨literalPieces_texts literal, fun c member => ?_⟩
  rcases mem_of_mem_decode member with old | rfl
  · exact literal c old
  · decide

variable {m : Type → Type} [Monad m] {form : SegmentKind → List Char → Prop}

theorem resolveAll_texts {dispatch : Dispatcher m}
    (joins : ∀ kind a b, form kind a → form kind b → form kind (a ++ b)) (texts : List (List Char))
    (rest : List Piece) (out : Rendered) (dirty : Bool) (before : out.All form)
    (formed : ∀ text ∈ texts, form .text text) :
    ∃ out' : Rendered, Piece.resolveAll dispatch (texts.map Piece.text ++ rest) out dirty =
        Piece.resolveAll dispatch rest out' dirty ∧
      out'.flatten.toList = out.flatten.toList ++ texts.flatten ∧ out'.All form := by
  induction texts generalizing out with
  | nil => exact ⟨out, rfl, (List.append_nil _).symm, before⟩
  | cons text texts ih =>
    have first : form .text (String.ofList text).toList := by
      rw [String.toList_ofList]
      exact formed text (List.mem_cons_self ..)
    obtain ⟨out', eq, flat, after⟩ := ih (out.pushText (String.ofList text))
      (before.push joins first) fun t member => formed t (List.mem_cons_of_mem _ member)
    refine ⟨out', ?_, ?_, after⟩
    · rw [List.map_cons, List.cons_append, Piece.resolveAll]
      exact eq
    · rw [flat, Rendered.flatten_pushText, String.toList_append, String.toList_ofList,
        List.append_assoc, List.flatten_cons]

/-- Resolving a literal adds its value. -/
theorem Shows.resolveAll {inValue : Bool} {shown : List Char → List Piece}
    {value : List Char → List Char} {chars : List Char} (shows : Shows inValue shown value chars)
    (dispatch : Dispatcher m)
    (joins : ∀ kind a b, form kind a → form kind b → form kind (a ++ b))
    (free : ∀ text, BracketFree text → form .text text) (rest : List Piece) (out : Rendered)
    (dirty : Bool) (before : out.All form) :
    ∃ out' : Rendered, Piece.resolveAll dispatch (shown chars ++ rest) out dirty =
        Piece.resolveAll dispatch rest out' dirty ∧
      out'.flatten.toList = out.flatten.toList ++ value chars ∧ out'.All form := by
  obtain ⟨⟨texts, pieces, flat⟩, literal⟩ := shows
  rw [pieces, ← flat]
  refine resolveAll_texts joins texts rest out dirty before fun text member => free text ?_
  intro c inside
  refine (literal c ?_).1
  rw [← flat]
  exact List.mem_flatten.mpr ⟨text, member, inside⟩

end DocSite.Template
