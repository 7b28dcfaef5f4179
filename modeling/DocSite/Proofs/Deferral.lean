import DocSite.Proofs.Canonical
import DocSite.Template.Recipe

/-! Tags that are put off. A pass writes such a tag in its canonical form and the next one reads it
again: as the same tag if its values hold no backtick, no beginning of a tag and no entity. -/
namespace DocSite.Template

theorem names_of_parameters {α : Type} {value : List Char → α → Prop} {params : List Char}
    {given : List (List Char × α)} (written : Parameters value params given) :
    ∀ p ∈ given, p.1 ≠ [] ∧ ∀ c ∈ p.1, isParamChar c = true := by
  induction written with
  | none => exact fun p member => by cases member
  | blank _ _ ih => exact ih
  | nonBreaking _ ih => exact ih
  | param _ some named _ _ ih => exact List.forall_mem_cons.mpr ⟨⟨some, named⟩, ih⟩

variable {ε σ : Type}

/-- Parameters get their names from the text and their values from the dispatcher. -/
theorem resolveAll_extends {dispatch : Dispatcher (Work ε σ)} {given : List (List Char × List Piece)}
    {before params : Params} {dirty dirty' : Bool} {s t : σ}
    (ended : Argument.resolveAll dispatch (given.map Argument.ofPair) before dirty s =
      (.ok (params, dirty'), t)) :
    ∃ more, params = before.extend more ∧
      more.map Prod.fst = given.map fun p => String.ofList p.1 := by
  induction given generalizing before dirty s with
  | nil =>
    rw [List.map_nil, Argument.resolveAll] at ended
    cases ended
    exact ⟨[], rfl, rfl⟩
  | cons p given ih =>
    obtain ⟨name, value⟩ := p
    rw [List.map_cons, Argument.ofPair, Argument.resolveAll] at ended
    obtain ⟨⟨text, _⟩, between, _, later⟩ := Work.ok_of_bind ended
    obtain ⟨more, rfl, names⟩ := ih later
    exact ⟨(String.ofList name, text.flatten) :: more, rfl, congrArg (List.cons _) names⟩

/-- A tag is well formed when it is read, whatever its values come to. -/
theorem Tag.wellFormed_of_read {dispatch : Dispatcher (Work ε σ)} {depth : Nat} {s source : List Char}
    {width : Nat} {tag : Tag} {arguments : List Argument} {dirty : Bool} {a b : σ}
    (read : Span.reader depth s =
      (.tag tag.deferred tag.kind tag.name arguments source, width))
    (given : Argument.resolveAll dispatch arguments {} false a = (.ok (tag.params, dirty), b)) :
    tag.WellFormed := by
  obtain ⟨formed, -⟩ := Span.reader_finds depth s
  rw [read] at formed
  obtain ⟨nested, h, written, -, spells, deferred, kind, name, rfl⟩ :=
    Span.spelled_of_formed formed
  have head : tag.head = h := by simp [head, deferred, kind, name]
  obtain @⟨_, wellFormed, follows⟩ := spells
  obtain ⟨parameters, few, -⟩ := follows
  obtain ⟨more, params, names⟩ := resolveAll_extends given
  have none : Bindings.empty.Distinct := List.nodup_nil
  refine ⟨head ▸ wellFormed, fun p member => ?_, ?_, fun placeholder => ?_⟩
  · rw [params] at member
    rcases Bindings.mem_of_mem_extend member with old | new
    · cases old
    · have named : p.1 ∈ written.map fun q => String.ofList q.1 :=
        names ▸ List.mem_map_of_mem new
      obtain ⟨q, given, same⟩ := List.mem_map.mp named
      rw [← same, String.toList_ofList]
      exact names_of_parameters parameters q given
  · rw [params]
    exact Bindings.distinct_extend none more
  · rw [few (head ▸ placeholder)] at names
    rw [params, List.map_eq_nil_iff.mp names]
    rfl

/-- A tag that is put off is written in its canonical form. Where the next pass comes upon that it
reads one tag, of the same kind, name and parameter names, with the entities in its values decoded
once more. So it is the same tag just when no value holds an entity. -/
theorem deferred_reread (dispatch : Dispatcher (Work ε σ)) (depth : Nat) (s source : List Char)
    (width : Nat) (tag : Tag) (arguments : List Argument) (dirty : Bool) (a b : σ)
    (deferred : tag.deferred = true)
    (read : Span.reader depth s = (.tag tag.deferred tag.kind tag.name arguments source, width))
    (given : Argument.resolveAll dispatch arguments {} false a = (.ok (tag.params, dirty), b))
    (shut : ∀ p ∈ tag.params.entries, Sealed p.2.toList) :
    Span.resolve dispatch (.tag tag.deferred tag.kind tag.name arguments source) a =
      (.ok (Rendered.ofText (toString tag.undeferred), true), b) ∧
    (∀ before rest, BracketFree before → ∃ span,
      span.IsTag tag.undeferred.decoded (toString tag.undeferred).toList ∧
      Piece.readAll (before ++ ((toString tag.undeferred).toList ++ rest)) =
        wholePiece before ++ .span span :: Piece.readAll rest) ∧
    (tag.undeferred.decoded = tag.undeferred ↔ ∀ p ∈ tag.params.entries, EntityFree p.2.toList) := by
  have formed := Tag.wellFormed_of_read read given
  have later : tag.undeferred.WellFormed :=
    ⟨⟨formed.head.named, formed.head.chars⟩, formed.params, formed.distinct, formed.placeholder⟩
  have text : (toString tag.undeferred).toList = tag.undeferred.chars := String.toList_ofList
  refine ⟨?_, fun before rest free => ?_, Tag.decoded_eq_self_iff⟩
  · rw [Span.resolve, Work.bind_apply, given, deferred]
    rfl
  · obtain ⟨span, is, found⟩ := Tag.chars_reread later shut rest
    have literal : LiteralIn false before := fun c member => ⟨free c member, fun no => by cases no⟩
    rw [List.drop_left] at found
    rw [text]
    refine ⟨span, is, ?_⟩
    rw [← found]
    refine Piece.readAll_literal literal fun c first => ?_
    cases first
    rfl

namespace Parked

def answer : Rendered := (Rendered.ofText "[é").pushVerbatim "&"

def answering : Dispatcher (Work Unit Nat) := fun _ _ => do
  modify (· + 1)
  pure (answer, true)

def x : Mark := .mk ⟨false, .placeholder, ['x']⟩ .close

/-- `show`, put off, with a tag among entities and an entity that is told as text. -/
def mark : Mark :=
  .mk ⟨true, .snippet, "show".toList⟩
    (.blank ' ' (.param false ['a'] (.tag "p &amp; ".toList x (.text "&nbsp;]]".toList))
      (.nonBreaking (.param true ['b'] (.text "&amp;amp".toList) .close))))

def arguments : List Argument :=
  [.mk "a" (Markup.pieces literalPieces (.tag "p &amp; ".toList x (.text "&nbsp;]]".toList))),
    .mk "b" (literalPieces "&amp;amp".toList)]

def tag : Tag := ⟨true, .snippet, "show", ⟨[("a", "p & [é& ]]"), ("b", "&amp")]⟩⟩

end Parked

open Parked in
theorem parked_reread :
    (∃ s width, Span.reader 15 s = (mark.span, width)) ∧
    Argument.resolveAll answering arguments {} false 0 = (.ok (tag.params, true), 1) ∧
    (∀ p ∈ tag.params.entries, Sealed p.2.toList) ∧
    Span.resolve answering mark.span 0 =
      (.ok (Rendered.ofText (toString tag.undeferred), true), 1) ∧
    ∃ span, span.IsTag tag.undeferred (toString tag.undeferred).toList ∧
      Piece.readAll ("<p>".toList ++ ((toString tag.undeferred).toList ++ "[[+y]]".toList)) =
        .text "<p>".toList :: .span span :: Piece.readAll "[[+y]]".toList := by
  have formed : (Markup.tag [] mark (.text [])).WellFormed false := by decide +kernel
  obtain ⟨inner, -, read⟩ := Span.reader_source mark 15 formed.2.1 (by decide) []
  have given : Argument.resolveAll answering arguments {} false 0 = (.ok (tag.params, true), 1) := by
    change @Eq (Except Unit (Params × Bool) × Nat) _ _
    decide +kernel
  have shut : ∀ p ∈ tag.params.entries, Sealed p.2.toList := by
    have plain : ∀ p ∈ tag.params.entries, '\x60' ∉ p.2.toList ∧ ¬ ['[', '['] <:+: p.2.toList := by
      decide +kernel
    exact fun p member => .of_closed (plain p member).1 (plain p member).2
  have free : ∀ p ∈ tag.params.entries, EntityFree p.2.toList := by decide +kernel
  obtain ⟨resolved, found, same⟩ :=
    deferred_reread answering 15 _ mark.source _ tag arguments true 0 1 rfl read given shut
  obtain ⟨span, is, next⟩ := found "<p>".toList "[[+y]]".toList (by decide)
  rw [same.mpr free] at is
  exact ⟨⟨_, _, read⟩, given, shut, resolved, span, is, next⟩

namespace Twice

/-- An entity that stands for the text of an entity. -/
def source : List Char := "[[!show &a=`&amp;nbsp;`]]".toList

def tag : Tag := ⟨true, .snippet, "show", ⟨[("a", "&nbsp;")]⟩⟩

def shelf : World := ({} : World).registerSnippet "show" (Recipe.echo.toSnippet "show" "show")

theorem begins : Begins tag source source := by
  have param := Parameters.quoted false ['a'] "&amp;nbsp;".toList (by decide) (by decide) (by decide)
    .none
  have written : Parameters Quoted " &a=`&amp;nbsp;`".toList [(['a'], "&amp;nbsp;".toList)] :=
    .blank (by decide) param
  have spells : Spells Quoted ⟨true, .snippet, "show".toList⟩ _ source :=
    .mk ⟨by decide, by decide⟩ (.mk written (by decide) .close)
  have same : Tag.of ⟨true, .snippet, "show".toList⟩ [(['a'], "&amp;nbsp;".toList)] = tag := by
    decide +kernel
  rw [← same, ← List.append_nil source]
  refine begins_of_spells spells (fun p member => ?_) []
  rw [List.mem_singleton.mp member]
  exact .of_closed (by decide +kernel) (by decide +kernel)

theorem begins_decoded : Begins tag.undeferred.decoded (toString tag.undeferred).toList
    (toString tag.undeferred).toList := by
  have formed : tag.undeferred.WellFormed :=
    ⟨by decide +kernel, by decide +kernel, by decide +kernel, by decide⟩
  have shut : ∀ p ∈ tag.undeferred.params.entries, Sealed p.2.toList := by
    intro p member
    rw [List.mem_singleton.mp member]
    exact .of_closed (by decide +kernel) (by decide +kernel)
  have text : (toString tag.undeferred).toList = tag.undeferred.chars := String.toList_ofList
  rw [text, ← List.append_nil tag.undeferred.chars]
  exact Tag.chars_reread formed shut []

end Twice

open Twice in
/-- What is read again is another tag, so the text of this one depends on whether it is put off. -/
theorem deferral_decodes_again : Begins tag source source ∧
    scanPass counting (String.ofList source) {} 0 =
      (.ok (Rendered.ofText (toString tag.undeferred), true), 0) ∧
    ¬ Begins tag.undeferred (toString tag.undeferred).toList (toString tag.undeferred).toList ∧
    (Engine.renderString "[[show &a=`&amp;nbsp;`]]" {} { world := shelf }).1 = .ok "a=&nbsp;" ∧
    (Engine.renderString "[[!show &a=`&amp;nbsp;`]]" {} { world := shelf }).1 = .ok "a= " := by
  refine ⟨begins, ?_, fun same => ?_, ?_, ?_⟩
  · change @Eq (Except Unit (Rendered × Bool) × Nat) _ _
    decide +kernel
  · exact absurd (begins_decoded.unique same).1 (by decide +kernel)
  · decide +kernel
  · decide +kernel

end DocSite.Template
