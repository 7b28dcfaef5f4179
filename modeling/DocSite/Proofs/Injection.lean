import DocSite.Proofs.Evaluation
import DocSite.Proofs.Genuine
import DocSite.Proofs.Guarded

/-! Values inject no tags, unless a text resolves a placeholder where its value is read again
and the value is not plain. Every tag that a render takes up was written. -/
namespace DocSite.Template

/-- A text in which every bracket belongs to a tag, nested as deep as tags are followed. -/
structure Markup.Legible (text : Markup) : Prop where
  formed : text.WellFormed false
  low : text.height ≤ Span.maxNesting

/-- A text of the render: its template, or a chunk that was taken up. -/
inductive Source (book : String → Option Markup) (template : Markup) (events : List Event) :
    Markup → Prop where
  | template : Source book template events template
  | chunk {name : String} {text : Markup} : Event.dispatched .chunk name ∈ events →
    book name = some text → Source book template events text

/-- A tag of this kind and name is written in a text of the render. -/
def Written (book : String → Option Markup) (template : Markup) (events : List Event)
    (kind : TagKind) (name : String) : Prop :=
  ∃ text, Source book template events text ∧
    ∃ head ∈ text.heads, head.kind = kind ∧ String.ofList head.name = name

/-- Every tag that was taken up, or left to a limit, from `s` to `t` was written. -/
def OnlyWritten (book : String → Option Markup) (template : Markup) (s t : Session) : Prop :=
  ∃ events, t.world.journal = events ++ s.world.journal ∧
    ∀ event ∈ events, ∀ kind name, event.Of kind name → Written book template events kind name

/-- All texts that the template leads to are legible, and the only snippet is `if`. -/
structure Stocked (book : String → Option Markup) (template : Markup) (s : Session) : Prop where
  legible : template.Legible
  chunks : ∀ name, Reaches book template name →
    s.world.chunk? name = (book name).map fun text => String.ofList text.source
  texts : ∀ name text, Reaches book template name → book name = some text → text.Legible
  conditional : ∀ name snippet, s.world.snippet? name = some snippet →
    snippet = Conditional.snippet

/-- Where what a tag stands for is read again, no text resolves a chunk, and no placeholder but
those of plain names. -/
structure WellGuarded (book : String → Option Markup) (plain : String → Bool)
    (template : Markup) : Prop where
  here : template.Guarded plain 0
  texts : ∀ name text, Reaches book template name → book name = some text → text.Guarded plain 0

namespace Injection

section

variable {book : String → Option Markup} {template : Markup} {events : List Event}

/-- The texts that a render may come to, with the names that lead to them. -/
def origins (book : String → Option Markup) (template : Markup) (events : List Event) : Origins where
  chunk? name := (book name).map fun text => String.ofList text.source
  taken name := .dispatched .chunk name ∈ events
  allowed kind name := Written book template events kind name ∧
    (kind = .chunk → Reaches book template name)

theorem template_allowed {head : Head} (member : head ∈ template.heads) :
    (origins book template events).allowed head.kind (String.ofList head.name) :=
  ⟨⟨template, .template, head, member, rfl, rfl⟩, .written member⟩

theorem chunk_allowed {name : String} {text : Markup}
    (begins : (origins book template events).allowed .chunk name)
    (taken : (origins book template events).taken name) (found : book name = some text) {head : Head}
    (member : head ∈ text.heads) :
    (origins book template events).allowed head.kind (String.ofList head.name) :=
  ⟨⟨text, .chunk taken found, head, member, rfl, rfl⟩, .through (begins.2 rfl) found member⟩

/-- Chunks are found as the book has them. -/
theorem chunk_of_text {text : String} {name : String}
    (found : (origins book template events).chunk? name = some text) :
    ∃ markup, book name = some markup ∧ text.toList = markup.source := by
  obtain ⟨markup, same, rfl⟩ := Option.map_eq_some_iff.mp found
  exact ⟨markup, same, String.toList_ofList⟩

theorem guarded_chunks {plain : String → Bool}
    (texts : ∀ name text, Reaches book template name → book name = some text →
      text.Legible ∧ text.Guarded plain 0) :
    ((origins book template events).guarded plain).Lawful := by
  refine guarded_lawful fun name text begins taken found => ?_
  obtain ⟨markup, same, source⟩ := chunk_of_text found
  obtain ⟨legible, guarded⟩ := texts name markup (begins.2 rfl) same
  exact ⟨markup, ⟨legible.formed, legible.low, fun _ => chunk_allowed begins taken same, guarded⟩,
    source.symm⟩

theorem woven_chunks
    (texts : ∀ name text, Reaches book template name → book name = some text → text.Legible) :
    (origins book template events).woven.Lawful := by
  refine woven_lawful fun name text begins taken found => ?_
  obtain ⟨markup, same, source⟩ := chunk_of_text found
  have legible := texts name markup (begins.2 rfl) same
  rw [source]
  exact markup_woven markup false legible.formed fun _ => chunk_allowed begins taken same

end

end Injection

open Injection in
/-- No tag comes from the values of placeholders where the texts are well guarded, whatever the
values of names that are not plain. In other texts it takes a value that holds a `[`. -/
theorem no_value_injects_tags (book : String → Option Markup) (template : Markup) (s : Session)
    (params : Params) (stocked : Stocked book template s)
    (apart : (∃ plain : String → Bool, WellGuarded book plain template ∧
        ∀ p ∈ s.engine.placeholders.entries ++ params.entries,
          plain p.1 = true → LiteralIn true p.2.toList) ∨
      ∀ p ∈ s.engine.placeholders.entries ++ params.entries, BracketFree p.2.toList) :
    OnlyWritten book template s
      (Engine.renderString (String.ofList template.source) params s).2 := by
  have kept := Growth.universal.callsWithin callLimit
  obtain ⟨events, grown⟩ := (kept.render (String.ofList template.source) params).bind
    (fun out => Law.Obeyed.pure out.flatten) s
  refine ⟨events, grown, ?_⟩
  -- The discipline speaks of these events: its tags may come from the chunks taken up in them.
  have found : ∀ name, (origins book template events).allowed .chunk name →
      s.world.chunk? name = (origins book template events).chunk? name :=
    fun name begins => stocked.chunks name (begins.2 rfl)
  obtain ⟨formed, low⟩ := stocked.legible
  have source := @String.toList_ofList template.source
  rcases apart with ⟨plain, guarded, values⟩ | free
  · have lawful := @guarded_chunks book template events plain fun name text reached same =>
      ⟨stocked.texts name text reached same, guarded.texts name text reached same⟩
    have kept : template.Kept (origins book template events).allowed plain false Span.maxNesting 0 :=
      ⟨formed, low, fun _ => template_allowed, guarded.here⟩
    have traced := Discipline.renderString_traces lawful (String.ofList template.source) params
      (fun _ => ⟨template, kept, source.symm⟩)
      (fun p member => values p (List.mem_append_right _ member)) s
      ⟨fun p member => values p (List.mem_append_left _ member), found, stocked.conditional⟩ events
      grown fun _ => id
    exact fun event member kind name told => (traced.1 event member kind name told).1
  · have lawful := @woven_chunks book template events stocked.texts
    have woven : Woven (origins book template events).allowed
        (String.ofList template.source).toList := by
      rw [source]
      exact markup_woven template false formed fun _ => template_allowed
    have traced := Discipline.renderString_traces lawful (String.ofList template.source) params woven
      (fun p member => .of_free (free p (List.mem_append_right _ member))) s
      ⟨fun p member => .of_free (free p (List.mem_append_left _ member)), found,
        stocked.conditional⟩ events grown fun _ => id
    exact fun event member kind name told => (traced.1 event member kind name told).1

/-! A value that names a chunk, and templates that get it read again or do not. -/
namespace Trap

def placeholder (deferred : Bool) (name : Char) : Markup :=
  .tag [] (.mk ⟨deferred, .placeholder, [name]⟩ .close) (.text [])

def x (deferred : Bool) : Markup := placeholder deferred 'x'

def param (name : String) (value : Markup) (rest : Tail) : Tail :=
  .blank ' ' (.param false name.toList value rest)

/-- An `if` that takes this branch. -/
def choice (branch : Markup) : Mark :=
  .mk ⟨false, .snippet, "if".toList⟩ (param "subject" (.text ['1'])
    (param "operator" (.text ['=', '=']) (param "operand" (.text ['1']) (param "then" branch .close))))

def cardTag (deferred : Bool) (title : Markup) : Mark :=
  .mk ⟨deferred, .chunk, "card".toList⟩ (param "title" title .close)

/-- The value is the branch of an `if`, which is read again. -/
def chosen : Markup := .tag [] (choice (x false)) (.text [])

/-- The value is in a chunk that is the branch of an `if`. -/
def carried : Markup := .tag [] (choice (.tag [] (cardTag false (x false)) (.text []))) (.text [])

/-- The value is in a deferred tag, which is read again. -/
def delayed : Markup := .tag [] (cardTag true (x false)) (.text [])

/-- Only `y` is resolved where its value is read again. -/
def careful : Markup :=
  .tag [] (choice (x true)) (.tag [] (choice (.tag [] (cardTag true (x true)) (.text [])))
    (.tag [] (cardTag true (placeholder false 'y')) (.tag [] (cardTag true (x true)) (.text []))))

def plain (name : String) : Bool := name == "y"

def card : Markup :=
  .tag ['<'] (.mk ⟨false, .placeholder, "title".toList⟩ .close) (.text ['>'])

def book (name : String) : Option Markup :=
  if name = "danger" then some (.text "BOOM".toList) else if name = "card" then some card else none

def shelf : World :=
  (({} : World).registerChunk "card" (String.ofList card.source)).registerChunk "danger" "BOOM"

def site : Session where
  world := shelf.registerSnippet "if" Conditional.snippet
  engine := { placeholders := ⟨[("x", "[[$danger]]"), ("y", "fine")]⟩ }

theorem book_texts {name : String} {text : Markup} (found : book name = some text) :
    text.Legible ∧ text.Guarded plain 0 ∧ ∀ head ∈ text.heads, head.kind ≠ .chunk := by
  unfold book at found
  split at found
  · cases found
    exact ⟨⟨by decide, by decide⟩, by decide, by decide⟩
  · split at found
    · cases found
      exact ⟨⟨by decide, by decide⟩, by decide, by decide⟩
    · cases found

/-- A tag is taken up that is written nowhere. -/
def Injects (template : Markup) : Prop :=
  Stocked book template site ∧
    ¬ OnlyWritten book template site
      (Engine.renderString (String.ofList template.source) {} site).2

theorem stocked {template : Markup} (legible : template.Legible) : Stocked book template site where
  legible := legible
  chunks name _ := by
    change shelf.chunk? name = _
    rw [shelf, World.chunk?_registerChunk, World.chunk?_registerChunk]
    unfold book
    split
    · rfl
    · split <;> rfl
  texts _ _ _ found := (book_texts found).1
  conditional name snippet found := by
    rw [site, World.snippet?_registerSnippet] at found
    split at found
    · exact (Option.some.inj found).symm
    · cases found

theorem injects : ∀ template ∈ [chosen, carried, delayed], Injects template := by
  intro template member
  have legible : ∀ template ∈ [chosen, carried, delayed], template.WellFormed false ∧
      template.height ≤ Span.maxNesting := by decide
  obtain ⟨formed, low⟩ := legible template member
  refine ⟨stocked ⟨formed, low⟩, ?_⟩
  rintro ⟨events, grown, written⟩
  have taken : ∀ template ∈ [chosen, carried, delayed], Event.dispatched .chunk "danger" ∈
      (Engine.renderString (String.ofList template.source) {} site).2.world.journal := by
    decide +kernel
  have before : site.world.journal = [] := rfl
  have dispatched := taken template member
  rw [grown, before, List.append_nil] at dispatched
  obtain ⟨text, source, head, inside, kind, name⟩ := written _ dispatched _ _ ⟨rfl, rfl⟩
  have other : ∀ template ∈ [chosen, carried, delayed], ∀ head ∈ template.heads,
      head.kind = .chunk → String.ofList head.name ≠ "danger" := by decide
  cases source with
  | template => exact other template member head inside kind name
  | chunk _ found => exact (book_texts found).2.2 head inside kind

end Trap

open Trap in
theorem unguarded_texts_inject : Injects chosen ∧ Injects carried ∧ Injects delayed :=
  ⟨injects chosen (by simp), injects carried (by simp), injects delayed (by simp)⟩

open Trap in
theorem careful_text_injects_nothing : Stocked book careful site ∧ WellGuarded book plain careful ∧
    OnlyWritten book careful site
      (Engine.renderString (String.ofList careful.source) {} site).2 := by
  have stocked : Stocked book careful site := stocked ⟨by decide, by decide⟩
  have guarded : WellGuarded book plain careful :=
    ⟨by decide, fun _ _ _ found => (book_texts found).2.1⟩
  have values : ∀ p ∈ site.engine.placeholders.entries ++ ({} : Params).entries,
      plain p.1 = true → LiteralIn true p.2.toList := by decide
  exact ⟨stocked, guarded,
    no_value_injects_tags book careful site {} stocked (.inl ⟨plain, guarded, values⟩)⟩

end DocSite.Template
