import DocSite.Proofs.Grammar
import DocSite.Proofs.Woven

/-! What woven text is read as. Its tags begin as tags that were written, and what is left of a
tag that is not read as one is woven text again. -/
namespace DocSite.Template

mutual

/-- Every tag in the span begins as one that may stand there. -/
inductive Span.Genuine (allowed : TagKind → String → Prop) : Span → Prop where
  | literal {source : List Char} {inner : List Span} :
    (∀ s ∈ inner, Span.Genuine allowed s) → Span.Genuine allowed (.literal source inner)
  | tag {h : Head} {arguments : List Argument} {inside : List Char} : h.WellFormed →
    allowed h.kind (String.ofList h.name) → (∀ a ∈ arguments, Argument.Genuine allowed a) →
    Woven allowed ('[' :: '[' :: inside ++ [']']) →
    Span.Genuine allowed
      (.tag h.deferred h.kind (String.ofList h.name) arguments ('[' :: '[' :: inside ++ [']']))

inductive Argument.Genuine (allowed : TagKind → String → Prop) : Argument → Prop where
  | mk {name : List Char} {value : List Piece} : BracketFree name →
    (∀ p ∈ value, Piece.Genuine allowed p) → Woven allowed (gistOf value) →
    Argument.Genuine allowed (.mk (String.ofList name) value)

inductive Piece.Genuine (allowed : TagKind → String → Prop) : Piece → Prop where
  | text {chars : List Char} : Piece.Genuine allowed (.text chars)
  | span {s : Span} : Span.Genuine allowed s → Piece.Genuine allowed (.span s)

end

namespace Span

variable {allowed : TagKind → String → Prop}

/-- What a reader makes of woven text after `[[`. -/
def Reads (allowed : TagKind → String → Prop) (read : Reader) : Prop :=
  ∀ inner, Woven allowed ('[' :: '[' :: inner) → (read inner).1.Genuine allowed ∧
    (read inner).1.source = '[' :: '[' :: inner.take (read inner).2

/-- What a value is read as after the text `before`: its gist may stand where it stood. -/
structure ValueReading.Genuine (allowed : TagKind → String → Prop) (before s : List Char)
    (r : ValueReading) : Prop where
  pieces : ∀ p ∈ r.pieces, p.Genuine allowed
  woven : r.closed = true →
    Woven allowed (before ++ gistOf r.pieces) ∧ Woven allowed (s.drop r.width)

theorem ValueReading.Genuine.after {before s : List Char} {r : ValueReading} {piece : Piece}
    {width : Nat} (first : piece.Genuine allowed)
    (rest : r.Genuine allowed (before ++ piece.gist) (s.drop width)) :
    (r.after piece width).Genuine allowed before s := by
  refine ⟨fun p member => ?_, fun closed => ?_⟩
  · rcases List.mem_cons.mp member with rfl | later
    · exact first
    · exact rest.pieces p later
  · obtain ⟨whole, behind⟩ := rest.woven closed
    rw [List.append_assoc] at whole
    rw [List.drop_drop] at behind
    exact ⟨whole, behind⟩

/-- An entity may be exchanged for a character, as its `&` may. -/
theorem entity_woven {before entity s : List Char} {c : Char} (free : BracketFree entity)
    (stops : endsName c = true)
    (woven : Woven allowed (before ++ '&' :: (entity ++ s))) :
    Woven allowed ((before ++ [c]) ++ s) := by
  obtain ⟨behind, replaced⟩ := woven.cut_stop (by decide)
  exact (replaced c stops).append (behind.of_free_append free)

theorem readValue_genuine {nested : Option Reader}
    (reads : ∀ read, nested = some read → Reads allowed read) (s before : List Char)
    (woven : Woven allowed (before ++ s)) :
    (readValue nested s).Genuine allowed before s := by
  -- A literal span may end between two brackets, so the gist is woven only with what is around it.
  fun_induction readValue nested s generalizing before with
  | case1 => exact ⟨fun p member => (by cases member), fun closed => by cases closed⟩
  | case2 rest =>
    obtain ⟨ended, behind⟩ := woven.cut_backtick
    refine ⟨fun p member => (by cases member), fun _ => ⟨?_, behind⟩⟩
    change Woven allowed (before ++ [])
    rw [List.append_nil]
    exact ended
  | case3 c rest backtick brackets none ih =>
    obtain ⟨rfl, next⟩ := brackets
    obtain ⟨more, rfl⟩ := List.head?_eq_some_iff.mp next
    refine .after .text ?_
    have same : before ++ '[' :: '[' :: more = (before ++ ['[', '[']) ++ more := by simp
    exact none ▸ ih _ (same ▸ woven)
  | case4 c rest backtick brackets read found span width reading ih =>
    obtain ⟨rfl, next⟩ := brackets
    obtain ⟨more, rfl⟩ := List.head?_eq_some_iff.mp next
    obtain ⟨genuine, source⟩ := reads read found more woven.cut_brackets.2
    change read more = _ at reading
    rw [reading] at genuine source
    have behind : ('[' :: '[' :: more).drop (2 + width) = more.drop width := by
      rw [Nat.add_comm]
      rfl
    have same : before ++ '[' :: '[' :: more = (before ++ span.source) ++ more.drop width := by
      rw [source, List.append_assoc]
      simp
    refine .after (.span genuine) ?_
    rw [behind]
    exact found ▸ ih _ (same ▸ woven)
  | case5 c rest backtick brackets found ih =>
    obtain ⟨rfl, entity⟩ := entity_eq found
    rw [entity] at woven
    exact .after .text (ih _ (entity_woven (by decide) (by decide) woven))
  | case6 c rest backtick brackets noSpace found ih =>
    obtain ⟨rfl, entity⟩ := entity_eq found
    rw [entity] at woven
    exact .after .text (ih _ (entity_woven (by decide) (by decide) woven))
  | case7 c rest backtick brackets noSpace noAmpersand run ih =>
    have whole : rest = run ++ rest.drop run.length := run_eq isPlain rest
    have behind : (c :: rest).drop (1 + run.length) = rest.drop run.length := by
      rw [Nat.add_comm]
      rfl
    have same : before ++ c :: rest = (before ++ c :: run) ++ rest.drop run.length := by
      rw [List.append_assoc, List.cons_append, ← whole]
    refine .after .text ?_
    rw [behind]
    exact ih _ (same ▸ woven)

/-- What is read as parameters after a name, with the spans of values that are given up. -/
structure ArgumentsReading.Genuine (allowed : TagKind → String → Prop) (s : List Char)
    (r : ArgumentsReading) : Prop where
  arguments : ∀ a ∈ r.arguments, a.Genuine allowed
  given : ∀ span ∈ r.given, span.Genuine allowed
  closes : r.closed = true → ∃ before, s.take r.width = before ++ [']']

theorem ArgumentsReading.Genuine.skip {s : List Char} {r : ArgumentsReading} {width : Nat}
    (rest : r.Genuine allowed (s.drop width)) : (r.skip width).Genuine allowed s := by
  refine ⟨rest.arguments, rest.given, fun closed => ?_⟩
  obtain ⟨before, ended⟩ := rest.closes closed
  refine ⟨s.take width ++ before, ?_⟩
  change s.take (width + r.width) = _
  rw [List.take_add, ended, List.append_assoc]

theorem ArgumentsReading.Genuine.open (s : List Char) (width : Nat) :
    (⟨[], [], false, width⟩ : ArgumentsReading).Genuine allowed s :=
  ⟨fun _ member => (by cases member), fun _ member => (by cases member), fun closed => by cases closed⟩

/-- The text behind the backtick that opens a value. -/
theorem value_woven {rest : List Char} (woven : Woven allowed ('&' :: rest)) {lead : Nat}
    (leads : lead = if ampersand.isPrefixOf ('&' :: rest) then 4 else 0) {name : List Char}
    (named : name = (rest.drop lead).takeWhile isParamChar)
    (opened : ['=', '\x60'].isPrefixOf (rest.drop (lead + name.length)) = true) :
    Woven allowed ((rest.drop (lead + name.length)).drop 2) := by
  obtain ⟨entity, -, whole⟩ := param_eq leads named opened
  have free : BracketFree (paramLead entity ++ name ++ ['=', '\x60']) := by
    have named : BracketFree name := free_of_params fun c member => by
      rw [named] at member
      exact List.all_eq_true.mp List.all_takeWhile c member
    have lead : BracketFree (paramLead entity) := by cases entity <;> decide
    exact (lead.append _ _ named).append _ _ (by decide)
  rw [whole] at woven
  rw [List.drop_drop]
  exact woven.of_free_append free

theorem spansOf_genuine {pieces : List Piece} (genuine : ∀ p ∈ pieces, p.Genuine allowed) :
    ∀ s ∈ spansOf pieces, s.Genuine allowed := by
  intro s member
  obtain ⟨piece, inside, spans⟩ := List.mem_filterMap.mp member
  cases piece with
  | text chars => cases spans
  | span inner =>
    cases spans
    cases genuine _ inside
    assumption

theorem readArguments_genuine {kind : TagKind} {value : List Char → ValueReading}
    (valued : ∀ s, Woven allowed s → (value s).Genuine allowed [] s) (s : List Char)
    (woven : Woven allowed s) : (readArguments kind value s).Genuine allowed s := by
  fun_induction readArguments kind value s with
  | case1 => exact .open _ _
  | case2 c rest close =>
    obtain ⟨rfl, next⟩ := close
    obtain ⟨more, rfl⟩ := List.head?_eq_some_iff.mp next
    exact ⟨fun _ member => (by cases member), fun _ member => (by cases member), fun _ => ⟨[']'], rfl⟩⟩
  | case3 c rest open' found ih =>
    obtain ⟨rfl, entity⟩ := entity_eq found
    have inside := woven.tail (by decide)
    rw [entity] at inside
    exact .skip (ih (inside.of_free_append (by decide)))
  | case4 rest placeholder width found =>
    obtain ⟨before, ended, -⟩ := closeWidth?_eq_some found
    refine ⟨fun _ member => (by cases member), fun _ member => (by cases member), fun _ => ?_⟩
    refine ⟨'&' :: before ++ [']'], ?_⟩
    change ('&' :: rest).take (1 + width) = _
    rw [Nat.add_comm, List.take_succ_cons, ended]
    simp
  | case5 => exact .open _ _
  | case6 => exact .open _ _
  | case7 rest parameters open' noSpace lead name afterName opened reading width closed more ih =>
    have opened : ['=', '\x60'].isPrefixOf afterName = true := by simpa using (not_or.mp opened).2
    have inside : Woven allowed (afterName.drop 2) := value_woven woven (by simp [lead]) rfl opened
    have genuine := valued _ inside
    obtain ⟨whole, behind⟩ := genuine.woven closed
    have after : (afterName.drop 2).drop reading.width = rest.drop width := by
      rw [List.drop_drop, List.drop_drop]
      exact congrArg (rest.drop ·) (Nat.add_assoc _ 2 _).symm
    have later := ih (after ▸ behind)
    refine ⟨fun a member => ?_, fun s member => ?_, fun closed' => ?_⟩
    · rcases List.mem_cons.mp member with rfl | member
      · refine .mk (free_of_params fun c member => ?_) genuine.pieces whole
        exact List.all_eq_true.mp List.all_takeWhile c member
      · exact later.arguments a member
    · rcases List.mem_append.mp member with here | member
      · exact spansOf_genuine genuine.pieces s here
      · exact later.given s member
    · obtain ⟨before, ended⟩ := later.closes closed'
      refine ⟨('&' :: rest).take (1 + width) ++ before, ?_⟩
      have last : (('&' :: rest).drop (1 + width)).take more.width = before ++ [']'] := by
        rw [Nat.add_comm]
        exact ended
      rw [List.take_add, last, List.append_assoc]
  | case8 rest parameters open' noSpace lead name afterName opened reading width closed =>
    have opened : ['=', '\x60'].isPrefixOf afterName = true := by simpa using (not_or.mp opened).2
    have inside : Woven allowed (afterName.drop 2) := value_woven woven (by simp [lead]) rfl opened
    have given := spansOf_genuine (valued _ inside).pieces
    exact ⟨fun _ member => (by cases member), given, fun closed => by cases closed⟩
  | case9 c rest open' noSpace other blank ih =>
    refine .skip (ih (woven.tail ?_))
    rintro rfl
    exact absurd blank (by decide)
  | case10 => exact .open _ _

/-- Readers of all depths keep to woven text, by induction on the depth. -/
theorem reader_genuine (depth : Nat) : Reads allowed (reader depth) := by
  have reads : ∀ value : List Char → ValueReading,
      (∀ s, Woven allowed s → (value s).Genuine allowed [] s) → Reads allowed (readWith value) := by
    intro value valued inner woven
    obtain ⟨h, stop, rest, rfl, formed, begins, stops, inside⟩ := woven.head_of_brackets
    have genuine := @readArguments_genuine allowed h.kind value valued (stop :: rest) inside
    rw [readWith_head formed stops]
    generalize readArguments h.kind value (stop :: rest) = reading at genuine
    dsimp only
    split
    · rename_i closed
      obtain ⟨before, ended⟩ := genuine.closes closed
      have parts := List.take_append_drop reading.width (stop :: rest)
      rw [ended] at parts
      generalize (stop :: rest).drop reading.width = after at parts
      have source : (h.chars ++ stop :: rest).take (h.chars.length + reading.width) =
          h.chars ++ before ++ [']'] := by
        rw [List.take_length_add_append, ended, List.append_assoc]
      have whole : '[' :: '[' :: (h.chars ++ stop :: rest) =
          ('[' :: '[' :: (h.chars ++ before)) ++ ']' :: after := by
        rw [← parts]
        simp
      rw [whole] at woven
      have tagged := (woven.cut_stop (by decide)).2 ']' (by decide)
      refine ⟨?_, rfl⟩
      rw [source]
      exact .tag formed begins genuine.arguments tagged
    · exact ⟨.literal genuine.given, rfl⟩
  induction depth with
  | zero => exact reads _ fun s woven => readValue_genuine (fun _ none => by cases none) s [] woven
  | succ depth ih =>
    refine reads _ fun s woven => readValue_genuine (fun read same => ?_) s [] woven
    cases same
    exact ih

end Span

/-- Woven text is read as genuine pieces. -/
theorem Piece.readAll_genuine {allowed : TagKind → String → Prop} (s before : List Char)
    (woven : Woven allowed (before ++ s)) : ∀ p ∈ readAll s, p.Genuine allowed := by
  fun_induction readAll s generalizing before with
  | case1 => exact fun p member => by cases member
  | case2 c rest brackets span width reading ih =>
    obtain ⟨rfl, next⟩ := brackets
    obtain ⟨more, rfl⟩ := List.head?_eq_some_iff.mp next
    obtain ⟨genuine, source⟩ := Span.reader_genuine (Span.maxNesting - 1) more woven.cut_brackets.2
    change Span.reader (Span.maxNesting - 1) more = _ at reading
    rw [reading] at genuine source
    have same : before ++ '[' :: '[' :: more = (before ++ span.source) ++ more.drop width := by
      rw [source]
      simp
    exact List.forall_mem_cons.mpr ⟨.span genuine, ih (before ++ span.source) (same ▸ woven)⟩
  | case3 c rest brackets run ih =>
    have whole : rest = run ++ rest.drop run.length := Span.run_eq _ rest
    have same : before ++ c :: rest = (before ++ c :: run) ++ rest.drop run.length := by
      rw [List.append_assoc, List.cons_append, ← whole]
    exact List.forall_mem_cons.mpr ⟨.text, ih (before ++ c :: run) (same ▸ woven)⟩

/-- All text of a run is woven, that of values included. -/
def Origins.woven (O : Origins) : Discipline where
  toOrigins := O
  form _ := Woven O.allowed
  value _ := Woven O.allowed

section Resolving

variable {O : Origins} {dispatch : Dispatcher Run}

theorem woven_joins (kind : SegmentKind) (a b : List Char) (first : O.woven.form kind a)
    (second : O.woven.form kind b) : O.woven.form kind (a ++ b) := first.append second

theorem flatten_woven {out : Rendered} (all : out.All O.woven.form) :
    Woven O.allowed out.flatten.toList := by
  obtain ⟨newestFirst⟩ := out
  rw [Rendered.flatten_newestFirst]
  induction newestFirst with
  | nil => exact .nil
  | cons s older ih =>
    rw [List.foldr_cons, String.toList_append]
    have before := ih fun t member => all t (List.mem_cons_of_mem _ member)
    exact before.append (all s (List.mem_cons_self ..))

theorem ofText_woven {content : String} (woven : Woven O.allowed content.toList) :
    (Rendered.ofText content).All O.woven.form := Rendered.All.empty.push woven_joins woven

theorem verbatim_woven {content : String} (woven : Woven O.allowed content.toList) :
    (Rendered.empty.pushVerbatim content).All O.woven.form :=
  Rendered.All.empty.push woven_joins woven

/-- What is pushed already is woven together with the text that is still to be resolved. -/
def Awaits (allowed : TagKind → String → Prop) (out : Rendered) (rest : List Char) : Prop :=
  (out.pushText (String.ofList rest)).All fun _ => Woven allowed

theorem awaits_pushText {out : Rendered} {chars rest : List Char}
    (awaits : Awaits O.allowed out (chars ++ rest)) :
    Awaits O.allowed (out.pushText (String.ofList chars)) rest := by
  unfold Awaits Rendered.pushText at *
  rw [Rendered.push_push, ← String.ofList_append]
  exact awaits

theorem awaits_nil {out : Rendered} (awaits : Awaits O.allowed out []) : out.All O.woven.form := awaits

theorem awaits_of_all {out : Rendered} {rest : List Char} (all : out.All O.woven.form)
    (woven : Woven O.allowed rest) : Awaits O.allowed out rest := by
  refine Rendered.All.push woven_joins all (?_ : Woven O.allowed (String.ofList rest).toList)
  rw [String.toList_ofList]
  exact woven

/-- The text of a tag parts what is before it from what is behind it. -/
theorem awaits_tag {out : Rendered} {inside rest : List Char}
    (awaits : Awaits O.allowed out ('[' :: '[' :: inside ++ [']'] ++ rest)) :
    out.All O.woven.form ∧ Woven O.allowed rest := by
  have behind : ∀ before, Woven O.allowed (before ++ ('[' :: '[' :: inside ++ [']'] ++ rest)) →
      Woven O.allowed before ∧ Woven O.allowed rest := by
    intro before woven
    have shape : before ++ ('[' :: '[' :: inside ++ [']'] ++ rest) =
        before ++ '[' :: '[' :: (inside ++ ']' :: rest) := by simp
    have shape' : before ++ ('[' :: '[' :: inside ++ [']'] ++ rest) =
        (before ++ '[' :: '[' :: inside) ++ ']' :: rest := by simp
    exact ⟨(shape ▸ woven).cut_brackets.1, ((shape' ▸ woven).cut_stop (by decide)).1⟩
  unfold Awaits at awaits
  rcases Rendered.push_cases .text (String.ofList ('[' :: '[' :: inside ++ [']'] ++ rest)) out with
    ⟨none, -⟩ | ⟨last, older, rfl, joined⟩ | added
  · exact absurd (congrArg String.toList none) (by rw [String.toList_ofList]; simp)
  · rw [Rendered.pushText, joined] at awaits
    have first := awaits _ (List.mem_cons_self ..)
    dsimp only at first
    rw [String.toList_append, String.toList_ofList] at first
    obtain ⟨before, after⟩ := behind _ first
    refine ⟨fun s member => ?_, after⟩
    rcases List.mem_cons.mp member with rfl | member
    · exact before
    · exact awaits s (List.mem_cons_of_mem _ member)
  · rw [Rendered.pushText, added] at awaits
    have first := awaits _ (List.mem_cons_self ..)
    dsimp only at first
    rw [String.toList_ofList] at first
    exact ⟨fun s member => awaits s (List.mem_cons_of_mem _ member), (behind [] first).2⟩

/-- A literal stays as it is, and a tag gives woven text. -/
def Span.Yields (allowed : TagKind → String → Prop) (out : Rendered) : Span → Prop
  | .literal source _ => out = Rendered.ofText (String.ofList source)
  | .tag .. => out.All fun _ => Woven allowed

theorem awaits_span {span : Span} {out text : Rendered} {rest : List Char}
    (genuine : span.Genuine O.allowed) (yields : span.Yields O.allowed text)
    (awaits : Awaits O.allowed out (span.source ++ rest)) : Awaits O.allowed (out ++ text) rest := by
  cases genuine with
  | literal =>
    rw [yields, Rendered.append_ofText]
    exact awaits_pushText awaits
  | tag =>
    obtain ⟨all, behind⟩ := awaits_tag awaits
    exact awaits_of_all (all.append woven_joins yields) behind

/-- Parameters whose names open no tag and whose values are woven. -/
def Carries (allowed : TagKind → String → Prop) (params : Params) : Prop :=
  ∀ p ∈ params.entries, BracketFree p.1.toList ∧ Woven allowed p.2.toList

theorem paramChars_woven {p : String × String} (free : BracketFree p.1.toList)
    (woven : Woven O.allowed p.2.toList) : Woven O.allowed (Tag.paramChars p) := by
  rw [Tag.paramChars]
  refine .append (.plain (by decide) (.plain (by decide) (.append (.of_free free) ?_))) ?_
  · exact .plain (by decide) (.plain (by decide) woven)
  · exact .plain (by decide) .nil

/-- A tag that is written out again begins as it did. -/
theorem chars_woven {h : Head} (formed : h.WellFormed) (begins : O.allowed h.kind (String.ofList h.name))
    {params : Params} (carries : Carries O.allowed params) :
    Woven O.allowed (Tag.chars { kind := h.kind, name := String.ofList h.name, params }) := by
  have last : Woven O.allowed [']', ']'] := .plain (by decide) (.plain (by decide) .nil)
  obtain ⟨stop, rest, eq, stops, inside⟩ : ∃ (stop : Char) (rest : List Char),
      params.entries.flatMap Tag.paramChars ++ [']', ']'] = stop :: rest ∧
        Span.endsName stop = true ∧ Woven O.allowed (stop :: rest) := by
    have all : Woven O.allowed (params.entries.flatMap Tag.paramChars ++ [']', ']']) := by
      unfold Carries at carries
      generalize params.entries = entries at carries
      induction entries with
      | nil => exact last
      | cons p entries ih =>
        obtain ⟨free, woven⟩ := carries p (List.mem_cons_self ..)
        rw [List.flatMap_cons, List.append_assoc]
        have later := ih fun q member => carries q (List.mem_cons_of_mem _ member)
        exact (paramChars_woven free woven).append later
    cases entries : params.entries with
    | nil => exact ⟨']', [']'], rfl, by decide, last⟩
    | cons p more =>
      rw [entries] at all
      exact ⟨' ', _, rfl, by decide, all⟩
  have opened := @Woven.opens O.allowed { h with deferred := false } stop rest
    ⟨formed.named, formed.chars⟩ begins stops inside
  have same : Tag.chars { kind := h.kind, name := String.ofList h.name, params } =
      '[' :: '[' :: ({ h with deferred := false : Head }.chars ++ stop :: rest) := by
    rw [← eq]
    simp [Tag.chars, Head.chars]
  rw [same]
  exact opened

theorem dispatch_yields (dispatches : O.woven.Dispatches dispatch) {h : Head}
    (begins : O.allowed h.kind (String.ofList h.name)) {source : List Char}
    (woven : Woven O.allowed source) {params : Params} (carries : Carries O.allowed params) :
    O.woven.Traces (dispatch { kind := h.kind, name := String.ofList h.name, params } source)
      fun result => result.1.All O.woven.form := by
  have untouched : (Rendered.empty.pushVerbatim (String.ofList source)).All O.woven.form := by
    refine verbatim_woven ?_
    rw [String.toList_ofList]
    exact woven
  have values : O.woven.Values params := fun p member => (carries p member).2
  have placeholder : ∀ tag : Tag, tag.kind.isPlaceholder = true →
      O.woven.Traces (dispatch tag source) fun result => result.1.All O.woven.form := by
    intro tag kind
    refine (dispatches.placeholder tag source kind).weaken ?_
    rintro result ⟨value, wovenValue, same⟩
    rw [same]
    exact verbatim_woven wovenValue
  cases kind : h.kind with
  | placeholder => exact placeholder _ rfl
  | starred => exact placeholder _ rfl
  | chunk =>
    refine (dispatches.chunk _ source rfl (kind ▸ begins) values).weaken ?_
    rintro result (all | same)
    · exact all
    · rw [same]
      exact untouched
  | snippet =>
    refine (dispatches.snippet _ source rfl (kind ▸ begins)).weaken ?_
    rintro result ((none | ⟨name, -, chosen⟩) | same)
    · rw [none]
      exact .empty
    · rw [chosen]
      exact ofText_woven (Discipline.value_getD (D := O.woven) (fun _ => .nil) values name)
    · rw [same]
      exact untouched

mutual

theorem span_yields (dispatches : O.woven.Dispatches dispatch) : ∀ span : Span,
    span.Genuine O.allowed →
    O.woven.Traces (span.resolve dispatch) fun result => span.Yields O.allowed result.1
  | .literal source inner, genuine => by
    have spans : ∀ s ∈ inner, s.Genuine O.allowed := by
      cases genuine
      assumption
    rw [Span.resolve]
    exact Discipline.Traces.bind (Law.spans_obeyed dispatches.grows _ _) (fun _ => .pure _)
      (spans_trace dispatches inner false spans) fun _ _ => .pure rfl
  | .tag deferred kind name arguments source, genuine => by
    cases genuine with | @tag h _ inside formed begins given woven =>
    rw [Span.resolve]
    refine Discipline.Traces.bind (Law.arguments_obeyed dispatches.grows _ _ _) ?_
      (arguments_carry dispatches arguments {} false given fun p member => by cases member) ?_
    · rintro ⟨params, dirty⟩
      cases h.deferred with
      | true => exact .pure _
      | false => exact (dispatches.grows _ _).bind fun _ => .pure _
    · rintro ⟨params, dirty⟩ carries
      dsimp only at carries ⊢
      cases h.deferred with
      | true =>
        refine .pure (ofText_woven ?_)
        rw [String.toList_ofList]
        exact chars_woven formed begins carries
      | false =>
        exact Discipline.Traces.bind (dispatches.grows _ _) (fun _ => .pure _)
          (dispatch_yields dispatches begins woven carries) fun _ all => .pure all

theorem spans_trace (dispatches : O.woven.Dispatches dispatch) : ∀ (spans : List Span) (dirty : Bool),
    (∀ s ∈ spans, s.Genuine O.allowed) →
    O.woven.Traces (Span.visitAll dispatch spans dirty) fun _ => True
  | [], dirty, _ => by
    rw [Span.visitAll]
    exact .pure trivial
  | span :: rest, dirty, genuine => by
    have first := span_yields dispatches span (genuine span (List.mem_cons_self ..))
    rw [Span.visitAll]
    exact Discipline.Traces.bind (Law.span_obeyed dispatches.grows _)
      (fun _ => Law.spans_obeyed dispatches.grows _ _) first fun _ _ =>
        spans_trace dispatches rest _ fun s member => genuine s (List.mem_cons_of_mem _ member)

theorem arguments_carry (dispatches : O.woven.Dispatches dispatch) :
    ∀ (arguments : List Argument) (params : Params) (dirty : Bool),
      (∀ a ∈ arguments, a.Genuine O.allowed) → Carries O.allowed params →
      O.woven.Traces (Argument.resolveAll dispatch arguments params dirty)
        fun result => Carries O.allowed result.1
  | [], params, dirty, _, carries => by
    rw [Argument.resolveAll]
    exact .pure carries
  | .mk name value :: rest, params, dirty, genuine, carries => by
    have later := fun a member => genuine a (List.mem_cons_of_mem _ member)
    cases genuine _ (List.mem_cons_self ..) with | @mk chars _ free pieces woven =>
    have awaits : Awaits O.allowed {} (gistOf value) := awaits_of_all .empty woven
    rw [Argument.resolveAll]
    refine Discipline.Traces.bind (Law.pieces_obeyed dispatches.grows _ _ _)
      (fun _ => Law.arguments_obeyed dispatches.grows _ _ _)
      (pieces_yield dispatches value {} false pieces awaits) ?_
    rintro ⟨text, dirty'⟩ all
    refine arguments_carry dispatches rest _ _ later fun p member => ?_
    rcases Bindings.mem_of_mem_put member with rfl | old
    · refine ⟨?_, flatten_woven all⟩
      rw [String.toList_ofList]
      exact free
    · exact carries p old

theorem pieces_yield (dispatches : O.woven.Dispatches dispatch) :
    ∀ (pieces : List Piece) (out : Rendered) (dirty : Bool),
      (∀ p ∈ pieces, p.Genuine O.allowed) → Awaits O.allowed out (gistOf pieces) →
      O.woven.Traces (Piece.resolveAll dispatch pieces out dirty)
        fun result => result.1.All O.woven.form
  | [], out, dirty, _, awaits => by
    rw [Piece.resolveAll]
    exact .pure (awaits_nil awaits)
  | .text chars :: rest, out, dirty, genuine, awaits => by
    rw [Piece.resolveAll]
    exact pieces_yield dispatches rest _ _ (fun p member => genuine p (List.mem_cons_of_mem _ member))
      (awaits_pushText awaits)
  | .span span :: rest, out, dirty, genuine, awaits => by
    have here : span.Genuine O.allowed := by
      cases genuine _ (List.mem_cons_self ..)
      assumption
    rw [Piece.resolveAll]
    exact Discipline.Traces.bind (Law.span_obeyed dispatches.grows _)
      (fun _ => Law.pieces_obeyed dispatches.grows _ _ _) (span_yields dispatches span here)
      fun result yields => pieces_yield dispatches rest _ _
        (fun p member => genuine p (List.mem_cons_of_mem _ member)) (awaits_span here yields awaits)

end

/-- Reading woven text leaves woven text to be read again. -/
theorem woven_lawful (chunks : ∀ name text, O.allowed .chunk name → O.taken name →
    O.chunk? name = some text → Woven O.allowed text.toList) : O.woven.Lawful where
  joins := woven_joins
  blank _ := .nil
  chunk := chunks
  scan dispatch dispatches content out woven all := by
    have genuine := Piece.readAll_genuine content.toList [] woven
    have awaits : Awaits O.allowed out (gistOf (Piece.readAll content.toList)) := by
      rw [(Piece.readAll_formed content.toList).2]
      exact awaits_of_all all woven
    exact pieces_yield dispatches _ out false genuine awaits

end Resolving
end DocSite.Template
