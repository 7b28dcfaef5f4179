import DocSite.Proofs.Latest
import DocSite.Proofs.Literal
import DocSite.Proofs.Sealed

/-! Which tags a pass recognises. Where no value holds a `[[` these are the tags of the grammar,
each with the data that its text gives. -/
namespace DocSite.Template

/-- A parameter of a tag, from its name and its value as they are written. -/
def parameter (p : List Char × List Char) : String × String :=
  (String.ofList p.1, String.ofList (decode p.2))

/-- The text is that of this tag. Of a parameter that is given again the last value holds. -/
def Tag.SpelledBy (tag : Tag) (source : List Char) : Prop :=
  ∃ h given, Spells Quoted h given source ∧ tag.deferred = h.deferred ∧ tag.kind = h.kind ∧
    tag.name = String.ofList h.name ∧ Latest (given.map parameter) tag.params

/-- The tag that begins like this and is given these parameters. -/
def Tag.of (h : Head) (given : List (List Char × List Char)) : Tag :=
  ⟨h.deferred, h.kind, String.ofList h.name, Bindings.ofList (given.map parameter)⟩

theorem Tag.spelledBy_iff {tag : Tag} {source : List Char} :
    tag.SpelledBy source ↔ ∃ h given, Spells Quoted h given source ∧ tag = .of h given := by
  constructor
  · rintro ⟨h, given, spells, deferred, kind, name, latest⟩
    refine ⟨h, given, spells, ?_⟩
    have params := Bindings.eq_ofList_of_latest latest
    cases tag
    exact Tag.mk.injEq .. ▸ ⟨deferred, kind, name, params⟩
  · rintro ⟨h, given, spells, rfl⟩
    exact ⟨h, given, spells, rfl, rfl, rfl, Bindings.latest_ofList _⟩

/-- The span is read as this tag, whatever the dispatcher, from the text `source`. -/
def Span.IsTag (tag : Tag) (source : List Char) (span : Span) : Prop :=
  ∃ arguments, span = .tag tag.deferred tag.kind tag.name arguments source ∧
    ∀ (m : Type → Type) [Monad m] [LawfulMonad m] (dispatch : Dispatcher m),
      Argument.resolveAll dispatch arguments {} false = pure (tag.params, false)

/-- A pass over the text begins with this tag, written as `source`, and goes on behind it. -/
def Begins (tag : Tag) (source text : List Char) : Prop :=
  ∃ span, span.IsTag tag source ∧
    Piece.readAll text = .span span :: Piece.readAll (text.drop source.length)

section Inert

variable {m : Type → Type} [Monad m] [LawfulMonad m]

theorem resolveAll_inert (dispatch : Dispatcher m) {pieces : List Piece}
    (inert : ∀ p ∈ pieces, p.Inert) (out : Rendered) (dirty : Bool) :
    Piece.resolveAll dispatch pieces out dirty =
      pure (out.pushText (String.ofList (gistOf pieces)), dirty) := by
  induction pieces generalizing out with
  | nil =>
    rw [Piece.resolveAll]
    rfl
  | cons piece rest ih =>
    obtain ⟨first, later⟩ := List.forall_mem_cons.mp inert
    have joined : ∀ chars, (out.pushText (String.ofList chars)).pushText (String.ofList (gistOf rest)) =
        out.pushText (String.ofList (chars ++ gistOf rest)) := by
      intro chars
      rw [String.ofList_append]
      exact Rendered.push_push ..
    cases first with
    | text =>
      rw [Piece.resolveAll, ih later, joined]
      rfl
    | literal =>
      rw [Piece.resolveAll, Span.resolve, Span.visitAll]
      simp only [pure_bind, Bool.or_false]
      rw [ih later, Rendered.append_ofText, joined]
      rfl

theorem resolveAll_stand (dispatch : Dispatcher m) {arguments : List Argument}
    {given : List (List Char × List Char)} (stand : Stand arguments given) (params : Params)
    (dirty : Bool) : Argument.resolveAll dispatch arguments params dirty =
      pure (params.extend (given.map parameter), dirty) := by
  induction stand generalizing params with
  | none => rw [Argument.resolveAll]; rfl
  | @param name value pieces arguments given inert gist _ ih =>
    have shown : (({} : Rendered).pushText (String.ofList (gistOf pieces))).flatten =
        String.ofList (decode value) := by
      rw [gist]
      exact Rendered.flatten_ofText _
    rw [Argument.resolveAll, resolveAll_inert dispatch inert]
    simp only [pure_bind, Bool.or_false]
    rw [ih, shown]
    rfl

end Inert

theorem readAll_brackets (s : List Char) : Piece.readAll ('[' :: '[' :: s) =
    .span (Span.read s).1 :: Piece.readAll (s.drop (Span.read s).2) := by
  rw [Piece.readAll.eq_def]
  simp

/-- Whatever follows it, a text of the grammar whose values are sealed is read as its tag. -/
theorem begins_of_spells {h : Head} {given : List (List Char × List Char)} {source : List Char}
    (spells : Spells Quoted h given source) (shut : ∀ p ∈ given, Sealed p.2) (rest : List Char) :
    Begins (.of h given) source (source ++ rest) := by
  obtain ⟨inner, arguments, rfl, stand, read⟩ :=
    Span.reader_spells spells shut (Span.maxNesting - 1) rest
  refine ⟨_, ⟨arguments, rfl, fun m _ _ dispatch => resolveAll_stand dispatch stand {} false⟩, ?_⟩
  have found : Span.read (inner ++ rest) = _ := read
  rw [List.cons_append, List.cons_append, readAll_brackets, found]
  dsimp only
  rw [List.drop_left]
  exact congrArg (fun behind => _ :: Piece.readAll behind) List.drop_left.symm

/-- A pass begins with one tag at most. -/
theorem Begins.unique {tag other : Tag} {source source' text : List Char}
    (begins : Begins tag source text) (begins' : Begins other source' text) :
    tag = other ∧ source = source' := by
  obtain ⟨span, ⟨arguments, rfl, resolved⟩, read⟩ := begins
  obtain ⟨span', ⟨arguments', rfl, resolved'⟩, read'⟩ := begins'
  have same := (List.cons.inj (read.symm.trans read')).1
  simp only [Piece.span.injEq, Span.tag.injEq] at same
  obtain ⟨deferred, kind, name, rfl, source⟩ := same
  let dispatch : Dispatcher Id := fun _ _ => pure ({}, false)
  have params : tag.params = other.params :=
    congrArg Prod.fst ((resolved Id dispatch).symm.trans (resolved' Id dispatch))
  refine ⟨?_, source⟩
  cases tag
  cases other
  exact Tag.mk.injEq .. ▸ ⟨deferred, kind, name, params⟩

/-- No value that is quoted in the parameters behind `[[` holds a `[[`. -/
def PlainValues (text : List Char) : Prop :=
  ∀ (h : Head) (params : List Char) (given : List (List Char × List Char)) (rest : List Char),
    h.WellFormed → Parameters Quoted params given → (h.kind = .placeholder → given = []) →
    text = '[' :: '[' :: (h.chars ++ params ++ rest) → ∀ p ∈ given, ¬ ['[', '['] <:+: p.2

theorem closed_of_parameters {params : List Char} {given : List (List Char × List Char)}
    (written : Parameters Quoted params given) : ∀ p ∈ given, p.2 ++ ['\x60'] <:+: params := by
  induction written with
  | none => exact fun p member => by cases member
  | blank _ _ ih => exact fun p member => (ih p member).trans (List.suffix_cons ..).isInfix
  | nonBreaking _ ih => exact fun p member => (ih p member).trans (List.suffix_append ..).isInfix
  | @param name chars rest value given entity _ _ quoted _ ih =>
    obtain ⟨-, rfl⟩ := quoted
    have whole : paramLead entity ++ name ++ '=' :: '\x60' :: (value ++ '\x60' :: rest) =
        paramLead entity ++ name ++ ['=', '\x60'] ++ (value ++ ['\x60']) ++ rest := by simp
    rw [whole]
    refine List.forall_mem_cons.mpr ⟨List.infix_append .., fun p member => ?_⟩
    exact (ih p member).trans (List.suffix_append ..).isInfix

/-- No value is quoted behind the last backtick. -/
theorem plainValues_of_front {front back : List Char} (closed : ¬ ['[', '['] <:+: front)
    (last : '\x60' ∉ back) : PlainValues ('[' :: '[' :: (front ++ back)) := by
  intro h params given rest _ written _ split p member opens
  obtain ⟨before, after, inside⟩ := closed_of_parameters written p member
  have whole : h.chars ++ before ++ p.2 ++ '\x60' :: (after ++ rest) = front ++ back := by
    have behind := (List.cons.inj (List.cons.inj split).2).2
    rw [behind, ← inside]
    simp
  refine closed (opens.trans ?_)
  rcases List.append_eq_append_iff.mp whole with ⟨more, rfl, -⟩ | ⟨more, -, behind⟩
  · exact ⟨h.chars ++ before, more, rfl⟩
  · exact absurd (behind ▸ List.mem_append_right _ (List.mem_cons_self ..)) last

section Opened

variable {formed : Span → Prop}

/-- Only a span brings a backtick into a value, and it opens before the backtick. -/
theorem opens_before_backtick (opened : ∀ span, formed span → ['[', '['] <+: span.source)
    {chars : List Char} {pieces : List Piece} (text : ValueText formed chars pieces)
    {before after : List Char} (split : chars = before ++ '\x60' :: after) (first : '\x60' ∉ before) :
    ['[', '['] <:+: before := by
  have later : ∀ {before front rest : List Char}, '\x60' ∉ before → '\x60' ∉ front →
      front ++ rest = before ++ '\x60' :: after →
      (∀ {more}, rest = more ++ '\x60' :: after → '\x60' ∉ more → ['[', '['] <:+: more) →
      ['[', '['] <:+: before := by
    intro before front rest first apart whole inside
    obtain ⟨more, rfl, behind⟩ := split_apart apart whole
    exact (inside behind fun member => first (List.mem_append_right _ member)).trans
      (List.suffix_append ..).isInfix
  induction text generalizing before with
  | none => cases before <;> cases split
  | text plain _ ih => exact later first plain split ih
  | nonBreaking _ ih => exact later first (by decide) split ih
  | ampersand _ ih => exact later first (by decide) split ih
  | @span span rest pieces here _ ih =>
    obtain ⟨inside, source⟩ := opened span here
    rw [← source, List.append_assoc] at split
    obtain ⟨more, rfl, -⟩ := split_apart (by decide) split
    exact List.infix_append' [] ['[', '['] more

/-- Values that are read between backticks are quoted where the quoted ones hold no `[[`. -/
theorem quoted_of_parameters (opened : ∀ span, formed span → ['[', '['] <+: span.source)
    {params ending : List Char} {given : List (List Char × List Piece)}
    (read : Parameters (ValueText formed) params given)
    (plain : ∀ before quoted after, Parameters Quoted before quoted →
      (given = [] → quoted = []) → params ++ ending = before ++ after →
      ∀ p ∈ quoted, ¬ ['[', '['] <:+: p.2) :
    ∃ quoted, Parameters Quoted params quoted ∧ (given = [] → quoted = []) := by
  induction read with
  | none => exact ⟨[], .none, fun _ => rfl⟩
  | @blank c rest given blank _ ih =>
    obtain ⟨quoted, written, few⟩ := ih fun before quoted after written few split =>
      plain (c :: before) quoted after (.blank blank written) few (congrArg (List.cons c) split)
    exact ⟨quoted, .blank blank written, few⟩
  | @nonBreaking rest given _ ih =>
    obtain ⟨quoted, written, few⟩ := ih fun before quoted after written few split => by
      refine plain _ quoted after (.nonBreaking written) few ?_
      rw [List.append_assoc, List.append_assoc, split]
    exact ⟨quoted, .nonBreaking written, few⟩
  | @param name chars rest pieces given entity named names text _ ih =>
    have whole : '\x60' ∉ chars := by
      intro member
      obtain ⟨before, after, split, first⟩ := List.eq_append_cons_of_mem member
      have inside := opens_before_backtick opened text split first
      refine plain _ [(name, before)] (after ++ '\x60' :: rest ++ ending)
        (.param entity named names ⟨first, rfl⟩ .none) (fun none => by cases none) ?_ _
        (List.mem_cons_self ..) inside
      rw [split]
      simp
    obtain ⟨quoted, written, few⟩ := ih fun before quoted after written few split p member => by
      refine plain _ ((name, chars) :: quoted) after (.param entity named names ⟨whole, rfl⟩ written)
        (fun none => by cases none) ?_ p (List.mem_cons_of_mem _ member)
      simp only [List.append_assoc, List.cons_append, split]
    exact ⟨_, .param entity named names ⟨whole, rfl⟩ written, fun none => by cases none⟩

end Opened

theorem formed_opens (depth : Nat) (span : Span) (formed : span.Formed depth) :
    ['[', '['] <+: span.source := by
  cases depth <;> cases formed with
  | literal => exact ⟨_, rfl⟩
  | tag spells =>
    cases spells
    exact ⟨_, rfl⟩

theorem backtick_of_quoted {params : List Char} {given : List (List Char × List Char)}
    (written : Parameters Quoted params given) : ∀ p ∈ given, '\x60' ∉ p.2 := by
  induction written with
  | none => exact fun p member => by cases member
  | blank _ _ ih => exact ih
  | nonBreaking _ ih => exact ih
  | param _ _ _ quoted _ ih =>
    obtain ⟨whole, rfl⟩ := quoted
    exact List.forall_mem_cons.mpr ⟨whole, ih⟩

theorem sealed_of_spells {text : List Char} (plain : PlainValues text) {h : Head}
    {given : List (List Char × List Char)} {source : List Char} (spells : Spells Quoted h given source)
    (within : source <+: text) : ∀ p ∈ given, Sealed p.2 := by
  obtain ⟨rest, rfl⟩ := within
  obtain @⟨_, formed, follows⟩ := spells
  obtain @⟨params, ending, written, few, -⟩ := follows
  refine fun p member => .of_closed (backtick_of_quoted written p member) ?_
  refine plain h params given (ending ++ rest) formed written few ?_ p member
  simp

/-- A tag that is read is one of the grammar. -/
theorem spells_of_read {s : List Char} (plain : PlainValues ('[' :: '[' :: s)) {deferred : Bool}
    {kind : TagKind} {name : String} {arguments : List Argument} {source : List Char}
    (read : (Span.read s).1 = .tag deferred kind name arguments source) :
    source <+: '[' :: '[' :: s ∧ ∃ h given, Spells Quoted h given source := by
  obtain ⟨formed, taken⟩ := Span.reader_finds (Span.maxNesting - 1) s
  change (Span.read s).1.Formed _ at formed
  change (Span.read s).1.source = _ at taken
  rw [read] at formed taken
  obtain ⟨rest, whole⟩ : source <+: '[' :: '[' :: s := by
    rw [show source = _ from taken]
    exact (List.prefix_cons_inj _).mpr ((List.prefix_cons_inj _).mpr (List.take_prefix _ s))
  refine ⟨⟨rest, whole⟩, ?_⟩
  obtain ⟨nested, h, given, below, spells, -⟩ := Span.spelled_of_formed formed
  have opened : ∀ span, nested span → ['[', '['] <+: span.source := by
    intro span inside
    obtain ⟨depth, formed⟩ := below span inside
    exact formed_opens depth span formed
  obtain @⟨_, wellFormed, follows⟩ := spells
  obtain @⟨params, ending, written, few, ends⟩ := follows
  obtain ⟨quoted, quotes, fewer⟩ := @quoted_of_parameters _ opened params (ending ++ rest)
    given written fun before quoted after quotes fewer same p member => by
      refine plain h before quoted after wellFormed quotes (fun kind => fewer (few kind)) ?_ p member
      rw [← whole, List.append_assoc h.chars before, ← same]
      simp
  exact ⟨h, quoted, .mk wellFormed (.mk quotes (fun kind => fewer (few kind)) ends)⟩

section Plain

variable {s : List Char} (plain : PlainValues ('[' :: '[' :: s))

include plain

theorem begins_of_spelledBy {tag : Tag} {source : List Char} (within : source <+: '[' :: '[' :: s)
    (spelled : tag.SpelledBy source) : Begins tag source ('[' :: '[' :: s) := by
  obtain ⟨h, given, spells, rfl⟩ := Tag.spelledBy_iff.mp spelled
  have shut := sealed_of_spells plain spells within
  obtain ⟨rest, whole⟩ := within
  rw [← whole]
  exact begins_of_spells spells shut rest

theorem spelledBy_of_begins {tag : Tag} {source : List Char}
    (begins : Begins tag source ('[' :: '[' :: s)) :
    source <+: '[' :: '[' :: s ∧ tag.SpelledBy source := by
  obtain ⟨span, ⟨arguments, same, -⟩, read⟩ := id begins
  rw [readAll_brackets] at read
  have found := Piece.span.inj (List.cons.inj read).1
  rw [same] at found
  obtain ⟨within, h, given, spells⟩ := spells_of_read plain found
  -- The tag of the grammar is read from this text too, and only one is.
  have known : (Tag.of h given).SpelledBy source := Tag.spelledBy_iff.mpr ⟨h, given, spells, rfl⟩
  obtain ⟨rfl, -⟩ := begins.unique (begins_of_spelledBy plain within known)
  exact ⟨within, known⟩

theorem literal_of_unspelled
    (none : ∀ (tag : Tag) (source : List Char), source <+: '[' :: '[' :: s → ¬ tag.SpelledBy source) :
    ∃ source inner, source <+: '[' :: '[' :: s ∧ Piece.readAll ('[' :: '[' :: s) =
      .span (.literal source inner) :: Piece.readAll (('[' :: '[' :: s).drop source.length) := by
  obtain ⟨-, taken⟩ := Span.reader_finds (Span.maxNesting - 1) s
  change (Span.read s).1.source = '[' :: '[' :: s.take (Span.read s).2 at taken
  rw [readAll_brackets]
  cases read : (Span.read s).1 with
  | tag deferred kind name arguments source =>
    obtain ⟨within, h, given, spells⟩ := spells_of_read plain read
    exact absurd (Tag.spelledBy_iff.mpr ⟨h, given, spells, rfl⟩) (none _ _ within)
  | literal source inner =>
    rw [read] at taken
    generalize (Span.read s).2 = width at taken
    obtain rfl : source = '[' :: '[' :: s.take width := taken
    refine ⟨'[' :: '[' :: s.take width, inner, ?_, ?_⟩
    · exact (List.prefix_cons_inj _).mpr ((List.prefix_cons_inj _).mpr (List.take_prefix width s))
    · have behind := @List.drop_left _ (s.take width) (s.drop width)
      rw [List.take_append_drop] at behind
      exact congrArg (fun after => _ :: Piece.readAll after) behind.symm

end Plain

/-- A pass begins with a tag just when the text begins with one of the grammar, which it then is.
Otherwise the text that `[[` opens is literal. -/
theorem begins_iff_spelledBy (s : List Char) (plain : PlainValues ('[' :: '[' :: s)) :
    (∀ (tag : Tag) (source : List Char), Begins tag source ('[' :: '[' :: s) ↔
      source <+: '[' :: '[' :: s ∧ tag.SpelledBy source) ∧
    ((∀ (tag : Tag) (source : List Char), source <+: '[' :: '[' :: s → ¬ tag.SpelledBy source) →
      ∃ source inner, source <+: '[' :: '[' :: s ∧ Piece.readAll ('[' :: '[' :: s) =
        .span (.literal source inner) :: Piece.readAll (('[' :: '[' :: s).drop source.length)) := by
  constructor
  · intro tag source
    constructor
    · exact spelledBy_of_begins plain
    · rintro ⟨within, spelled⟩
      exact begins_of_spelledBy plain within spelled
  · exact literal_of_unspelled plain

namespace Banner

/-- Parameters of which one is given again, with an entity that stands for an entity. -/
def params : List Char := " &amp;text=`1`&nbsp;&to=`[ ]]`\n&text=`x&nbsp;&amp;amp;y`".toList

def given : List (List Char × List Char) :=
  [("text".toList, "1".toList), ("to".toList, "[ ]]".toList),
    ("text".toList, "x&nbsp;&amp;amp;y".toList)]

def head : Head := ⟨true, .chunk, "page/cta".toList⟩

def source : List Char := '[' :: '[' :: (head.chars ++ (params ++ [']', ']']))

def tag : Tag := ⟨true, .chunk, "page/cta", ⟨[("text", "x &amp;y"), ("to", "[ ]]")]⟩⟩

theorem spells : Spells Quoted head given source := by
  have last := Parameters.quoted false "text".toList "x&nbsp;&amp;amp;y".toList (by decide)
    (by decide) (by decide) .none
  have middle := Parameters.quoted false "to".toList "[ ]]".toList (by decide) (by decide)
    (by decide) (.blank (c := '
') (by decide) last)
  have first := Parameters.quoted true "text".toList "1".toList (by decide) (by decide)
    (by decide) (.nonBreaking middle)
  have written : Parameters Quoted params given := .blank (by decide) first
  exact .mk ⟨by decide, by decide⟩ (.mk written (by decide) .close)

end Banner

open Banner in
theorem banner_recognised : PlainValues (source ++ " [[+z".toList) ∧ tag.SpelledBy source ∧
    Begins tag source (source ++ " [[+z".toList) := by
  have plain : PlainValues (source ++ " [[+z".toList) :=
    @plainValues_of_front (source.drop 2) " [[+z".toList (by decide +kernel) (by decide)
  have known : tag.SpelledBy source := Tag.spelledBy_iff.mpr ⟨head, given, spells, by decide +kernel⟩
  exact ⟨plain, known,
    ((begins_iff_spelledBy _ plain).1 tag source).mpr ⟨List.prefix_append .., known⟩⟩

end DocSite.Template
