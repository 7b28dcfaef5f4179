import DocSite.Proofs.Lookup
import DocSite.Proofs.Recognition
import DocSite.Proofs.Transcript

/-! The canonical form of a tag. It is read as the tag that it was written for, with the entities
in its values decoded. So it gives back tags without entities, and a tag that is put off and read
again has its values decoded once more. -/
namespace DocSite.Template

/-- No entity is in the text. -/
def EntityFree (chars : List Char) : Prop :=
  ¬ Span.nonBreakingSpace <:+: chars ∧ ¬ Span.ampersand <:+: chars

instance (chars : List Char) : Decidable (EntityFree chars) :=
  inferInstanceAs (Decidable (_ ∧ _))

theorem length_decode_le (chars : List Char) : (decode chars).length ≤ chars.length := by
  fun_induction decode chars with
  | case1 => exact Nat.le_refl _
  | case2 c rest _ ih =>
    rw [List.length_drop] at ih
    simp only [List.length_cons]
    omega
  | case3 c rest _ _ ih =>
    rw [List.length_drop] at ih
    simp only [List.length_cons]
    omega
  | case4 c rest _ _ ih => exact Nat.succ_le_succ ih

/-- An entity is longer than what it stands for. -/
theorem decode_entity_ne {entity : List Char} {c : Char} {rest : List Char}
    (found : entity <+: c :: rest) (long : 1 < entity.length) (d : Char) (n : Nat) :
    d :: decode (rest.drop (n + 1)) ≠ c :: rest := by
  intro same
  have within := found.length_le
  have shorter := length_decode_le (rest.drop (n + 1))
  rw [(List.cons.inj same).2, List.length_drop] at shorter
  rw [List.length_cons] at within
  omega

theorem decode_eq_self_iff {chars : List Char} : decode chars = chars ↔ EntityFree chars := by
  induction chars with
  | nil => exact iff_of_true (by rw [decode]) (by decide)
  | cons c rest ih =>
    rw [decode_cons]
    split
    · rename_i found
      have found := List.isPrefixOf_iff_prefix.mp found
      exact iff_of_false (decode_entity_ne found (by decide) _ _) fun free => free.1 found.isInfix
    · split
      · rename_i found
        have found := List.isPrefixOf_iff_prefix.mp found
        exact iff_of_false (decode_entity_ne found (by decide) _ _) fun free => free.2 found.isInfix
      · rename_i noSpace noAmpersand
        rw [List.isPrefixOf_iff_prefix] at noSpace noAmpersand
        have later : ∀ {entity : List Char}, ¬ entity <+: c :: rest →
            (entity <:+: c :: rest ↔ entity <:+: rest) := fun other => by
          rw [List.infix_cons_iff, or_iff_right other]
        rw [EntityFree, later noSpace, later noAmpersand, List.cons_inj_right]
        exact ih

namespace Tag

def head (tag : Tag) : Head := ⟨tag.deferred, tag.kind, tag.name.toList⟩

/-- The parameters as they are written. -/
def given (tag : Tag) : List (List Char × List Char) :=
  tag.params.entries.map fun p => (p.1.toList, p.2.toList)

/-- What the grammar asks of a tag. -/
structure WellFormed (tag : Tag) : Prop where
  head : tag.head.WellFormed
  params : ∀ p ∈ tag.params.entries, p.1.toList ≠ [] ∧ ∀ c ∈ p.1.toList, isParamChar c = true
  distinct : tag.params.Distinct
  placeholder : tag.kind = .placeholder → tag.params.entries = []

/-- The same tag with the entities in its values decoded. -/
def decoded (tag : Tag) : Tag :=
  { tag with params := ⟨tag.params.entries.map fun p => (p.1, String.ofList (decode p.2.toList))⟩ }

theorem decoded_eq_self_iff {tag : Tag} :
    tag.decoded = tag ↔ ∀ p ∈ tag.params.entries, EntityFree p.2.toList := by
  obtain ⟨deferred, kind, name, ⟨entries⟩⟩ := tag
  simp only [decoded, mk.injEq, Bindings.mk.injEq, true_and]
  induction entries with
  | nil => simp
  | cons p rest ih =>
    obtain ⟨n, v⟩ := p
    have value : String.ofList (decode v.toList) = v ↔ EntityFree v.toList := by
      rw [← decode_eq_self_iff, ← String.toList_inj, String.toList_ofList]
    rw [List.map_cons, List.forall_mem_cons, ← ih, ← value, List.cons.injEq, Prod.mk.injEq]
    simp

/-- The canonical form of a tag whose values hold no backtick is a text of the grammar. -/
theorem chars_spelled {tag : Tag} (formed : tag.WellFormed)
    (whole : ∀ p ∈ tag.params.entries, '\x60' ∉ p.2.toList) :
    Spells Quoted tag.head tag.given tag.chars := by
  have written : ∀ entries : List (String × String),
      (∀ p ∈ entries, p.1.toList ≠ [] ∧ ∀ c ∈ p.1.toList, isParamChar c = true) →
      (∀ p ∈ entries, '\x60' ∉ p.2.toList) →
      Parameters Quoted (entries.flatMap paramChars)
        (entries.map fun p => (p.1.toList, p.2.toList)) := by
    intro entries names whole
    induction entries with
    | nil => exact .none
    | cons p rest ih =>
      obtain ⟨⟨some, named⟩, names⟩ := List.forall_mem_cons.mp names
      obtain ⟨first, whole⟩ := List.forall_mem_cons.mp whole
      have param := Parameters.quoted false p.1.toList p.2.toList some named first (ih names whole)
      have blank : Parameters Quoted _ _ := .blank (c := ' ') (by decide) param
      have same : (p :: rest).flatMap paramChars = ' ' :: (paramLead false ++ p.1.toList ++
          '=' :: '\x60' :: (p.2.toList ++ '\x60' :: rest.flatMap paramChars)) := by
        simp [paramChars, paramLead]
      rw [same]
      exact blank
  have whole' : tag.chars = '[' :: '[' ::
      (tag.head.chars ++ (tag.params.entries.flatMap paramChars ++ [']', ']'])) := by
    rw [chars, Head.chars, head]
    simp
  rw [whole']
  refine .mk formed.head (.mk (written _ formed.params whole) (fun placeholder => ?_) .close)
  rw [given, formed.placeholder placeholder]
  rfl

theorem of_given {tag : Tag} (formed : tag.WellFormed) : Tag.of tag.head tag.given = tag.decoded := by
  have entries : tag.given.map parameter = tag.decoded.params.entries := by
    simp [given, decoded, parameter]
  have distinct : tag.decoded.params.Distinct := by
    have names : tag.decoded.params.entries.map Prod.fst = tag.params.entries.map Prod.fst := by
      simp [decoded]
    rw [Bindings.Distinct, names]
    exact formed.distinct
  have params := Bindings.ofList_entries distinct
  rw [← entries] at params
  rw [Tag.of, params]
  simp [head, decoded]

/-- Wherever it stands, the canonical form is read as the tag with its values decoded. -/
theorem chars_reread {tag : Tag} (formed : tag.WellFormed)
    (shut : ∀ p ∈ tag.params.entries, Sealed p.2.toList) (rest : List Char) :
    Begins tag.decoded tag.chars (tag.chars ++ rest) := by
  have spells := chars_spelled formed fun p member => (shut p member).backtick
  have shut' : ∀ p ∈ tag.given, Sealed p.2 := by
    rw [given]
    exact List.forall_mem_map.mpr shut
  rw [← of_given formed]
  exact begins_of_spells spells shut' rest

end Tag

theorem Span.IsTag.resolve {tag : Tag} {source : List Char} {span : Span} (is : span.IsTag tag source)
    {m : Type → Type} [Monad m] [LawfulMonad m] (dispatch : Dispatcher m) :
    Span.resolve dispatch span =
      if tag.deferred then pure (Rendered.ofText (toString tag.undeferred), true)
      else dispatch tag source := by
  obtain ⟨arguments, rfl, resolved⟩ := is
  rw [Span.resolve, resolved m dispatch, pure_bind]
  obtain ⟨deferred, kind, name, params⟩ := tag
  cases deferred with
  | true => rfl
  | false => simp

/-- A tag that its canonical form says all about. -/
structure Tag.Canonical (tag : Tag) : Prop extends tag.WellFormed where
  values : ∀ p ∈ tag.params.entries, '\x60' ∉ p.2.toList ∧ ¬ ['[', '['] <:+: p.2.toList ∧
    EntityFree p.2.toList

theorem Tag.Canonical.read {tag : Tag} (canonical : tag.Canonical) :
    ∃ span, Piece.readAll tag.chars = [.span span] ∧ span.IsTag tag tag.chars := by
  have shut : ∀ p ∈ tag.params.entries, Sealed p.2.toList := fun p member =>
    .of_closed (canonical.values p member).1 (canonical.values p member).2.1
  have same : tag.decoded = tag :=
    Tag.decoded_eq_self_iff.mpr fun p member => (canonical.values p member).2.2
  obtain ⟨span, is, read⟩ := Tag.chars_reread canonical.toWellFormed shut []
  have done : Piece.readAll [] = [] := by simp [Piece.readAll]
  rw [List.append_nil, List.drop_length, done] at read
  rw [same] at is
  exact ⟨span, read, is⟩

/-- A pass over the canonical form finds one tag, which takes all of it, and is the one that was
written. Deferred, it is written without its mark, and no dispatcher sees it. -/
theorem canonical_scanned (tag : Tag) (canonical : tag.Canonical) :
    (∃ span, Piece.readAll (toString tag).toList = [.span span] ∧
      span.IsTag tag (toString tag).toList) ∧
    ∀ (m : Type → Type) [Monad m] [LawfulMonad m] (dispatch : Dispatcher m) (out : Rendered),
      scanPass dispatch (toString tag) out =
        if tag.deferred then pure (out.pushText (toString tag.undeferred), true)
        else (do
          let (shown, resolved) ← dispatch tag (toString tag).toList
          pure (out ++ shown, resolved)) := by
  have text : (toString tag).toList = tag.chars := String.toList_ofList
  obtain ⟨span, read, is⟩ := canonical.read
  rw [text]
  refine ⟨⟨span, read, is⟩, fun m _ _ dispatch out => ?_⟩
  rw [scanPass, text, read, Piece.resolveAll, is.resolve]
  cases tag.deferred with
  | true =>
    simp only [if_true, pure_bind, Piece.resolveAll, Bool.false_or, Rendered.append_ofText]
  | false => simp only [Bool.false_eq_true, if_false, Piece.resolveAll, Bool.false_or]

/-- Its values end like `[[`, like an entity, or hold the end of a tag. -/
def awkward : Tag :=
  ⟨true, .chunk, "a/b.c", ⟨[("x", "]] &nbsp ["), ("y", "\n&am"), ("z_1", "[ é&")]⟩⟩

theorem awkward_scanned : awkward.Canonical ∧
    (∃ span, Piece.readAll (toString awkward).toList = [.span span] ∧
      span.IsTag awkward (toString awkward).toList) ∧
    scanPass counting (toString awkward) {} =
      pure (({} : Rendered).pushText (toString awkward.undeferred), true) := by
  have canonical : awkward.Canonical :=
    ⟨⟨by decide +kernel, by decide +kernel, by decide +kernel, by decide⟩, by decide +kernel⟩
  obtain ⟨one, scanned⟩ := canonical_scanned awkward canonical
  exact ⟨canonical, one, scanned _ counting {}⟩

end DocSite.Template
