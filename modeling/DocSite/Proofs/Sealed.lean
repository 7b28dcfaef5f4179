import DocSite.Proofs.Grammar
import DocSite.Proofs.Woven

/-! Values that stand between backticks as they are: what is read from one is its own text, with
its entities decoded, whatever the dispatcher and whatever follows it. -/
namespace DocSite.Template

/-- Behind `[[`, the text goes on as that of a tag does up to the character behind the name. -/
def BeginsTag (s : List Char) : Prop :=
  ∃ (h : Head) (stop : Char) (rest : List Char), h.WellFormed ∧ Span.endsName stop = true ∧
    s = h.chars ++ stop :: rest

/-- The text ends no value and begins no tag. -/
structure Sealed (chars : List Char) : Prop where
  backtick : '\x60' ∉ chars
  begins : ∀ before after, chars = before ++ '[' :: '[' :: after → ¬ BeginsTag after

theorem Sealed.of_append {a b : List Char} (whole : Sealed (a ++ b)) : Sealed b where
  backtick member := whole.backtick (List.mem_append_right a member)
  begins before after same := by
    refine whole.begins (a ++ before) after ?_
    rw [same, List.append_assoc]

/-- Where no `[[` is there is no beginning of a tag. -/
theorem Sealed.of_closed {chars : List Char} (backtick : '\x60' ∉ chars)
    (closed : ¬ ['[', '['] <:+: chars) : Sealed chars where
  backtick := backtick
  begins before after same := by
    refine absurd ⟨before, after, ?_⟩ closed
    rw [same, List.append_assoc]
    rfl

/-- A piece that no dispatcher has a say in. -/
inductive Piece.Inert : Piece → Prop where
  | text {chars : List Char} : Piece.Inert (.text chars)
  | literal {source : List Char} : Piece.Inert (.span (.literal source []))

namespace Head

/-- No character that may begin a tag ends a value or begins an entity. -/
theorem chars_free {h : Head} (chars : ∀ c ∈ h.name, isNameChar c = true) :
    '\x60' ∉ h.chars ∧ '&' ∉ h.chars := by
  have outside : ∀ c, c ≠ '!' → c ∉ ['+', '*', '$'] → isNameChar c = false → c ∉ h.chars := by
    intro c mark sigil name member
    rcases mem_chars member with same | same | named
    · exact mark same
    · exact sigil same
    · exact absurd (chars c named) (by simp [name])
  exact ⟨outside _ (by decide) (by decide) (by decide), outside _ (by decide) (by decide) (by decide)⟩

end Head

namespace Span

/-- What is read of a value whose text is all its own. -/
structure ValueReading.Keeps (chars : List Char) (r : ValueReading) : Prop where
  closed : r.closed = true
  width : r.width = chars.length + 1
  inert : ∀ p ∈ r.pieces, p.Inert
  gist : gistOf r.pieces = decode chars

theorem ValueReading.Keeps.after {chars whole : List Char} {piece : Piece} {width : Nat}
    {r : ValueReading} (more : r.Keeps chars) (inert : piece.Inert)
    (length : whole.length = width + chars.length)
    (decoded : decode whole = piece.gist ++ decode chars) : (r.after piece width).Keeps whole where
  closed := more.closed
  width := by
    change width + r.width = _
    rw [more.width, length, Nat.add_assoc]
  inert := List.forall_mem_cons.mpr ⟨inert, more.inert⟩
  gist := by
    change piece.gist ++ gistOf r.pieces = _
    rw [more.gist, decoded]

theorem decode_brackets (rest : List Char) : decode ('[' :: '[' :: rest) = '[' :: '[' :: decode rest :=
  @decode_append_plain ['[', '['] (by decide) rest

theorem decode_nonBreaking (rest : List Char) :
    decode (nonBreakingSpace ++ rest) = ' ' :: decode rest := by
  rw [nonBreakingSpace, List.cons_append, decode_cons]
  simp [nonBreakingSpace]

theorem decode_ampersand (rest : List Char) : decode (ampersand ++ rest) = '&' :: decode rest := by
  rw [ampersand, List.cons_append, decode_cons]
  simp [nonBreakingSpace, ampersand, List.isPrefixOf]

theorem readValue_brackets (nested : Option Reader) (s : List Char) :
    readValue nested ('[' :: '[' :: s) = match nested with
      | none => (readValue none s).after (.text ['[', '[']) 2
      | some read => (readValue nested (s.drop (read s).2)).after (.span (read s).1) (2 + (read s).2) := by
  rw [readValue.eq_def]
  cases nested <;> simp

section Ends

variable {nested : Option Reader} {rest : List Char}

/-- Every end of the value that is shorter than it is read as its own text. -/
def KeepsEnds (nested : Option Reader) (rest chars : List Char) : Prop :=
  ∀ front behind, chars = front ++ behind → front ≠ [] →
    (readValue nested (behind ++ '\x60' :: rest)).Keeps behind

/-- Brackets that begin no tag stay as they are, with the characters behind them that might have
begun one. -/
theorem readValue_opened (readers : ∀ read, nested = some read → ∃ value, read = readWith value)
    {after : List Char} (begins : ¬ BeginsTag after)
    (ends : KeepsEnds nested rest ('[' :: '[' :: after)) :
    (readValue nested ('[' :: '[' :: (after ++ '\x60' :: rest))).Keeps ('[' :: '[' :: after) := by
  rw [readValue_brackets]
  cases nested with
  | none =>
    have behind := ends ['[', '['] after rfl (by decide)
    exact behind.after .text (Nat.add_comm _ 2) (decode_brackets after)
  | some read =>
    obtain ⟨value, rfl⟩ := readers read rfl
    obtain ⟨h, r, named, split, unread⟩ := readWith_split value (after ++ '\x60' :: rest)
    obtain ⟨last, rfl, rfl⟩ := split_apart (Head.chars_free named).1 split.symm
    have none : h.name = [] ∨ (last ++ '\x60' :: rest).head?.any endsName = false := by
      refine Decidable.or_iff_not_imp_left.mpr fun some => ?_
      cases last with
      | nil => rfl
      | cons stop last =>
        cases stops : endsName stop with
        | false => exact stops
        | true => exact absurd ⟨h, stop, last, ⟨some, named⟩, stops, rfl⟩ begins
    have whole : '[' :: '[' :: (h.chars ++ last) = ('[' :: '[' :: h.chars) ++ last := rfl
    have plain : ∀ c ∈ '[' :: '[' :: h.chars, c ≠ '&' := by
      rintro c member rfl
      simp at member
      exact (Head.chars_free named).2 member
    have behind := ends ('[' :: '[' :: h.chars) last whole (List.cons_ne_nil _ _)
    dsimp only
    rw [unread none, split, List.drop_left]
    refine behind.after .literal ?_ ?_
    · simp
      omega
    · rw [whole]
      exact decode_append_plain plain last

/-- Anything else is an entity, or a run of characters that stand for themselves. -/
theorem readValue_unopened {c : Char} {more : List Char} (backtick : c ≠ '\x60')
    (brackets : ¬ (c = '[' ∧ more.head? = some '[')) (ends : KeepsEnds nested rest (c :: more)) :
    (readValue nested (c :: (more ++ '\x60' :: rest))).Keeps (c :: more) := by
  have brackets' : ¬ (c = '[' ∧ (more ++ '\x60' :: rest).head? = some '[') := by
    rintro ⟨rfl, next⟩
    cases more with
    | nil => cases next
    | cons d more => exact brackets ⟨rfl, next⟩
  -- The closing backtick is in no entity and in no run, so what is behind it does not matter.
  have nbsp := @isPrefixOf_append_stop nonBreakingSpace '\x60' (by decide) (c :: more) rest
  have amp := @isPrefixOf_append_stop ampersand '\x60' (by decide) (c :: more) rest
  rw [List.cons_append] at nbsp amp
  rw [readValue_cons _ backtick brackets', nbsp, amp, takeWhile_append_stop (by decide)]
  split
  · rename_i found
    obtain ⟨rfl, entity⟩ := entity_eq found
    generalize List.drop _ more = behind at entity
    subst entity
    have keeps := ends nonBreakingSpace behind rfl (by decide)
    exact keeps.after .text (Nat.add_comm _ 6) (decode_nonBreaking behind)
  · split
    · rename_i found
      obtain ⟨rfl, entity⟩ := entity_eq found
      generalize List.drop _ more = behind at entity
      subst entity
      have keeps := ends ampersand behind rfl (by decide)
      exact keeps.after .text (Nat.add_comm _ 5) (decode_ampersand behind)
    · rename_i noSpace noAmpersand
      have run := run_eq isPlain more
      have plain : ∀ d ∈ more.takeWhile isPlain, d ≠ '&' := by
        rintro d member rfl
        exact absurd (List.all_eq_true.mp List.all_takeWhile _ member) (by decide)
      have decoded : decode (c :: more) = c :: decode more := by
        rw [decode_cons, if_neg noSpace, if_neg noAmpersand]
      generalize more.takeWhile isPlain = taken at run plain
      generalize List.drop _ more = behind at run
      subst run
      rw [List.append_assoc, List.drop_left]
      have keeps := ends (c :: taken) behind rfl (List.cons_ne_nil _ _)
      refine keeps.after .text ?_ ?_
      · simp
        omega
      · rw [decoded, decode_append_plain plain]
        rfl

/-- By induction on the length of the value: what is read first leaves a sealed rest. -/
theorem readValue_sealed (readers : ∀ read, nested = some read → ∃ value, read = readWith value)
    {chars : List Char} (shut : Sealed chars) (rest : List Char) :
    (readValue nested (chars ++ '\x60' :: rest)).Keeps chars := by
  induction n : chars.length using Nat.strongRecOn generalizing chars with
  | ind n ih =>
    subst n
    have ends : KeepsEnds nested rest chars := by
      intro front behind same some
      subst same
      refine ih _ ?_ shut.of_append rfl
      rw [List.length_append]
      exact Nat.lt_add_of_pos_left (List.length_pos_iff.mpr some)
    match chars with
    | [] =>
      have ended : readValue nested ('\x60' :: rest) = ⟨[], true, 1⟩ := by
        rw [readValue.eq_def]
        rfl
      rw [List.nil_append, ended]
      exact ⟨rfl, rfl, fun _ member => (by cases member), by rw [decode]; rfl⟩
    | c :: more =>
      by_cases brackets : c = '[' ∧ more.head? = some '['
      · obtain ⟨rfl, next⟩ := brackets
        obtain ⟨after, rfl⟩ := List.head?_eq_some_iff.mp next
        exact readValue_opened readers (shut.begins [] after rfl) ends
      · refine readValue_unopened ?_ brackets ends
        rintro rfl
        exact shut.backtick (List.mem_cons_self ..)

end Ends

theorem valueReader_sealed (depth : Nat) {chars : List Char} (shut : Sealed chars)
    (rest : List Char) : (valueReader depth (chars ++ '\x60' :: rest)).Keeps chars := by
  cases depth with
  | zero => exact readValue_sealed (fun _ none => by cases none) shut rest
  | succ depth =>
    refine readValue_sealed (fun read same => ?_) shut rest
    cases same
    exact ⟨valueReader depth, reader_eq depth⟩

end Span

/-- A value as it is written, up to its closing backtick. -/
def Quoted (chars value : List Char) : Prop := '\x60' ∉ chars ∧ value = chars

theorem Parameters.quoted {rest : List Char} {given : List (List Char × List Char)} (entity : Bool)
    (name value : List Char) (some : name ≠ []) (named : ∀ c ∈ name, isParamChar c = true)
    (whole : '\x60' ∉ value) (more : Parameters Quoted rest given) :
    Parameters Quoted (paramLead entity ++ name ++ '=' :: '\x60' :: (value ++ '\x60' :: rest))
      ((name, value) :: given) :=
  .param entity some named ⟨whole, rfl⟩ more

/-- Parameters as they are read from their names and values, whatever the dispatcher. -/
inductive Stand : List Argument → List (List Char × List Char) → Prop where
  | none : Stand [] []
  | param {name value : List Char} {pieces : List Piece} {arguments : List Argument}
    {given : List (List Char × List Char)} : (∀ p ∈ pieces, p.Inert) → gistOf pieces = decode value →
    Stand arguments given → Stand (.mk (String.ofList name) pieces :: arguments) ((name, value) :: given)

namespace Span

theorem closeWidth?_of_first {chars : List Char} (first : ¬ [']', ']'] <:+: chars ++ [']'])
    (rest : List Char) : closeWidth? (chars ++ ']' :: ']' :: rest) = some (chars.length + 2) := by
  induction chars with
  | nil => simp [closeWidth?]
  | cons c chars ih =>
    have open' : ¬ (c = ']' ∧ (chars ++ ']' :: ']' :: rest).head? = some ']') := by
      rintro ⟨rfl, next⟩
      refine first (List.infix_cons_iff.mpr (.inl ?_))
      cases chars with
      | nil => exact List.prefix_rfl
      | cons d chars =>
        cases next
        exact ⟨_, rfl⟩
    have later := ih fun inside => first (List.infix_cons_iff.mpr (.inr inside))
    rw [List.cons_append, closeWidth?, if_neg open', later]
    rfl

/-- What is read behind a name when every value is all its own. -/
structure ArgumentsReading.Keeps (given : List (List Char × List Char)) (following : List Char)
    (r : ArgumentsReading) : Prop where
  closed : r.closed = true
  width : r.width = following.length
  stand : Stand r.arguments given

theorem ArgumentsReading.Keeps.skip {given : List (List Char × List Char)}
    {following whole : List Char} {width : Nat} {r : ArgumentsReading} (more : r.Keeps given following)
    (length : whole.length = width + following.length) : (r.skip width).Keeps given whole where
  closed := more.closed
  width := by
    change width + r.width = _
    rw [more.width, length]
  stand := more.stand

theorem readArguments_ending {kind : TagKind} {read : List Char → ValueReading} {ending : List Char}
    (ends : Ending kind ending) (rest : List Char) :
    (readArguments kind read (ending ++ rest)).Keeps [] ending := by
  cases ends with
  | close =>
    have read := @readArguments_close kind read rest
    rw [List.cons_append, List.cons_append, List.nil_append, read]
    exact ⟨rfl, rfl, .none⟩
  | @ignoring chars placeholder noEntity first =>
    subst placeholder
    have noEntity : nonBreakingSpace.isPrefixOf ('&' :: chars) = false :=
      Bool.eq_false_iff.mpr fun found => noEntity (List.isPrefixOf_iff_prefix.mp found)
    have read := @readArguments_ignoring read chars noEntity rest (closeWidth?_of_first first rest)
    have whole : '&' :: chars ++ [']', ']'] ++ rest = '&' :: chars ++ ']' :: ']' :: rest := by simp
    rw [whole, read]
    exact ⟨rfl, by simp, .none⟩

/-- By induction on the parameters, with what ends the tag and what is behind it present. -/
theorem readArguments_keeps {kind : TagKind} (depth : Nat) {params ending : List Char}
    {given : List (List Char × List Char)} (written : Parameters Quoted params given)
    (few : kind = .placeholder → given = []) (ends : Ending kind ending)
    (shut : ∀ p ∈ given, Sealed p.2) (rest : List Char) :
    (readArguments kind (valueReader depth) (params ++ ending ++ rest)).Keeps given
      (params ++ ending) := by
  induction written with
  | none => exact readArguments_ending ends rest
  | blank blank _ ih =>
    rw [List.cons_append, List.cons_append, readArguments_blank blank]
    exact (ih few shut).skip (Nat.add_comm _ 1)
  | nonBreaking _ ih =>
    rw [List.append_assoc, List.append_assoc, readArguments_nonBreaking, ← List.append_assoc]
    exact (ih few shut).skip (Nat.add_comm _ 6)
  | @param name chars behind value given entity some names quoted _ ih =>
    obtain ⟨-, rfl⟩ := quoted
    have parameters : kind ≠ .placeholder := fun placeholder => by cases few placeholder
    have later := ih (fun placeholder => absurd placeholder parameters)
      fun p member => shut p (List.mem_cons_of_mem _ member)
    have keeps : (valueReader depth (value ++ '\x60' :: (behind ++ ending ++ rest))).Keeps value :=
      valueReader_sealed depth (shut _ (List.mem_cons_self ..)) _
    have whole : paramLead entity ++ name ++ '=' :: '\x60' :: (value ++ '\x60' :: behind) ++ ending ++
        rest = paramLead entity ++ name ++
          '=' :: '\x60' :: (value ++ '\x60' :: (behind ++ ending ++ rest)) := by
      simp
    have after : (value ++ '\x60' :: (behind ++ ending ++ rest)).drop (value.length + 1) =
        behind ++ ending ++ rest := by
      rw [← List.drop_drop, List.drop_left]
      rfl
    rw [whole, readArguments_param parameters some names, if_pos keeps.closed, keeps.width, after]
    refine ⟨later.closed, ?_, .param keeps.inert keeps.gist later.stand⟩
    dsimp only
    rw [later.width]
    simp
    omega

/-- What follows a name ends it. -/
theorem follows_endsName {α : Type} {value : List Char → α → Prop} {kind : TagKind}
    {given : List (List Char × α)} {following : List Char} (follows : Follows value kind given following) :
    ∃ stop rest, following = stop :: rest ∧ endsName stop = true := by
  obtain ⟨written, _, ends⟩ := follows
  cases written with
  | none => cases ends with
    | close => exact ⟨']', _, rfl, rfl⟩
    | ignoring => exact ⟨'&', _, rfl, rfl⟩
  | @blank c rest _ blank => exact ⟨c, _, rfl, by simp [endsName, blank]⟩
  | nonBreaking => exact ⟨'&', _, rfl, rfl⟩
  | param entity => cases entity <;> exact ⟨'&', _, rfl, rfl⟩

/-- The text of a tag whose values are sealed is read as that tag, at any depth. -/
theorem reader_spells {h : Head} {given : List (List Char × List Char)} {source : List Char}
    (spells : Spells Quoted h given source) (shut : ∀ p ∈ given, Sealed p.2) (depth : Nat)
    (rest : List Char) :
    ∃ inner arguments, source = '[' :: '[' :: inner ∧ Stand arguments given ∧
      reader depth (inner ++ rest) =
        (.tag h.deferred h.kind (String.ofList h.name) arguments source, inner.length) := by
  obtain @⟨following, formed, follows⟩ := spells
  obtain ⟨stop, more, first, stops⟩ := follows_endsName follows
  have keeps : (readArguments h.kind (valueReader depth) (following ++ rest)).Keeps given following := by
    obtain ⟨written, few, ends⟩ := follows
    exact readArguments_keeps depth written few ends shut rest
  have read := readWith_head formed stops (valueReader depth) (more ++ rest)
  rw [← List.cons_append, ← first] at read
  refine ⟨h.chars ++ following, _, rfl, keeps.stand, ?_⟩
  rw [reader_eq, List.append_assoc, read]
  dsimp only
  rw [if_pos keeps.closed, keeps.width, ← List.length_append, ← List.append_assoc, List.take_left]

end Span
end DocSite.Template
