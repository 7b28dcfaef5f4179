import DocSite.Proofs.Reading

/-! The grammar of tags, stated apart from the readers, and that the readers keep to it: what
they call a tag is the text of one, from `[[` to `]]`. -/
namespace DocSite.Template

def Span.source : Span → List Char
  | .literal source _ => source
  | .tag _ _ _ _ source => source

def Piece.gist : Piece → List Char
  | .text chars => chars
  | .span s => s.source

/-- What pieces come to as long as no tag among them is resolved. -/
def gistOf (pieces : List Piece) : List Char := pieces.flatMap Piece.gist

/-- Blanks and parameters, with the names of the parameters and what their values come to. -/
inductive Parameters {α : Type} (value : List Char → α → Prop) :
    List Char → List (List Char × α) → Prop where
  | none : Parameters value [] []
  | blank {c : Char} {rest : List Char} {given : List (List Char × α)} : Text.isBlank c = true →
    Parameters value rest given → Parameters value (c :: rest) given
  | nonBreaking {rest : List Char} {given : List (List Char × α)} :
    Parameters value rest given → Parameters value (Span.nonBreakingSpace ++ rest) given
  | param {name chars rest : List Char} {a : α} {given : List (List Char × α)} (entity : Bool) :
    name ≠ [] → (∀ c ∈ name, isParamChar c = true) → value chars a →
    Parameters value rest given →
    Parameters value (paramLead entity ++ name ++ '=' :: '\x60' :: (chars ++ '\x60' :: rest))
      ((name, a) :: given)

/-- How a tag ends. Behind an `&` that begins no `&nbsp;` a placeholder ends with the first `]]`. -/
inductive Ending (kind : TagKind) : List Char → Prop where
  | close : Ending kind [']', ']']
  | ignoring {chars : List Char} : kind = .placeholder → ¬ Span.nonBreakingSpace <+: '&' :: chars →
    ¬ [']', ']'] <:+: chars ++ [']'] → Ending kind ('&' :: chars ++ [']', ']'])

/-- What follows the name of a tag of this kind. Only placeholders have no parameters. -/
inductive Follows {α : Type} (value : List Char → α → Prop) (kind : TagKind)
    (given : List (List Char × α)) : List Char → Prop where
  | mk {params ending : List Char} : Parameters value params given →
    (kind = .placeholder → given = []) → Ending kind ending →
    Follows value kind given (params ++ ending)

/-- The text of a tag that begins like this and gives these parameters. -/
inductive Spells {α : Type} (value : List Char → α → Prop) (h : Head)
    (given : List (List Char × α)) : List Char → Prop where
  | mk {following : List Char} : h.WellFormed → Follows value h.kind given following →
    Spells value h given ('[' :: '[' :: (h.chars ++ following))

/-- What stands between the backticks of a value, with the pieces that it is read as. -/
inductive ValueText (nested : Span → Prop) : List Char → List Piece → Prop where
  | none : ValueText nested [] []
  | text {run rest : List Char} {pieces : List Piece} : '\x60' ∉ run → ValueText nested rest pieces →
    ValueText nested (run ++ rest) (.text run :: pieces)
  | nonBreaking {rest : List Char} {pieces : List Piece} : ValueText nested rest pieces →
    ValueText nested (Span.nonBreakingSpace ++ rest) (.text [' '] :: pieces)
  | ampersand {rest : List Char} {pieces : List Piece} : ValueText nested rest pieces →
    ValueText nested (Span.ampersand ++ rest) (.text ['&'] :: pieces)
  | span {span : Span} {rest : List Char} {pieces : List Piece} : nested span →
    ValueText nested rest pieces → ValueText nested (span.source ++ rest) (.span span :: pieces)

/-- A parameter as it is read, from its name and the pieces of its value. -/
def Argument.ofPair (p : List Char × List Piece) : Argument := .mk (String.ofList p.1) p.2

/-- The span is the text of a tag whose values hold such spans, or text that opens like a tag. -/
inductive SpanText (nested : Span → Prop) : Span → Prop where
  | literal {chars : List Char} {inner : List Span} :
    SpanText nested (.literal ('[' :: '[' :: chars) inner)
  | tag {h : Head} {given : List (List Char × List Piece)} {source : List Char} :
    Spells (ValueText nested) h given source →
    SpanText nested (.tag h.deferred h.kind (String.ofList h.name)
      (given.map Argument.ofPair) source)

namespace Span

/-- Tags and opened text, nested at most `depth` deep inside the values of this span. -/
def Formed : (depth : Nat) → Span → Prop
  | 0 => SpanText fun _ => False
  | depth + 1 => SpanText (Formed depth)

/-- A tag that is formed is a text of the grammar. -/
theorem spelled_of_formed {depth : Nat} {deferred : Bool} {kind : TagKind} {name : String}
    {arguments : List Argument} {source : List Char}
    (formed : Formed depth (.tag deferred kind name arguments source)) :
    ∃ (nested : Span → Prop) (h : Head) (given : List (List Char × List Piece)),
      (∀ span, nested span → ∃ below, span.Formed below) ∧ Spells (ValueText nested) h given source ∧
        deferred = h.deferred ∧ kind = h.kind ∧ name = String.ofList h.name ∧
        arguments = given.map Argument.ofPair := by
  cases depth with
  | zero => cases formed with
    | tag spells => exact ⟨_, _, _, fun _ none => none.elim, spells, rfl, rfl, rfl, rfl⟩
  | succ depth => cases formed with
    | tag spells => exact ⟨_, _, _, fun _ formed => ⟨depth, formed⟩, spells, rfl, rfl, rfl, rfl⟩

/-- What a reader finds behind `[[` is formed, and takes the text that it says. -/
def Finds (formed : Span → Prop) (read : Reader) : Prop :=
  ∀ s, formed (read s).1 ∧ (read s).1.source = '[' :: '[' :: s.take (read s).2

variable {formed : Span → Prop}

/-- A value that is closed is such a text and a backtick. -/
def ValueReading.Closes (value : List Char → List Piece → Prop) (s : List Char)
    (r : ValueReading) : Prop :=
  r.closed = true → ∃ chars, s.take r.width = chars ++ ['\x60'] ∧ value chars r.pieces

theorem ValueReading.Closes.after {s front rest : List Char} {piece : Piece} {width : Nat}
    {r : ValueReading} (more : r.Closes (ValueText formed) rest)
    (split : ∀ n, s.take (width + n) = front ++ rest.take n)
    (adds : ∀ {chars pieces}, ValueText formed chars pieces →
      ValueText formed (front ++ chars) (piece :: pieces)) :
    (r.after piece width).Closes (ValueText formed) s := by
  intro closed
  obtain ⟨chars, taken, text⟩ := more closed
  refine ⟨front ++ chars, ?_, adds text⟩
  change s.take (width + r.width) = _
  rw [split, taken, List.append_assoc]

theorem run_backtick {c : Char} (backtick : c ≠ '\x60') (rest : List Char) :
    '\x60' ∉ c :: rest.takeWhile isPlain := by
  intro member
  rcases List.mem_cons.mp member with same | inside
  · exact backtick same.symm
  · exact absurd (List.all_eq_true.mp List.all_takeWhile _ inside) (by decide)

theorem readValue_closes {nested : Option Reader}
    (finds : ∀ read, nested = some read → Finds formed read) (s : List Char) :
    (readValue nested s).Closes (ValueText formed) s := by
  fun_induction readValue nested s with
  | case1 => exact fun closed => by cases closed
  | case2 rest => exact fun _ => ⟨[], rfl, .none⟩
  | case3 c rest backtick brackets none ih =>
    obtain ⟨rfl, next⟩ := brackets
    obtain ⟨more, rfl⟩ := List.head?_eq_some_iff.mp next
    subst none
    refine ih.after (fun n => ?_) (.text (by decide))
    change (['[', '['] ++ more).take (['[', '['].length + n) = _
    exact List.take_length_add_append n
  | case4 c rest backtick brackets read found span width reading ih =>
    obtain ⟨rfl, next⟩ := brackets
    obtain ⟨more, rfl⟩ := List.head?_eq_some_iff.mp next
    subst found
    obtain ⟨here, source⟩ := finds read rfl more
    change read more = _ at reading
    rw [reading] at here source
    refine ih.after (fun n => ?_) (.span here)
    rw [source, Nat.add_assoc, Nat.add_comm 2]
    exact congrArg ('[' :: '[' :: ·) List.take_add
  | case5 c rest backtick brackets found ih =>
    obtain ⟨rfl, entity⟩ := entity_eq found
    refine ih.after (fun n => ?_) .nonBreaking
    rw [entity]
    change (nonBreakingSpace ++ rest.drop 5).take (nonBreakingSpace.length + n) = _
    exact List.take_length_add_append n
  | case6 c rest backtick brackets noSpace found ih =>
    obtain ⟨rfl, entity⟩ := entity_eq found
    refine ih.after (fun n => ?_) .ampersand
    rw [entity]
    change (ampersand ++ rest.drop 4).take (ampersand.length + n) = _
    exact List.take_length_add_append n
  | case7 c rest backtick brackets noSpace noAmpersand run ih =>
    refine ih.after (fun n => ?_) (.text (run_backtick backtick rest))
    have whole : c :: rest = (c :: run) ++ rest.drop run.length :=
      congrArg (c :: ·) (run_eq isPlain rest)
    rw [whole, Nat.add_comm 1]
    change ((c :: run) ++ _).take ((c :: run).length + n) = _
    exact List.take_length_add_append n

variable {kind : TagKind} {value : List Char → List Piece → Prop}

/-- The parameters of a tag that is closed are what follows its name. -/
def ArgumentsReading.Closes (value : List Char → List Piece → Prop) (kind : TagKind)
    (s : List Char) (r : ArgumentsReading) : Prop :=
  r.closed = true → ∃ given, Follows value kind given (s.take r.width) ∧
    r.arguments = given.map Argument.ofPair

theorem ArgumentsReading.Closes.skip {s front rest : List Char} {width : Nat}
    {r : ArgumentsReading} (more : r.Closes value kind rest)
    (split : ∀ n, s.take (width + n) = front ++ rest.take n)
    (adds : ∀ {chars given}, Parameters value chars given → Parameters value (front ++ chars) given) :
    (r.skip width).Closes value kind s := by
  intro closed
  obtain ⟨given, follows, arguments⟩ := more closed
  refine ⟨given, ?_, arguments⟩
  change Follows value kind given (s.take (width + r.width))
  rw [split]
  generalize rest.take r.width = taken at follows
  cases follows with
  | mk params few ending =>
    rw [← List.append_assoc]
    exact .mk (adds params) few ending

theorem ArgumentsReading.Closes.of_open {s : List Char} {r : ArgumentsReading}
    (opened : r.closed = false) : r.Closes value kind s := by
  intro closed
  rw [opened] at closed
  cases closed

/-- A parameter, with the text behind the backtick that opens its value. -/
theorem param_eq {rest : List Char} {lead : Nat}
    (leads : lead = if ampersand.isPrefixOf ('&' :: rest) then 4 else 0) {name : List Char}
    (named : name = (rest.drop lead).takeWhile isParamChar)
    (opened : ['=', '\x60'].isPrefixOf (rest.drop (lead + name.length)) = true) :
    ∃ entity, (paramLead entity ++ name ++ ['=', '\x60']).length = 1 + (lead + name.length + 2) ∧
      '&' :: rest = paramLead entity ++ name ++ ['=', '\x60'] ++ rest.drop (lead + name.length + 2) := by
  have value : rest.drop (lead + name.length) =
      ['=', '\x60'] ++ rest.drop (lead + name.length + 2) := by
    obtain ⟨more, same⟩ := List.isPrefixOf_iff_prefix.mp opened
    rw [← List.drop_drop (i := 2), ← same]
    rfl
  have whole : rest.drop lead = name ++ (['=', '\x60'] ++ rest.drop (lead + name.length + 2)) := by
    rw [← value, ← List.drop_drop, named]
    exact run_eq isParamChar _
  split at leads
  · rename_i found
    have entity := (entity_eq found).2
    refine ⟨true, by simp [leads, paramLead, ampersand]; omega, ?_⟩
    rw [leads] at whole ⊢
    rw [List.append_assoc, List.append_assoc, ← whole]
    exact congrArg ('&' :: ·) entity
  · refine ⟨false, by simp [leads, paramLead]; omega, ?_⟩
    rw [leads] at whole ⊢
    rw [List.append_assoc, List.append_assoc, ← whole]
    rfl

theorem readArguments_closes {read : List Char → ValueReading}
    (closes : ∀ s, (read s).Closes value s) (s : List Char) :
    (readArguments kind read s).Closes value kind s := by
  fun_induction readArguments kind read s with
  | case1 => exact .of_open rfl
  | case2 c rest close =>
    obtain ⟨rfl, next⟩ := close
    obtain ⟨more, rfl⟩ := List.head?_eq_some_iff.mp next
    exact fun _ => ⟨[], .mk .none (fun _ => rfl) .close, rfl⟩
  | case3 c rest open' found ih =>
    obtain ⟨rfl, entity⟩ := entity_eq found
    refine ih.skip (fun n => ?_) .nonBreaking
    rw [entity]
    change (nonBreakingSpace ++ rest.drop 5).take (nonBreakingSpace.length + n) = _
    exact List.take_length_add_append n
  | case4 rest placeholder width found =>
    rename_i noSpace
    obtain ⟨chars, taken, first⟩ := closeWidth?_eq_some found
    have inside : '&' :: chars <+: '&' :: rest := by
      refine (List.prefix_cons_inj _).mpr (.trans ?_ (List.take_prefix width rest))
      rw [taken]
      exact List.prefix_append ..
    have noEntity : ¬ nonBreakingSpace <+: '&' :: chars :=
      fun entity => noSpace (List.isPrefixOf_iff_prefix.mpr (entity.trans inside))
    refine fun _ => ⟨[], ?_, rfl⟩
    change Follows value kind [] (('&' :: rest).take (1 + width))
    rw [Nat.add_comm, List.take_succ_cons, taken]
    exact .mk .none (fun _ => rfl) (.ignoring placeholder noEntity first)
  | case5 => exact .of_open rfl
  | case6 => exact .of_open rfl
  | case7 rest parameters open' noSpace lead name afterName opened reading width closed more ih =>
    obtain ⟨named, opened⟩ := not_or.mp opened
    have opened : ['=', '\x60'].isPrefixOf afterName = true := by simpa using opened
    obtain ⟨entity, length, whole⟩ := @param_eq rest lead (by simp [lead]) name rfl opened
    have behind : afterName.drop 2 = rest.drop (lead + name.length + 2) := List.drop_drop
    obtain ⟨chars, taken, text⟩ := closes _ closed
    intro closed'
    obtain ⟨given, follows, arguments⟩ := ih closed'
    refine ⟨(name, reading.pieces) :: given, ?_, congrArg (List.cons _) arguments⟩
    have first : ('&' :: rest).take (1 + width) =
        paramLead entity ++ name ++ '=' :: '\x60' :: (chars ++ ['\x60']) := by
      have through : 1 + width = (paramLead entity ++ name ++ ['=', '\x60']).length + reading.width := by
        rw [length, Nat.add_assoc]
      rw [whole, ← behind, through, List.take_length_add_append, taken]
      simp
    have after : ('&' :: rest).drop (1 + width) = rest.drop width := by rw [Nat.add_comm]; rfl
    change Follows value kind _ (('&' :: rest).take (1 + width + more.width))
    rw [List.take_add, first, after]
    generalize (rest.drop width).take more.width = last at follows
    cases follows with
    | @mk params ending given few ends =>
      have joined : paramLead entity ++ name ++ '=' :: '\x60' :: (chars ++ ['\x60']) ++
          (params ++ ending) =
          (paramLead entity ++ name ++ '=' :: '\x60' :: (chars ++ '\x60' :: params)) ++ ending := by
        simp
      rw [joined]
      refine .mk (.param entity (by simpa using named) ?_ text given) ?_ ends
      · exact fun c member => List.all_eq_true.mp List.all_takeWhile c member
      · exact fun placeholder => absurd placeholder parameters
  | case8 rest parameters open' noSpace lead name afterName opened reading width closed =>
    exact .of_open rfl
  | case9 c rest open' noSpace other blank ih =>
    have adds : ∀ {chars given}, Parameters value chars given →
        Parameters value ([c] ++ chars) given := .blank blank
    refine ih.skip (fun n => ?_) adds
    rw [Nat.add_comm]
    rfl
  | case10 => exact .of_open rfl

theorem mark_eq (s : List Char) :
    s = (if s.head? == some '!' then ['!'] else []) ++ s.drop (if s.head? == some '!' then 1 else 0) := by
  cases s with
  | nil => rfl
  | cons c s => by_cases mark : c = '!' <;> simp [mark]

theorem sigil_eq (s : List Char) :
    s = ((s.head?.bind TagKind.ofSigil?).getD .snippet).sigil ++
        s.drop (if (s.head?.bind TagKind.ofSigil?).isSome then 1 else 0) ∧
      ((s.head?.bind TagKind.ofSigil?).getD .snippet).sigil.length =
        if (s.head?.bind TagKind.ofSigil?).isSome then 1 else 0 := by
  cases s with
  | nil => exact ⟨rfl, rfl⟩
  | cons c s =>
    cases sigil : TagKind.ofSigil? c with
    | none => simp [sigil, TagKind.sigil]
    | some kind => simp [sigil, TagKind.sigil_of_ofSigil? sigil]

/-- Behind `[[` all characters that may begin a tag are taken. If they are no beginning of one they
are all that is taken. -/
theorem readWith_split (read : List Char → ValueReading) (s : List Char) :
    ∃ (h : Head) (rest : List Char), (∀ c ∈ h.name, isNameChar c = true) ∧ s = h.chars ++ rest ∧
      (h.name = [] ∨ rest.head?.any endsName = false →
        readWith read s = (.literal ('[' :: '[' :: h.chars) [], h.chars.length)) := by
  let deferred := s.head? == some '!'
  let afterMark := s.drop (if deferred then 1 else 0)
  let sigil? := afterMark.head?.bind TagKind.ofSigil?
  let afterSigil := afterMark.drop (if sigil?.isSome then 1 else 0)
  let h : Head := ⟨deferred, sigil?.getD .snippet, afterSigil.takeWhile isNameChar⟩
  let rest := afterSigil.drop h.name.length
  have whole : s = h.chars ++ rest := by
    have named : afterSigil = h.name ++ rest := run_eq isNameChar afterSigil
    have sigiled : afterMark = h.kind.sigil ++ afterSigil := (sigil_eq afterMark).1
    have marked : s = (if deferred then ['!'] else []) ++ afterMark := mark_eq s
    calc s = (if deferred then ['!'] else []) ++ (h.kind.sigil ++ (h.name ++ rest)) := by
          rw [← named, ← sigiled]
          exact marked
      _ = h.chars ++ rest := by simp [Head.chars, h]
  have width : (if deferred then 1 else 0) + (if sigil?.isSome then 1 else 0) + h.name.length =
      h.chars.length := by
    have sigiled : h.kind.sigil.length = if sigil?.isSome then 1 else 0 := (sigil_eq afterMark).2
    have marked : (if deferred then ['!'] else []).length = if deferred then 1 else 0 := by
      cases deferred <;> rfl
    rw [Head.chars, List.length_append, List.length_append, sigiled, marked]
  refine ⟨h, rest, ?_, whole, fun unnamed => ?_⟩
  · exact fun c member => List.all_eq_true.mp List.all_takeWhile c member
  · have behind : s.drop h.chars.length = rest := by
      rw [whole, List.drop_left]
    have taken : s.take h.chars.length = h.chars := by
      rw [whole, List.take_left]
    have given : h.name.isEmpty = true ∨ ¬ rest.head?.any endsName = true := by
      simpa using unnamed
    change (if h.name.isEmpty = true ∨ ¬ (s.drop (_ + _ + h.name.length)).head?.any endsName = true
      then _ else _) = _
    rw [width, behind, if_pos given]
    exact congrArg (fun chars => (Span.literal ('[' :: '[' :: chars) [], h.chars.length)) taken

/-- Behind `[[` no tag begins, or there is a head and something that may follow one. -/
theorem readWith_cases (read : List Char → ValueReading) (s : List Char) :
    (∃ (h : Head) (rest : List Char), s = h.chars ++ rest ∧
      readWith read s = (.literal ('[' :: '[' :: h.chars) [], h.chars.length)) ∨
    ∃ (h : Head) (stop : Char) (rest : List Char), s = h.chars ++ stop :: rest ∧ h.WellFormed ∧
      endsName stop = true := by
  obtain ⟨h, rest, chars, whole, unnamed⟩ := readWith_split read s
  by_cases begins : h.name = [] ∨ rest.head?.any endsName = false
  · exact .inl ⟨h, rest, whole, unnamed begins⟩
  · obtain ⟨named, ends⟩ := not_or.mp begins
    cases rest with
    | nil => exact absurd rfl ends
    | cons stop more => exact .inr ⟨h, stop, more, whole, ⟨named, chars⟩, by simpa using ends⟩

theorem readWith_finds {nested : Span → Prop} {read : List Char → ValueReading}
    (closes : ∀ s, (read s).Closes (ValueText nested) s) : Finds (SpanText nested) (readWith read) := by
  intro s
  rcases readWith_cases read s with ⟨h, rest, rfl, found⟩ | ⟨h, stop, more, rfl, formed, stops⟩
  · rw [found]
    exact ⟨.literal, congrArg ('[' :: '[' :: ·) List.take_left.symm⟩
  · rw [readWith_head formed stops]
    have closes := @readArguments_closes h.kind _ read closes (stop :: more)
    generalize readArguments h.kind read (stop :: more) = reading at closes
    dsimp only
    split
    · rename_i closed
      obtain ⟨given, follows, arguments⟩ := closes closed
      refine ⟨?_, rfl⟩
      rw [arguments, List.take_length_add_append]
      exact .tag (.mk formed follows)
    · exact ⟨.literal, rfl⟩

/-- Readers of all depths find tags and opened text, by induction on the depth. -/
theorem reader_finds (depth : Nat) : Finds (Formed depth) (reader depth) := by
  induction depth with
  | zero => exact readWith_finds (readValue_closes fun _ none => by cases none)
  | succ depth ih =>
    refine readWith_finds (readValue_closes fun read same => ?_)
    cases same
    exact ih

end Span

namespace Piece

/-- A part of a template: text in which nothing opens, or a span. -/
inductive Formed : Piece → Prop where
  | text {chars : List Char} : ¬ ['[', '['] <:+: chars → Formed (.text chars)
  | span {span : Span} : span.Formed (Span.maxNesting - 1) → Formed (.span span)

theorem run_closed (c : Char) (rest : List Char) :
    ¬ ['[', '['] <:+: c :: rest.takeWhile (· != '[') := by
  have plain : '[' ∉ rest.takeWhile (· != '[') := fun member =>
    absurd (List.all_eq_true.mp List.all_takeWhile _ member) (by decide)
  intro opens
  rcases List.infix_cons_iff.mp opens with here | later
  · obtain ⟨after, same⟩ := here
    have second := (List.cons.inj same).2
    exact plain (second ▸ List.mem_cons_self ..)
  · exact plain (later.subset (List.mem_cons_self ..))

/-- A text is read as formed pieces, and none of it is lost. -/
theorem readAll_formed (s : List Char) : (∀ p ∈ readAll s, p.Formed) ∧ gistOf (readAll s) = s := by
  fun_induction readAll s with
  | case1 => exact ⟨fun p member => (by cases member), rfl⟩
  | case2 c rest brackets span width reading ih =>
    obtain ⟨rfl, next⟩ := brackets
    obtain ⟨more, rfl⟩ := List.head?_eq_some_iff.mp next
    obtain ⟨formed, source⟩ := Span.reader_finds (Span.maxNesting - 1) more
    change Span.reader (Span.maxNesting - 1) more = _ at reading
    rw [reading] at formed source
    refine ⟨List.forall_mem_cons.mpr ⟨.span formed, ih.1⟩, ?_⟩
    change span.source ++ gistOf (readAll (more.drop width)) = _
    have later : gistOf (readAll (more.drop width)) = more.drop width := ih.2
    rw [later, source]
    simp
  | case3 c rest brackets run ih =>
    refine ⟨List.forall_mem_cons.mpr ⟨.text (run_closed c rest), ih.1⟩, ?_⟩
    change (c :: run) ++ gistOf (readAll (rest.drop run.length)) = _
    rw [ih.2]
    exact congrArg (c :: ·) (Span.run_eq _ rest).symm

end Piece
end DocSite.Template
