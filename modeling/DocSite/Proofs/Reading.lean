import DocSite.Proofs.Markup

/-! Reading markup back. A text that is the source of a tree is read as the spans and the
pieces that the tree stands for, whatever follows it. -/
namespace DocSite.Template

theorem isNameChar_range {c : Char} (named : isNameChar c = true) :
    46 ≤ c.toNat ∧ c.toNat ≤ 122 := by
  have between : ∀ a b : Char, a ≤ c → c ≤ b → a.toNat ≤ c.toNat ∧ c.toNat ≤ b.toNat :=
    fun _ _ low high => ⟨low, high⟩
  simp only [isNameChar, isAsciiAlphanumeric, Bool.or_eq_true, Bool.and_eq_true, decide_eq_true_eq,
    beq_iff_eq] at named
  rcases named with ((((letter | letter) | digit) | rfl) | rfl) | rfl
  · have := between 'a' 'z' letter.1 letter.2
    simp at this
    omega
  · have := between 'A' 'Z' letter.1 letter.2
    simp at this
    omega
  · have := between '0' '9' digit.1 digit.2
    simp at this
    omega
  · decide
  · decide
  · decide

theorem isBlank_range {c : Char} (blank : Text.isBlank c = true) :
    c.toNat ≤ 32 ∨ 133 ≤ c.toNat := by
  simp only [Text.isBlank, Bool.or_eq_true, Bool.and_eq_true, decide_eq_true_eq, beq_iff_eq] at blank
  omega

theorem isNameChar_of_endsName {c : Char} (stops : Span.endsName c = true) : isNameChar c = false := by
  cases named : isNameChar c with
  | false => rfl
  | true =>
    simp only [Span.endsName, Bool.or_eq_true, beq_iff_eq] at stops
    rcases stops with (rfl | rfl) | blank
    · simp [isNameChar, isAsciiAlphanumeric] at named
    · simp [isNameChar, isAsciiAlphanumeric] at named
    · have := isNameChar_range named
      have := isBlank_range blank
      omega

theorem ofSigil?_of_isNameChar {c : Char} (named : isNameChar c = true) :
    TagKind.ofSigil? c = none := by
  unfold TagKind.ofSigil?
  split
  · simp [isNameChar, isAsciiAlphanumeric] at named
  · simp [isNameChar, isAsciiAlphanumeric] at named
  · simp [isNameChar, isAsciiAlphanumeric] at named
  · rfl
theorem takeWhile_append_stop {p : Char → Bool} {stop : Char} (outside : p stop = false)
    (body rest : List Char) : (body ++ stop :: rest).takeWhile p = body.takeWhile p := by
  induction body with
  | nil => simp [outside]
  | cons c body ih => simp only [List.cons_append, List.takeWhile_cons, ih]

theorem takeWhile_stop {p : Char → Bool} {body : List Char} {stop : Char}
    (inside : ∀ c ∈ body, p c = true) (outside : p stop = false) (rest : List Char) :
    (body ++ stop :: rest).takeWhile p = body := by
  simp [List.takeWhile_append_of_pos inside, outside]

namespace Head

variable {h : Head}

theorem marked (formed : h.WellFormed) (rest : List Char) :
    ((h.chars ++ rest).head? == some '!') = h.deferred := by
  obtain ⟨deferred, kind, name⟩ := h
  obtain ⟨named, chars⟩ := formed
  obtain ⟨c, more, rfl⟩ := List.exists_cons_of_ne_nil named
  have first : isNameChar c = true := chars c (List.mem_cons_self ..)
  have unmarked : c ≠ '!' := by
    rintro rfl
    simp [isNameChar, isAsciiAlphanumeric] at first
  cases deferred <;> cases kind <;> simp [Head.chars, TagKind.sigil, unmarked]

theorem sigiled (formed : h.WellFormed) (rest : List Char) :
    (h.kind.sigil ++ (h.name ++ rest)).head?.bind TagKind.ofSigil? =
      if h.kind = .snippet then none else some h.kind := by
  obtain ⟨deferred, kind, name⟩ := h
  obtain ⟨named, chars⟩ := formed
  obtain ⟨c, more, rfl⟩ := List.exists_cons_of_ne_nil named
  have first : isNameChar c = true := chars c (List.mem_cons_self ..)
  cases kind with
  | snippet => exact ofSigil?_of_isNameChar first
  | placeholder => rfl
  | starred => rfl
  | chunk => rfl

end Head

/-- What `[[` and a head are read as, whatever follows the name. -/
theorem Span.readWith_head {h : Head} (formed : h.WellFormed) {stop : Char}
    (stops : endsName stop = true) (value : List Char → ValueReading) (rest : List Char) :
    readWith value (h.chars ++ stop :: rest) =
      let reading := readArguments h.kind value (stop :: rest)
      let width := h.chars.length + reading.width
      let source := '[' :: '[' :: (h.chars ++ stop :: rest).take width
      if reading.closed then
        (.tag h.deferred h.kind (String.ofList h.name) reading.arguments source, width)
      else (.literal source reading.given, width) := by
  have mark := h.marked formed (stop :: rest)
  have sigil? := h.sigiled formed (stop :: rest)
  have name : (h.name ++ stop :: rest).takeWhile isNameChar = h.name :=
    takeWhile_stop formed.chars (isNameChar_of_endsName stops) rest
  have afterMark : (h.chars ++ stop :: rest).drop (if h.deferred then 1 else 0) =
      h.kind.sigil ++ (h.name ++ stop :: rest) := by
    unfold Head.chars
    cases h.deferred <;> simp
  have kind : (if h.kind = .snippet then none else some h.kind).getD .snippet = h.kind := by
    split <;> simp_all
  have sigilWidth : (if (if h.kind = .snippet then none else some h.kind).isSome then 1 else 0) =
      h.kind.sigil.length := by
    cases h.kind <;> rfl
  have nameEnd : (if h.deferred then 1 else 0) + h.kind.sigil.length + h.name.length =
      h.chars.length := by
    simp only [Head.chars, List.length_append]
    cases h.deferred <;> rfl
  have following : (h.chars ++ stop :: rest).drop h.chars.length = stop :: rest := List.drop_left
  have unnamed : ¬ (h.name.isEmpty = true ∨ ¬ (stop :: rest).head?.any endsName = true) := by
    simp [formed.named, stops]
  simp only [readWith, mark, afterMark, sigil?, kind, sigilWidth, List.drop_left, name, nameEnd,
    following, if_neg unnamed]

namespace Span

theorem entity_eq {entity s : List Char} {c : Char}
    (found : ('&' :: entity).isPrefixOf (c :: s) = true) :
    c = '&' ∧ s = entity ++ s.drop entity.length := by
  obtain ⟨rest, eq⟩ := List.isPrefixOf_iff_prefix.mp found
  obtain ⟨rfl, rfl⟩ := List.cons.inj eq
  exact ⟨rfl, congrArg (entity ++ ·) (@List.drop_left _ entity rest).symm⟩

theorem run_eq (p : Char → Bool) (s : List Char) :
    s = s.takeWhile p ++ s.drop (s.takeWhile p).length :=
  (List.prefix_iff_eq_append.mp (List.takeWhile_prefix p)).symm

theorem isPrefixOf_append_stop {entity : List Char} {stop : Char} (outside : stop ∉ entity)
    (chars rest : List Char) :
    entity.isPrefixOf (chars ++ stop :: rest) = entity.isPrefixOf chars := by
  induction entity generalizing chars with
  | nil => simp
  | cons e entity ih =>
    obtain ⟨other, outside⟩ := not_or.mp (mt List.mem_cons.mpr outside)
    cases chars with
    | nil => simp [List.isPrefixOf, Ne.symm other]
    | cons c chars => simp [List.isPrefixOf, ih outside]

theorem length_le_of_isPrefixOf {entity s : List Char} (found : entity.isPrefixOf s = true) :
    entity.length ≤ s.length := (List.isPrefixOf_iff_prefix.mp found).length_le

/-- A character of a literal is read by itself, as part of an entity or with those after it. -/
theorem readValue_cons (nested : Option Reader) {c : Char} {rest : List Char} (backtick : c ≠ '\x60')
    (brackets : ¬ (c = '[' ∧ rest.head? = some '[')) :
    readValue nested (c :: rest) =
      if nonBreakingSpace.isPrefixOf (c :: rest) then
        (readValue nested (rest.drop 5)).after (.text [' ']) 6
      else if ampersand.isPrefixOf (c :: rest) then
        (readValue nested (rest.drop 4)).after (.text ['&']) 5
      else
        (readValue nested (rest.drop (rest.takeWhile isPlain).length)).after
          (.text (c :: rest.takeWhile isPlain)) (1 + (rest.takeWhile isPlain).length) := by
  rw [readValue.eq_def]
  simp only [if_neg backtick, if_neg brackets]

/-- A literal is read in the same way whatever follows it, up to the end of the value or the next tag. -/
theorem readValue_literal (nested : Option Reader) {chars : List Char} (literal : LiteralIn true chars)
    {stop : Char} (stops : stop = '\x60' ∨ stop = '[') (rest : List Char) :
    readValue nested (chars ++ stop :: rest) =
      let after := readValue nested (stop :: rest)
      ⟨literalPieces chars ++ after.pieces, after.closed, chars.length + after.width⟩ := by
  have plain : isPlain stop = false := by rcases stops with rfl | rfl <;> rfl
  have noEntity : stop ∉ nonBreakingSpace ∧ stop ∉ ampersand := by
    rcases stops with rfl | rfl <;> decide
  induction n : chars.length using Nat.strongRecOn generalizing chars with
  | ind n ih =>
    subst n
    cases chars with
    | nil => simp [literalPieces, readValue]
    | cons c more =>
      obtain ⟨bracket, backtick⟩ := literal c (List.mem_cons_self ..)
      have shorter : ∀ k, k ≤ more.length → readValue nested ((more ++ stop :: rest).drop k) =
          ⟨literalPieces (more.drop k) ++ (readValue nested (stop :: rest)).pieces,
            (readValue nested (stop :: rest)).closed,
            (more.drop k).length + (readValue nested (stop :: rest)).width⟩ := by
        intro k le
        rw [List.drop_append_of_le_length le]
        refine ih _ ?_ (fun d member => ?_) rfl
        · simp only [List.length_drop, List.length_cons]
          omega
        · exact literal d (List.mem_cons_of_mem _ (List.mem_of_mem_drop member))
      have nbsp := isPrefixOf_append_stop noEntity.1 (c :: more) rest
      have amp := isPrefixOf_append_stop noEntity.2 (c :: more) rest
      rw [List.cons_append] at nbsp amp ⊢
      rw [literalPieces, readValue_cons _ (backtick rfl) (fun both => bracket both.1),
        readValue_cons _ (backtick rfl) (fun both => bracket both.1), nbsp, amp,
        takeWhile_append_stop plain]
      split
      · rename_i found
        have long := length_le_of_isPrefixOf found
        simp only [nonBreakingSpace, List.length_cons] at long
        rw [shorter 5 (by simpa using long)]
        simp [ValueReading.after, literalPieces]
        simp at long
        omega
      · split
        · rename_i found
          have long := length_le_of_isPrefixOf found
          rw [shorter 4 (by simpa [ampersand] using long)]
          simp [ValueReading.after, literalPieces]
          simp [ampersand] at long
          omega
        · have le := (List.takeWhile_sublist (p := isPlain) (l := more)).length_le
          rw [shorter _ le]
          simp [ValueReading.after, literalPieces]
          omega

end Span

theorem decode_cons (c : Char) (rest : List Char) : decode (c :: rest) =
    if Span.nonBreakingSpace.isPrefixOf (c :: rest) then ' ' :: decode (rest.drop 5)
    else if Span.ampersand.isPrefixOf (c :: rest) then '&' :: decode (rest.drop 4)
    else c :: decode rest := by
  rw [decode.eq_def]

theorem decode_append_plain {run : List Char} (plain : ∀ c ∈ run, c ≠ '&') (rest : List Char) :
    decode (run ++ rest) = run ++ decode rest := by
  induction run with
  | nil => rfl
  | cons c run ih =>
    have first : c ≠ '&' := plain c (List.mem_cons_self ..)
    have noEntity : ∀ e s, ('&' :: e).isPrefixOf (c :: s) = false := by
      simp [List.isPrefixOf, Ne.symm first]
    rw [List.cons_append, decode_cons]
    simp only [Span.nonBreakingSpace, Span.ampersand, noEntity, Bool.false_eq_true, if_false,
      List.cons_append, ih fun d member => plain d (List.mem_cons_of_mem _ member)]

/-- The pieces of a literal of a value are texts that make up the decoded literal. -/
theorem literalPieces_texts {chars : List Char} (literal : LiteralIn true chars) :
    ∃ texts : List (List Char), literalPieces chars = texts.map Piece.text ∧
      texts.flatten = decode chars := by
  induction n : chars.length using Nat.strongRecOn generalizing chars with
  | ind n ih =>
    subst n
    cases chars with
    | nil => exact ⟨[], by simp [literalPieces, Span.readValue], by simp [decode]⟩
    | cons c more =>
      obtain ⟨bracket, backtick⟩ := literal c (List.mem_cons_self ..)
      have shorter : ∀ k, ∃ texts : List (List Char),
          literalPieces (more.drop k) = texts.map Piece.text ∧ texts.flatten = decode (more.drop k) := by
        intro k
        refine ih _ ?_ (fun d member => ?_) rfl
        · simp only [List.length_drop, List.length_cons]
          omega
        · exact literal d (List.mem_cons_of_mem _ (List.mem_of_mem_drop member))
      rw [literalPieces, Span.readValue_cons _ (backtick rfl) (fun both => bracket both.1), decode_cons]
      split
      · obtain ⟨texts, pieces, flat⟩ := shorter 5
        exact ⟨[' '] :: texts, congrArg (List.cons (Piece.text [' '])) pieces, by simp_all⟩
      · split
        · obtain ⟨texts, pieces, flat⟩ := shorter 4
          exact ⟨['&'] :: texts, congrArg (List.cons (Piece.text ['&'])) pieces, by simp_all⟩
        · let run := more.takeWhile Span.isPlain
          obtain ⟨texts, pieces, flat⟩ := shorter run.length
          have whole : more = run ++ more.drop run.length :=
            (List.prefix_iff_eq_append.mp (List.takeWhile_prefix _)).symm
          have plain : ∀ d ∈ run, d ≠ '&' := by
            rintro d member rfl
            have := List.all_takeWhile (p := Span.isPlain) (l := more)
            have := List.all_eq_true.mp this _ member
            exact absurd this (by decide)
          refine ⟨(c :: run) :: texts, congrArg (List.cons (Piece.text (c :: run))) pieces, ?_⟩
          rw [List.flatten_cons, flat, List.cons_append, ← decode_append_plain plain, ← whole]

namespace Span

variable {kind : TagKind} {value : List Char → ValueReading}

theorem readArguments_close (rest : List Char) :
    readArguments kind value (']' :: ']' :: rest) = ⟨[], [], true, 2⟩ := by
  simp [readArguments]

theorem readArguments_blank {c : Char} (blank : Text.isBlank c = true) (rest : List Char) :
    readArguments kind value (c :: rest) = (readArguments kind value rest).skip 1 := by
  have notBracket : c ≠ ']' := by
    rintro rfl
    exact absurd blank (by decide)
  have notAnd : c ≠ '&' := by
    rintro rfl
    exact absurd blank (by decide)
  have noEntity : nonBreakingSpace.isPrefixOf (c :: rest) = false := by
    simp [nonBreakingSpace, List.isPrefixOf, Ne.symm notAnd]
  rw [readArguments.eq_def]
  simp only [notBracket, false_and, if_false, noEntity, Bool.false_eq_true, notAnd, blank, if_true]

theorem readArguments_nonBreaking (rest : List Char) :
    readArguments kind value (nonBreakingSpace ++ rest) = (readArguments kind value rest).skip 6 := by
  rw [readArguments.eq_def]
  simp [nonBreakingSpace]

theorem closeWidth?_eq_some {s : List Char} {width : Nat} (found : closeWidth? s = some width) :
    ∃ chars, s.take width = chars ++ [']', ']'] ∧ ¬ [']', ']'] <:+: chars ++ [']'] := by
  induction s generalizing width with
  | nil => cases found
  | cons c s ih =>
    rw [closeWidth?] at found
    split at found
    · rename_i close
      obtain ⟨rfl, next⟩ := close
      obtain ⟨more, rfl⟩ := List.head?_eq_some_iff.mp next
      cases found
      exact ⟨[], rfl, by decide⟩
    · rename_i open'
      obtain ⟨n, later, rfl⟩ := Option.map_eq_some_iff.mp found
      obtain ⟨chars, taken, first⟩ := ih later
      refine ⟨c :: chars, by rw [List.take_succ_cons, taken]; rfl, ?_⟩
      intro inside
      rcases List.infix_cons_iff.mp inside with here | after
      · obtain ⟨t, same⟩ := here
        obtain ⟨rfl, begins⟩ := List.cons.inj same
        have bracket : (chars ++ [']']).head? = some ']' := congrArg List.head? begins.symm
        have next : (s.take n).head? = some ']' := by
          rw [taken, List.append_cons, List.head?_append, bracket]
          rfl
        rw [List.head?_take] at next
        split at next
        · cases next
        · exact open' ⟨rfl, next⟩
      · exact first after

/-- What follows the first `]]` does not matter. -/
theorem closeWidth?_append {s : List Char} {width : Nat} (closes : closeWidth? s = some width)
    (rest : List Char) : closeWidth? (s ++ rest) = some width := by
  induction s generalizing width with
  | nil => cases closes
  | cons c s ih =>
    cases s with
    | nil => simp [closeWidth?] at closes
    | cons d s =>
      rw [List.cons_append, closeWidth?]
      rw [closeWidth?] at closes
      by_cases here : c = ']' ∧ d = ']'
      · simpa [here] using closes
      · simp only [List.cons_append, List.head?_cons, Option.some.injEq, here, if_false] at closes ⊢
        obtain ⟨later, found, rfl⟩ := Option.map_eq_some_iff.mp closes
        rw [← List.cons_append, ih found]
        rfl

theorem readArguments_ignoring {chars : List Char}
    (noEntity : nonBreakingSpace.isPrefixOf ('&' :: chars) = false) {rest : List Char}
    (closes : closeWidth? (chars ++ ']' :: ']' :: rest) = some (chars.length + 2)) :
    readArguments .placeholder value ('&' :: chars ++ ']' :: ']' :: rest) =
      ⟨[], [], true, chars.length + 3⟩ := by
  have stop : ']' ∉ nonBreakingSpace := by decide
  have noEntity : nonBreakingSpace.isPrefixOf ('&' :: (chars ++ ']' :: ']' :: rest)) = false :=
    (isPrefixOf_append_stop stop ('&' :: chars) (']' :: rest)).trans noEntity
  rw [List.cons_append, readArguments.eq_def]
  simp [noEntity, closes]
  omega

theorem readArguments_ignored {chars : List Char} (ignorable : Ignorable chars) (rest : List Char) :
    readArguments .placeholder value ('&' :: chars ++ ']' :: ']' :: rest) =
      ⟨[], [], true, chars.length + 3⟩ := by
  have closes := closeWidth?_append ignorable.closes rest
  rw [List.append_assoc] at closes
  exact readArguments_ignoring ignorable.noEntity closes

theorem noEntity_of_params {name : List Char} (chars : ∀ c ∈ name, isParamChar c = true)
    {entity : List Char} (closed : ';' ∈ entity) (stop : '=' ∉ entity) (s : List Char) :
    entity.isPrefixOf ('&' :: (name ++ '=' :: s)) = false := by
  have same := isPrefixOf_append_stop stop ('&' :: name) s
  rw [List.cons_append] at same
  rw [same]
  cases found : entity.isPrefixOf ('&' :: name) with
  | false => rfl
  | true =>
    have member := (List.isPrefixOf_iff_prefix.mp found).subset closed
    rcases List.mem_cons.mp member with eq | member
    · exact absurd eq (by decide)
    · exact absurd (chars _ member) (by decide)

theorem readArguments_param {name : List Char} (parameters : kind ≠ .placeholder) (named : name ≠ [])
    (chars : ∀ c ∈ name, isParamChar c = true) (entity : Bool) (s : List Char) :
    readArguments kind value (paramLead entity ++ name ++ '=' :: '\x60' :: s) =
      let lead := (paramLead entity ++ name).length + 2
      let reading := value s
      if reading.closed then
        let more := readArguments kind value (s.drop reading.width)
        ⟨.mk (String.ofList name) reading.pieces :: more.arguments,
          spansOf reading.pieces ++ more.given, more.closed, lead + reading.width + more.width⟩
      else ⟨[], spansOf reading.pieces, false, lead + reading.width⟩ := by
  let lead : List Char := if entity then ['a', 'm', 'p', ';'] else []
  let rest := lead ++ (name ++ '=' :: '\x60' :: s)
  have width : (if entity = true then 4 else 0) = lead.length := by cases entity <;> rfl
  have whole : paramLead entity ++ name ++ '=' :: '\x60' :: s = '&' :: rest := by
    cases entity <;> simp [paramLead, rest, lead, ampersand]
  have length : (paramLead entity ++ name).length = 1 + lead.length + name.length := by
    cases entity <;> simp [paramLead, lead, ampersand] <;> omega
  have nbsp : nonBreakingSpace.isPrefixOf ('&' :: rest) = false := by
    cases entity with
    | true => rfl
    | false => exact noEntity_of_params chars (by decide) (by decide) _
  have amp : ampersand.isPrefixOf ('&' :: rest) = entity := by
    cases entity with
    | true => rfl
    | false => exact noEntity_of_params chars (by decide) (by decide) _
  have taken : (rest.drop lead.length).takeWhile isParamChar = name := by
    rw [List.drop_left]
    exact takeWhile_stop chars (by decide) _
  have afterName : rest.drop (lead.length + name.length) = '=' :: '\x60' :: s := by
    rw [← List.drop_drop, List.drop_left, List.drop_left]
  have afterValue : ∀ w, rest.drop (lead.length + name.length + 2 + w) = s.drop w := by
    intro w
    rw [Nat.add_assoc, ← List.drop_drop, afterName, ← List.drop_drop]
    rfl
  have opened : ¬ (name.isEmpty = true ∨ ¬ ['=', '\x60'].isPrefixOf ('=' :: '\x60' :: s) = true) := by
    simp [named]
  have noClose : ¬ ('&' = ']' ∧ rest.head? = some ']') := by simp
  have body : ('=' :: '\x60' :: s).drop 2 = s := rfl
  rw [whole, readArguments.eq_def]
  simp only [if_neg noClose, nbsp, Bool.false_eq_true, if_false, if_true, parameters, amp, width,
    taken, afterName, if_neg opened, body, afterValue, length]
  simp only [Nat.add_assoc]

/-- Reads parameter values in which tags may nest `depth` levels. -/
def valueReader : (depth : Nat) → List Char → ValueReading
  | 0 => readValue none
  | depth + 1 => readValue (some (reader depth))

theorem reader_eq (depth : Nat) : reader depth = readWith (valueReader depth) := by
  cases depth <;> rfl

/-- Every value reader is at a literal what the plain one is. -/
theorem valueReader_literal (depth : Nat) {chars : List Char} (literal : LiteralIn true chars)
    {stop : Char} (stops : stop = '\x60' ∨ stop = '[') (rest : List Char) :
    valueReader depth (chars ++ stop :: rest) =
      let after := valueReader depth (stop :: rest)
      ⟨literalPieces chars ++ after.pieces, after.closed, chars.length + after.width⟩ := by
  cases depth with
  | zero => exact readValue_literal none literal stops rest
  | succ depth => exact readValue_literal (some (reader depth)) literal stops rest

theorem valueReader_close (depth : Nat) (rest : List Char) :
    valueReader depth ('\x60' :: rest) = ⟨[], true, 1⟩ := by
  cases depth <;> simp [valueReader, readValue]

/-- What follows a name ends it. -/
theorem source_endsName (tail : Tail) (formed : tail.WellFormed kind) :
    ∃ stop rest, tail.source = stop :: rest ∧ endsName stop = true := by
  cases tail with
  | close => exact ⟨']', _, rfl, rfl⟩
  | ignored chars => exact ⟨'&', _, rfl, rfl⟩
  | blank c rest => exact ⟨c, _, rfl, by simp [endsName, formed.1]⟩
  | nonBreaking rest => exact ⟨'&', _, rfl, rfl⟩
  | param entity name value rest =>
    cases entity with
    | true => exact ⟨'&', _, rfl, rfl⟩
    | false => exact ⟨'&', _, rfl, rfl⟩

mutual

theorem reader_source : ∀ (mark : Mark) (depth : Nat), mark.WellFormed → mark.height ≤ depth →
    ∀ rest, ∃ inner, mark.source = '[' :: '[' :: inner ∧
      reader depth (inner ++ rest) = (mark.span, inner.length)
  | .mk head tail, depth, formed, low, rest => by
    obtain ⟨stop, more, first, stops⟩ := source_endsName tail formed.2
    obtain ⟨given, arguments⟩ := readArguments_source tail head.kind depth formed.2 low rest
    have read := readWith_head formed.1 stops (valueReader depth) (more ++ rest)
    have tailRead : stop :: (more ++ rest) = tail.source ++ rest := by rw [first, List.cons_append]
    rw [tailRead, arguments] at read
    refine ⟨head.chars ++ tail.source, rfl, ?_⟩
    rw [reader_eq, List.append_assoc, read]
    simp only [if_true, Mark.span, List.length_append]
    rw [← List.append_assoc, ← List.length_append, List.take_left]

theorem readArguments_source : ∀ (tail : Tail) (kind : TagKind) (depth : Nat), tail.WellFormed kind →
    tail.height ≤ depth → ∀ rest, ∃ given,
      readArguments kind (valueReader depth) (tail.source ++ rest) =
        ⟨tail.arguments, given, true, tail.source.length⟩
  | .close, kind, depth, formed, low, rest => ⟨[], readArguments_close rest⟩
  | .ignored chars, kind, depth, formed, low, rest => by
    obtain ⟨rfl, ignorable⟩ := formed
    refine ⟨[], ?_⟩
    have read := @readArguments_ignored (valueReader depth) _ ignorable rest
    simp only [Tail.source, List.append_assoc, List.cons_append, List.nil_append] at read ⊢
    rw [read]
    simp [Tail.arguments]
  | .blank c tail, kind, depth, formed, low, rest => by
    obtain ⟨given, read⟩ := readArguments_source tail kind depth formed.2 low rest
    refine ⟨given, ?_⟩
    rw [Tail.source, List.cons_append, readArguments_blank formed.1, read]
    simp [ArgumentsReading.skip, Tail.arguments, Nat.add_comm]
  | .nonBreaking tail, kind, depth, formed, low, rest => by
    obtain ⟨given, read⟩ := readArguments_source tail kind depth formed low rest
    refine ⟨given, ?_⟩
    rw [Tail.source, List.append_assoc, readArguments_nonBreaking, read]
    simp only [ArgumentsReading.skip, Tail.arguments, List.length_append]
    rfl
  | .param entity name value tail, kind, depth, formed, low, rest => by
    obtain ⟨parameters, ⟨named, chars⟩, valueFormed, tailFormed⟩ := formed
    obtain ⟨given, more⟩ := readArguments_source tail kind depth tailFormed
      (Nat.le_trans (Nat.le_max_right ..) low) rest
    have read := readValue_source value depth valueFormed (Nat.le_trans (Nat.le_max_left ..) low)
      (tail.source ++ rest)
    have whole : (Tail.param entity name value tail).source ++ rest =
        paramLead entity ++ name ++
          '=' :: '\x60' :: (value.source ++ '\x60' :: (tail.source ++ rest)) := by
      simp [Tail.source]
    have after : (value.source ++ '\x60' :: (tail.source ++ rest)).drop (value.source.length + 1) =
        tail.source ++ rest := by
      rw [← List.drop_drop, List.drop_left]
      rfl
    refine ⟨spansOf (value.pieces literalPieces) ++ given, ?_⟩
    rw [whole, readArguments_param parameters named chars, read]
    simp only [if_true, after, more, Tail.arguments, Tail.source, List.length_append, List.length_cons]
    simp only [ArgumentsReading.mk.injEq, true_and]
    omega

theorem readValue_source : ∀ (markup : Markup) (depth : Nat), markup.WellFormed true →
    markup.height ≤ depth → ∀ rest, valueReader depth (markup.source ++ '\x60' :: rest) =
      ⟨markup.pieces literalPieces, true, markup.source.length + 1⟩
  | .text chars, depth, formed, low, rest => by
    rw [Markup.source, valueReader_literal depth formed (.inl rfl), valueReader_close]
    simp [Markup.pieces]
  | .tag chars mark after, depth, formed, low, rest => by
    obtain ⟨literal, markFormed, afterFormed⟩ := formed
    cases depth with
    | zero => exact absurd (Nat.le_trans (Nat.le_max_left ..) low) (Nat.not_succ_le_zero _)
    | succ depth =>
      have lower : mark.height ≤ depth := Nat.le_of_succ_le_succ (Nat.le_trans (Nat.le_max_left ..) low)
      obtain ⟨inner, whole, read⟩ := reader_source mark depth markFormed lower
        (after.source ++ '\x60' :: rest)
      have more := readValue_source after (depth + 1) afterFormed
        (Nat.le_trans (Nat.le_max_right ..) low) rest
      have opened : valueReader (depth + 1) ('[' :: '[' :: (inner ++ (after.source ++ '\x60' :: rest))) =
          (valueReader (depth + 1) (after.source ++ '\x60' :: rest)).after (.span mark.span)
            (2 + inner.length) := by
        simp only [valueReader]
        rw [readValue.eq_def]
        simp [read]
      have text : (Markup.tag chars mark after).source ++ '\x60' :: rest =
          chars ++ '[' :: '[' :: (inner ++ (after.source ++ '\x60' :: rest)) := by
        simp [Markup.source, whole]
      rw [text, valueReader_literal (depth + 1) literal (.inr rfl), opened, more]
      simp only [ValueReading.after, Markup.pieces, Markup.source, whole, List.length_append,
        List.length_cons, ValueReading.mk.injEq, true_and]
      omega

end

end Span

namespace Piece

theorem readAll_literal {chars : List Char} (literal : LiteralIn false chars) {rest : List Char}
    (stops : ∀ c, rest.head? = some c → c = '[') :
    readAll (chars ++ rest) = wholePiece chars ++ readAll rest := by
  cases chars with
  | nil => rfl
  | cons c more =>
    have run : (more ++ rest).takeWhile (· != '[') = more := by
      have inside : ∀ d ∈ more, (d != '[') = true := fun d member => by
        simpa using (literal d (List.mem_cons_of_mem _ member)).1
      rw [List.takeWhile_append_of_pos inside]
      cases rest with
      | nil => simp
      | cons d rest => simp [stops d rfl]
    have bracket : ¬ (c = '[' ∧ (more ++ rest).head? = some '[') :=
      fun h => (literal c (List.mem_cons_self ..)).1 h.1
    rw [List.cons_append, readAll.eq_def]
    simp only [if_neg bracket, run, List.drop_left]
    rfl

theorem readAll_source : ∀ (markup : Markup), markup.WellFormed false →
    markup.height ≤ Span.maxNesting → readAll markup.source = markup.pieces wholePiece
  | .text chars, formed, _ => by
    have read := @readAll_literal _ formed [] (by simp)
    have done : readAll [] = [] := by simp [readAll]
    rw [done, List.append_nil, List.append_nil] at read
    exact read
  | .tag chars mark after, formed, low => by
    obtain ⟨literal, markFormed, afterFormed⟩ := formed
    have lower : mark.height ≤ Span.maxNesting - 1 :=
      Nat.le_sub_of_add_le (Nat.le_trans (Nat.le_max_left ..) low)
    obtain ⟨inner, whole, read⟩ :=
      Span.reader_source mark (Span.maxNesting - 1) markFormed lower after.source
    have more := readAll_source after afterFormed (Nat.le_trans (Nat.le_max_right ..) low)
    have opened : readAll ('[' :: '[' :: (inner ++ after.source)) =
        .span mark.span :: readAll after.source := by
      rw [readAll.eq_def]
      simp [Span.read, read]
    have text : (Markup.tag chars mark after).source =
        chars ++ '[' :: '[' :: (inner ++ after.source) := by
      simp [Markup.source, whole]
    rw [text, readAll_literal literal (by simp), opened, more]
    rfl

end Piece
end DocSite.Template
