import DocSite.Proofs.Literal
import DocSite.Proofs.Provenance

/-! Markup that keeps values out of what is read again. The branches of `if` and the values of
deferred tags become text of a later pass, so only placeholders with plain values may be resolved
there, and no chunk. -/
namespace DocSite.Template

/-- How often what a parameter resolves to is read again, for a tag that itself resolves to text
that is read again `passes` times. -/
def passesOf (head : Head) (passes : Nat) (param : String) : Nat :=
  let branch := head.kind = .snippet ∧ Discipline.isBranch param = true
  -- A deferred tag is written out with its values and read once more, and then a branch again.
  if head.deferred then if branch then 2 else 1
  else if branch then max passes 1 else 0

/-- These tags are resolved at once, to values that are plain. -/
def Inert (plain : String → Bool) (heads : List Head) : Prop :=
  ∀ head ∈ heads, head.deferred = false ∧ head.kind.isPlaceholder = true ∧
    plain (String.ofList head.name) = true

instance (plain : String → Bool) (heads : List Head) : Decidable (Inert plain heads) :=
  List.decidableBAll _ heads

mutual

def Mark.Guarded (plain : String → Bool) (passes : Nat) : Mark → Prop
  | .mk head tail =>
    (passes = 0 ∨ head.kind = .snippet ∨ (passes = 1 ∧ head.deferred = true) ∨
      (head.kind.isPlaceholder = true ∧ plain (String.ofList head.name) = true)) ∧
      tail.Guarded plain head passes

def Tail.Guarded (plain : String → Bool) (head : Head) (passes : Nat) : Tail → Prop
  | .close | .ignored _ => True
  | .blank _ rest | .nonBreaking rest => rest.Guarded plain head passes
  | .param _ name value rest =>
    (head.kind = .chunk ∧ plain (String.ofList name) = true → Inert plain value.heads) ∧
      value.Guarded plain (passesOf head passes (String.ofList name)) ∧
      rest.Guarded plain head passes

/-- In a text that resolves to one that is read again `passes` times, unless that is never, the
only tags are snippets, deferred tags if that is once, and placeholders of plain names. Chunks
are given plain values for plain names. -/
def Markup.Guarded (plain : String → Bool) (passes : Nat) : Markup → Prop
  | .text _ => True
  | .tag _ mark rest => mark.Guarded plain passes ∧ rest.Guarded plain passes

end

section Deciding

variable (plain : String → Bool)

mutual

def Mark.decideGuarded : ∀ (mark : Mark) (passes : Nat), Decidable (mark.Guarded plain passes)
  | .mk head tail, passes =>
    have := tail.decideGuarded head passes
    inferInstanceAs (Decidable ((passes = 0 ∨ head.kind = .snippet ∨
      (passes = 1 ∧ head.deferred = true) ∨ (head.kind.isPlaceholder = true ∧
        plain (String.ofList head.name) = true)) ∧ _))

def Tail.decideGuarded : ∀ (tail : Tail) (head : Head) (passes : Nat),
    Decidable (tail.Guarded plain head passes)
  | .close, _, _ | .ignored _, _, _ => .isTrue trivial
  | .blank _ rest, head, passes | .nonBreaking rest, head, passes => rest.decideGuarded head passes
  | .param _ name value rest, head, passes =>
    have := value.decideGuarded (passesOf head passes (String.ofList name))
    have := rest.decideGuarded head passes
    inferInstanceAs (Decidable ((head.kind = .chunk ∧ plain (String.ofList name) = true →
      Inert plain value.heads) ∧ _ ∧ _))

def Markup.decideGuarded : ∀ (text : Markup) (passes : Nat), Decidable (text.Guarded plain passes)
  | .text _, _ => .isTrue trivial
  | .tag _ mark rest, passes =>
    have := mark.decideGuarded passes
    have := rest.decideGuarded passes
    inferInstanceAs (Decidable (_ ∧ _))

end

instance (text : Markup) (passes : Nat) : Decidable (text.Guarded plain passes) :=
  text.decideGuarded plain passes

end Deciding

theorem passesOf_mono (head : Head) {a b : Nat} (le : a ≤ b) (param : String) :
    passesOf head a param ≤ passesOf head b param := by
  unfold passesOf
  dsimp only
  repeat' split
  all_goals omega

section

variable {plain : String → Bool}

mutual

theorem Mark.Guarded.mono {a b : Nat} (le : a ≤ b) :
    ∀ mark : Mark, mark.Guarded plain b → mark.Guarded plain a
  | .mk head tail, ⟨here, inside⟩ => by
    refine ⟨?_, Tail.Guarded.mono head le tail inside⟩
    rcases here with none | snippet | ⟨one, deferred⟩ | value
    · exact .inl (by omega)
    · exact .inr (.inl snippet)
    · rcases Nat.eq_zero_or_pos a with zero | pos
      · exact .inl zero
      · exact .inr (.inr (.inl ⟨by omega, deferred⟩))
    · exact .inr (.inr (.inr value))

theorem Tail.Guarded.mono (head : Head) {a b : Nat} (le : a ≤ b) :
    ∀ tail : Tail, tail.Guarded plain head b → tail.Guarded plain head a
  | .close, _ => trivial
  | .ignored _, _ => trivial
  | .blank _ rest, inside => Tail.Guarded.mono head le rest inside
  | .nonBreaking rest, inside => Tail.Guarded.mono head le rest inside
  | .param _ _ value rest, ⟨inert, inside, later⟩ =>
    ⟨inert, Markup.Guarded.mono (passesOf_mono head le _) value inside,
      Tail.Guarded.mono head le rest later⟩

theorem Markup.Guarded.mono {a b : Nat} (le : a ≤ b) :
    ∀ text : Markup, text.Guarded plain b → text.Guarded plain a
  | .text _, _ => trivial
  | .tag _ mark rest, ⟨here, later⟩ =>
    ⟨Mark.Guarded.mono le mark here, Markup.Guarded.mono le rest later⟩

end

end

theorem literal_nil (inValue : Bool) : LiteralIn inValue [] := fun _ member => by cases member

/-- Tags that may stand there, in a text to be resolved `passes` times. -/
structure Mark.Kept (allowed : TagKind → String → Prop) (plain : String → Bool)
    (depth passes : Nat) (mark : Mark) : Prop where
  formed : mark.WellFormed
  low : mark.height < depth
  heads : ∀ head ∈ mark.heads, allowed head.kind (String.ofList head.name)
  guarded : mark.Guarded plain passes

structure Tail.Kept (allowed : TagKind → String → Prop) (plain : String → Bool) (head : Head)
    (depth passes : Nat) (tail : Tail) : Prop where
  formed : tail.WellFormed head.kind
  low : tail.height ≤ depth
  heads : ∀ head ∈ tail.heads, allowed head.kind (String.ofList head.name)
  guarded : tail.Guarded plain head passes

structure Markup.Kept (allowed : TagKind → String → Prop) (plain : String → Bool) (inValue : Bool)
    (depth passes : Nat) (text : Markup) : Prop where
  formed : text.WellFormed inValue
  low : text.height ≤ depth
  heads : ∀ head ∈ text.heads, allowed head.kind (String.ofList head.name)
  guarded : text.Guarded plain passes

/-- The characters are those of such a text. -/
def Printed (allowed : TagKind → String → Prop) (plain : String → Bool) (inValue : Bool)
    (depth passes : Nat) (chars : List Char) : Prop :=
  ∃ text : Markup, text.Kept allowed plain inValue depth passes ∧ text.source = chars

namespace Printed

variable {allowed : TagKind → String → Prop} {plain : String → Bool} {inValue : Bool}
  {depth passes : Nat}

theorem literal {chars : List Char} (free : LiteralIn inValue chars) :
    Printed allowed plain inValue depth passes chars :=
  ⟨.text chars, ⟨free, Nat.zero_le _, (fun _ member => by cases member), trivial⟩, rfl⟩

theorem mark {m : Mark} (kept : m.Kept allowed plain depth passes) :
    Printed allowed plain inValue depth passes m.source := by
  refine ⟨.tag [] m (.text []), ⟨⟨literal_nil _, kept.formed, literal_nil _⟩, ?_, ?_, kept.guarded,
    trivial⟩, ?_⟩
  · exact Nat.max_le.mpr ⟨kept.low, Nat.zero_le _⟩
  · simpa [Markup.heads] using kept.heads
  · simp [Markup.source]

theorem wider {a b : Nat} {chars : List Char} (printed : Printed allowed plain inValue a passes chars)
    (le : a ≤ b) : Printed allowed plain inValue b passes chars := by
  obtain ⟨text, ⟨formed, low, heads, guarded⟩, source⟩ := printed
  exact ⟨text, ⟨formed, Nat.le_trans low le, heads, guarded⟩, source⟩

theorem mono {a b : Nat} {chars : List Char} (printed : Printed allowed plain inValue depth b chars)
    (le : a ≤ b) : Printed allowed plain inValue depth a chars := by
  obtain ⟨text, ⟨formed, low, heads, guarded⟩, source⟩ := printed
  exact ⟨text, ⟨formed, low, heads, Markup.Guarded.mono le text guarded⟩, source⟩

theorem outside_of_value : ∀ text : Markup, text.WellFormed true → text.WellFormed false
  | .text _, literal => fun c member => ⟨(literal c member).1, by simp⟩
  | .tag _ _ rest, ⟨literal, here, later⟩ =>
    ⟨fun c member => ⟨(literal c member).1, by simp⟩, here, outside_of_value rest later⟩

/-- What stands in a value may stand outside all values. -/
theorem outside {chars : List Char} (printed : Printed allowed plain true depth passes chars) :
    Printed allowed plain false depth passes chars := by
  obtain ⟨text, ⟨formed, low, heads, guarded⟩, source⟩ := printed
  exact ⟨text, ⟨outside_of_value text formed, low, heads, guarded⟩, source⟩

theorem literal_append {a b : List Char} (first : LiteralIn inValue a) (second : LiteralIn inValue b) :
    LiteralIn inValue (a ++ b) :=
  fun c member => (List.mem_append.mp member).elim (first c) (second c)

theorem append_kept {b : Markup} (second : b.Kept allowed plain inValue depth passes) :
    ∀ a : Markup, a.Kept allowed plain inValue depth passes →
      Printed allowed plain inValue depth passes (a.source ++ b.source)
  | .text chars, first => by
    obtain ⟨formed, low, heads, guarded⟩ := second
    cases b with
    | text more =>
      have joined := literal_append first.formed formed
      exact ⟨.text (chars ++ more), ⟨joined, low, heads, trivial⟩, rfl⟩
    | tag more mark rest =>
      refine ⟨.tag (chars ++ more) mark rest,
        ⟨⟨literal_append first.formed formed.1, formed.2⟩, low, heads, guarded⟩, ?_⟩
      simp [Markup.source]
  | .tag chars mark rest, ⟨⟨literal, here, later⟩, low, heads, guarded⟩ => by
    have restKept : rest.Kept allowed plain inValue depth passes :=
      ⟨later, Nat.le_trans (Nat.le_max_right ..) low,
        fun head member => heads head (List.mem_append_right _ member), guarded.2⟩
    obtain ⟨text, ⟨formed', low', heads', guarded'⟩, source⟩ := append_kept second rest restKept
    refine ⟨.tag chars mark text, ⟨⟨literal, here, formed'⟩, ?_, ?_, guarded.1, guarded'⟩, ?_⟩
    · exact Nat.max_le.mpr ⟨Nat.le_trans (Nat.le_max_left ..) low, low'⟩
    · intro head member
      rcases List.mem_append.mp member with inside | after
      · exact heads head (List.mem_append_left _ inside)
      · exact heads' head after
    · simp [Markup.source, source]

theorem append {a b : List Char} (first : Printed allowed plain inValue depth passes a)
    (second : Printed allowed plain inValue depth passes b) :
    Printed allowed plain inValue depth passes (a ++ b) := by
  obtain ⟨text, kept, rfl⟩ := first
  obtain ⟨more, kept', rfl⟩ := second
  exact append_kept kept' text kept

/-- What may stand in a value may stand anywhere. -/
theorem anywhere {chars : List Char} (printed : Printed allowed plain true depth passes chars) :
    ∀ inValue, Printed allowed plain inValue depth passes chars
  | true => printed
  | false => printed.outside

end Printed

/-- A tag loses its mark in the first of the passes that its values are due for. -/
theorem passesOf_deferred {head : Head} (deferred : head.deferred = true) (passes : Nat) {k : Nat}
    (few : k ≤ 1) (param : String) :
    passesOf head passes param = passesOf { head with deferred := false } k param + 1 := by
  unfold passesOf
  dsimp only
  rw [deferred]
  repeat' split
  all_goals first | omega | contradiction

theorem passesOf_le (head : Head) {passes : Nat} (few : passes ≤ 2) (param : String) :
    passesOf head passes param ≤ 2 := by
  unfold passesOf
  dsimp only
  repeat' split
  all_goals omega

/-- What is left of tags that begin with `heads`: text that is markup where it is read again, as
a whole while passes are still due, and in a value plain if the tags are inert. -/
structure Remains (allowed : TagKind → String → Prop) (plain : String → Bool) (inValue : Bool)
    (depth passes : Nat) (heads : List Head) (out : Rendered) : Prop where
  reread : out.Reread (Printed allowed plain false Span.maxNesting 0)
  whole : ∀ k, passes = k + 1 → Printed allowed plain inValue depth k out.flatten.toList
  inert : inValue = true → Inert plain heads → LiteralIn true out.flatten.toList

/-- A parameter of a tag, with a value that is markup while passes are still due, and plain if a
chunk is given it for a plain name. -/
structure Carried (allowed : TagKind → String → Prop) (plain : String → Bool) (head : Head)
    (depth passes : Nat) (p : String × String) : Prop where
  parameters : head.kind ≠ .placeholder
  named : p.1.toList ≠ [] ∧ ∀ c ∈ p.1.toList, isParamChar c = true
  due : ∀ k, passesOf head passes p.1 = k + 1 → Printed allowed plain true depth k p.2.toList
  inert : head.kind = .chunk ∧ plain p.1 = true → LiteralIn true p.2.toList

section Emission

variable {allowed : TagKind → String → Prop} {plain : String → Bool} {head : Head}
  {depth passes k : Nat}

/-- A value that is written out is markup again, and holds no tags where it must be plain. -/
theorem Carried.written {p : String × String} (carried : Carried allowed plain head depth passes p)
    (deferred : head.deferred = true) (few : k ≤ 1) : ∃ text : Markup,
      text.Kept allowed plain true depth (passesOf { head with deferred := false } k p.1) ∧
        text.source = p.2.toList ∧
        (head.kind = .chunk ∧ plain p.1 = true → Inert plain text.heads) := by
  by_cases given : head.kind = .chunk ∧ plain p.1 = true
  · refine ⟨.text p.2.toList, ⟨carried.inert given, Nat.zero_le _, ?_, trivial⟩, rfl, fun _ => ?_⟩
    · intro h member
      cases member
    · intro h member
      cases member
  · obtain ⟨text, kept, source⟩ := carried.due _ (passesOf_deferred deferred passes few p.1)
    exact ⟨text, kept, source, fun other => absurd other given⟩

/-- Parameters that are written out read as they were. -/
theorem written_tail (deferred : head.deferred = true) (few : k ≤ 1) :
    ∀ entries : List (String × String),
      (∀ p ∈ entries, Carried allowed plain head depth passes p) →
      ∃ tail : Tail, tail.Kept allowed plain { head with deferred := false } depth k ∧
        tail.source = entries.flatMap Tag.paramChars ++ [']', ']']
  | [], _ => ⟨.close, ⟨trivial, Nat.zero_le _, (fun _ member => by cases member), trivial⟩, rfl⟩
  | (name, value) :: rest, carried => by
    have first := carried _ (List.mem_cons_self ..)
    obtain ⟨text, kept, source, inert⟩ := first.written deferred few
    obtain ⟨tail, keptRest, sourceRest⟩ :=
      written_tail deferred few rest fun p member => carried p (List.mem_cons_of_mem _ member)
    refine ⟨.blank ' ' (.param false name.toList text tail), ⟨?_, ?_, ?_, ?_⟩, ?_⟩
    · exact ⟨by decide, first.parameters, first.named, kept.formed, keptRest.formed⟩
    · exact Nat.max_le.mpr ⟨kept.low, keptRest.low⟩
    · intro h member
      rcases List.mem_append.mp member with inside | after
      · exact kept.heads h inside
      · exact keptRest.heads h after
    · change (_ → _) ∧ _ ∧ _
      rw [String.ofList_toList]
      exact ⟨inert, kept.guarded, keptRest.guarded⟩
    · rw [List.flatMap_cons, List.append_assoc, ← sourceRest, Tag.paramChars, ← source]
      simp [Tail.source, paramLead]

/-- A tag that is written out again without its mark is one that may stand there. -/
theorem written_mark (deferred : head.deferred = true) (formed : head.WellFormed)
    (begins : allowed head.kind (String.ofList head.name)) (few : k ≤ 1)
    (free : k = 0 ∨ head.kind = .snippet ∨
      (head.kind.isPlaceholder = true ∧ plain (String.ofList head.name) = true)) {params : Params}
    (carried : ∀ p ∈ params.entries, Carried allowed plain head depth passes p) :
    Printed allowed plain true (depth + 1) k
      (Tag.chars { kind := head.kind, name := String.ofList head.name, params }) := by
  obtain ⟨tail, kept, source⟩ := written_tail deferred few params.entries carried
  let mark : Mark := .mk { head with deferred := false } tail
  have keptMark : mark.Kept allowed plain (depth + 1) k := by
    refine ⟨⟨⟨formed.named, formed.chars⟩, kept.formed⟩, Nat.lt_succ_of_le kept.low, ?_, ?_,
      kept.guarded⟩
    · intro h member
      rcases List.mem_cons.mp member with rfl | inside
      · exact begins
      · exact kept.heads h inside
    · rcases free with none | snippet | value
      · exact .inl none
      · exact .inr (.inl snippet)
      · exact .inr (.inr (.inr value))
  have same : mark.source =
      Tag.chars { kind := head.kind, name := String.ofList head.name, params } := by
    simp [mark, Mark.source, Tag.chars, Head.chars, source]
  rw [← same]
  exact .mark keptMark

end Emission

/-- Text that is read again is guarded markup. Only the values of plain names must be plain. -/
def Origins.guarded (O : Origins) (plain : String → Bool) : Discipline where
  toOrigins := O
  form kind chars := kind = .text → Printed O.allowed plain false Span.maxNesting 0 chars
  value name chars := plain name = true → LiteralIn true chars

section Resolving

variable {O : Origins} {plain : String → Bool} {dispatch : Dispatcher Run} {head : Head}
  {tail : Tail} {depth passes : Nat} {heads : List Head} {params : Params}

theorem literal_kept (chars : List Char) (free : BracketFree chars) :
    (O.guarded plain).form .text chars :=
  fun _ => .literal fun c member => ⟨free c member, by simp⟩

theorem guarded_joins (kind : SegmentKind) (a b : List Char)
    (first : (O.guarded plain).form kind a) (second : (O.guarded plain).form kind b) :
    (O.guarded plain).form kind (a ++ b) :=
  fun text => (first text).append (second text)

theorem flatten_verbatim (content : String) :
    (Rendered.empty.pushVerbatim content).flatten.toList = content.toList := by
  rw [Rendered.flatten_pushVerbatim]
  exact congrArg String.toList String.empty_append

theorem not_inert_of_kind {more : List Head} (other : head.kind.isPlaceholder = false) :
    ¬ Inert plain (head :: more) := by
  intro inert
  have placeholder := (inert head (List.mem_cons_self ..)).2.1
  rw [other] at placeholder
  cases placeholder

theorem remains_nothing (inValue : Bool) :
    Remains O.allowed plain inValue depth passes heads {} :=
  ⟨.empty, fun _ _ => .literal (literal_nil inValue), fun _ _ => literal_nil true⟩

/-- A value is carried through, and is plain if it may ever be read again. -/
theorem remains_value {value : String} (settled : passes = 0 ∨ LiteralIn true value.toList)
    (inert : Inert plain heads → LiteralIn true value.toList) :
    Remains O.allowed plain true depth passes heads (Rendered.empty.pushVerbatim value) := by
  refine ⟨Rendered.Reread.empty.pushVerbatim (fun _ _ => .append) _, ?_, ?_⟩
  · rintro k rfl
    rw [flatten_verbatim]
    rcases settled with none | literal
    · cases none
    · exact .literal literal
  · rw [flatten_verbatim]
    exact fun _ => inert

theorem remains_source {mark : Mark} (kept : mark.Kept O.allowed plain depth passes)
    (other : ¬ Inert plain heads) :
    Remains O.allowed plain true depth passes heads
      (Rendered.empty.pushVerbatim (String.ofList mark.source)) := by
  refine ⟨Rendered.Reread.empty.pushVerbatim (fun _ _ => .append) _, ?_,
    fun _ inert => absurd inert other⟩
  rintro k rfl
  rw [flatten_verbatim, String.toList_ofList]
  exact (Printed.mark kept).mono (Nat.le_succ k)

/-- Text that was due for one more pass than the rest may be read again at once. -/
theorem remains_text {k : Nat} {content : String}
    (printed : Printed O.allowed plain true depth k content.toList)
    (nested : depth ≤ Span.maxNesting) (last : passes ≤ k + 1) (other : ¬ Inert plain heads) :
    Remains O.allowed plain true depth passes heads (Rendered.ofText content) := by
  refine ⟨.pushText (fun _ _ => .append) .empty ?_, ?_, fun _ inert => absurd inert other⟩
  · exact ((printed.wider nested).mono (Nat.zero_le k)).outside
  · rintro j rfl
    rw [Rendered.flatten_ofText]
    exact printed.mono (Nat.le_of_succ_le_succ last)

/-- What `if` chooses was resolved as often as the branch was due for, but for one pass. -/
theorem remains_branch {name : String}
    (carried : ∀ p ∈ params.entries, Carried O.allowed plain head depth passes p)
    (now : head.deferred = false) (snippet : head.kind = .snippet)
    (branch : Discipline.isBranch name = true) (nested : depth < Span.maxNesting)
    (other : ¬ Inert plain heads) :
    Remains O.allowed plain true (depth + 1) passes heads
      (Rendered.ofText (params.getD name "")) := by
  have due : passesOf head passes name = (passes - 1) + 1 := by
    unfold passesOf
    simp only [now, snippet, branch, and_self, if_true, Bool.false_eq_true, if_false]
    omega
  have printed : Printed O.allowed plain true depth (passes - 1) (params.getD name "").toList := by
    rcases params.getD_cases name with none | member
    · rw [none]
      exact .literal (literal_nil true)
    · exact (carried _ member).due _ due
  exact remains_text (printed.wider (Nat.le_succ depth)) nested (by omega) other

theorem dispatch_remains (dispatches : (O.guarded plain).Dispatches dispatch)
    (kept : (Mark.mk head tail).Kept O.allowed plain (depth + 1) passes)
    (nested : depth < Span.maxNesting) (now : head.deferred = false)
    (carried : ∀ p ∈ params.entries, Carried O.allowed plain head depth passes p) :
    (O.guarded plain).Traces
      (dispatch { kind := head.kind, name := String.ofList head.name, params }
        (Mark.mk head tail).source)
      fun result => Remains O.allowed plain true (depth + 1) passes (Mark.mk head tail).heads
        result.1 := by
  have begins := kept.heads head (List.mem_cons_self ..)
  have reason : passes = 0 ∨ head.kind = .snippet ∨
      (head.kind.isPlaceholder = true ∧ plain (String.ofList head.name) = true) := by
    rcases kept.guarded.1 with none | snippet | ⟨_, deferred⟩ | value
    · exact .inl none
    · exact .inr (.inl snippet)
    · rw [now] at deferred
      cases deferred
    · exact .inr (.inr value)
  have placeholder : ∀ kind : TagKind, head.kind = kind → kind.isPlaceholder = true →
      (O.guarded plain).Traces
        (dispatch { kind, name := String.ofList head.name, params } (Mark.mk head tail).source)
        fun result => Remains O.allowed plain true (depth + 1) passes (Mark.mk head tail).heads
          result.1 := by
    intro kind same isPlaceholder
    refine (dispatches.placeholder _ _ isPlaceholder).weaken ?_
    rintro result ⟨value, valued, eq⟩
    rw [eq]
    refine remains_value ?_ fun inert => valued (inert head (List.mem_cons_self ..)).2.2
    rcases reason with none | snippet | ⟨-, named⟩
    · exact .inl none
    · rw [← same, snippet] at isPlaceholder
      cases isPlaceholder
    · exact .inr (valued named)
  cases kind : head.kind with
  | placeholder => exact placeholder _ kind rfl
  | starred => exact placeholder _ kind rfl
  | chunk =>
    have other : ¬ Inert plain (Mark.mk head tail).heads := not_inert_of_kind (by rw [kind]; rfl)
    have settled : passes = 0 := by
      rw [kind] at reason
      simpa [TagKind.isPlaceholder] using reason
    subst settled
    refine (dispatches.chunk _ _ rfl (kind ▸ begins) ?_).weaken ?_
    · exact fun p member named => (carried p member).inert ⟨kind, named⟩
    · rintro result (formed | same)
      · exact ⟨formed, fun _ due => (by cases due), fun _ inert => absurd inert other⟩
      · rw [same]
        exact remains_source kept other
  | snippet =>
    have other : ¬ Inert plain (Mark.mk head tail).heads := not_inert_of_kind (by rw [kind]; rfl)
    refine (dispatches.snippet _ _ rfl (kind ▸ begins)).weaken ?_
    rintro result ((none | ⟨name, branch, chosen⟩) | same)
    · rw [none]
      exact remains_nothing true
    · rw [chosen]
      exact remains_branch carried now kind branch nested other
    · rw [same]
      exact remains_source kept other

/-- A deferred tag is written out in the first of its passes. -/
theorem written_remains (kept : (Mark.mk head tail).Kept O.allowed plain (depth + 1) passes)
    (nested : depth < Span.maxNesting) (few : passes ≤ 2) (deferred : head.deferred = true)
    (carried : ∀ p ∈ params.entries, Carried O.allowed plain head depth passes p) :
    Remains O.allowed plain true (depth + 1) passes (Mark.mk head tail).heads
      (Rendered.ofText (String.ofList
        (Tag.chars { kind := head.kind, name := String.ofList head.name, params }))) := by
  have begins := kept.heads head (List.mem_cons_self ..)
  have free : passes - 1 = 0 ∨ head.kind = .snippet ∨
      (head.kind.isPlaceholder = true ∧ plain (String.ofList head.name) = true) := by
    rcases kept.guarded.1 with none | snippet | ⟨one, _⟩ | value
    · exact .inl (by omega)
    · exact .inr (.inl snippet)
    · exact .inl (by omega)
    · exact .inr (.inr value)
  have other : ¬ Inert plain (Mark.mk head tail).heads := by
    intro inert
    have now := (inert head (List.mem_cons_self ..)).1
    rw [deferred] at now
    cases now
  have printed := written_mark deferred kept.formed.1 begins (by omega) free carried
  refine remains_text ?_ nested (Nat.le_add_of_sub_le (Nat.le_refl _)) other
  rw [String.toList_ofList]
  exact printed

mutual

theorem mark_traces (dispatches : (O.guarded plain).Dispatches dispatch) :
    ∀ (mark : Mark) (depth passes : Nat), mark.Kept O.allowed plain depth passes →
      depth ≤ Span.maxNesting → passes ≤ 2 →
      (O.guarded plain).Traces (mark.span.resolve dispatch)
        fun result => Remains O.allowed plain true depth passes mark.heads result.1
  | .mk head tail, depth + 1, passes, kept, nested, few => by
    have keptTail : tail.Kept O.allowed plain head depth passes :=
      ⟨kept.formed.2, Nat.le_of_lt_succ kept.low,
        fun h member => kept.heads h (List.mem_cons_of_mem _ member), kept.guarded.2⟩
    have arguments := tail_traces dispatches tail head {} false depth passes keptTail
      (Nat.le_of_succ_le nested) few fun p member => by cases member
    rw [Mark.span, Span.resolve]
    refine Discipline.Traces.bind (Law.arguments_obeyed dispatches.grows _ _ _) ?_ arguments ?_
    · rintro ⟨params, dirty⟩
      cases head.deferred with
      | true => exact .pure _
      | false => exact (dispatches.grows _ _).bind fun _ => .pure _
    · rintro ⟨params, dirty⟩ carried
      dsimp only at carried ⊢
      -- A deferred tag has its own text read again, any other tag what it is dispatched to.
      cases deferred : head.deferred with
      | true => exact .pure (written_remains kept nested few deferred carried)
      | false =>
        refine Discipline.Traces.bind (dispatches.grows _ _) (fun _ => .pure _)
          (dispatch_remains dispatches kept nested deferred carried) ?_
        exact fun _ remains => .pure remains

theorem tail_traces (dispatches : (O.guarded plain).Dispatches dispatch) :
    ∀ (tail : Tail) (head : Head) (params : Params) (dirty : Bool) (depth passes : Nat),
      tail.Kept O.allowed plain head depth passes → depth ≤ Span.maxNesting → passes ≤ 2 →
      (∀ p ∈ params.entries, Carried O.allowed plain head depth passes p) →
      (O.guarded plain).Traces (Argument.resolveAll dispatch tail.arguments params dirty)
        fun result => ∀ p ∈ result.1.entries, Carried O.allowed plain head depth passes p
  | .close, head, params, dirty, depth, passes, _, _, _, carried => .pure carried
  | .ignored chars, head, params, dirty, depth, passes, _, _, _, carried => .pure carried
  | .blank c rest, head, params, dirty, depth, passes, ⟨formed, low, heads, inside⟩, nested, few,
      carried =>
    tail_traces dispatches rest head params dirty depth passes ⟨formed.2, low, heads, inside⟩ nested
      few carried
  | .nonBreaking rest, head, params, dirty, depth, passes, ⟨formed, low, heads, inside⟩, nested,
      few, carried =>
    tail_traces dispatches rest head params dirty depth passes ⟨formed, low, heads, inside⟩ nested
      few carried
  | .param entity name value rest, head, params, dirty, depth, passes, kept, nested, few,
      carried => by
    obtain ⟨⟨parameters, named, valueFormed, restFormed⟩, low, heads, inert, guarded, guardedRest⟩ :=
      kept
    obtain ⟨valueLow, restLow⟩ := Nat.max_le.mp low
    have keptValue : value.Kept O.allowed plain true depth
        (passesOf head passes (String.ofList name)) :=
      ⟨valueFormed, valueLow, fun h member => heads h (List.mem_append_left _ member), guarded⟩
    have keptRest : rest.Kept O.allowed plain head depth passes :=
      ⟨restFormed, restLow, fun h member => heads h (List.mem_append_right _ member), guardedRest⟩
    have resolved := markup_traces dispatches shows_decoded value [] {} false depth _ keptValue
      nested (passesOf_le head few _) (remains_nothing true)
    rw [Tail.arguments, Argument.resolveAll]
    refine Discipline.Traces.bind (Law.pieces_obeyed dispatches.grows _ _ _) ?_ resolved ?_
    · exact fun _ => Law.arguments_obeyed dispatches.grows _ _ _
    · rintro ⟨text, dirty'⟩ remains
      refine tail_traces dispatches rest head _ _ depth passes keptRest nested few ?_
      intro p member
      rcases Bindings.mem_of_mem_put member with rfl | old
      · refine ⟨parameters, ?_, remains.whole, fun given => remains.inert rfl (inert given)⟩
        rw [String.toList_ofList]
        exact named
      · exact carried p old

theorem markup_traces (dispatches : (O.guarded plain).Dispatches dispatch)
    {shown : List Char → List Piece} {value : List Char → List Char} {inValue : Bool}
    (shows : ∀ {chars}, LiteralIn inValue chars → Shows inValue shown value chars) :
    ∀ (text : Markup) (done : List Head) (out : Rendered) (dirty : Bool) (depth passes : Nat),
      text.Kept O.allowed plain inValue depth passes → depth ≤ Span.maxNesting → passes ≤ 2 →
      Remains O.allowed plain inValue depth passes done out →
      (O.guarded plain).Traces (Piece.resolveAll dispatch (text.pieces shown) out dirty)
        fun result => Remains O.allowed plain inValue depth passes (done ++ text.heads) result.1
  | .text chars, done, out, dirty, depth, passes, kept, nested, few, remains => by
    obtain ⟨out', eq, flat, after⟩ := (shows kept.formed).resolveAll dispatch guarded_joins
      literal_kept [] out dirty remains.reread
    have literal := (shows kept.formed).literal
    rw [List.append_nil] at eq
    rw [Markup.pieces, eq, Markup.heads, List.append_nil]
    refine .pure ⟨after, fun k due => ?_, fun inside inert => ?_⟩
    · rw [flat]
      exact (remains.whole k due).append (.literal literal)
    · rw [flat]
      exact Printed.literal_append (remains.inert inside inert) (inside ▸ literal)
  | .tag chars mark rest, done, out, dirty, depth, passes, kept, nested, few, remains => by
    obtain ⟨⟨formed, markFormed, restFormed⟩, low, heads, guarded, guardedRest⟩ := kept
    obtain ⟨markLow, restLow⟩ := Nat.max_le.mp low
    have keptMark : mark.Kept O.allowed plain depth passes :=
      ⟨markFormed, markLow, fun h member => heads h (List.mem_append_left _ member), guarded⟩
    have keptRest : rest.Kept O.allowed plain inValue depth passes :=
      ⟨restFormed, restLow, fun h member => heads h (List.mem_append_right _ member), guardedRest⟩
    obtain ⟨out', eq, flat, after⟩ := (shows formed).resolveAll dispatch guarded_joins
      literal_kept (.span mark.span :: rest.pieces shown) out dirty remains.reread
    have literal := (shows formed).literal
    have tag := mark_traces dispatches mark depth passes keptMark nested few
    rw [Markup.pieces, eq, Piece.resolveAll, Markup.heads, ← List.append_assoc]
    refine Discipline.Traces.bind (Law.span_obeyed dispatches.grows _) ?_ tag ?_
    · exact fun _ => Law.pieces_obeyed dispatches.grows _ _ _
    · rintro ⟨text, dirty'⟩ stands
      refine markup_traces dispatches shows rest (done ++ mark.heads) (out' ++ text) _ depth passes
        keptRest nested few ⟨Rendered.Reread.append (fun _ _ => .append) after stands.reread, ?_, ?_⟩
      · intro k due
        rw [Rendered.flatten_append, String.toList_append, flat]
        have before := (remains.whole k due).append (.literal literal)
        exact before.append ((stands.whole k due).anywhere inValue)
      · intro inside inert
        have here := stands.inert rfl fun h member => inert h (List.mem_append_right _ member)
        have before := remains.inert inside fun h member => inert h (List.mem_append_left _ member)
        rw [Rendered.flatten_append, String.toList_append, flat]
        exact Printed.literal_append (Printed.literal_append before (inside ▸ literal)) here

end

/-- Reading guarded markup leaves guarded markup to be read again. -/
theorem guarded_lawful (chunks : ∀ name text, O.allowed .chunk name → O.taken name →
    O.chunk? name = some text → Printed O.allowed plain false Span.maxNesting 0 text.toList) :
    (O.guarded plain).Lawful where
  joins := guarded_joins
  blank _ _ := literal_nil true
  chunk name text allowed taken found _ := chunks name text allowed taken found
  scan dispatch dispatches content out formed all := by
    obtain ⟨text, kept, source⟩ := formed rfl
    rw [scanPass, ← source, Piece.readAll_source text kept.formed kept.low]
    have begun : Remains O.allowed plain false Span.maxNesting 0 [] out := by
      refine ⟨all, fun _ due => ?_, fun inside => ?_⟩
      · cases due
      · cases inside
    exact (markup_traces dispatches shows_whole text [] out false Span.maxNesting 0 kept
      (Nat.le_refl _) (Nat.zero_le _) begun).weaken fun _ remains => remains.reread

end Resolving
end DocSite.Template
