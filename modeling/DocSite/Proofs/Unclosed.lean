import DocSite.Proofs.Settled

/-! Text in which nothing closes a tag. Whatever opens in it is read as text and comes to nothing,
so that a render gives it back after one pass and leaves its world alone. -/
namespace DocSite.Template

namespace Span

/-- There is no `]]` in the text. -/
def Unclosed (s : List Char) : Prop := ¬ [']', ']'] <:+: s

namespace Unclosed

variable {s : List Char}

theorem drop (unclosed : Unclosed s) (n : Nat) : Unclosed (s.drop n) :=
  fun inside => unclosed (inside.trans (List.drop_suffix n s).isInfix)

theorem tail {c : Char} (unclosed : Unclosed (c :: s)) : Unclosed s := unclosed.drop 1

theorem not_close {c : Char} (unclosed : Unclosed (c :: s)) : ¬ (c = ']' ∧ s.head? = some ']') := by
  rintro ⟨rfl, next⟩
  obtain ⟨more, rfl⟩ := List.head?_eq_some_iff.mp next
  exact unclosed (List.prefix_append [']', ']'] more).isInfix

theorem closeWidth? (unclosed : Unclosed s) : closeWidth? s = none := by
  cases found : Span.closeWidth? s with
  | none => rfl
  | some width =>
    obtain ⟨chars, taken, -⟩ := closeWidth?_eq_some found
    have close : [']', ']'] <:+: s.take width := taken ▸ (List.suffix_append chars _).isInfix
    exact absurd (close.trans (List.take_prefix width s).isInfix) unclosed

end Unclosed

theorem tagless_nil : ∀ span ∈ ([] : List Span), span.Tagless := List.forall_mem_nil _

theorem tagless_spansOf_cons {piece : Piece} {pieces : List Piece} (here : piece.Tagless)
    (later : ∀ span ∈ spansOf pieces, span.Tagless) :
    ∀ span ∈ spansOf (piece :: pieces), span.Tagless := by
  cases here with
  | text => exact later
  | span here => exact List.forall_mem_cons.mpr ⟨here, later⟩

/-- Spans in a value are as the reader of nested spans finds them. -/
theorem readValue_tagless {nested : Option Reader}
    (reads : ∀ read, nested = some read → ∀ t, Unclosed t → (read t).1.Tagless) {s : List Char}
    (unclosed : Unclosed s) : ∀ span ∈ spansOf (readValue nested s).pieces, span.Tagless := by
  fun_induction readValue nested s with
  | case1 => exact tagless_nil
  | case2 => exact tagless_nil
  | case3 c rest backtick brackets none ih =>
    exact tagless_spansOf_cons .text (none ▸ ih (unclosed.tail.drop 1))
  | case4 c rest backtick brackets read found span width reading ih =>
    have here : span.Tagless := by
      have tagless := reads read found (rest.drop 1) (unclosed.tail.drop 1)
      rwa [reading] at tagless
    exact tagless_spansOf_cons (.span here) (found ▸ ih ((unclosed.tail.drop 1).drop width))
  | case5 c rest backtick brackets found ih =>
    exact tagless_spansOf_cons .text (ih (unclosed.tail.drop 5))
  | case6 c rest backtick brackets noSpace found ih =>
    exact tagless_spansOf_cons .text (ih (unclosed.tail.drop 4))
  | case7 c rest backtick brackets noSpace noAmpersand run ih =>
    exact tagless_spansOf_cons .text (ih (unclosed.tail.drop run.length))

/-- Parameters without a `]]` behind them are given up, and no tag is in their values. -/
theorem readArguments_unclosed {kind : TagKind} {value : List Char → ValueReading}
    (values : ∀ t, Unclosed t → ∀ span ∈ spansOf (value t).pieces, span.Tagless) {s : List Char}
    (unclosed : Unclosed s) : (readArguments kind value s).closed = false ∧
      ∀ span ∈ (readArguments kind value s).given, span.Tagless := by
  fun_induction readArguments kind value s with
  | case1 => exact ⟨rfl, tagless_nil⟩
  | case2 c rest close => exact absurd close unclosed.not_close
  | case3 c rest open' found ih => exact ih (unclosed.tail.drop 5)
  | case4 rest placeholder width found =>
    rw [unclosed.tail.closeWidth?] at found
    cases found
  | case5 => exact ⟨rfl, tagless_nil⟩
  | case6 => exact ⟨rfl, tagless_nil⟩
  | case7 rest parameters open' noSpace lead name afterName opened reading width closed more ih =>
    obtain ⟨opens, later⟩ := ih (unclosed.tail.drop width)
    have here := values (afterName.drop 2) ((unclosed.tail.drop _).drop 2)
    exact ⟨opens, List.forall_mem_append.mpr ⟨here, later⟩⟩
  | case8 rest parameters open' noSpace lead name afterName opened reading width closed =>
    exact ⟨rfl, values (afterName.drop 2) ((unclosed.tail.drop _).drop 2)⟩
  | case9 c rest open' noSpace other blank ih => exact ih unclosed.tail
  | case10 => exact ⟨rfl, tagless_nil⟩

theorem readWith_tagless {value : List Char → ValueReading}
    (values : ∀ t, Unclosed t → ∀ span ∈ spansOf (value t).pieces, span.Tagless) {s : List Char}
    (unclosed : Unclosed s) : (readWith value s).1.Tagless := by
  rcases readWith_cases value s with ⟨h, rest, rfl, found⟩ | ⟨h, stop, rest, rfl, formed, stops⟩
  · rw [found]
    exact .literal tagless_nil
  · have behind : Unclosed (stop :: rest) := by
      have following := unclosed.drop h.chars.length
      rwa [List.drop_left] at following
    obtain ⟨opens, given⟩ := @readArguments_unclosed h.kind value values _ behind
    rw [readWith_head formed stops]
    dsimp only
    rw [opens]
    exact .literal given

/-- By induction on how deep spans may nest. -/
theorem reader_tagless (depth : Nat) {s : List Char} (unclosed : Unclosed s) :
    (reader depth s).1.Tagless := by
  induction depth generalizing s with
  | zero => exact readWith_tagless (fun _ => readValue_tagless fun _ none => by cases none) unclosed
  | succ depth ih =>
    refine readWith_tagless (fun _ => readValue_tagless fun read same t unclosed => ?_) unclosed
    cases same
    exact ih unclosed

end Span

theorem tagless_of_unclosed {text : String} (unclosed : Span.Unclosed text.toList) :
    Tagless text := by
  unfold Tagless
  generalize text.toList = s at unclosed
  fun_induction Piece.readAll s with
  | case1 => exact List.forall_mem_nil _
  | case2 c rest brackets span width reading ih =>
    have here : span.Tagless := by
      have tagless := Span.reader_tagless (Span.maxNesting - 1) (unclosed.tail.drop 1)
      change Span.reader (Span.maxNesting - 1) (rest.drop 1) = _ at reading
      rwa [reading] at tagless
    exact List.forall_mem_cons.mpr ⟨.span here, ih ((unclosed.tail.drop 1).drop width)⟩
  | case3 c rest brackets run ih =>
    exact List.forall_mem_cons.mpr ⟨.text, ih (unclosed.tail.drop run.length)⟩

/-- The session after a render that finds no tag in its text. -/
def Session.glance (s : Session) : Session where
  engine := { s.engine with
    nested := if s.engine.depth = 0 then 0 else s.engine.nested + 1
    limited := if s.engine.depth = 0 then false else s.engine.limited
    stats := s.engine.stats + (⟨1, 1, 0, 0⟩ : Stats) }
  world := (s.world.note (.began (s.engine.depth + 1))).note (.settled 1)

theorem Engine.render_tagless (calls : Calls) {text : String} (tagless : Tagless text)
    (params : Params) (s : Session) :
    render calls text params s = (.ok (Rendered.ofText text), s.glance) := by
  have still : (Rendered.ofText text).Still := by
    intro segment member _
    rw [Rendered.segments_ofText] at member
    split at member
    · cases member
    · cases List.mem_singleton.mp member
      exact tagless
  rw [render, Run.within_apply]
  have passes : maxPasses = 9 + 1 := rfl
  rw [passes, expand_still calls 9 (Rendered.Built.ofText text) still]
  rfl

/-- A text without `]]` holds no tag, whatever opens in it: a pass gives it to no dispatcher and
leaves it as it is. A render gives it back after its first pass. It adds one render and one pass to
the counters, and to its world nothing but the notices of its beginning and its end. -/
theorem unclosed_text_stays {text : String} (unclosed : ¬ [']', ']'] <:+: text.toList) :
    (∀ (m : Type → Type) [Monad m] [LawfulMonad m] (dispatch : Dispatcher m) (out : Rendered),
      scanPass dispatch text out = pure (out.pushText text, false)) ∧
    ∀ (params : Params) (s : Session), ∃ t, Engine.renderString text params s = (.ok text, t) ∧
      t.engine.stats = s.engine.stats + (⟨1, 1, 0, 0⟩ : Stats) ∧
      t.engine.placeholders = s.engine.placeholders ∧ t.engine.depth = s.engine.depth ∧
      t.world = { s.world with
        notices := .settled 1 :: .began (s.engine.depth + 1) :: s.world.notices } := by
  have tagless := tagless_of_unclosed unclosed
  refine ⟨fun m _ _ dispatch out => tagless.passes dispatch out, fun params s => ?_⟩
  refine ⟨s.glance, ?_, rfl, rfl, rfl, rfl⟩
  obtain ⟨limit, whole⟩ : ∃ limit, callLimit = limit + 1 := ⟨1023, rfl⟩
  rw [Engine.renderString_apply whole, Engine.render_tagless _ tagless]
  exact congrArg (fun answer => (Except.ok answer, s.glance)) (Rendered.flatten_ofText text)

/-- Tags of all kinds that are not closed, one of them in the value of another. -/
def loose : String := "é[[$tree &a=`[[if &then=`x]` ]&nbsp;] [[!+who &] [[*who ] ] [[ [[if &then=`[["

theorem loose_text_stays : ¬ [']', ']'] <:+: loose.toList ∧
    ∃ t, Engine.renderString loose {} branching = (.ok loose, t) ∧
      t.engine.stats = ⟨1, 1, 0, 0⟩ ∧
      t.world = { branching.world with notices := [.settled 1, .began 1] } := by
  have unclosed : ¬ [']', ']'] <:+: loose.toList := by decide +kernel
  obtain ⟨t, answered, counted, -, -, world⟩ := (unclosed_text_stays unclosed).2 {} branching
  exact ⟨unclosed, t, answered, counted, world⟩

end DocSite.Template
