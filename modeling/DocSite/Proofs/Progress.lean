import DocSite.Proofs.Transcript

/-! What keeps a render going. A pass counts as one that resolved something when any tag in it was
resolved, also one in a value of text that turned out to be no tag. -/
namespace DocSite.Template

/-- What became of a tag that was read. -/
structure Fate where
  /-- How many parameter values the tag stands in. -/
  level : Nat
  /-- The tag was resolved, or put off to the next pass. -/
  resolved : Bool
  deriving Repr, DecidableEq

/-- Some tag was resolved or put off, wherever it stands. -/
def Stirs (fates : List Fate) : Prop := ∃ f ∈ fates, f.resolved = true

/-- Some tag outside all values was resolved or put off, so that other text takes its place. -/
def Changes (fates : List Fate) : Prop := ∃ f ∈ fates, f.level = 0 ∧ f.resolved = true

instance (fates : List Fate) : Decidable (Stirs fates) :=
  inferInstanceAs (Decidable (∃ f ∈ fates, f.resolved = true))

instance (fates : List Fate) : Decidable (Changes fates) :=
  inferInstanceAs (Decidable (∃ f ∈ fates, f.level = 0 ∧ f.resolved = true))

theorem Changes.stirs {fates : List Fate} (changes : Changes fates) : Stirs fates := by
  obtain ⟨f, member, -, resolved⟩ := changes
  exact ⟨f, member, resolved⟩

variable {m : Type → Type} [Monad m]

mutual

/-- Resolves a span that stands in `level` values, and tells what becomes of each tag in it. -/
def Span.follow (dispatch : Dispatcher m) (level : Nat) : Span → m (Rendered × List Fate)
  | .literal source inner => do
    let fates ← Span.followAll dispatch (level + 1) inner
    pure (Rendered.ofText (String.ofList source), fates)
  | .tag deferred kind name arguments source => do
    let (params, fates) ← Argument.followAll dispatch (level + 1) arguments {}
    if deferred then
      let later : Tag := { kind, name, params }
      pure (Rendered.ofText (String.ofList later.chars), fates ++ [⟨level, true⟩])
    else
      let (out, resolved) ← dispatch { kind, name, params } source
      pure (out, fates ++ [⟨level, resolved⟩])

def Span.followAll (dispatch : Dispatcher m) (level : Nat) : List Span → m (List Fate)
  | [] => pure []
  | s :: rest => do
    let (_, fates) ← Span.follow dispatch level s
    return fates ++ (← Span.followAll dispatch level rest)

def Argument.followAll (dispatch : Dispatcher m) (level : Nat) :
    List Argument → Params → m (Params × List Fate)
  | [], params => pure (params, [])
  | .mk name value :: rest, params => do
    let (text, fates) ← Piece.followAll dispatch level value {}
    let (params, more) ← Argument.followAll dispatch level rest (params.insert name text.flatten)
    pure (params, fates ++ more)

def Piece.followAll (dispatch : Dispatcher m) (level : Nat) :
    List Piece → Rendered → m (Rendered × List Fate)
  | [], out => pure (out, [])
  | .text chars :: rest, out =>
    Piece.followAll dispatch level rest (out.pushText (String.ofList chars))
  | .span s :: rest, out => do
    let (text, fates) ← Span.follow dispatch level s
    let (out, more) ← Piece.followAll dispatch level rest (out ++ text)
    pure (out, fates ++ more)

end

/-- The pass over a text, with what becomes of each tag. -/
def followPass (dispatch : Dispatcher m) (source : String) (out : Rendered) :
    m (Rendered × List Fate) :=
  Piece.followAll dispatch 0 (Piece.readAll source.toList) out

/-- What a pass tells of the fates of its tags. -/
def told {α : Type} (dirty : Bool) (r : α × List Fate) : α × Bool :=
  (r.1, dirty || r.2.any Fate.resolved)

theorem told_eq {α : Type} (dirty : Bool) :
    told dirty = fun r : α × List Fate => (r.1, dirty || r.2.any Fate.resolved) := rfl

section Lawful

variable [LawfulMonad m] (dispatch : Dispatcher m)

mutual

theorem span_follows (level : Nat) : ∀ span : Span,
    span.resolve dispatch = told false <$> span.follow dispatch level
  | .literal source inner => by
    rw [Span.resolve, Span.follow, spans_follow (level + 1) inner false]
    simp [told_eq]
  | .tag deferred kind name arguments source => by
    rw [Span.resolve, Span.follow, arguments_follow (level + 1) arguments {} false]
    cases deferred <;> simp [told_eq]

theorem spans_follow (level : Nat) : ∀ (spans : List Span) (dirty : Bool),
    Span.visitAll dispatch spans dirty =
      (fun fates => dirty || fates.any Fate.resolved) <$> Span.followAll dispatch level spans
  | [], dirty => by simp [Span.visitAll, Span.followAll]
  | span :: rest, dirty => by
    rw [Span.visitAll, Span.followAll, span_follows level span]
    simp [told_eq, spans_follow level rest, Bool.or_assoc]

theorem arguments_follow (level : Nat) : ∀ (arguments : List Argument) (params : Params)
    (dirty : Bool), Argument.resolveAll dispatch arguments params dirty =
      told dirty <$> Argument.followAll dispatch level arguments params
  | [], params, dirty => by simp [Argument.resolveAll, Argument.followAll, told_eq]
  | .mk name value :: rest, params, dirty => by
    rw [Argument.resolveAll, Argument.followAll, pieces_follow level value {} false]
    simp [told_eq, arguments_follow level rest, Bool.or_assoc]

theorem pieces_follow (level : Nat) : ∀ (pieces : List Piece) (out : Rendered) (dirty : Bool),
    Piece.resolveAll dispatch pieces out dirty =
      told dirty <$> Piece.followAll dispatch level pieces out
  | [], out, dirty => by simp [Piece.resolveAll, Piece.followAll, told_eq]
  | .text chars :: rest, out, dirty => by
    rw [Piece.resolveAll, Piece.followAll]
    exact pieces_follow level rest _ dirty
  | .span span :: rest, out, dirty => by
    rw [Piece.resolveAll, Piece.followAll, span_follows level span]
    simp [told_eq, pieces_follow level rest, Bool.or_assoc]

end

/-- Following a pass changes nothing about it, and the pass tells whether its tags stirred. -/
theorem scanPass_follows (source : String) (out : Rendered) :
    scanPass dispatch source out = told false <$> followPass dispatch source out :=
  pieces_follow dispatch 0 _ out false

end Lawful

theorem any_resolved (fates : List Fate) : fates.any Fate.resolved = true ↔ Stirs fates :=
  List.any_eq_true

/-- Work that tells whether tags stirred has their fates behind it. -/
theorem followed {ε σ α : Type} {work : Work ε σ (α × List Fate)} {dirty stirred : Bool} {a : α}
    {s t : σ} (ended : (told dirty <$> work) s = (.ok (a, stirred), t)) :
    ∃ fates, work s = (.ok (a, fates), t) ∧ stirred = (dirty || fates.any Fate.resolved) := by
  rw [map_eq_pure_bind] at ended
  obtain ⟨⟨_, fates⟩, between, done, same⟩ := Work.ok_of_bind ended
  cases same
  exact ⟨fates, done, rfl⟩

namespace Engine

/-- One pass over all segments, with what becomes of each tag. -/
def followOver (calls : Calls) : List Segment → Rendered → Run (Rendered × List Fate)
  | [], out => pure (out, [])
  | ⟨.verbatim, content⟩ :: rest, out => followOver calls rest (out.pushVerbatim content)
  | ⟨.text, content⟩ :: rest, out => do
    let (out, fates) ← followPass (dispatch calls) content out
    let (out, more) ← followOver calls rest out
    pure (out, fates ++ more)

theorem passOver_follows (calls : Calls) (segments : List Segment) :
    ∀ (out : Rendered) (dirty : Bool),
      passOver calls segments out dirty = told dirty <$> followOver calls segments out := by
  induction segments with
  | nil => exact fun out dirty => by simp [passOver, followOver, told_eq]
  | cons segment rest ih =>
    intro out dirty
    obtain ⟨kind, content⟩ := segment
    cases kind with
    | verbatim => exact ih _ dirty
    | text =>
      rw [passOver, followOver, scanPass_follows]
      simp [told_eq, ih, Bool.or_assoc]

/-- A render that may make `left` more passes, pass by pass. It goes on as long as there are passes
left and what becomes of the tags in a pass is such that it `goesOn`. -/
inductive Passes (goesOn : List Fate → Prop) (calls : Calls) :
    (left : Nat) → Rendered → Session → List (List Fate) → Rendered → Session → Prop where
  /-- There was something to go on with, and no pass left for it. -/
  | exhausted {current : Rendered} {s : Session} : Passes goesOn calls 0 current s [] current
      ⟨s.engine.countExhausted, s.world.note .exhausted⟩
  | last {left : Nat} {current next : Rendered} {s t : Session} {fates : List Fate} :
    followOver calls current.segments {} { s with engine := s.engine.countPass } =
      (.ok (next, fates), t) → ¬ goesOn fates →
    Passes goesOn calls (left + 1) current s [fates] next
      { t with world := t.world.note (.settled (maxPasses - left)) }
  | again {left : Nat} {current next result : Rendered} {s t u : Session} {fates : List Fate}
    {more : List (List Fate)} :
    followOver calls current.segments {} { s with engine := s.engine.countPass } =
      (.ok (next, fates), t) → goesOn fates → Passes goesOn calls left next t more result u →
    Passes goesOn calls (left + 1) current s (fates :: more) result u

/-- A render goes on as long as its passes stir. -/
theorem expand_passes {calls : Calls} (left : Nat) {current result : Rendered} {s t : Session}
    (ended : expand calls left current s = (.ok result, t)) :
    ∃ history, Passes Stirs calls left current s history result t := by
  induction left generalizing current s with
  | zero =>
    rw [expand_zero] at ended
    cases ended
    exact ⟨[], .exhausted⟩
  | succ left ih =>
    rw [expand_succ] at ended
    obtain ⟨⟨next, dirty⟩, between, passed, later⟩ := Work.ok_of_bind ended
    rw [passOver_follows] at passed
    obtain ⟨fates, followed, rfl⟩ := followed passed
    rw [afterPass, Bool.false_or] at later
    split at later
    · rename_i stirs
      obtain ⟨more, passes⟩ := ih later
      exact ⟨fates :: more, .again followed ((any_resolved fates).mp stirs) passes⟩
    · rename_i still
      cases later
      exact ⟨[fates], .last followed fun stirs => still ((any_resolved fates).mpr stirs)⟩

/-- Two ways to decide when to go on tell of the same passes just when they agree on each pass. -/
theorem Passes.agree_iff {goesOn other : List Fate → Prop} {calls : Calls} {left : Nat}
    {current result : Rendered} {s t : Session} {history : List (List Fate)}
    (passes : Passes goesOn calls left current s history result t) :
    Passes other calls left current s history result t ↔
      ∀ fates ∈ history, (goesOn fates ↔ other fates) := by
  induction passes with
  | exhausted => exact iff_of_true .exhausted fun _ none => nomatch none
  | last followed stop =>
    rw [List.forall_mem_singleton]
    refine ⟨fun same => ?_, fun agree => .last followed fun go => stop (agree.mpr go)⟩
    generalize ended : ({ engine := _, world := _ } : Session) = after at same
    cases same with
    | last followed' stop' =>
      cases followed.symm.trans followed'
      exact iff_of_false stop stop'
    | again followed' _ later =>
      cases followed.symm.trans followed'
      -- A render that settled has said so, and not that its passes ran out.
      cases later
      cases congrArg (·.world.notices.head?) ended
  | @again left _ _ _ _ _ _ _ more followed go later ih =>
    rw [List.forall_mem_cons, ← ih]
    refine ⟨fun same => ?_, fun ⟨agree, same⟩ => .again followed (agree.mp go) same⟩
    generalize all : _ :: more = history at same
    cases same with
    | last followed' stop =>
      cases followed.symm.trans followed'
      cases all
      generalize ended : ({ engine := _, world := _ } : Session) = after at later
      cases later
      cases congrArg (·.world.notices.head?) ended
    | again followed' go' later' =>
      cases followed.symm.trans followed'
      cases all
      exact ⟨iff_of_true go go', later'⟩

end Engine

/-- A pass tells that it resolved something just when some tag of its text was resolved or put off,
at whatever level, and a render goes on as long as its passes stir so. That is the same as saying
that they change the text just when no pass stirs by tags in values alone. -/
theorem stirring_keeps_going {ε σ : Type} (dispatch : Dispatcher (Work ε σ)) (calls : Calls) :
    (∀ (source : String) (out result : Rendered) (dirty : Bool) (s t : σ),
      scanPass dispatch source out s = (.ok (result, dirty), t) →
      ∃ fates, followPass dispatch source out s = (.ok (result, fates), t) ∧
        (dirty = true ↔ Stirs fates) ∧
        ((dirty = true ↔ Changes fates) ↔ (Stirs fates → Changes fates))) ∧
    ∀ (left : Nat) (current result : Rendered) (s t : Session),
      Engine.expand calls left current s = (.ok result, t) →
      ∃ history, Engine.Passes Stirs calls left current s history result t ∧
        (Engine.Passes Changes calls left current s history result t ↔
          ∀ fates ∈ history, Stirs fates → Changes fates) := by
  have exact_of (fates : List Fate) :
      (Stirs fates ↔ Changes fates) ↔ (Stirs fates → Changes fates) :=
    ⟨Iff.mp, fun changes => ⟨changes, Changes.stirs⟩⟩
  refine ⟨fun source out result dirty s t ended => ?_,
    fun left current result s t ended => ?_⟩
  · rw [scanPass_follows] at ended
    obtain ⟨fates, done, rfl⟩ := followed ended
    have stirs := any_resolved fates
    rw [Bool.false_or]
    exact ⟨fates, done, stirs, by rw [stirs, exact_of]⟩
  · obtain ⟨history, passes⟩ := Engine.expand_passes left ended
    refine ⟨history, passes, passes.agree_iff.trans ?_⟩
    exact forall₂_congr fun fates _ => exact_of fates

namespace Stuck

/-- Resolves placeholders, and leaves all other tags as they are. -/
def cautious : Dispatcher (Work Unit Nat) := fun tag source =>
  pure (if tag.kind.isPlaceholder then ({}, true)
    else (Rendered.empty.pushVerbatim (String.ofList source), false))

/-- A tag without an end. -/
def halfTag : String := "[[note &of=`[[+y]]` é"

/-- A chunk tag. -/
def wholeTag : String := "[[$note &of=`[[+y]]`]]"

/-- Two placeholder tags, one with a tag in a value that it ignores. -/
def starredTag : String := "[[*z &of=`[[$c]][[+y]]`]]"

def text : String := "[[note &of=`[[$c]]` é"

def site : Session where
  world := ({} : World).registerChunk "c" "x"

end Stuck

section

open Stuck

theorem starred_text_stirs :
    (scanPass cautious starredTag {} 0 = (.ok ({}, true), 0) ∧
      ∃ fates, followPass cautious starredTag {} 0 = (.ok ({}, fates), 0) ∧
        (true = true ↔ Changes fates)) ∧
    (Engine.expand (Engine.callsWithin 1) 2 (.ofText text) site).1 = .ok (.ofText text) ∧
    ∃ history, Engine.Passes Stirs (Engine.callsWithin 1) 2 (.ofText text) site history
      (.ofText text) (Engine.expand (Engine.callsWithin 1) 2 (.ofText text) site).2 := by
  have passed : scanPass cautious starredTag {} 0 = (.ok ({}, true), 0) := by
    change @Eq (Except Unit (Rendered × Bool) × Nat) _ _
    decide +kernel
  have fated : followPass cautious starredTag {} 0 =
      (.ok ({}, [⟨1, false⟩, ⟨1, true⟩, ⟨0, true⟩]), 0) := by
    change @Eq (Except Unit (Rendered × List Fate) × Nat) _ _
    decide +kernel
  have ended : (Engine.expand (Engine.callsWithin 1) 2 (.ofText text) site).1 =
      .ok (.ofText text) := by decide +kernel
  obtain ⟨scans, renders⟩ := stirring_keeps_going cautious (Engine.callsWithin 1)
  obtain ⟨fates, followed, -, same⟩ := scans starredTag {} {} true 0 0 passed
  cases fated.symm.trans followed
  obtain ⟨history, passes, -⟩ := renders 2 (.ofText text) (.ofText text) site _
    (Prod.ext ended rfl)
  exact ⟨⟨passed, _, fated, same.mpr fun _ => by decide⟩, ended, history, passes⟩

/-- A pass tells that it resolved something though all its text stays, be it text with a broken tag
or with one that is left alone. So a render of such text takes up the tags in it on every pass and
runs out of passes. -/
theorem kept_text_stirs :
    (scanPass cautious halfTag {} 0 = (.ok (Rendered.ofText halfTag, true), 0) ∧
      followPass cautious halfTag {} 0 = (.ok (Rendered.ofText halfTag, [⟨1, true⟩]), 0) ∧
      ¬ Changes [⟨1, true⟩]) ∧
    (scanPass cautious wholeTag {} 0 = (.ok (Rendered.empty.pushVerbatim wholeTag, true), 0) ∧
      followPass cautious wholeTag {} 0 =
        (.ok (Rendered.empty.pushVerbatim wholeTag, [⟨1, true⟩, ⟨0, false⟩]), 0) ∧
      ¬ Changes [⟨1, true⟩, ⟨0, false⟩]) ∧
    (Engine.renderString text {} site).1 = .ok text ∧
    (Engine.renderString text {} site).2.engine.stats = ⟨11, 20, 1, 0⟩ ∧
    (Engine.renderString text {} site).2.world.journal =
      List.replicate maxPasses (.dispatched .chunk "c") := by
  refine ⟨⟨?_, ?_, by decide⟩, ⟨?_, ?_, by decide⟩, ?_⟩
  · change @Eq (Except Unit (Rendered × Bool) × Nat) _ _
    decide +kernel
  · change @Eq (Except Unit (Rendered × List Fate) × Nat) _ _
    decide +kernel
  · change @Eq (Except Unit (Rendered × Bool) × Nat) _ _
    decide +kernel
  · change @Eq (Except Unit (Rendered × List Fate) × Nat) _ _
    decide +kernel
  · decide +kernel

end

end DocSite.Template
