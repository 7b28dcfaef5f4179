import DocSite.Proofs.Budget
import DocSite.Proofs.Transcript

/-! What a render leaves when it settles. Where no limit leaves a tag alone, a pass that resolves
nothing has found no tag, so any later pass over what it leaves finds none either. -/
namespace DocSite.Template

/-- No tag stands in the span, nor in its values. -/
inductive Span.Tagless : Span → Prop where
  | literal {source : List Char} {inner : List Span} : (∀ span ∈ inner, Tagless span) →
    Tagless (.literal source inner)

inductive Piece.Tagless : Piece → Prop where
  | text {chars : List Char} : Tagless (.text chars)
  | span {span : Span} : span.Tagless → Tagless (.span span)

/-- A text without tags. -/
def Tagless (content : String) : Prop := ∀ piece ∈ Piece.readAll content.toList, piece.Tagless

section Passing

variable {m : Type → Type} [Monad m] [LawfulMonad m]

theorem spans_pass (dispatch : Dispatcher m) (spans : List Span) (dirty : Bool)
    (pass : ∀ span ∈ spans, ∃ place, span.resolve dispatch = pure (place, false)) :
    Span.visitAll dispatch spans dirty = pure dirty := by
  induction spans with
  | nil => rw [Span.visitAll]
  | cons span rest ih =>
    obtain ⟨⟨place, first⟩, rest⟩ := List.forall_mem_cons.mp pass
    rw [Span.visitAll, first, pure_bind]
    exact (congrArg _ (Bool.or_false dirty)).trans (ih rest)

theorem Span.Tagless.passes {span : Span} (tagless : span.Tagless) (dispatch : Dispatcher m) :
    span.resolve dispatch = pure (Rendered.ofText (String.ofList span.source), false) := by
  induction tagless with
  | literal _ ih =>
    rw [Span.resolve, spans_pass dispatch _ false fun span member => ⟨_, ih span member⟩, pure_bind]
    rfl

theorem pieces_pass (dispatch : Dispatcher m) (pieces : List Piece) (out : Rendered) (dirty : Bool)
    (tagless : ∀ piece ∈ pieces, piece.Tagless) :
    Piece.resolveAll dispatch pieces out dirty =
      pure (out.pushText (String.ofList (gistOf pieces)), dirty) := by
  induction pieces generalizing out with
  | nil =>
    rw [Piece.resolveAll]
    rfl
  | cons piece rest ih =>
    obtain ⟨here, later⟩ := List.forall_mem_cons.mp tagless
    have joined : (out.pushText (String.ofList piece.gist)).pushText (String.ofList (gistOf rest)) =
        out.pushText (String.ofList (gistOf (piece :: rest))) := by
      rw [gistOf, gistOf, List.flatMap_cons, String.ofList_append]
      exact Rendered.push_push ..
    rw [← joined, ← ih _ later]
    cases here with
    | text => rw [Piece.resolveAll, Piece.gist]
    | span here =>
      rw [Piece.resolveAll, here.passes, pure_bind, ← Rendered.append_ofText]
      exact congrArg _ (Bool.or_false dirty)

theorem Tagless.passes {content : String} (tagless : Tagless content) (dispatch : Dispatcher m)
    (out : Rendered) : scanPass dispatch content out = pure (out.pushText content, false) := by
  rw [scanPass, pieces_pass dispatch _ out false tagless, (Piece.readAll_formed content.toList).2,
    String.ofList_toList]

end Passing

namespace Rendered

theorem Built.join {r : Rendered} (built : r.Built) (places : List Rendered) :
    (r.join places).Built := by
  induction places generalizing r with
  | nil => exact built
  | cons place places ih => exact ih (built.append place)

/-- The next pass has no tag to read in it. -/
def Still (r : Rendered) : Prop := ∀ s ∈ r.segments, s.kind = .text → Template.Tagless s.content

end Rendered

/-- How many tags limits have left alone. -/
def Session.refusals (s : Session) : Nat := s.world.journal.countP Event.isRefusal

theorem Session.refusals_of_journal {s t : Session} {events : List Event}
    (journal : t.world.journal = events ++ s.world.journal) :
    t.refusals = events.countP Event.isRefusal + s.refusals := by
  rw [refusals, journal, List.countP_append]
  rfl

theorem Session.refusals_le_of_journal {s t : Session} {events : List Event}
    (journal : t.world.journal = events ++ s.world.journal) : s.refusals ≤ t.refusals := by
  rw [refusals_of_journal journal]
  exact Nat.le_add_left ..

theorem Session.refusals_refused (s : Session) (e : Engine) (kind : TagKind) (name : String)
    (nested : Nat) :
    refusals ⟨e, s.world.record (.refused kind name nested)⟩ = s.refusals + 1 :=
  List.countP_cons_of_pos rfl

/-- No refusal is ever taken back. -/
def Law.refusals : Law where
  Holds s _ t := s.refusals ≤ t.refusals
  refl _ := Nat.le_refl _
  trans := Nat.le_trans

namespace Refusals

variable {α β : Type}

theorem universal : Law.refusals.Universal where
  ends held := held
  placeholders _ _ := Nat.le_refl _
  stats _ _ _ := Nat.le_refl _
  world move s := by
    obtain ⟨events, journal⟩ := move.grows s.world
    exact Session.refusals_le_of_journal journal
  refuse s kind name := by
    change s.refusals ≤ Session.refusals _
    rw [Session.refusals_refused]
    exact Nat.le_succ _
  within params obeyed s := obeyed (s.enter params)

theorem grow {work : Run α} {s t : Session} {a : α} (obeyed : Law.refusals.Obeyed work)
    (ended : work s = (.ok a, t)) : s.refusals ≤ t.refusals := by
  have grown := obeyed s
  rw [Law.At, ended] at grown
  exact grown

/-- Work without a refusal consists of parts without one. -/
theorem split {work : Run α} {next : α → Run β} {s t : Session} {b : β}
    (first : Law.refusals.Obeyed work) (rest : ∀ a, Law.refusals.Obeyed (next a))
    (ended : (work >>= next) s = (.ok b, t)) (quiet : t.refusals ≤ s.refusals) :
    ∃ a between, work s = (.ok a, between) ∧ next a between = (.ok b, t) ∧
      between.refusals ≤ s.refusals ∧ t.refusals ≤ between.refusals := by
  obtain ⟨a, between, here, later⟩ := Work.ok_of_bind ended
  have before := grow first here
  have after := grow (rest a) later
  exact ⟨a, between, here, later, Nat.le_trans after quiet, Nat.le_trans quiet before⟩

end Refusals

namespace Engine

variable {calls : Calls}

/-- A pass over a still text resolves nothing, and gives what the pushes of its segments give. -/
theorem passOver_still (calls : Calls) (segments : List Segment) (out : Rendered) (dirty : Bool)
    (still : ∀ s ∈ segments, s.kind = .text → Tagless s.content) :
    passOver calls segments out dirty =
      pure (segments.foldl (fun r s => r.push s.kind s.content) out, dirty) := by
  induction segments generalizing out with
  | nil => rfl
  | cons segment rest ih =>
    obtain ⟨here, later⟩ := List.forall_mem_cons.mp still
    obtain ⟨kind, content⟩ := segment
    cases kind with
    | verbatim => exact ih _ later
    | text =>
      rw [passOver, (here rfl).passes, pure_bind]
      exact (congrArg _ (Bool.or_false dirty)).trans (ih _ later)

theorem built_of_passOver {segments : List Segment} {out result : Rendered} {dirty dirty' : Bool}
    {s t : Session} (built : out.Built)
    (ended : passOver calls segments out dirty s = (.ok (result, dirty'), t)) : result.Built := by
  induction segments generalizing out dirty s with
  | nil =>
    cases ended
    exact built
  | cons segment rest ih =>
    obtain ⟨kind, content⟩ := segment
    cases kind with
    | verbatim => exact ih (built.push .verbatim content) ended
    | text =>
      rw [passOver] at ended
      obtain ⟨⟨next, d⟩, between, scanned, later⟩ := Work.ok_of_bind ended
      obtain ⟨places, -, rfl⟩ := pieces_transcribed _ _ _ scanned
      exact ih (built.join places) later

/-- A tag that is not resolved has been left alone by a limit. -/
theorem refused_of_dispatch {tag : Tag} {source : List Char} {place : Rendered} {s t : Session}
    (ended : dispatch calls tag source s = (.ok (place, false), t)) : s.refusals < t.refusals := by
  cases placeholder : tag.kind.isPlaceholder with
  | true =>
    rw [dispatch_placeholder placeholder] at ended
    cases ended
  | false =>
    cases free : s.engine.mayDescend with
    | false =>
      rw [dispatch_refused placeholder free] at ended
      cases ended
      rw [Session.refusals_refused]
      exact Nat.lt_succ_self _
    | true =>
      cases kind : tag.kind with
      | chunk =>
        rw [dispatch_chunk kind free, includeChunk] at ended
        obtain ⟨found, between, -, later⟩ := Work.ok_of_bind ended
        cases found with
        | none => cases later
        | some text =>
          obtain ⟨_, _, -, finished⟩ := Work.ok_of_bind later
          cases finished
      | snippet =>
        rw [dispatch_snippet kind free, includeSnippet] at ended
        obtain ⟨found, between, -, later⟩ := Work.ok_of_bind ended
        cases found with
        | none => cases later
        | some text =>
          obtain ⟨_, _, -, finished⟩ := Work.ok_of_bind later
          cases finished
      | placeholder => simp [kind, TagKind.isPlaceholder] at placeholder
      | starred => simp [kind, TagKind.isPlaceholder] at placeholder

section

variable (kept : Law.refusals.OnCalls calls)
include kept

theorem obeys (tag : Tag) (source : List Char) : Law.refusals.Obeyed (dispatch calls tag source) :=
  Refusals.universal.dispatch kept tag source

mutual

theorem span_tagless : ∀ (span : Span) {place : Rendered} {s t : Session},
    span.resolve (dispatch calls) s = (.ok (place, false), t) → t.refusals ≤ s.refusals →
      span.Tagless
  | .literal source inner, place, s, t, ended, quiet => by
    rw [Span.resolve] at ended
    obtain ⟨dirty, between, visited, finished⟩ := Work.ok_of_bind ended
    cases finished
    exact .literal (spans_tagless inner visited quiet).2
  | .tag deferred kind name arguments source, place, s, t, ended, quiet => by
    rw [Span.resolve] at ended
    obtain ⟨⟨params, dirty⟩, named, given, finished⟩ := Work.ok_of_bind ended
    have before := Refusals.grow (Law.arguments_obeyed (obeys kept) arguments {} false) given
    cases deferred with
    | true => cases finished
    | false =>
      obtain ⟨⟨out, resolved⟩, between, answered, same⟩ := Work.ok_of_bind finished
      change ((.ok (out, dirty || resolved) : Except Stop _), between) = (.ok (place, false), t) at same
      obtain ⟨answer, rfl⟩ := Prod.mk.inj same
      obtain ⟨-, rfl⟩ := Bool.or_eq_false_iff.mp (Prod.mk.inj (Except.ok.inj answer)).2
      have after := refused_of_dispatch answered
      omega

theorem spans_tagless : ∀ (spans : List Span) {dirty : Bool} {s t : Session},
    Span.visitAll (dispatch calls) spans dirty s = (.ok false, t) → t.refusals ≤ s.refusals →
      dirty = false ∧ ∀ span ∈ spans, span.Tagless
  | [], dirty, s, t, ended, quiet => by
    rw [Span.visitAll] at ended
    cases ended
    exact ⟨rfl, nofun⟩
  | span :: rest, dirty, s, t, ended, quiet => by
    rw [Span.visitAll] at ended
    obtain ⟨⟨place, d⟩, between, here, later, before, after⟩ := Refusals.split
      (Law.span_obeyed (obeys kept) span) (fun _ => Law.spans_obeyed (obeys kept) rest _) ended quiet
    obtain ⟨none, others⟩ := spans_tagless rest later after
    obtain ⟨clean, rfl⟩ := Bool.or_eq_false_iff.mp none
    exact ⟨clean, List.forall_mem_cons.mpr ⟨span_tagless span here before, others⟩⟩

end

theorem pieces_tagless (pieces : List Piece) {out result : Rendered} {dirty : Bool} {s t : Session}
    (ended : Piece.resolveAll (dispatch calls) pieces out dirty s = (.ok (result, false), t))
    (quiet : t.refusals ≤ s.refusals) : dirty = false ∧ ∀ piece ∈ pieces, piece.Tagless := by
  induction pieces generalizing out dirty s with
  | nil =>
    rw [Piece.resolveAll] at ended
    cases ended
    exact ⟨rfl, nofun⟩
  | cons piece rest ih =>
    cases piece with
    | text chars =>
      rw [Piece.resolveAll] at ended
      obtain ⟨clean, others⟩ := ih ended quiet
      exact ⟨clean, List.forall_mem_cons.mpr ⟨.text, others⟩⟩
    | span span =>
      rw [Piece.resolveAll] at ended
      obtain ⟨⟨place, d⟩, between, here, later, before, after⟩ :=
        Refusals.split (Law.span_obeyed (obeys kept) span)
          (fun _ => Law.pieces_obeyed (obeys kept) rest _ _) ended quiet
      obtain ⟨none, others⟩ := ih later after
      obtain ⟨clean, rfl⟩ := Bool.or_eq_false_iff.mp none
      exact ⟨clean, List.forall_mem_cons.mpr ⟨.span (span_tagless kept span here before), others⟩⟩

theorem still_of_passOver (segments : List Segment) {out result : Rendered} {dirty : Bool}
    {s t : Session} (ended : passOver calls segments out dirty s = (.ok (result, false), t))
    (quiet : t.refusals ≤ s.refusals) :
    dirty = false ∧ ∀ s ∈ segments, s.kind = .text → Tagless s.content := by
  induction segments generalizing out dirty s with
  | nil =>
    cases ended
    exact ⟨rfl, nofun⟩
  | cons segment rest ih =>
    obtain ⟨kind, content⟩ := segment
    cases kind with
    | verbatim =>
      obtain ⟨clean, others⟩ := ih ended quiet
      exact ⟨clean, List.forall_mem_cons.mpr ⟨nofun, others⟩⟩
    | text =>
      rw [passOver] at ended
      obtain ⟨⟨next, d⟩, between, here, later, before, after⟩ :=
        Refusals.split (Law.pieces_obeyed (obeys kept) _ out false)
          (fun _ => Law.passOver_obeyed (obeys kept) rest _ _) ended quiet
      obtain ⟨none, others⟩ := ih later after
      obtain ⟨clean, rfl⟩ := Bool.or_eq_false_iff.mp none
      exact ⟨clean, List.forall_mem_cons.mpr
        ⟨fun _ => (pieces_tagless kept _ here before).2, others⟩⟩

theorem afterPass_obeyed (passes : Nat) (result : Rendered × Bool) :
    Law.refusals.Obeyed (afterPass calls passes result) := by
  obtain ⟨next, dirty⟩ := result
  cases dirty with
  | true => exact Refusals.universal.expand kept passes next
  | false => exact (Refusals.universal.note _).bind fun _ => .pure _

/-- A render that settles has no tag left, unless a limit has left one alone. -/
theorem still_of_expand (passes : Nat) {current result : Rendered} {s t : Session}
    (built : current.Built) (ended : expand calls passes current s = (.ok result, t))
    (settled : t.world.notices.head? ≠ some .exhausted) (quiet : t.refusals ≤ s.refusals) :
    result.Built ∧ result.Still := by
  induction passes generalizing current s with
  | zero =>
    rw [expand_zero] at ended
    cases ended
    exact absurd rfl settled
  | succ passes ih =>
    rw [expand_succ] at ended
    obtain ⟨⟨next, dirty⟩, between, passed, later, before, after⟩ := Refusals.split
      (Law.passOver_obeyed (obeys kept) current.segments {} false)
      (afterPass_obeyed kept passes) ended quiet
    cases dirty with
    | true => exact ih (built_of_passOver .empty passed) later after
    | false =>
      cases later
      obtain ⟨-, still⟩ := still_of_passOver kept current.segments passed quiet
      rw [passOver_still calls current.segments {} false still] at passed
      have same : {} ++ current = next := congrArg Prod.fst (Except.ok.inj (congrArg Prod.fst passed))
      rw [← same, built]
      exact ⟨built, still⟩

end

/-- What is still and built of pushes is left as it is by a second render of it. -/
theorem expand_still (calls : Calls) (passes : Nat) {current : Rendered} (built : current.Built)
    (still : current.Still) (s : Session) : expand calls (passes + 1) current s =
      (.ok current, ⟨s.engine.countPass, s.world.note (.settled (maxPasses - passes))⟩) := by
  have same : current.segments.foldl (fun r s => r.push s.kind s.content) {} = current := built
  rw [expand_succ, passOver_still calls _ {} false still, same]
  rfl

end Engine
end DocSite.Template
