import DocSite.Proofs.Law
import DocSite.Proofs.Transcript

/-! What a render visits. Beside the engine stands one that also tells which tags it comes to, the
answer of a snippet with its tag. It does the same, and only a snippet can make it fail. -/
namespace DocSite.Template

/-- A tag that a render comes to. -/
inductive Visit where
  | placeholder (tag : Tag)
  /-- A limit leaves the tag alone. -/
  | refused (tag : Tag)
  /-- The chunk is taken up, and what the tags in it come to follows. -/
  | chunk (tag : Tag)
  /-- The snippet has been run. An unknown snippet answers with empty text. -/
  | snippet (tag : Tag) (answer : Except SnippetError String)
  deriving DecidableEq

/-- The snippet of the tag has failed. -/
def Visit.Fails : Visit → Prop
  | .snippet _ (.error _) => True
  | .snippet _ (.ok _) | .placeholder _ | .refused _ | .chunk _ => False

/-- What a snippet answers, before the engine makes an error of it. -/
def Snippet.answer (calls : Calls) (params : Params) : Snippet → Run (Except SnippetError String)
  | .program start => (start params).run calls
  | .script path => fun s => (.ok (Script.run s.world.files path params), s)

/-- A failure of the snippet called `name`, or its text. -/
def Run.accept (name : String) : Except SnippetError String → Run String
  | .ok text => pure text
  | .error cause => Run.stop (.failed ⟨name, cause⟩)

theorem Engine.execute_eq (calls : Calls) (name : String) (params : Params) (snippet : Snippet) :
    execute calls name params snippet = snippet.answer calls params >>= Run.accept name := by
  cases snippet with
  | program start => rfl
  | script path =>
    funext s
    rw [Run.bind_apply]
    simp only [execute, Snippet.answer]
    cases Script.run s.world.files path params <;> rfl

/-- Work that also tells what it visits, the first visit first. -/
abbrev Traced (α : Type) := Work Stop (Session × List Visit) α

namespace Traced

variable {α : Type}

/-- Work in which nothing is visited. -/
def lift (work : Run α) : Traced α := fun (s, seen) => ((work s).1, (work s).2, seen)

def visit (v : Visit) : Traced Unit := fun (s, seen) => (.ok (), s, seen ++ [v])

def within (params : Params) (work : Traced α) : Traced α := fun (s, seen) =>
  let (answer, after, visits) := work (s.enter params, seen)
  (answer, s.leave after, visits)

variable (calls : Calls) (render : String → Params → Traced Rendered)

def includeChunk (tag : Tag) : Traced (Rendered × Bool) := do
  visit (.chunk tag)
  match ← lift (Run.onWorld (·.chunk tag.name)) with
  | none => pure ({}, true)
  | some text => return (← render text tag.params, true)

/-- A snippet has renders of its own, which are not followed. -/
def includeSnippet (tag : Tag) : Traced (Rendered × Bool) := do
  match ← lift (Run.onWorld (·.snippet tag.name)) with
  | none =>
    visit (.snippet tag (.ok ""))
    pure ({}, true)
  | some snippet =>
    let answer ← lift (snippet.answer calls tag.params)
    visit (.snippet tag answer)
    return (Rendered.ofText (← lift (Run.accept tag.name answer)), true)

/-- What the engine does with a tag, where `render` is for chunks. -/
def dispatch : Dispatcher Traced := fun tag source => do
  let e ← lift Run.engine
  if tag.kind.isPlaceholder then
    visit (.placeholder tag)
    pure (Rendered.empty.pushVerbatim (e.placeholders.getD tag.name ""), true)
  else if e.mayDescend then
    lift (Run.record (.dispatched tag.kind tag.name))
    match tag.kind with
    | .chunk => includeChunk render tag
    | _ => includeSnippet calls tag
  else
    lift (Run.record (.refused tag.kind tag.name e.nested))
    lift (Run.onEngine Engine.noteLimit)
    visit (.refused tag)
    pure (Rendered.empty.pushVerbatim (String.ofList source), false)

def passOver (dispatch : Dispatcher Traced) :
    List Segment → Rendered → Bool → Traced (Rendered × Bool)
  | [], out, dirty => pure (out, dirty)
  | ⟨.verbatim, content⟩ :: rest, out, dirty =>
    passOver dispatch rest (out.pushVerbatim content) dirty
  | ⟨.text, content⟩ :: rest, out, dirty => do
    let (out, d) ← scanPass dispatch content out
    passOver dispatch rest out (dirty || d)

def expand : (passes : Nat) → Rendered → Traced Rendered
  | 0, current => do
    lift (Run.onEngine Engine.countExhausted)
    lift (Run.note .exhausted)
    pure current
  | passes + 1, current => do
    lift (Run.onEngine Engine.countPass)
    let (next, dirty) ← passOver (dispatch calls render) current.segments {} false
    if dirty then expand passes next
    else do
      lift (Run.note (.settled (maxPasses - passes)))
      pure next

end Traced

namespace Traced

/-- Renders a text when `limit` calls may be open, and tells what the render visits. -/
def render : (limit : Nat) → String → Params → Traced Rendered
  | 0, _, _ => lift (Run.stop .unfinished)
  | limit + 1, text, params =>
    within params
      (expand (Engine.callsWithin limit) (render limit) maxPasses (Rendered.ofText text))

def renderString (limit : Nat) (text : String) (params : Params) : Traced String := do
  return (← render limit text params).flatten

def renderChunk (limit : Nat) (name : String) (params : Params) : Traced String := do
  match ← lift (Run.onWorld (·.chunk name)) with
  | none => pure ""
  | some text => return (← render limit text params).flatten

end Traced

/-! What a failure tells -/

/-- No snippet has failed. -/
def Calm (visits : List Visit) : Prop := ∀ v ∈ visits, ¬ v.Fails

theorem Calm.append {before visits : List Visit} (first : Calm before) (second : Calm visits) :
    Calm (before ++ visits) := List.forall_mem_append.mpr ⟨first, second⟩

/-- Why work has stopped and what it has visited until then: only the last visit can have failed,
and that is the failure that work stops with. -/
inductive Verdict : Option Stop → List Visit → Prop
  | finished {visits : List Visit} : Calm visits → Verdict none visits
  | unfinished {visits : List Visit} : Calm visits → Verdict (some .unfinished) visits
  | failed {before : List Visit} (tag : Tag) (cause : SnippetError) : Calm before →
    Verdict (some (.failed ⟨tag.name, cause⟩)) (before ++ [.snippet tag (.error cause)])

theorem Verdict.after {before visits : List Visit} {stop : Option Stop} (calm : Calm before)
    (verdict : Verdict stop visits) : Verdict stop (before ++ visits) := by
  cases verdict with
  | finished later => exact .finished (calm.append later)
  | unfinished later => exact .unfinished (calm.append later)
  | failed tag cause later =>
    rw [← List.append_assoc]
    exact .failed tag cause (calm.append later)

/-- Stops for other reasons than a failure. -/
def Law.mild : Law where
  Holds _ stop _ := ∀ e, stop ≠ some (.failed e)
  refl _ _ := nofun
  trans _ second := second

theorem Law.mild_of_ok {α : Type} {work : Run α} (ok : ∀ s, Run.stopped (work s).1 = none) :
    Law.mild.Obeyed work := fun s e failed => by
  cases (ok s).symm.trans failed

theorem Law.mild_attempt {α : Type} (work : Run α) : Law.mild.Obeyed (Run.attempt work) := by
  intro s e failed
  unfold Run.attempt at failed
  split at failed <;> cases failed

/-- What a snippet asks for can fail, but only in its answer. -/
theorem action_mild (calls : Calls) (act : Action) : Law.mild.Obeyed (act.run calls) := by
  induction act with
  | done text => exact .pure _
  | fail e => exact .pure _
  | set name value next ih => exact (Law.mild_of_ok fun _ => rfl).bind fun _ => ih
  | unset name next ih =>
    exact (Law.mild_of_ok fun _ => rfl).bind fun _ => (Law.mild_of_ok fun _ => rfl).bind fun _ => ih _
  | get name next ih => exact (Law.mild_of_ok fun _ => rfl).bind fun _ => ih _
  | chunk name next ih => exact (Law.mild_of_ok fun _ => rfl).bind fun _ => ih _
  | registerChunk name text next ih => exact (Law.mild_of_ok fun _ => rfl).bind fun _ => ih
  | registerSnippet name start next _ ih => exact (Law.mild_of_ok fun _ => rfl).bind fun _ => ih
  | render text params next ih => exact (Law.mild_attempt _).bind fun _ => ih _
  | renderChunk name params next ih => exact (Law.mild_attempt _).bind fun _ => ih _
  | runSnippet name params next ih => exact (Law.mild_attempt _).bind fun _ => ih _
  | stats next ih => exact (Law.mild_of_ok fun _ => rfl).bind fun _ => ih _
  | count counter next ih => exact (Law.mild_of_ok fun _ => rfl).bind fun _ => ih _
  | announce name params next ih => exact (Law.mild_of_ok fun _ => rfl).bind fun _ => ih

theorem answer_mild (calls : Calls) (params : Params) (snippet : Snippet) :
    Law.mild.Obeyed (snippet.answer calls params) := by
  cases snippet with
  | program start => exact action_mild calls (start params)
  | script path => exact Law.mild_of_ok fun _ => rfl

/-- The traced work does what the other does, and its visits account for how it stops. -/
def Tells {α : Type} (work : Run α) (traced : Traced α) : Prop := ∀ s seen, ∃ visits,
  traced (s, seen) = ((work s).1, (work s).2, seen ++ visits) ∧ Verdict (Run.stopped (work s).1) visits

namespace Tells

open Traced (lift visit)

variable {α β : Type} {work : Run α} {traced : Traced α}

theorem lift (mild : Law.mild.Obeyed work) : Tells work (lift work) := by
  intro s seen
  refine ⟨[], by rw [List.append_nil]; rfl, ?_⟩
  have stops := mild s
  unfold Law.At at stops
  rcases reason : Run.stopped (work s).1 with _ | e | _
  · exact .finished nofun
  · exact absurd reason (stops e)
  · exact .unfinished nofun

theorem of_ok (ok : ∀ s, Run.stopped (work s).1 = none) : Tells work (Traced.lift work) :=
  lift (Law.mild_of_ok ok)

theorem pure (a : α) : Tells (pure a : Run α) (Pure.pure a) := of_ok fun _ => rfl

theorem bind {next : α → Run β} {next' : α → Traced β} (first : Tells work traced)
    (rest : ∀ a, Tells (next a) (next' a)) : Tells (work >>= next) (traced >>= next') := by
  intro s seen
  obtain ⟨visits, same, verdict⟩ := first s seen
  rw [Run.bind_apply, Work.bind_apply, same]
  rcases ended : work s with ⟨answer, t⟩
  rw [ended] at verdict
  cases answer with
  | error reason => exact ⟨visits, rfl, verdict⟩
  | ok a =>
    obtain ⟨more, same, last⟩ := rest a t (seen ++ visits)
    refine ⟨visits ++ more, by rw [← List.append_assoc]; exact same, ?_⟩
    have calm : Calm visits := by
      cases verdict with
      | finished calm => exact calm
    exact last.after calm

/-- A visit before the work. -/
theorem visit {v : Visit} (calm : ¬ v.Fails) (tells : Tells work traced) :
    Tells work (do visit v; traced) := by
  intro s seen
  obtain ⟨visits, same, verdict⟩ := tells s (seen ++ [v])
  refine ⟨[v] ++ visits, by rw [← List.append_assoc]; exact same, verdict.after ?_⟩
  exact List.forall_mem_singleton.mpr calm

/-- A failure of the snippet that is visited. -/
theorem accept (tag : Tag) (answer : Except SnippetError String) :
    Tells (Run.accept tag.name answer)
      (do Traced.visit (.snippet tag answer); Traced.lift (Run.accept tag.name answer)) := by
  cases answer with
  | ok text => exact (pure text).visit nofun
  | error cause =>
    have failed := @Verdict.failed [] tag cause nofun
    exact fun s seen => ⟨_, rfl, failed⟩

theorem within (params : Params) (tells : Tells work traced) :
    Tells (Run.within params work) (Traced.within params traced) := by
  intro s seen
  obtain ⟨visits, same, verdict⟩ := tells (s.enter params) seen
  refine ⟨visits, ?_, verdict⟩
  rw [Traced.within, same]
  rfl

section Scanning

variable {dispatch : Dispatcher Run} {dispatch' : Dispatcher Traced}

mutual

theorem span (tells : ∀ tag source, Tells (dispatch tag source) (dispatch' tag source)) :
    ∀ span : Span, Tells (span.resolve dispatch) (span.resolve dispatch')
  | .literal source inner => by
    rw [Span.resolve, Span.resolve]
    exact (spans tells inner false).bind fun _ => .pure _
  | .tag deferred kind name arguments source => by
    rw [Span.resolve, Span.resolve]
    refine (Tells.arguments tells arguments {} false).bind ?_
    rintro ⟨params, dirty⟩
    cases deferred with
    | true => exact .pure _
    | false => exact (tells _ _).bind fun _ => .pure _

theorem spans (tells : ∀ tag source, Tells (dispatch tag source) (dispatch' tag source)) :
    ∀ (spans : List Span) (dirty : Bool),
      Tells (Span.visitAll dispatch spans dirty) (Span.visitAll dispatch' spans dirty)
  | [], dirty => by
    rw [Span.visitAll, Span.visitAll]
    exact .pure _
  | span :: rest, dirty => by
    rw [Span.visitAll, Span.visitAll]
    exact (Tells.span tells span).bind fun _ => spans tells rest _

theorem arguments (tells : ∀ tag source, Tells (dispatch tag source) (dispatch' tag source)) :
    ∀ (arguments : List Argument) (params : Params) (dirty : Bool),
      Tells (Argument.resolveAll dispatch arguments params dirty)
        (Argument.resolveAll dispatch' arguments params dirty)
  | [], params, dirty => by
    rw [Argument.resolveAll, Argument.resolveAll]
    exact .pure _
  | .mk name value :: rest, params, dirty => by
    rw [Argument.resolveAll, Argument.resolveAll]
    exact (pieces tells value {} false).bind fun _ => arguments tells rest _ _

theorem pieces (tells : ∀ tag source, Tells (dispatch tag source) (dispatch' tag source)) :
    ∀ (pieces : List Piece) (out : Rendered) (dirty : Bool),
      Tells (Piece.resolveAll dispatch pieces out dirty) (Piece.resolveAll dispatch' pieces out dirty)
  | [], out, dirty => by
    rw [Piece.resolveAll, Piece.resolveAll]
    exact .pure _
  | .text chars :: rest, out, dirty => by
    rw [Piece.resolveAll, Piece.resolveAll]
    exact pieces tells rest _ _
  | .span span :: rest, out, dirty => by
    rw [Piece.resolveAll, Piece.resolveAll]
    exact (Tells.span tells span).bind fun _ => pieces tells rest _ _

end

end Scanning

section Engine

variable {calls : Calls} {render : String → Params → Traced Rendered}

theorem includeChunk (renders : ∀ text params, Tells (calls.render text params) (render text params))
    (tag : Tag) : Tells (Engine.includeChunk calls tag.name tag.params)
      (Traced.includeChunk render tag) := by
  refine visit ?_ ((of_ok fun _ => rfl).bind fun found => ?_)
  · exact nofun
  · cases found with
    | none => exact .pure _
    | some text => exact (renders text tag.params).bind fun _ => .pure _

theorem includeSnippet (tag : Tag) : Tells (Engine.includeSnippet calls tag.name tag.params)
    (Traced.includeSnippet calls tag) := by
  refine (of_ok fun _ => rfl).bind fun found => ?_
  cases found with
  | none => exact (pure _).visit nofun
  | some snippet =>
    simp only [Engine.execute_eq, bind_assoc]
    refine (lift (answer_mild calls tag.params snippet)).bind fun answer => ?_
    have accepted := (accept tag answer).bind fun text => pure (Rendered.ofText text, true)
    rwa [bind_assoc] at accepted

theorem dispatch (renders : ∀ text params, Tells (calls.render text params) (render text params))
    (tag : Tag) (source : List Char) :
    Tells (Engine.dispatch calls tag source) (Traced.dispatch calls render tag source) := by
  have chunk := includeChunk renders tag
  have snippet := @includeSnippet calls tag
  refine (of_ok fun _ => rfl).bind fun e => ?_
  split
  · exact (pure _).visit nofun
  · split
    · refine (of_ok fun _ => rfl).bind fun _ => ?_
      cases kind : tag.kind with
      | chunk => exact chunk
      | placeholder | starred | snippet => exact snippet
    · exact (of_ok fun _ => rfl).bind fun _ => (of_ok fun _ => rfl).bind fun _ =>
        (pure _).visit nofun

theorem passOver (renders : ∀ text params, Tells (calls.render text params) (render text params))
    (segments : List Segment) : ∀ (out : Rendered) (dirty : Bool),
      Tells (Engine.passOver calls segments out dirty)
        (Traced.passOver (Traced.dispatch calls render) segments out dirty) := by
  induction segments with
  | nil => exact fun _ _ => .pure _
  | cons segment rest ih =>
    intro out dirty
    obtain ⟨kind, content⟩ := segment
    cases kind with
    | verbatim => exact ih _ _
    | text => exact (pieces (dispatch renders) _ _ _).bind fun _ => ih _ _

theorem expand (renders : ∀ text params, Tells (calls.render text params) (render text params))
    (passes : Nat) : ∀ current : Rendered,
      Tells (Engine.expand calls passes current) (Traced.expand calls render passes current) := by
  induction passes with
  | zero =>
    exact fun current => (of_ok fun _ => rfl).bind fun _ => (of_ok fun _ => rfl).bind fun _ =>
      .pure current
  | succ passes ih =>
    intro current
    refine (of_ok fun _ => rfl).bind fun _ => (passOver renders current.segments {} false).bind ?_
    rintro ⟨next, dirty⟩
    cases dirty with
    | true => exact ih next
    | false => exact (of_ok fun _ => rfl).bind fun _ => .pure _

end Engine

/-- By induction on the calls that may be open, as chunks render with one less. -/
theorem render (limit : Nat) : ∀ (text : String) (params : Params),
    Tells ((Engine.callsWithin limit).render text params) (Traced.render limit text params) := by
  induction limit with
  | zero => exact fun _ _ => lift fun _ _ => nofun
  | succ limit ih => exact fun text params => within params (expand ih maxPasses _)

theorem renderString (limit : Nat) (text : String) (params : Params) :
    Tells ((Engine.callsWithin limit).renderString text params)
      (Traced.renderString limit text params) :=
  (render limit text params).bind fun _ => .pure _

theorem renderChunk (limit : Nat) (name : String) (params : Params) :
    Tells ((Engine.callsWithin limit).renderChunk name params)
      (Traced.renderChunk limit name params) := by
  refine (of_ok fun _ => rfl).bind fun found => ?_
  cases found with
  | none => exact .pure _
  | some text => exact (render limit text params).bind fun _ => .pure _

end Tells

/-- What a call answers, as its visits have it: a failure is that of the last visit. -/
structure Accounts (answer : Except Stop String) (visits : List Visit) : Prop where
  fails_iff : (∃ e, answer = .error (.failed e)) ↔ ∃ v ∈ visits, v.Fails
  last (e : RenderError) : answer = .error (.failed e) → ∃ before tag, Calm before ∧
    visits = before ++ [.snippet tag (.error e.cause)] ∧ e.snippet = tag.name
  finishes : Calm visits → answer ≠ .error .unfinished → ∃ text, answer = .ok text

theorem Verdict.accounts {answer : Except Stop String} {visits : List Visit}
    (verdict : Verdict (Run.stopped answer) visits) : Accounts answer visits := by
  have calm_iff : Calm visits ↔ ¬ ∃ v ∈ visits, v.Fails := by
    simp only [Calm, not_exists, not_and]
  rcases answer with (e | _) | text
  · cases verdict with
    | @failed before tag cause calm =>
      have fails : ∃ v ∈ before ++ [.snippet tag (.error cause)], v.Fails :=
        ⟨_, List.mem_append_right _ (List.mem_singleton_self _), trivial⟩
      refine ⟨iff_of_true ⟨_, rfl⟩ fails, ?_, fun calm => absurd fails (calm_iff.mp calm)⟩
      rintro _ ⟨rfl⟩
      exact ⟨before, tag, calm, rfl, rfl⟩
  · cases verdict with
    | unfinished calm =>
      exact ⟨iff_of_false nofun (calm_iff.mp calm), nofun, fun _ returns => absurd rfl returns⟩
  · cases verdict with
    | finished calm =>
      exact ⟨iff_of_false nofun (calm_iff.mp calm), nofun, fun _ _ => ⟨text, rfl⟩⟩

/-- A render fails if and only if one of the snippets fails whose tags it visits, be it in the text,
in a chunk or in the value of a parameter. It stops there, and the error is that of this snippet. This
holds however many calls may be open. -/
theorem failure_is_last_visit (limit : Nat) (text name : String) (params : Params) (s : Session) :
    let rendered := (Engine.callsWithin limit).renderString text params s
    let named := (Engine.callsWithin limit).renderChunk name params s
    (∃ visits, Traced.renderString limit text params (s, []) = (rendered.1, rendered.2, visits) ∧
      Accounts rendered.1 visits) ∧
    ∃ visits, Traced.renderChunk limit name params (s, []) = (named.1, named.2, visits) ∧
      Accounts named.1 visits := by
  obtain ⟨visits, same, verdict⟩ := Tells.renderString limit text params s []
  obtain ⟨visits', same', verdict'⟩ := Tells.renderChunk limit name params s []
  exact ⟨⟨visits, same, verdict.accounts⟩, visits', same', verdict'.accounts⟩

/-! A snippet that fails in a chunk of a chunk, before other tags. -/
namespace Boom

def session : Session where
  engine := { placeholders := ⟨[("a", "A")]⟩ }
  world := (((({} : World).registerChunk "page" "[[+a]][[$part &x=`[[fine]]`]][[fine]]").registerChunk
    "part" "[[+x]][[boom &y=`[[fine]]`]][[fine]]").registerSnippet "fine"
      (.program fun _ => .done "ok")).registerSnippet "boom"
      (.program fun params => .fail (.message (params.getD "y" "")))

def fine : Visit := .snippet { kind := .snippet, name := "fine" } (.ok "ok")

def visits : List Visit :=
  [.chunk { kind := .chunk, name := "page" }, .placeholder { kind := .placeholder, name := "a" }, fine,
    .chunk { kind := .chunk, name := "part", params := ⟨[("x", "ok")]⟩ },
    .placeholder { kind := .placeholder, name := "x" }, fine,
    .snippet { kind := .snippet, name := "boom", params := ⟨[("y", "ok")]⟩ } (.error (.message "ok"))]

end Boom

open Boom in
theorem boom_is_last_visit :
    (Engine.renderString "[[$page]][[fine]]" {} session).1 =
      .error (.failed ⟨"boom", .message "ok"⟩) ∧
    (Traced.renderString callLimit "[[$page]][[fine]]" {} (session, [])).2.2 = visits ∧
    Accounts (Engine.renderString "[[$page]][[fine]]" {} session).1 visits := by
  have answer : (Engine.renderString "[[$page]][[fine]]" {} session).1 =
      .error (.failed ⟨"boom", .message "ok"⟩) := by decide +kernel
  have visited : (Traced.renderString callLimit "[[$page]][[fine]]" {} (session, [])).2.2 =
      visits := by
    decide +kernel
  obtain ⟨⟨_, same, accounts⟩, -⟩ :=
    failure_is_last_visit callLimit "[[$page]][[fine]]" "page" {} session
  rw [same] at visited
  exact ⟨answer, by rw [same]; exact visited, visited ▸ accounts⟩

end DocSite.Template
