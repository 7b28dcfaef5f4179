import DocSite.Proofs.Run

/-! Laws of runs. A law speaks of the session before some work and after it, never of the
answer, and also when the work fails. Whatever a dispatcher obeys, a whole pass obeys. -/
namespace DocSite.Template

namespace Run

variable {α β : Type}

/-- Why work stopped early, if it did. -/
def stopped : Except Stop α → Option Stop
  | .ok _ => none
  | .error e => some e

@[simp] theorem stopped_map (f : α → β) (answer : Except Stop α) :
    stopped (answer.map f) = stopped answer := by
  cases answer <;> rfl

theorem stopped_eq_some {answer : Except Stop α} {reason : Stop} :
    stopped answer = some reason ↔ answer = .error reason := by
  cases answer <;> simp [stopped]

end Run

/-- The event tells that a directory was asked. -/
def Event.isProbe : Event → Bool
  | .probed .. => true
  | .called .. | .dispatched .. | .refused .. => false

namespace World

/-- What a run does to its world, one step of it. Programs that it registers are such as `may` says. -/
inductive Move (may : Snippet → Prop) : {α : Type} → (World → α × World) → Prop where
  | record (event : Event) : event.isProbe = false → Move may fun w => ((), w.record event)
  | note (notice : Notice) : Move may fun w => ((), w.note notice)
  | chunk (name : String) : Move may (·.chunk name)
  | snippet (name : String) : Move may (·.snippet name)
  | registerChunk (name text : String) : Move may fun w => ((), w.registerChunk name text)
  | registerSnippet (name : String) (start : Params → Action) : may (.program start) →
    Move may fun w => ((), w.registerSnippet name (.program start))
  | count (counter : String) : Move may (·.count counter)

variable {α : Type} {f : World → α × World} {may might : Snippet → Prop}

theorem Move.mono (move : Move may f) (more : ∀ snippet, may snippet → might snippet) :
    Move might f := by
  cases move with
  | record event known => exact .record event known
  | note notice => exact .note notice
  | chunk name => exact .chunk name
  | snippet name => exact .snippet name
  | registerChunk name text => exact .registerChunk name text
  | registerSnippet name start allowed => exact .registerSnippet name start (more _ allowed)
  | count counter => exact .count counter

/-- All of a world but what it has recorded and noted. -/
def plain (w : World) : World := { w with journal := [], notices := [] }

/-- What is recorded and noted does not count for what is done, and the same is recorded. -/
theorem Move.same (move : Move may f) {v w : World} (same : v.plain = w.plain) :
    (f v).1 = (f w).1 ∧ (f v).2.plain = (f w).2.plain ∧
      ∃ events, (f v).2.journal = events ++ v.journal ∧ (f w).2.journal = events ++ w.journal := by
  have whole : v = { w with journal := v.journal, notices := v.notices } :=
    congrArg (fun u : World => { u with journal := v.journal, notices := v.notices }) same
  rw [whole]
  cases move with
  | record event => exact ⟨rfl, rfl, [event], rfl, rfl⟩
  | chunk | snippet => exact ⟨rfl, rfl, _, rfl, rfl⟩
  | note | registerChunk | registerSnippet | count => exact ⟨rfl, rfl, [], rfl, rfl⟩

theorem Move.grows (move : Move may f) (w : World) :
    ∃ events, (f w).2.journal = events ++ w.journal := by
  obtain ⟨-, -, events, grown, -⟩ := move.same (rfl : w.plain = w.plain)
  exact ⟨events, grown⟩

end World

/-- What holds between the session before work and the one after it, given why the work
stopped, if it stopped early. -/
structure Law where
  Holds : Session → Option Stop → Session → Prop
  refl (s : Session) : Holds s none s
  trans {s t u : Session} {stop : Option Stop} : Holds s none t → Holds t stop u → Holds s stop u

namespace Law

variable {α β : Type} {L : Law}

/-- The law holds of `work` begun in the session `s`. -/
def At (L : Law) (work : Run α) (s : Session) : Prop :=
  L.Holds s (Run.stopped (work s).1) (work s).2

def Obeyed (L : Law) (work : Run α) : Prop := ∀ s, L.At work s

theorem At.bind {work : Run α} {next : α → Run β} {s : Session} (first : L.At work s)
    (rest : ∀ a t, work s = (.ok a, t) → L.At (next a) t) : L.At (work >>= next) s := by
  unfold At at *
  rw [Run.bind_apply]
  rcases h : work s with ⟨answer, t⟩
  rw [h] at first
  cases answer with
  | ok a => exact L.trans first (rest a t h)
  | error e => exact first

theorem Obeyed.pure (a : α) : L.Obeyed (pure a) := fun s => L.refl s

theorem Obeyed.bind {work : Run α} {next : α → Run β} (first : L.Obeyed work)
    (rest : ∀ a, L.Obeyed (next a)) : L.Obeyed (work >>= next) :=
  fun s => (first s).bind fun a t _ => rest a t

section Scanning

variable {dispatch : Dispatcher Run}

mutual

theorem span_obeyed (obeys : ∀ tag source, L.Obeyed (dispatch tag source)) :
    ∀ span : Span, L.Obeyed (span.resolve dispatch)
  | .literal source inner => by
    rw [Span.resolve]
    exact (spans_obeyed obeys inner false).bind fun _ => .pure _
  | .tag deferred kind name arguments source => by
    rw [Span.resolve]
    refine (arguments_obeyed obeys arguments {} false).bind ?_
    rintro ⟨params, dirty⟩
    cases deferred with
    | true => exact .pure _
    | false => exact (obeys _ _).bind fun _ => .pure _

theorem spans_obeyed (obeys : ∀ tag source, L.Obeyed (dispatch tag source)) :
    ∀ (spans : List Span) (dirty : Bool), L.Obeyed (Span.visitAll dispatch spans dirty)
  | [], dirty => by
    rw [Span.visitAll]
    exact .pure _
  | span :: rest, dirty => by
    rw [Span.visitAll]
    exact (span_obeyed obeys span).bind fun _ => spans_obeyed obeys rest _

theorem arguments_obeyed (obeys : ∀ tag source, L.Obeyed (dispatch tag source)) :
    ∀ (arguments : List Argument) (params : Params) (dirty : Bool),
      L.Obeyed (Argument.resolveAll dispatch arguments params dirty)
  | [], params, dirty => by
    rw [Argument.resolveAll]
    exact .pure _
  | .mk name value :: rest, params, dirty => by
    rw [Argument.resolveAll]
    exact (pieces_obeyed obeys value {} false).bind fun _ => arguments_obeyed obeys rest _ _

theorem pieces_obeyed (obeys : ∀ tag source, L.Obeyed (dispatch tag source)) :
    ∀ (pieces : List Piece) (out : Rendered) (dirty : Bool),
      L.Obeyed (Piece.resolveAll dispatch pieces out dirty)
  | [], out, dirty => by
    rw [Piece.resolveAll]
    exact .pure _
  | .text chars :: rest, out, dirty => by
    rw [Piece.resolveAll]
    exact pieces_obeyed obeys rest _ _
  | .span span :: rest, out, dirty => by
    rw [Piece.resolveAll]
    exact (span_obeyed obeys span).bind fun _ => pieces_obeyed obeys rest _ _

end

theorem passOver_obeyed {calls : Calls}
    (obeys : ∀ tag source, L.Obeyed (Engine.dispatch calls tag source)) (segments : List Segment) :
    ∀ (out : Rendered) (dirty : Bool), L.Obeyed (Engine.passOver calls segments out dirty) := by
  induction segments with
  | nil => exact fun _ _ => .pure _
  | cons segment rest ih =>
    intro out dirty
    obtain ⟨kind, content⟩ := segment
    cases kind with
    | verbatim => exact ih _ _
    | text => exact (pieces_obeyed obeys _ _ _).bind fun _ => ih _ _

end Scanning

/-- What a law must allow for a tag that a limit leaves alone, for one that is taken up, and
for what the two kinds of tag do then. -/
structure Dispatching (L : Law) (calls : Calls) : Prop where
  refuse (s : Session) (kind : TagKind) (name : String) : s.engine.mayDescend = false →
    L.Holds s none ⟨s.engine.noteLimit, s.world.record (.refused kind name s.engine.nested)⟩
  take (s : Session) (kind : TagKind) (name : String) : s.engine.mayDescend = true →
    L.Holds s none { s with world := s.world.record (.dispatched kind name) }
  chunk (s : Session) (name : String) (params : Params) : s.engine.mayDescend = true →
    L.At (Engine.includeChunk calls name params) s
  snippet (s : Session) (name : String) (params : Params) : s.engine.mayDescend = true →
    L.At (Engine.includeSnippet calls name params) s

theorem dispatch_obeyed {calls : Calls} (allowed : Dispatching L calls) (tag : Tag)
    (source : List Char) : L.Obeyed (Engine.dispatch calls tag source) := by
  intro s
  unfold At
  cases placeholder : tag.kind.isPlaceholder with
  | true =>
    rw [Engine.dispatch_placeholder placeholder]
    exact L.refl s
  | false =>
    cases free : s.engine.mayDescend with
    | false =>
      rw [Engine.dispatch_refused placeholder free]
      exact allowed.refuse s tag.kind tag.name free
    | true =>
      have taken := allowed.take s tag.kind tag.name free
      cases kind : tag.kind with
      | chunk =>
        rw [kind] at taken
        rw [Engine.dispatch_chunk kind free]
        exact L.trans taken (allowed.chunk _ tag.name tag.params free)
      | snippet =>
        rw [kind] at taken
        rw [Engine.dispatch_snippet kind free]
        exact L.trans taken (allowed.snippet _ tag.name tag.params free)
      | placeholder => simp [kind, TagKind.isPlaceholder] at placeholder
      | starred => simp [kind, TagKind.isPlaceholder] at placeholder

/-- Passes obey a law that their tags obey, one pass after the other. -/
theorem expand_obeyed {calls : Calls}
    (obeys : ∀ tag source, L.Obeyed (Engine.dispatch calls tag source))
    (pass : L.Obeyed (Run.onEngine Engine.countPass))
    (exhausted : L.Obeyed (Run.onEngine Engine.countExhausted))
    (note : ∀ notice, L.Obeyed (Run.note notice)) (passes : Nat) :
    ∀ current : Rendered, L.Obeyed (Engine.expand calls passes current) := by
  induction passes with
  | zero => exact fun current => exhausted.bind fun _ => (note .exhausted).bind fun _ => .pure current
  | succ passes ih =>
    intro current
    refine pass.bind fun _ => (passOver_obeyed obeys current.segments {} false).bind ?_
    rintro ⟨next, dirty⟩
    cases dirty with
    | true => exact ih next
    | false => exact (note _).bind fun _ => .pure _

section Chunks

variable {calls : Calls}

/-- A chunk is looked up, and then rendered if it is there. -/
theorem renderChunk_obeyed (chunk : ∀ name, L.Obeyed (Run.onWorld (·.chunk name)))
    (render : ∀ text params, L.Obeyed (calls.render text params)) (name : String)
    (params : Params) : L.Obeyed (calls.renderChunk name params) := by
  refine (chunk name).bind fun found => ?_
  cases found with
  | none => exact .pure _
  | some text => exact (render text params).bind fun _ => .pure _

theorem includeChunk_obeyed (chunk : ∀ name, L.Obeyed (Run.onWorld (·.chunk name)))
    (render : ∀ text params, L.Obeyed (calls.render text params)) (name : String)
    (params : Params) : L.Obeyed (Engine.includeChunk calls name params) := by
  refine (chunk name).bind fun found => ?_
  cases found with
  | none => exact .pure _
  | some text => exact (render text params).bind fun _ => .pure _

end Chunks

/-- The law holds of both ways back into the engine. -/
structure OnCalls (L : Law) (calls : Calls) : Prop where
  render (text : String) (params : Params) : L.Obeyed (calls.render text params)
  runSnippet (name : String) (params : Params) : L.Obeyed (calls.runSnippet name params)

/-- What a law must allow so that tags and snippets obey it, whatever they do, if the renders and
snippets obey it that they call for. -/
structure Acting (L : Law) : Prop where
  /-- How work ends does not matter. -/
  ends {s t : Session} {stop stop' : Option Stop} : L.Holds s stop t → L.Holds s stop' t
  placeholders (f : Placeholders → Placeholders) :
    L.Obeyed (Run.onEngine fun e => { e with placeholders := f e.placeholders })
  world {α : Type} {f : World → α × World} : World.Move (fun _ => True) f → L.Obeyed (Run.onWorld f)
  refuse (s : Session) (kind : TagKind) (name : String) :
    L.Holds s none ⟨s.engine.noteLimit, s.world.record (.refused kind name s.engine.nested)⟩

/-- What a law must allow so that all work obeys it, whatever snippets do. -/
structure Universal (L : Law) : Prop extends Acting L where
  stats (f : Stats → Stats) : (∀ counted, ∃ more, f counted = counted + more) →
    L.Obeyed (Run.onEngine fun e => { e with stats := f e.stats })
  within {α : Type} {work : Run α} (params : Params) :
    L.Obeyed work → L.Obeyed (Run.within params work)

namespace Acting

open Engine

variable {calls : Calls}

theorem engine : L.Obeyed Run.engine := fun s => L.refl s

theorem stop (acting : L.Acting) (reason : Stop) : L.Obeyed (Run.stop reason : Run α) :=
  fun s => acting.ends (L.refl s)

theorem chunk (acting : L.Acting) (name : String) :
    L.Obeyed (Run.onWorld (·.chunk name)) := acting.world (.chunk name)

theorem snippet (acting : L.Acting) (name : String) :
    L.Obeyed (Run.onWorld (·.snippet name)) := acting.world (.snippet name)

theorem record (acting : L.Acting) (event : Event) (known : event.isProbe = false) :
    L.Obeyed (Run.record event) :=
  acting.world (.record event known)

theorem note (acting : L.Acting) (notice : Notice) : L.Obeyed (Run.note notice) :=
  acting.world (.note notice)

theorem attempt (acting : L.Acting) {work : Run α} (kept : L.Obeyed work) :
    L.Obeyed (Run.attempt work) := by
  intro s
  have before := kept s
  unfold At Run.attempt at *
  rcases h : work s with ⟨answer, t⟩
  rw [h] at before
  rcases answer with (_ | _) | _ <;> exact acting.ends before

theorem renderChunk (acting : L.Acting) (kept : L.OnCalls calls) (name : String)
    (params : Params) : L.Obeyed (calls.renderChunk name params) :=
  renderChunk_obeyed acting.chunk kept.render name params

theorem action (acting : L.Acting) (kept : L.OnCalls calls) (act : Action) :
    L.Obeyed (act.run calls) := by
  induction act with
  | done text => exact .pure _
  | fail e => exact .pure _
  | set name value next ih =>
    exact (acting.placeholders (·.insert name value)).bind fun _ => ih
  | unset name next ih =>
    exact engine.bind fun e => (acting.placeholders (·.erase name)).bind fun _ => ih _
  | get name next ih => exact engine.bind fun e => ih _
  | chunk name next ih => exact (acting.chunk name).bind fun found => ih found
  | registerChunk name text next ih =>
    exact (acting.world (.registerChunk name text)).bind fun _ => ih
  | registerSnippet name start next _ ih =>
    exact (acting.world (.registerSnippet name start trivial)).bind fun _ => ih
  | render text params next ih =>
    exact (acting.attempt (kept.render text params)).bind fun _ => ih _
  | renderChunk name params next ih =>
    exact (acting.attempt (acting.renderChunk kept name params)).bind fun _ => ih _
  | runSnippet name params next ih =>
    exact (acting.attempt (kept.runSnippet name params)).bind fun _ => ih _
  | stats next ih => exact engine.bind fun e => ih _
  | count counter next ih =>
    exact (acting.world (.count counter)).bind fun value => ih value
  | announce name params next ih => exact (acting.record _ rfl).bind fun _ => ih

theorem execute (acting : L.Acting) (kept : L.OnCalls calls) (name : String)
    (params : Params) (snippet : Snippet) : L.Obeyed (execute calls name params snippet) := by
  cases snippet with
  | program start =>
    refine (acting.action kept (start params)).bind fun answer => ?_
    cases answer with
    | ok text => exact .pure _
    | error cause => exact acting.stop _
  | script path =>
    intro s
    unfold At
    simp only [Engine.execute]
    cases Script.run s.world.files path params <;> exact acting.ends (L.refl s)

theorem runSnippet (acting : L.Acting) (kept : L.OnCalls calls) (name : String)
    (params : Params) : L.Obeyed (runSnippet calls name params) := by
  refine (acting.snippet name).bind fun found => ?_
  cases found with
  | none => exact .pure _
  | some snippet => exact acting.execute kept name params snippet

theorem includeChunk (acting : L.Acting) (kept : L.OnCalls calls) (name : String)
    (params : Params) : L.Obeyed (includeChunk calls name params) :=
  includeChunk_obeyed acting.chunk kept.render name params

theorem includeSnippet (acting : L.Acting) (kept : L.OnCalls calls) (name : String)
    (params : Params) : L.Obeyed (includeSnippet calls name params) := by
  refine (acting.snippet name).bind fun found => ?_
  cases found with
  | none => exact .pure _
  | some snippet => exact (acting.execute kept name params snippet).bind fun _ => .pure _

theorem dispatch (acting : L.Acting) (kept : L.OnCalls calls) (tag : Tag)
    (source : List Char) : L.Obeyed (dispatch calls tag source) :=
  dispatch_obeyed {
    refuse := fun s kind name _ => acting.refuse s kind name
    take := fun s kind name _ => acting.record (.dispatched kind name) rfl s
    chunk := fun s name params _ => acting.includeChunk kept name params s
    snippet := fun s name params _ => acting.includeSnippet kept name params s } tag source

end Acting

namespace Universal

open Engine

variable {calls : Calls}

theorem expand (universal : L.Universal) (kept : L.OnCalls calls) (passes : Nat)
    (current : Rendered) : L.Obeyed (expand calls passes current) :=
  expand_obeyed (universal.dispatch kept)
    (universal.stats (fun t => { t with passes := t.passes + 1 }) fun _ => ⟨⟨0, 1, 0, 0⟩, rfl⟩)
    (universal.stats (fun t => { t with budgetExhausted := t.budgetExhausted + 1 })
      fun _ => ⟨⟨0, 0, 1, 0⟩, rfl⟩)
    universal.note passes current

/-- Holds for every number of calls that may be open, by induction on that number. -/
theorem callsWithin (universal : L.Universal) (limit : Nat) : L.OnCalls (callsWithin limit) := by
  induction limit with
  | zero => exact ⟨fun _ _ => universal.stop _, fun _ _ => universal.stop _⟩
  | succ limit ih =>
    exact ⟨fun _ params => universal.within params (universal.expand ih maxPasses _),
      universal.runSnippet ih⟩

end Universal

def both (L M : Law) : Law where
  Holds s stop t := L.Holds s stop t ∧ M.Holds s stop t
  refl s := ⟨L.refl s, M.refl s⟩
  trans first second := ⟨L.trans first.1 second.1, M.trans first.2 second.2⟩

theorem Universal.both {M : Law} (first : L.Universal) (second : M.Universal) :
    (L.both M).Universal where
  ends held := ⟨first.ends held.1, second.ends held.2⟩
  placeholders f s := ⟨first.placeholders f s, second.placeholders f s⟩
  stats f grows s := ⟨first.stats f grows s, second.stats f grows s⟩
  world move s := ⟨first.world move s, second.world move s⟩
  refuse s kind name := ⟨first.refuse s kind name, second.refuse s kind name⟩
  within params obeyed s := ⟨first.within params (fun s => (obeyed s).1) s,
    second.within params (fun s => (obeyed s).2) s⟩

/-- The journal only grows. -/
def growth : Law where
  Holds s _ t := ∃ events, t.world.journal = events ++ s.world.journal
  refl _ := ⟨[], rfl⟩
  trans := by
    rintro s t u stop ⟨old, eq⟩ ⟨new, eq'⟩
    exact ⟨new ++ old, by rw [eq', eq, List.append_assoc]⟩

end Law

theorem Growth.universal : Law.growth.Universal where
  ends held := held
  placeholders _ _ := ⟨[], rfl⟩
  stats _ _ _ := ⟨[], rfl⟩
  world move s := move.grows s.world
  refuse _ _ _ := ⟨[_], rfl⟩
  within params kept s := kept (s.enter params)

/-- What has been asked stays so. -/
def Law.querying : Law where
  Holds s _ t := s.world.queries <:+ t.world.queries
  refl s := List.suffix_refl s.world.queries
  trans first second := first.trans second

theorem Querying.universal : Law.querying.Universal where
  ends held := held
  placeholders _ s := Law.querying.refl s
  stats _ _ s := Law.querying.refl s
  world move s := by
    cases move with
    | record | note | registerChunk | registerSnippet => exact List.suffix_refl s.world.queries
    | chunk | snippet | count => exact List.suffix_cons ..
  refuse s _ _ := List.suffix_refl s.world.queries
  within params kept s := kept (s.enter params)

end DocSite.Template
