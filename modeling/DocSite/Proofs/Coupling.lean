import DocSite.Proofs.Law
import DocSite.Proofs.Lookup

/-! Two runs side by side. Sessions that belong together go on to do so through every step that both
runs make, and through whole runs, whatever snippets do, as long as none of them asks for the
counters of its engine. The second run may also come to a point where it has an excuse. -/
namespace DocSite.Template

/-- The action does not ask for the counters of the engine. -/
def Action.Blind : Action → Prop
  | .done _ | .fail _ => True
  | .set _ _ next | .registerChunk _ _ next | .announce _ _ next => next.Blind
  | .unset _ next => ∀ was, (next was).Blind
  | .get _ next | .chunk _ next => ∀ found, (next found).Blind
  | .registerSnippet _ start next => (∀ params, (start params).Blind) ∧ next.Blind
  | .render _ _ next | .renderChunk _ _ next | .runSnippet _ _ next =>
    ∀ answer, (next answer).Blind
  | .count _ next => ∀ value, (next value).Blind
  | .stats _ => False

def Snippet.Blind : Snippet → Prop
  | .program start => ∀ params, (start params).Blind
  | .script _ => True

namespace World

/-- Names lead only to such snippets. -/
def Knows (may : Snippet → Prop) (w : World) : Prop :=
  ∀ name snippet, w.snippet? name = some snippet → may snippet

/-- No name leads to a snippet that asks for the counters of its engine. -/
def Blind (w : World) : Prop := ∀ name snippet, w.snippet? name = some snippet → snippet.Blind

variable {α : Type} {f : World → α × World} {may : Snippet → Prop}

theorem Move.knows (move : Move may f) {w : World} (knows : w.Knows may) : (f w).2.Knows may := by
  intro name snippet found
  cases move with
  | record | note | registerChunk | count => exact knows name snippet found
  | chunk => exact knows name snippet ((snippet?_chunk w ..).symm.trans found)
  | snippet => exact knows name snippet ((snippet?_snippet w ..).symm.trans found)
  | registerSnippet other start allowed =>
    rw [snippet?_registerSnippet] at found
    split at found
    · cases found
      exact allowed
    · exact knows name snippet found

theorem Move.blind (move : Move Snippet.Blind f) {w : World} (blind : w.Blind) : (f w).2.Blind :=
  move.knows blind

end World

/-- The session after a limit has left a tag alone. -/
def Session.refuse (kind : TagKind) (name : String) (s : Session) : Session :=
  ⟨s.engine.noteLimit, s.world.record (.refused kind name s.engine.nested)⟩

/-- How the sessions of two runs belong together, and what ends this for good. -/
structure Coupling where
  Holds : Session → Session → Prop
  /-- Both engines have the same counters. -/
  aware : Prop
  /-- The script at this path does the same in both runs. -/
  Runs : String → Prop
  /-- The second run may part from the first one. -/
  Excuses : Option Stop → Session → Prop
  /-- What the work of the second run obeys. -/
  law : Law

namespace Coupling

open Engine World

variable {C : Coupling} {α β : Type}

/-- Unless the second run is excused, both have the same answer and sessions that belong together. -/
def Matches (C : Coupling) (first second : Except Stop α × Session) : Prop :=
  C.Excuses (Run.stopped second.1) second.2 ∨ (first.1 = second.1 ∧ C.Holds first.2 second.2)

/-- A snippet that does the same in both runs: if counters differ, it must not ask for them. -/
def Fits (C : Coupling) : Snippet → Prop
  | .program start => C.aware ∨ ∀ params, (start params).Blind
  | .script path => C.Runs path

structure Agree (C : Coupling) (work other : Run α) : Prop where
  obeyed : C.law.Obeyed other
  meet {s t : Session} : C.Holds s t → C.Matches (work s) (other t)

/-- What a coupling must allow so that it lasts through whole runs. -/
structure Universal (C : Coupling) : Prop where
  law : C.law.Universal
  lasts {s t : Session} {stop : Option Stop} : C.Excuses none s → C.law.Holds s stop t →
    C.Excuses stop t
  caught {t : Session} {e : RenderError} : C.Excuses (some (.failed e)) t → C.Excuses none t
  scope {s t : Session} : C.Holds s t → s.engine.placeholders.Alike t.engine.placeholders
  stats {s t : Session} : C.aware → C.Holds s t → t.engine.stats = s.engine.stats
  script {s t : Session} {path : String} : C.Runs path → C.Holds s t →
    Script.run t.world.files path = Script.run s.world.files path
  fits {s t : Session} {name : String} {snippet : Snippet} : C.Holds s t →
    s.world.snippet? name = some snippet →
    C.Excuses none { t with world := (t.world.snippet name).2 } ∨ C.Fits snippet
  placeholders {s t : Session} {f : Placeholders → Placeholders} :
    (∀ {a b : Placeholders}, a.Alike b → (f a).Alike (f b)) → C.Holds s t →
    C.Holds { s with engine := { s.engine with placeholders := f s.engine.placeholders } }
      { t with engine := { t.engine with placeholders := f t.engine.placeholders } }
  move {s t : Session} {α : Type} {f : World → α × World} : Move C.Fits f → C.Holds s t →
    C.Excuses none { t with world := (f t.world).2 } ∨ ((f s.world).1 = (f t.world).1 ∧
      C.Holds { s with world := (f s.world).2 } { t with world := (f t.world).2 })
  countPass {s t : Session} : C.Holds s t →
    C.Holds { s with engine := s.engine.countPass } { t with engine := t.engine.countPass }
  countExhausted {s t : Session} : C.Holds s t →
    C.Holds { s with engine := s.engine.countExhausted } { t with engine := t.engine.countExhausted }
  descend {s t : Session} : C.Holds s t → t.engine.mayDescend = true → s.engine.mayDescend = true
  refuse {s t : Session} (kind : TagKind) (name : String) : C.Holds s t →
    t.engine.mayDescend = false → C.Excuses none (t.refuse kind name) ∨
      (s.engine.mayDescend = false ∧ C.Holds (s.refuse kind name) (t.refuse kind name))
  enter {s t : Session} (params : Params) : C.Holds s t → C.Holds (s.enter params) (t.enter params)
  leave {s t u v : Session} {params : Params} {stop : Option Stop} : C.Holds s t →
    C.law.Holds (t.enter params) stop v → C.Holds u v → C.Holds (s.leave u) (t.leave v)
  left {t v : Session} {stop : Option Stop} : C.Excuses stop v → C.Excuses stop (t.leave v)

theorem Universal.bind_meets (universal : C.Universal) {work other : Run α} {next next' : α → Run β}
    {s t : Session} (met : C.Matches (work s) (other t)) (kept : ∀ a, C.law.Obeyed (next' a))
    (rest : ∀ a u v, work s = (.ok a, u) → C.Holds u v → C.Matches (next a u) (next' a v)) :
    C.Matches ((work >>= next) s) ((other >>= next') t) := by
  unfold Matches at *
  rw [Run.bind_apply, Run.bind_apply]
  rcases first : work s with ⟨a, u⟩
  rcases second : other t with ⟨b, v⟩
  rw [first, second] at met
  rcases met with excused | ⟨same, there⟩
  · left
    cases b with
    | ok b => exact universal.lasts excused (kept b v)
    | error e => exact excused
  · cases same
    cases a with
    | ok a => exact rest a u v first there
    | error e => exact .inr ⟨rfl, there⟩

theorem Agree.pure (a : α) :
    C.Agree (Pure.pure a : Run α) (Pure.pure a) :=
  ⟨.pure a, fun there => .inr ⟨rfl, there⟩⟩

theorem Universal.bind (universal : C.Universal) {work other : Run α} {next next' : α → Run β}
    (first : C.Agree work other) (rest : ∀ a, C.Agree (next a) (next' a)) :
    C.Agree (work >>= next) (other >>= next') where
  obeyed := first.obeyed.bind fun a => (rest a).obeyed
  meet there := universal.bind_meets (first.meet there) (fun a => (rest a).obeyed)
    fun a _ _ _ there => (rest a).meet there

section Scanning

variable {dispatch dispatch' : Dispatcher Run}

mutual

theorem span_agrees (universal : C.Universal)
    (agree : ∀ tag source, C.Agree (dispatch tag source) (dispatch' tag source)) :
    ∀ span : Span, C.Agree (span.resolve dispatch) (span.resolve dispatch')
  | .literal source inner => by
    rw [Span.resolve, Span.resolve]
    exact universal.bind (spans_agree universal agree inner false) fun _ => .pure _
  | .tag deferred kind name arguments source => by
    rw [Span.resolve, Span.resolve]
    refine universal.bind (arguments_agree universal agree arguments {} false) ?_
    rintro ⟨params, dirty⟩
    cases deferred with
    | true => exact .pure _
    | false => exact universal.bind (agree _ _) fun _ => .pure _

theorem spans_agree (universal : C.Universal)
    (agree : ∀ tag source, C.Agree (dispatch tag source) (dispatch' tag source)) :
    ∀ (spans : List Span) (dirty : Bool),
      C.Agree (Span.visitAll dispatch spans dirty) (Span.visitAll dispatch' spans dirty)
  | [], dirty => by
    rw [Span.visitAll, Span.visitAll]
    exact .pure _
  | span :: rest, dirty => by
    rw [Span.visitAll, Span.visitAll]
    exact universal.bind (span_agrees universal agree span) fun _ =>
      spans_agree universal agree rest _

theorem arguments_agree (universal : C.Universal)
    (agree : ∀ tag source, C.Agree (dispatch tag source) (dispatch' tag source)) :
    ∀ (arguments : List Argument) (params : Params) (dirty : Bool),
      C.Agree (Argument.resolveAll dispatch arguments params dirty)
        (Argument.resolveAll dispatch' arguments params dirty)
  | [], params, dirty => by
    rw [Argument.resolveAll, Argument.resolveAll]
    exact .pure _
  | .mk name value :: rest, params, dirty => by
    rw [Argument.resolveAll, Argument.resolveAll]
    exact universal.bind (pieces_agree universal agree value {} false) fun _ =>
      arguments_agree universal agree rest _ _

theorem pieces_agree (universal : C.Universal)
    (agree : ∀ tag source, C.Agree (dispatch tag source) (dispatch' tag source)) :
    ∀ (pieces : List Piece) (out : Rendered) (dirty : Bool),
      C.Agree (Piece.resolveAll dispatch pieces out dirty)
        (Piece.resolveAll dispatch' pieces out dirty)
  | [], out, dirty => by
    rw [Piece.resolveAll, Piece.resolveAll]
    exact .pure _
  | .text chars :: rest, out, dirty => by
    rw [Piece.resolveAll, Piece.resolveAll]
    exact pieces_agree universal agree rest _ _
  | .span span :: rest, out, dirty => by
    rw [Piece.resolveAll, Piece.resolveAll]
    exact universal.bind (span_agrees universal agree span) fun _ =>
      pieces_agree universal agree rest _ _

end

theorem passOver_agrees (universal : C.Universal) {calls calls' : Calls}
    (agree : ∀ tag source,
      C.Agree (Engine.dispatch calls tag source) (Engine.dispatch calls' tag source))
    (segments : List Segment) : ∀ (out : Rendered) (dirty : Bool),
      C.Agree (passOver calls segments out dirty) (passOver calls' segments out dirty) := by
  induction segments with
  | nil =>
    intro out dirty
    exact .pure _
  | cons segment rest ih =>
    intro out dirty
    obtain ⟨kind, content⟩ := segment
    cases kind with
    | verbatim => exact ih _ _
    | text => exact universal.bind (pieces_agree universal agree _ _ _) fun _ => ih _ _

end Scanning

/-- The ways back into the engine agree. -/
structure OnCalls (C : Coupling) (calls calls' : Calls) : Prop where
  render (text : String) (params : Params) :
    C.Agree (calls.render text params) (calls'.render text params)
  runSnippet (name : String) (params : Params) :
    C.Agree (calls.runSnippet name params) (calls'.runSnippet name params)

theorem OnCalls.kept {calls calls' : Calls} (agree : C.OnCalls calls calls') :
    C.law.OnCalls calls' :=
  ⟨fun text params => (agree.render text params).obeyed,
    fun name params => (agree.runSnippet name params).obeyed⟩

namespace Universal

variable {calls calls' : Calls}

theorem stop (universal : C.Universal) (reason : Stop) :
    C.Agree (Run.stop reason : Run α) (Run.stop reason) :=
  ⟨universal.law.stop reason, fun there => .inr ⟨rfl, there⟩⟩

theorem onWorld (universal : C.Universal) {f : World → α × World} (move : Move C.Fits f) :
    C.Agree (Run.onWorld f) (Run.onWorld f) where
  obeyed := universal.law.world (move.mono fun _ _ => trivial)
  meet there := (universal.move move there).imp_right fun ⟨same, there⟩ =>
    ⟨congrArg Except.ok same, there⟩

/-- Work goes on after something has been done to both worlds. -/
theorem after (universal : C.Universal) {f : World → Unit × World} (move : Move C.Fits f)
    {work other : Run β} (agree : C.Agree work other) {s t : Session} (there : C.Holds s t) :
    C.Matches (work { s with world := (f s.world).2 }) (other { t with world := (f t.world).2 }) := by
  rcases universal.move move there with excused | ⟨-, there⟩
  · exact .inl (universal.lasts excused (agree.obeyed _))
  · exact agree.meet there

theorem onPlaceholders (universal : C.Universal) (f : Placeholders → Placeholders)
    (alike : ∀ {a b : Placeholders}, a.Alike b → (f a).Alike (f b)) :
    C.Agree (Run.onEngine fun e => { e with placeholders := f e.placeholders })
      (Run.onEngine fun e => { e with placeholders := f e.placeholders }) :=
  ⟨universal.law.placeholders f, fun there => .inr ⟨rfl, universal.placeholders alike there⟩⟩

/-- What is done with an engine may depend on its placeholders, and on its counters if both have the
same. -/
theorem onEngine (universal : C.Universal) {next next' : Engine → Run β}
    (rest : ∀ e e' : Engine, e.placeholders.Alike e'.placeholders → (C.aware → e'.stats = e.stats) →
      C.Agree (next e) (next' e')) :
    C.Agree (Run.engine >>= next) (Run.engine >>= next') where
  obeyed := Law.Acting.engine.bind fun e => (rest e e (.refl _) fun _ => rfl).obeyed
  meet there := (rest _ _ (universal.scope there) (universal.stats · there)).meet there

theorem attempt (universal : C.Universal) {work other : Run α} (agree : C.Agree work other) :
    C.Agree (Run.attempt work) (Run.attempt other) where
  obeyed := universal.law.attempt agree.obeyed
  meet {s t} there := by
    have met := agree.meet there
    unfold Matches Run.attempt at *
    rcases first : work s with ⟨a, u⟩
    rcases second : other t with ⟨b, v⟩
    rw [first, second] at met
    rcases met with excused | ⟨same, there⟩
    · left
      rcases b with (e | _) | b
      · exact universal.caught excused
      · exact excused
      · exact excused
    · cases same
      right
      rcases a with (e | _) | a <;> exact ⟨rfl, there⟩

theorem renderChunk (universal : C.Universal) (agree : C.OnCalls calls calls') (name : String)
    (params : Params) : C.Agree (calls.renderChunk name params) (calls'.renderChunk name params) := by
  apply universal.bind (universal.onWorld (.chunk name))
  intro found
  cases found with
  | none => exact .pure _
  | some text => exact universal.bind (agree.render text params) fun _ => .pure _

/-- One case for each thing that a snippet may ask for. -/
theorem action (universal : C.Universal) (agree : C.OnCalls calls calls') (act : Action)
    (blind : C.aware ∨ act.Blind) : C.Agree (act.run calls) (act.run calls') := by
  induction act with
  | done text => exact .pure _
  | fail e => exact .pure _
  | set name value next ih =>
    exact universal.bind (universal.onPlaceholders (·.insert name value) (.insert name value))
      fun _ => ih blind
  | unset name next ih =>
    apply universal.onEngine
    intro e e' same _
    rw [same.contains name]
    exact universal.bind (universal.onPlaceholders (·.erase name) (.erase name)) fun _ =>
      ih _ (blind.imp_right (· _))
  | get name next ih =>
    apply universal.onEngine
    intro e e' same _
    rw [same name]
    exact ih _ (blind.imp_right (· _))
  | chunk name next ih =>
    exact universal.bind (universal.onWorld (.chunk name)) fun found =>
      ih found (blind.imp_right (· found))
  | registerChunk name text next ih =>
    exact universal.bind (universal.onWorld (.registerChunk name text)) fun _ => ih blind
  | registerSnippet name start next _ ih =>
    have fits : C.Fits (.program start) := blind.imp_right And.left
    exact universal.bind (universal.onWorld (.registerSnippet name start fits)) fun _ =>
      ih (blind.imp_right And.right)
  | render text params next ih =>
    exact universal.bind (universal.attempt (agree.render text params)) fun _ =>
      ih _ (blind.imp_right (· _))
  | renderChunk name params next ih =>
    exact universal.bind (universal.attempt (universal.renderChunk agree name params)) fun _ =>
      ih _ (blind.imp_right (· _))
  | runSnippet name params next ih =>
    exact universal.bind (universal.attempt (agree.runSnippet name params)) fun _ =>
      ih _ (blind.imp_right (· _))
  | stats next ih =>
    have aware : C.aware := blind.resolve_right id
    apply universal.onEngine
    intro e e' _ counted
    rw [counted aware]
    exact ih _ (.inl aware)
  | count counter next ih =>
    exact universal.bind (universal.onWorld (.count counter)) fun value =>
      ih value (blind.imp_right (· value))
  | announce name params next ih =>
    exact universal.bind (universal.onWorld (.record _ rfl)) fun _ => ih blind

theorem execute (universal : C.Universal) (agree : C.OnCalls calls calls') {snippet : Snippet}
    (fits : C.Fits snippet) (name : String) (params : Params) :
    C.Agree (execute calls name params snippet) (execute calls' name params snippet) := by
  cases snippet with
  | program start =>
    apply universal.bind (universal.action agree (start params) (fits.imp_right (· params)))
    intro answer
    cases answer with
    | ok text => exact .pure _
    | error cause => exact universal.stop _
  | script path =>
    refine ⟨universal.law.execute agree.kept name params _, ?_⟩
    intro s t there
    simp only [Engine.execute, universal.script fits there]
    cases Script.run s.world.files path params <;> exact .inr ⟨rfl, there⟩

/-- What is done with a snippet may rely on it doing the same in both runs. -/
theorem snippet_meets (universal : C.Universal) {s t : Session} {name : String}
    {next next' : Option Snippet → Run β} (there : C.Holds s t)
    (kept : ∀ found, C.law.Obeyed (next' found))
    (rest : ∀ found, (∀ snippet, found = some snippet → C.Fits snippet) →
      C.Agree (next found) (next' found)) :
    C.Matches ((Run.onWorld (·.snippet name) >>= next) s)
      ((Run.onWorld (·.snippet name) >>= next') t) := by
  by_cases excused : C.Excuses none { t with world := (t.world.snippet name).2 }
  · exact .inl (universal.lasts excused (kept _ _))
  have met := (universal.onWorld (.snippet name)).meet there
  apply universal.bind_meets met kept
  intro found u v answered there'
  have known : s.world.snippet? name = found := Except.ok.inj (congrArg Prod.fst answered)
  apply (rest found _).meet there'
  rintro snippet rfl
  exact (universal.fits there known).resolve_left excused

theorem runSnippet (universal : C.Universal) (agree : C.OnCalls calls calls') (name : String)
    (params : Params) : C.Agree (runSnippet calls name params) (runSnippet calls' name params) where
  obeyed := universal.law.runSnippet agree.kept name params
  meet there := by
    apply universal.snippet_meets there
    · rintro (_ | snippet)
      · exact .pure _
      · exact universal.law.execute agree.kept name params snippet
    · rintro (_ | snippet) fits
      · exact .pure _
      · exact universal.execute agree (fits snippet rfl) name params

theorem includeChunk (universal : C.Universal) (agree : C.OnCalls calls calls') (name : String)
    (params : Params) :
    C.Agree (includeChunk calls name params) (includeChunk calls' name params) := by
  apply universal.bind (universal.onWorld (.chunk name))
  intro found
  cases found with
  | none => exact .pure _
  | some text => exact universal.bind (agree.render text params) fun _ => .pure _

theorem includeSnippet (universal : C.Universal) (agree : C.OnCalls calls calls') (name : String)
    (params : Params) :
    C.Agree (includeSnippet calls name params) (includeSnippet calls' name params) where
  obeyed := universal.law.includeSnippet agree.kept name params
  meet there := by
    apply universal.snippet_meets there
    · rintro (_ | snippet)
      · exact .pure _
      · exact (universal.law.execute agree.kept name params snippet).bind fun _ => .pure _
    · rintro (_ | snippet) fits
      · exact .pure _
      · exact universal.bind (universal.execute agree (fits snippet rfl) name params) fun _ =>
          .pure _

theorem dispatch (universal : C.Universal) (agree : C.OnCalls calls calls') (tag : Tag)
    (source : List Char) : C.Agree (dispatch calls tag source) (dispatch calls' tag source) where
  obeyed := universal.law.dispatch agree.kept tag source
  meet {s t} there := by
    cases placeholder : tag.kind.isPlaceholder with
    | true =>
      rw [dispatch_placeholder placeholder, dispatch_placeholder placeholder,
        (universal.scope there).getD tag.name ""]
      exact .inr ⟨rfl, there⟩
    | false =>
      cases free : t.engine.mayDescend with
      | false =>
        rw [dispatch_refused placeholder free]
        rcases universal.refuse tag.kind tag.name there free with excused | ⟨refused, there'⟩
        · exact .inl excused
        · rw [dispatch_refused placeholder refused]
          exact .inr ⟨rfl, there'⟩
      | true =>
        have free' := universal.descend there free
        cases kind : tag.kind with
        | chunk =>
          rw [dispatch_chunk kind free, dispatch_chunk kind free']
          exact universal.after (.record (.dispatched .chunk tag.name) rfl)
            (universal.includeChunk agree tag.name tag.params) there
        | snippet =>
          rw [dispatch_snippet kind free, dispatch_snippet kind free']
          exact universal.after (.record (.dispatched .snippet tag.name) rfl)
            (universal.includeSnippet agree tag.name tag.params) there
        | placeholder => simp [kind, TagKind.isPlaceholder] at placeholder
        | starred => simp [kind, TagKind.isPlaceholder] at placeholder

theorem expand (universal : C.Universal) (agree : C.OnCalls calls calls') (passes : Nat)
    (current : Rendered) : C.Agree (expand calls passes current) (expand calls' passes current) := by
  refine ⟨universal.law.expand agree.kept passes current, ?_⟩
  intro s t there
  induction passes generalizing current s t with
  | zero =>
    rw [expand_zero, expand_zero]
    exact universal.after (.note .exhausted) (.pure current) (universal.countExhausted there)
  | succ passes ih =>
    rw [expand_succ, expand_succ]
    have pass := passOver_agrees universal (universal.dispatch agree) current.segments {} false
    refine universal.bind_meets (pass.meet (universal.countPass there)) ?_ ?_
    · rintro ⟨next, dirty⟩
      cases dirty with
      | true => exact universal.law.expand agree.kept passes next
      | false => exact (universal.law.note _).bind fun _ => .pure _
    · rintro ⟨next, dirty⟩ u v - there
      cases dirty with
      | true => exact ih next there
      | false => exact universal.after (.note _) (.pure next) there

theorem within (universal : C.Universal) {work other : Run α} (params : Params)
    (agree : C.Agree work other) : C.Agree (Run.within params work) (Run.within params other) where
  obeyed := universal.law.within params agree.obeyed
  meet {s t} there := by
    rw [Run.within_apply, Run.within_apply]
    rcases agree.meet (universal.enter params there) with excused | ⟨same, there'⟩
    · exact .inl (universal.left excused)
    · exact .inr ⟨same, universal.leave there (agree.obeyed (t.enter params)) there'⟩

/-- The first run may have more calls open. Then a second one that has too many must be excused. -/
theorem callsWithin (universal : C.Universal) (more limit : Nat)
    (short : 0 < more → ∀ t, C.Excuses (some .unfinished) t) :
    C.OnCalls (callsWithin (limit + more)) (callsWithin limit) := by
  induction limit with
  | zero =>
    rcases Nat.eq_zero_or_pos more with rfl | some
    · exact ⟨fun _ _ => universal.stop _, fun _ _ => universal.stop _⟩
    · exact ⟨fun _ _ => ⟨universal.law.stop _, fun _ => .inl (short some _)⟩,
        fun _ _ => ⟨universal.law.stop _, fun _ => .inl (short some _)⟩⟩
  | succ limit ih =>
    rw [Nat.add_right_comm]
    exact ⟨fun _ params => universal.within params (universal.expand ih maxPasses _),
      universal.runSnippet ih⟩

end Universal
end Coupling
end DocSite.Template
