import DocSite.Template.Engine

/-! Runs as equations: what each step of a run does to the session it starts in, and the
four ways in which a tag is dispatched. -/
namespace DocSite.Template

/-- Work that goes from state to state and may fail. -/
abbrev Work (ε σ : Type) := ExceptT ε (StateM σ)

namespace Work

variable {ε σ α β : Type}

theorem bind_apply (work : Work ε σ α) (next : α → Work ε σ β) (s : σ) :
    (work >>= next) s = match work s with
      | (.ok a, t) => next a t
      | (.error e, t) => (.error e, t) := by
  have unfolded : (work >>= next) s = ExceptT.bindCont next (work s).1 (work s).2 := rfl
  rw [unfolded]
  rcases work s with ⟨answer, t⟩
  cases answer <;> rfl

theorem ok_of_bind {work : Work ε σ α} {next : α → Work ε σ β} {s t : σ} {b : β}
    (ended : (work >>= next) s = (.ok b, t)) :
    ∃ a between, work s = (.ok a, between) ∧ next a between = (.ok b, t) := by
  rw [bind_apply] at ended
  generalize work s = answered at ended
  obtain ⟨_ | a, between⟩ := answered
  · cases ended
  · exact ⟨a, between, rfl, ended⟩

end Work

/-- The session as a render with `params` begins. -/
def Session.enter (params : Params) (s : Session) : Session :=
  ⟨s.engine.enter params, s.world.note (.began (s.engine.depth + 1))⟩

/-- The session after a render that began at `before`. -/
def Session.leave (before s : Session) : Session :=
  { s with engine := before.engine.leave s.engine }

/-- Nested renders are counted from where the outermost one begins. -/
theorem Session.nested_enter_outermost {s : Session} (outermost : s.engine.depth = 0)
    (params : Params) : (s.enter params).engine.nested = 0 := if_pos outermost

theorem Session.nested_enter {s : Session} (opened : 0 < s.engine.depth) (params : Params) :
    (s.enter params).engine.nested = s.engine.nested + 1 := if_neg (Nat.ne_of_gt opened)

namespace Run

variable {α β : Type}

@[simp] theorem pure_apply (a : α) (s : Session) : (pure a : Run α) s = (.ok a, s) := rfl

theorem bind_apply (work : Run α) (next : α → Run β) (s : Session) :
    (work >>= next) s = match work s with
      | (.ok a, t) => next a t
      | (.error e, t) => (.error e, t) := by
  refine (Work.bind_apply work next s).trans ?_
  rcases work s with ⟨_ | _, _⟩ <;> rfl

theorem map_apply (f : α → β) (work : Run α) (s : Session) :
    (do return f (← work) : Run β) s = ((work s).1.map f, (work s).2) := by
  refine (bind_apply work _ s).trans ?_
  rcases work s with ⟨answer, t⟩
  cases answer <;> rfl

@[simp] theorem engine_bind (next : Engine → Run β) (s : Session) :
    (engine >>= next) s = next s.engine s := rfl

@[simp] theorem onEngine_bind (f : Engine → Engine) (next : Unit → Run β) (s : Session) :
    (onEngine f >>= next) s = next () { s with engine := f s.engine } := rfl

@[simp] theorem onWorld_bind (f : World → α × World) (next : α → Run β) (s : Session) :
    (onWorld f >>= next) s = next (f s.world).1 { s with world := (f s.world).2 } := rfl

@[simp] theorem record_bind (event : Event) (next : Unit → Run β) (s : Session) :
    (record event >>= next) s = next () { s with world := s.world.record event } := rfl

@[simp] theorem note_bind (notice : Notice) (next : Unit → Run β) (s : Session) :
    (note notice >>= next) s = next () { s with world := s.world.note notice } := rfl

theorem within_apply (params : Params) (work : Run α) (s : Session) :
    within params work s = ((work (s.enter params)).1, s.leave (work (s.enter params)).2) := rfl

end Run

namespace Engine

@[simp] theorem noteLimit_placeholders (e : Engine) :
    e.noteLimit.placeholders = e.placeholders := by
  unfold noteLimit
  split <;> rfl

@[simp] theorem noteLimit_depth (e : Engine) : e.noteLimit.depth = e.depth := by
  unfold noteLimit
  split <;> rfl

@[simp] theorem noteLimit_nested (e : Engine) : e.noteLimit.nested = e.nested := by
  unfold noteLimit
  split <;> rfl

@[simp] theorem noteLimit_renders (e : Engine) : e.noteLimit.stats.renders = e.stats.renders := by
  unfold noteLimit
  split <;> rfl

@[simp] theorem noteLimit_passes (e : Engine) : e.noteLimit.stats.passes = e.stats.passes := by
  unfold noteLimit
  split <;> rfl

theorem mayDescend_iff (e : Engine) :
    e.mayDescend = true ↔ e.depth < maxDepth ∧ e.nested < maxNestedRenders := by
  simp [mayDescend]

variable {calls : Calls} {tag : Tag} {source : List Char} {s : Session}

theorem dispatch_placeholder (kind : tag.kind.isPlaceholder = true) :
    dispatch calls tag source s =
      (.ok (Rendered.empty.pushVerbatim (s.engine.placeholders.getD tag.name ""), true), s) := by
  simp [dispatch, kind]

theorem dispatch_refused (kind : tag.kind.isPlaceholder = false)
    (refused : s.engine.mayDescend = false) :
    dispatch calls tag source s =
      (.ok (Rendered.empty.pushVerbatim (String.ofList source), false),
        ⟨s.engine.noteLimit, s.world.record (.refused tag.kind tag.name s.engine.nested)⟩) := by
  simp only [dispatch, Run.engine_bind, kind, refused, Bool.false_eq_true, if_false, Run.record_bind]
  rfl

/-- What a chunk tag does once it has been taken up. -/
def includeChunk (calls : Calls) (name : String) (params : Params) : Run (Rendered × Bool) := do
  match ← Run.onWorld (·.chunk name) with
  | none => pure ({}, true)
  | some text => return (← calls.render text params, true)

/-- What a snippet tag does once it has been taken up. -/
def includeSnippet (calls : Calls) (name : String) (params : Params) : Run (Rendered × Bool) := do
  match ← Run.onWorld (·.snippet name) with
  | none => pure ({}, true)
  | some snippet => return (Rendered.ofText (← execute calls name params snippet), true)

theorem dispatch_chunk (kind : tag.kind = .chunk) (free : s.engine.mayDescend = true) :
    dispatch calls tag source s = includeChunk calls tag.name tag.params
      { s with world := s.world.record (.dispatched .chunk tag.name) } := by
  obtain ⟨deferred, k, name, params⟩ := tag
  cases kind
  simp only [dispatch, Run.engine_bind, TagKind.isPlaceholder, free, Bool.false_eq_true, if_false,
    if_true, Run.record_bind]
  rfl

theorem dispatch_snippet (kind : tag.kind = .snippet) (free : s.engine.mayDescend = true) :
    dispatch calls tag source s = includeSnippet calls tag.name tag.params
      { s with world := s.world.record (.dispatched .snippet tag.name) } := by
  obtain ⟨deferred, k, name, params⟩ := tag
  cases kind
  simp only [dispatch, Run.engine_bind, TagKind.isPlaceholder, free, Bool.false_eq_true, if_false,
    if_true, Run.record_bind]
  rfl

/-- The engine when one more pass begins. -/
def countPass (e : Engine) : Engine :=
  { e with stats := { e.stats with passes := e.stats.passes + 1 } }

/-- What follows a pass when `passes` more are allowed. -/
def afterPass (calls : Calls) (passes : Nat) (result : Rendered × Bool) : Run Rendered :=
  if result.2 then expand calls passes result.1
  else do
    Run.note (.settled (maxPasses - passes))
    pure result.1

theorem expand_succ (calls : Calls) (passes : Nat) (current : Rendered) (s : Session) :
    expand calls (passes + 1) current s =
      (passOver calls current.segments {} false >>= afterPass calls passes)
        { s with engine := s.engine.countPass } := rfl

/-- The engine when the passes of a render have run out. -/
def countExhausted (e : Engine) : Engine :=
  { e with stats := { e.stats with budgetExhausted := e.stats.budgetExhausted + 1 } }

theorem expand_zero (calls : Calls) (current : Rendered) (s : Session) :
    expand calls 0 current s = (.ok current, ⟨s.engine.countExhausted, s.world.note .exhausted⟩) :=
  rfl

theorem renderStringWithin_apply (limit : Nat) (text : String) (params : Params) (s : Session) :
    (callsWithin (limit + 1)).renderString text params s =
      ((render (callsWithin limit) text params s).1.map Rendered.flatten,
        (render (callsWithin limit) text params s).2) :=
  Run.map_apply ..

theorem renderString_apply {limit : Nat} (whole : callLimit = limit + 1) (text : String)
    (params : Params) (s : Session) : renderString text params s =
      ((render (callsWithin limit) text params s).1.map Rendered.flatten,
        (render (callsWithin limit) text params s).2) := by
  rw [renderString, whole, renderStringWithin_apply]

end Engine
end DocSite.Template
