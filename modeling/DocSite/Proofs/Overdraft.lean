import DocSite.Proofs.Inclusion
import DocSite.Proofs.Scope
import DocSite.Proofs.Unclosed

/-! The number of renders when snippets call back into the engine. Each nested render counts, but
only tags are asked whether there is one left, so a snippet may begin any number of them. A render
keeps to the number that is allowed just when it is the same if no render begins beyond it. -/
namespace DocSite.Template

namespace Engine

/-- Whether a render that begins now is an outermost one or one of the nested ones that are
allowed. -/
def affords (e : Engine) : Bool := e.depth == 0 || e.nested < maxNestedRenders

/-- The ways back into the engine when a nested render beyond those that are allowed ends the run. -/
def callsInBudget : (limit : Nat) → Calls
  | 0 => ⟨fun _ _ => Run.stop .unfinished, fun _ _ => Run.stop .unfinished⟩
  | limit + 1 =>
    ⟨fun text params => do
        if (← Run.engine).affords then render (callsInBudget limit) text params
        else Run.stop .unfinished,
      fun name params => runSnippet (callsInBudget limit) name params⟩

theorem affords_iff (e : Engine) :
    e.affords = true ↔ (0 < e.depth → e.nested < maxNestedRenders) := by
  simp only [affords, Bool.or_eq_true, beq_iff_eq, decide_eq_true_eq]
  omega

/-- The chunk of a tag that is taken up is rendered within the number that is allowed. -/
theorem affords_of_mayDescend {e : Engine} (free : e.mayDescend = true) : e.affords = true :=
  e.affords_iff.mpr fun _ => ((mayDescend_iff e).mp free).2

theorem callsInBudget_render (limit : Nat) (text : String) (params : Params) (s : Session) :
    (callsInBudget (limit + 1)).render text params s =
      if s.engine.affords then render (callsInBudget limit) text params s
      else (.error .unfinished, s) := by
  change (Run.engine >>= fun e => if e.affords then render (callsInBudget limit) text params
    else Run.stop .unfinished) s = _
  rw [Run.engine_bind]
  split <;> rfl

end Engine

open Engine

/-! Renders and nested renders -/

/-- Inside a render, each render that begins is counted as a render and as a nested one, and the
number of nested ones keeps `fits`. -/
def Law.tally (fits : Nat → Prop) : Law where
  Holds s _ t := t.engine.depth = s.engine.depth ∧ (0 < s.engine.depth →
    t.engine.stats.renders + s.engine.nested = s.engine.stats.renders + t.engine.nested ∧
      (fits s.engine.nested → fits t.engine.nested))
  refl _ := ⟨rfl, fun _ => ⟨rfl, id⟩⟩
  trans := by
    rintro s t u stop ⟨depth, counts⟩ ⟨depth', counts'⟩
    refine ⟨depth'.trans depth, fun opened => ?_⟩
    obtain ⟨first, kept⟩ := counts opened
    obtain ⟨second, kept'⟩ := counts' (depth ▸ opened)
    exact ⟨by omega, kept' ∘ kept⟩

namespace Tally

variable {fits : Nat → Prop} {calls : Calls} {α : Type} {work : Run α} {s : Session}

theorem acting (fits : Nat → Prop) : (Law.tally fits).Acting where
  ends held := held
  placeholders _ _ := ⟨rfl, fun _ => ⟨rfl, id⟩⟩
  world _ _ := ⟨rfl, fun _ => ⟨rfl, id⟩⟩
  refuse s _ _ := by
    refine ⟨noteLimit_depth s.engine, fun _ => ?_⟩
    rw [noteLimit_renders, noteLimit_nested]
    exact ⟨rfl, id⟩

theorem expand (kept : (Law.tally fits).OnCalls calls) (passes : Nat) (current : Rendered) :
    (Law.tally fits).Obeyed (expand calls passes current) :=
  Law.expand_obeyed ((acting fits).dispatch kept) (fun _ => ⟨rfl, fun _ => ⟨rfl, id⟩⟩)
    (fun _ => ⟨rfl, fun _ => ⟨rfl, id⟩⟩) (acting fits).note passes current

/-- A nested render counts as one, and a number more must fit. -/
theorem within (kept : (Law.tally fits).Obeyed work) (params : Params)
    (next : 0 < s.engine.depth → fits s.engine.nested → fits (s.engine.nested + 1)) :
    (Law.tally fits).At (Run.within params work) s := by
  obtain ⟨depth, counts⟩ := kept (s.enter params)
  have deeper : (s.enter params).engine.depth = s.engine.depth + 1 := rfl
  have counted : (s.enter params).engine.stats.renders = s.engine.stats.renders + 1 := rfl
  obtain ⟨renders, fitting⟩ := counts (by omega)
  refine ⟨?_, fun opened => ?_⟩
  · change (work (s.enter params)).2.engine.depth - 1 = s.engine.depth
    omega
  · rw [s.nested_enter opened params] at renders fitting
    refine ⟨?_, fun before => fitting (next opened before)⟩
    change (work (s.enter params)).2.engine.stats.renders + s.engine.nested =
      s.engine.stats.renders + (work (s.enter params)).2.engine.nested
    omega

/-- An outermost render counts as one, and the nested ones are counted from zero. -/
theorem outermost (kept : (Law.tally fits).Obeyed work) (params : Params) (none : fits 0)
    (outermost : s.engine.depth = 0) :
    let t := (Run.within params work s).2
    t.engine.stats.renders = s.engine.stats.renders + 1 + t.engine.nested ∧
      fits t.engine.nested := by
  obtain ⟨-, counts⟩ := kept (s.enter params)
  obtain ⟨renders, fitting⟩ := counts (Nat.succ_pos _)
  rw [s.nested_enter_outermost outermost params] at renders fitting
  exact ⟨renders, fitting none⟩

theorem callsWithin (limit : Nat) : (Law.tally fun _ => True).OnCalls (callsWithin limit) := by
  induction limit with
  | zero => exact ⟨fun _ _ => (acting _).stop _, fun _ _ => (acting _).stop _⟩
  | succ limit ih =>
    refine ⟨fun text params s => ?_, (acting _).runSnippet ih⟩
    exact within (expand ih maxPasses _) params fun _ _ => trivial

theorem callsInBudget (limit : Nat) :
    (Law.tally (· ≤ maxNestedRenders)).OnCalls (callsInBudget limit) := by
  induction limit with
  | zero => exact ⟨fun _ _ => (acting _).stop _, fun _ _ => (acting _).stop _⟩
  | succ limit ih =>
    refine ⟨fun text params s => ?_, (acting _).runSnippet ih⟩
    rw [Law.At, callsInBudget_render]
    split
    · rename_i affords
      exact within (expand ih maxPasses _) params fun opened _ =>
        (s.engine.affords_iff.mp affords) opened
    · exact (acting _).ends ((Law.tally _).refl s)

end Tally

/-! Both engines side by side -/

/-- Both runs are the same, until the second one has begun more nested renders than are allowed.
Outside of renders, where their number can begin anew, it is excused as well. -/
def Coupling.thrift : Coupling where
  Holds := Eq
  aware := True
  Runs _ := True
  Excuses _ t := t.engine.depth = 0 ∨ maxNestedRenders < t.engine.nested
  law := Law.nesting

namespace Thrift

theorem universal : Coupling.thrift.Universal where
  law := Nesting.universal
  lasts := by
    rintro s t stop excused ⟨depth, grows⟩
    by_cases opened : 0 < s.engine.depth
    · right
      exact Nat.lt_of_lt_of_le (excused.resolve_left (Nat.ne_of_gt opened)) (grows opened)
    · exact .inl (by omega)
  caught excused := excused
  scope := by
    rintro s _ rfl
    exact .refl _
  stats := by
    rintro s _ - rfl
    rfl
  script := by
    rintro s _ path - rfl
    rfl
  fits {_ _ _ snippet} _ _ := by
    cases snippet with
    | program => exact .inr (.inl trivial)
    | script => exact .inr trivial
  placeholders := by
    rintro s _ f - rfl
    rfl
  move := by
    rintro s _ α f - rfl
    exact .inr ⟨rfl, rfl⟩
  countPass := by
    rintro s _ rfl
    rfl
  countExhausted := by
    rintro s _ rfl
    rfl
  descend := by
    rintro s _ rfl free
    exact free
  refuse := by
    rintro s _ kind name rfl refused
    exact .inr ⟨refused, rfl⟩
  enter := by
    rintro s _ params rfl
    rfl
  leave := by
    rintro s _ u _ params stop rfl - rfl
    rfl
  left := by
    rintro t v stop (outside | beyond)
    · exact .inl (by rw [Session.leave, Engine.leave, outside])
    · exact .inr beyond

/-- A render that begins beyond the budget excuses the second run, and all others are the same. -/
theorem onCalls (limit : Nat) :
    Coupling.thrift.OnCalls (callsInBudget limit) (callsWithin limit) := by
  induction limit with
  | zero => exact ⟨fun _ _ => universal.stop _, fun _ _ => universal.stop _⟩
  | succ limit ih =>
    refine ⟨fun text params => ?_, universal.runSnippet ih⟩
    have inside := universal.expand ih maxPasses (.ofText text)
    refine ⟨Nesting.within params inside.obeyed, ?_⟩
    rintro s _ rfl
    rw [callsInBudget_render]
    split
    · exact (universal.within params inside).meet rfl
    · rename_i beyond
      obtain ⟨opened, out⟩ : 0 < s.engine.depth ∧ ¬ s.engine.nested < maxNestedRenders :=
        Classical.not_imp.mp (mt s.engine.affords_iff.mpr beyond)
      -- the second run begins the render, and its number never goes down again
      left
      right
      have counted := s.nested_enter opened params
      have grows := (inside.obeyed (s.enter params)).2 (Nat.succ_pos _)
      change maxNestedRenders < (expand (callsWithin limit) maxPasses (.ofText text)
        (s.enter params)).2.engine.nested
      omega

end Thrift

namespace Engine

variable {s : Session}

theorem callsInBudget_outermost (limit : Nat) (text : String) (params : Params)
    (outermost : s.engine.depth = 0) : (callsInBudget (limit + 1)).render text params s =
      render (callsInBudget limit) text params s := by
  have affords : s.engine.affords = true := s.engine.affords_iff.mpr fun opened => by omega
  rw [callsInBudget_render, if_pos affords]

/-- Within the budget no render is missed. -/
theorem render_of_nested_le (limit : Nat) (text : String) (params : Params)
    (outermost : s.engine.depth = 0)
    (within : ((callsWithin (limit + 1)).render text params s).2.engine.nested ≤ maxNestedRenders) :
    (callsInBudget (limit + 1)).render text params s =
      (callsWithin (limit + 1)).render text params s := by
  have inside := Thrift.universal.expand (Thrift.onCalls limit) maxPasses (.ofText text)
  rw [callsInBudget_outermost limit text params outermost]
  change render _ text params s = render (callsWithin limit) text params s
  simp only [render, Run.within_apply]
  rcases inside.meet (rfl : s.enter params = s.enter params) with (outside | beyond) | ⟨same, there⟩
  · have depth := (inside.obeyed (s.enter params)).1
    rw [outside] at depth
    cases depth
  · exact absurd within (Nat.not_le.mpr beyond)
  · rw [same, (there : _ = _)]

theorem nested_le_of_budget (limit : Nat) (text : String) (params : Params)
    (outermost : s.engine.depth = 0) :
    ((callsInBudget (limit + 1)).render text params s).2.engine.nested ≤ maxNestedRenders := by
  rw [callsInBudget_outermost limit text params outermost]
  exact (Tally.outermost (Tally.expand (Tally.callsInBudget limit) maxPasses _) params
    (Nat.zero_le _) outermost).2

theorem renders_of_outermost (limit : Nat) (text : String) (params : Params)
    (outermost : s.engine.depth = 0) :
    let t := ((callsWithin (limit + 1)).render text params s).2
    t.engine.stats.renders = s.engine.stats.renders + 1 + t.engine.nested :=
  (Tally.outermost (Tally.expand (Tally.callsWithin limit) maxPasses _) params trivial outermost).1

/-- The number that is allowed is kept just when nothing is missed that begins beyond it. -/
theorem render_kept_iff (limit : Nat) (text : String) (params : Params)
    (outermost : s.engine.depth = 0) :
    let kept := (callsInBudget (limit + 1)).render text params s
    let whole := (callsWithin (limit + 1)).render text params s
    whole.2.engine.stats.renders ≤ s.engine.stats.renders + (maxNestedRenders + 1) ↔
      (kept.1.map Rendered.flatten, kept.2) = (whole.1.map Rendered.flatten, whole.2) := by
  have counted := renders_of_outermost limit text params outermost
  dsimp only at counted ⊢
  constructor
  · intro few
    rw [render_of_nested_le limit text params outermost (by omega)]
  · intro same
    have within := nested_le_of_budget limit text params outermost
    have sessions := congrArg Prod.snd same
    dsimp only at sessions
    rw [sessions] at within
    omega

end Engine

/-- A chunk that is rendered by its name is looked up first. -/
theorem Calls.renderChunk_apply (calls : Calls) (name : String) (params : Params) (s : Session) :
    calls.renderChunk name params s =
      let there : Session := { s with world := (s.world.chunk name).2 }
      match (s.world.chunk name).1 with
      | none => (.ok "", there)
      | some text => ((calls.render text params there).1.map Rendered.flatten,
          (calls.render text params there).2) := by
  rw [Calls.renderChunk, Run.onWorld_bind]
  cases (s.world.chunk name).1 with
  | none => rfl
  | some text => exact Run.map_apply ..

/-- An outermost render counts one render more than it has nested ones, those that snippets begin
included. It keeps to the number that is allowed just when it is the same without any nested render
beyond this number, however many calls may be open besides its own. Tags never begin one. -/
theorem budget_kept_iff (limit : Nat) {s : Session} (outermost : s.engine.depth = 0)
    (params : Params) :
    (∀ text, let whole := (callsWithin (limit + 1)).renderString text params s
      whole.2.engine.stats.renders = s.engine.stats.renders + 1 + whole.2.engine.nested ∧
      (whole.2.engine.stats.renders ≤ s.engine.stats.renders + (maxNestedRenders + 1) ↔
        (callsInBudget (limit + 1)).renderString text params s = whole)) ∧
    (∀ name, let whole := (callsWithin (limit + 1)).renderChunk name params s
      (whole.2.engine.stats.renders ≤ s.engine.stats.renders + (maxNestedRenders + 1) ↔
        (callsInBudget (limit + 1)).renderChunk name params s = whole)) ∧
    ∀ e : Engine, e.mayDescend = true → e.affords = true := by
  refine ⟨fun text => ?_, fun name => ?_, fun _ => affords_of_mayDescend⟩
  · have budget : (callsInBudget (limit + 1)).renderString text params s = _ := Run.map_apply ..
    rw [budget, renderStringWithin_apply]
    exact ⟨renders_of_outermost limit text params outermost,
      render_kept_iff limit text params outermost⟩
  · rw [Calls.renderChunk_apply, Calls.renderChunk_apply]
    cases (s.world.chunk name).1 with
    | none => exact iff_of_true (Nat.le_add_right ..) rfl
    | some text => exact render_kept_iff limit text params outermost

/-! A snippet that renders again and again -/
namespace Crowd

/-- Renders the empty text `n` times. -/
def again : Nat → Action
  | 0 => .done ""
  | n + 1 => .render "" {} fun _ => again n

def site (n : Nat) : Session where
  world := ({} : World).registerSnippet "many" (.program fun _ => again n)

theorem tagless_empty : Tagless "" := by
  simp [Tagless, Piece.readAll]

/-- Each of these renders counts, and no limit ever sees one. -/
theorem run_again (limit n : Nat) (s : Session) : ∃ t,
    (again n).run (callsWithin (limit + 1)) s = (.ok (.ok ""), t) ∧
      t.engine.stats.renders = s.engine.stats.renders + n ∧
      t.engine.stats.depthLimited = s.engine.stats.depthLimited := by
  induction n generalizing s with
  | zero => exact ⟨s, rfl, rfl, rfl⟩
  | succ n ih =>
    obtain ⟨t, ran, renders, limited⟩ := ih s.glance
    have rendered : (callsWithin (limit + 1)).render "" {} s =
        (.ok (Rendered.ofText ""), s.glance) :=
      render_tagless (callsWithin limit) tagless_empty {} s
    refine ⟨t, ?_, ?_, limited⟩
    · rw [again, Action.run, Run.bind_apply, Run.attempt, rendered]
      exact ran
    · rw [renders]
      exact Nat.succ_add_eq_add_succ _ n

def tag : Tag := { kind := .snippet, name := "many", params := {} }

theorem toString_tag : toString tag = "[[many]]" := by decide

theorem canonical : tag.Canonical :=
  ⟨⟨by decide, by decide, by decide, by decide⟩, by decide⟩

/-- However many renders the snippet begins, there is an answer, and it took all of them. -/
theorem render_many (n : Nat) : ∃ t, renderString "[[many]]" {} (site n) = (.ok "", t) ∧
    t.engine.stats.renders = n + 1 ∧ t.engine.stats.depthLimited = 0 := by
  obtain ⟨limit, whole⟩ : ∃ limit, callLimit = limit + 1 + 1 := ⟨1022, rfl⟩
  let start : Session := { (site n).enter {} with engine := ((site n).enter {}).engine.countPass }
  let taken : Session :=
    { start with world := ((start.world.record (.dispatched .snippet "many")).snippet "many").2 }
  let snippet : Snippet := .program fun _ => again n
  obtain ⟨t, ran, renders, limited⟩ := run_again limit n taken
  have executed : execute (callsWithin (limit + 1)) "many" {} snippet taken = (.ok "", t) := by
    rw [execute, Run.bind_apply, ran]
    rfl
  have dispatched : dispatch (callsWithin (limit + 1)) tag tag.chars start =
      (.ok (Rendered.ofText "", true), t) := by
    rw [dispatch_snippet rfl rfl]
    refine (Run.map_apply (fun text => (Rendered.ofText text, true))
      (execute (callsWithin (limit + 1)) "many" {} snippet) taken).trans ?_
    rw [executed]
    rfl
  have passes : maxPasses = 9 + 1 := rfl
  refine ⟨(site n).leave ⟨t.engine.countPass, t.world.note (.settled 2)⟩, ?_, ?_, ?_⟩
  · rw [← toString_tag, renderString_apply whole, render, Run.within_apply, passes,
      expand_tag canonical rfl, Run.bind_apply, dispatched]
    rfl
  · exact renders.trans (Nat.add_comm ..)
  · exact limited

end Crowd

/-- The last nested render that is allowed. -/
theorem last_render_kept : (Crowd.site 4096).engine.depth = 0 ∧
    (renderString "[[many]]" {} (Crowd.site 4096)).2.engine.stats.renders = 4097 ∧
    (callsInBudget callLimit).renderString "[[many]]" {} (Crowd.site 4096) =
      renderString "[[many]]" {} (Crowd.site 4096) := by
  have outermost : (Crowd.site 4096).engine.depth = 0 := rfl
  obtain ⟨t, answered, renders, -⟩ := Crowd.render_many 4096
  have counted : (renderString "[[many]]" {} (Crowd.site 4096)).2.engine.stats.renders = 4097 := by
    rw [answered, renders]
  have few := (((budget_kept_iff (callLimit - 1) outermost {}).1 "[[many]]").2).mp
  exact ⟨outermost, counted, few (Nat.le_of_eq counted)⟩

/-- One more, and the engine begins it all the same. -/
theorem next_render_begun : ∃ t, renderString "[[many]]" {} (Crowd.site 4097) = (.ok "", t) ∧
    t.engine.stats.renders = 4098 ∧ t.engine.stats.depthLimited = 0 ∧
    ¬ t.engine.stats.renders ≤ (Crowd.site 4097).engine.stats.renders + (maxNestedRenders + 1) := by
  obtain ⟨t, answered, renders, limited⟩ := Crowd.render_many 4097
  refine ⟨t, answered, renders, limited, ?_⟩
  rw [renders]
  decide

end DocSite.Template
