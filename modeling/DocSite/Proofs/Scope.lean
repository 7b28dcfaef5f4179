import DocSite.Proofs.Law

/-! The scope of a render. Whatever snippets do to the placeholders and however often they
call back into the engine, a render leaves the placeholders and the depth as it found them. -/
namespace DocSite.Template

variable {α : Type}

/-- Work keeps the depth, and inside a render the nested renders only grow in number. -/
def Law.nesting : Law where
  Holds s _ t := t.engine.depth = s.engine.depth ∧
    (0 < s.engine.depth → s.engine.nested ≤ t.engine.nested)
  refl _ := ⟨rfl, fun _ => Nat.le_refl _⟩
  trans := by
    rintro s t u stop ⟨depth, grows⟩ ⟨depth', grows'⟩
    refine ⟨depth'.trans depth, fun opened => ?_⟩
    exact Nat.le_trans (grows opened) (grows' (depth ▸ opened))

namespace Nesting

/-- The depth goes up by one on the way in and down by one on the way out. -/
theorem within {work : Run α} (params : Params) (kept : Law.nesting.Obeyed work) :
    Law.nesting.Obeyed (Run.within params work) := by
  intro s
  obtain ⟨depth, grows⟩ := kept (s.enter params)
  have deeper : (s.enter params).engine.depth = s.engine.depth + 1 := rfl
  refine ⟨?_, fun opened => ?_⟩
  · change (work (s.enter params)).2.engine.depth - 1 = s.engine.depth
    omega
  · change s.engine.nested ≤ (work (s.enter params)).2.engine.nested
    have counted := s.nested_enter opened params
    have := grows (by omega)
    omega

theorem universal : Law.nesting.Universal where
  ends held := held
  placeholders _ _ := ⟨rfl, fun _ => Nat.le_refl _⟩
  stats _ _ _ := ⟨rfl, fun _ => Nat.le_refl _⟩
  world _ _ := ⟨rfl, fun _ => Nat.le_refl _⟩
  refuse s _ _ := by
    refine ⟨Engine.noteLimit_depth s.engine, fun _ => ?_⟩
    exact Nat.le_of_eq (Engine.noteLimit_nested s.engine).symm
  within := within

end Nesting

/-- Work leaves the placeholders and the depth as it found them, however it ends. -/
def Law.scope : Law where
  Holds s _ t := t.engine.placeholders = s.engine.placeholders ∧ t.engine.depth = s.engine.depth
  refl _ := ⟨rfl, rfl⟩
  trans := by
    rintro s t u stop ⟨same, depth⟩ ⟨same', depth'⟩
    exact ⟨same'.trans same, depth'.trans depth⟩

namespace Scope

open Engine

/-- The placeholders are put back from before the render, so only the depth needs the work inside. -/
theorem within {work : Run α} (params : Params) (kept : Law.nesting.Obeyed work) :
    Law.scope.Obeyed (Run.within params work) :=
  fun s => ⟨rfl, (Nesting.within params kept s).1⟩

theorem render (limit : Nat) (text : String) (params : Params) :
    Law.scope.Obeyed ((callsWithin limit).render text params) := by
  cases limit with
  | zero => exact fun s => Law.scope.refl s
  | succ limit =>
    have kept := Nesting.universal.callsWithin limit
    exact within params (Nesting.universal.expand kept maxPasses _)

theorem onWorld (f : World → β × World) : Law.scope.Obeyed (Run.onWorld f) :=
  fun _ => ⟨rfl, rfl⟩

theorem renderChunk (limit : Nat) (name : String) (params : Params) :
    Law.scope.Obeyed ((callsWithin limit).renderChunk name params) :=
  Law.renderChunk_obeyed (fun _ => onWorld _) (render limit) name params

theorem includeChunk (limit : Nat) (name : String) (params : Params) :
    Law.scope.Obeyed (includeChunk (callsWithin limit) name params) :=
  Law.includeChunk_obeyed (fun _ => onWorld _) (render limit) name params

/-- Tags that follow a chunk tag find the placeholders that the chunk tag found. -/
theorem dispatch_chunk (limit : Nat) (name : String) (params : Params) (source : List Char) :
    Law.scope.Obeyed (dispatch (callsWithin limit) { kind := .chunk, name, params } source) := by
  intro s
  let tag : Tag := { kind := .chunk, name, params }
  change Law.scope.At (dispatch (callsWithin limit) tag source) s
  have kind : tag.kind = .chunk := rfl
  unfold Law.At
  cases free : s.engine.mayDescend with
  | false =>
    have placeholder : tag.kind.isPlaceholder = false := rfl
    rw [dispatch_refused placeholder free]
    exact ⟨noteLimit_placeholders s.engine, noteLimit_depth s.engine⟩
  | true =>
    rw [Engine.dispatch_chunk kind free]
    exact Law.scope.trans ⟨rfl, rfl⟩ (includeChunk limit name params _)

end Scope

/-- Renders, also those that snippets begin from inside other renders, leave the placeholders
and the depth as they found them, whether they answer or fail. So does a chunk tag, for the
tags that follow it. -/
theorem renders_restore_scope :
    (∀ text params, Law.scope.Obeyed (Engine.renderString text params)) ∧
    (∀ name params, Law.scope.Obeyed (Engine.renderNamedChunk name params)) ∧
    ∀ limit,
      (∀ text params, Law.scope.Obeyed ((Engine.callsWithin limit).render text params)) ∧
      (∀ name params, Law.scope.Obeyed ((Engine.callsWithin limit).renderChunk name params)) ∧
      ∀ name params source, Law.scope.Obeyed
        (Engine.dispatch (Engine.callsWithin limit) { kind := .chunk, name, params } source) := by
  refine ⟨fun text params => ?_, Scope.renderChunk _, fun limit =>
    ⟨Scope.render limit, Scope.renderChunk limit, Scope.dispatch_chunk limit⟩⟩
  exact (Scope.render _ text params).bind fun _ => .pure _

end DocSite.Template
