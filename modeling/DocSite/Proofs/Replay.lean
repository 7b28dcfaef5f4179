import DocSite.Proofs.Lockstep
import DocSite.Template.Family

/-! What is asked of one engine of a family. Done again with an engine of the same placeholders, in
worlds that give the same answers to what the engine asks, it leads to the same placeholders and
counters. -/
namespace DocSite.Template

/-- What two engines have to themselves is the same. -/
structure Engine.Alike (e f : Engine) : Prop where
  placeholders : e.placeholders.Alike f.placeholders
  depth : f.depth = e.depth
  nested : f.nested = e.nested
  limited : f.limited = e.limited
  stats : f.stats = e.stats

namespace Engine.Alike

variable {e f : Engine} {v w : World}

/-- Work that two engines do in lockstep leaves them alike if their worlds give the same answers to
what it asks of the second one. -/
theorem after {α : Type} {work : Run α} (same : e.Alike f) {asked : Query → Prop}
    (agree : (Coupling.lockstep (World.AlikeSince asked w) (World.Strays asked w) ⟨e, v⟩
      ⟨f, w⟩).Agree work work) (worlds : v.AlikeOn asked w)
    (all : ∀ query ∈ World.queriesSince w (work ⟨f, w⟩).2.world, asked query) :
    (work ⟨e, v⟩).2.engine.Alike (work ⟨f, w⟩).2.engine := by
  have start : Lockstep (World.AlikeSince asked w) ⟨e, v⟩ ⟨f, w⟩ ⟨e, v⟩ ⟨f, w⟩ := { same with
    stats := Stats.add_comm ..
    world := ⟨worlds, List.suffix_refl _⟩
    files := rfl
    files' := rfl
    blind := .inl same.stats }
  rcases agree.meet start with ⟨queries, grown, query, member, other⟩ | ⟨-, there⟩
  · exact absurd (all query (World.queriesSince_of_append grown ▸ member)) other
  · have counted := there.stats
    rw [same.stats] at counted
    exact { there with stats := (Stats.add_right_cancel counted).symm }

theorem withPlaceholders (same : e.Alike f) {a b : Placeholders} (alike : a.Alike b) :
    ({ e with placeholders := a } : Engine).Alike { f with placeholders := b } :=
  { same with placeholders := alike }

end Engine.Alike

namespace Family

/-- What the operation does to the engine may depend on the world. -/
def Operation.Renders : Operation → Prop
  | .render .. | .renderChunk .. | .runSnippet .. => True
  | _ => False

/-- What the engine asks of the world for the operation. -/
def queries (operation : Operation) (e : Engine) (w : World) : List Query :=
  World.queriesSince w (answer operation ⟨e, w⟩).2.world

/-- One operation leaves two engines alike if they were so before. -/
theorem answer_alike {e f : Engine} {v w : World} (same : e.Alike f) {operation : Operation}
    (worlds : operation.Renders → v.AlikeOn (· ∈ queries operation f w) w) :
    (answer operation ⟨e, v⟩).2.engine.Alike (answer operation ⟨f, w⟩).2.engine := by
  have lasting := World.AlikeOn.lasting (· ∈ queries operation f w) w
  have universal := Lockstep.universal lasting ⟨e, v⟩ ⟨f, w⟩
  have agree := Lockstep.callsWithin lasting ⟨e, v⟩ ⟨f, w⟩ callLimit
  cases operation with
  | set name value => exact same.withPlaceholders (same.placeholders.insert name value)
  | setMany values => exact same.withPlaceholders (same.placeholders.extend values)
  | unset name => exact same.withPlaceholders (same.placeholders.erase name)
  | render text params =>
    have rendered := universal.bind (agree.render text params) fun rendered => .pure rendered.flatten
    exact same.after rendered (worlds trivial) fun _ => id
  | renderChunk name params =>
    exact same.after (universal.renderChunk agree name params) (worlds trivial) fun _ => id
  | runSnippet name params =>
    exact same.after (agree.runSnippet name params) (worlds trivial) fun _ => id
  | _ => exact same

/-- The engine after operations, each of them in a world of its own. -/
def replay (e : Engine) (calls : List (Operation × World)) : Engine :=
  calls.foldl (fun e (operation, w) => (answer operation ⟨e, w⟩).2.engine) e

/-- The same operations, the second time with the engine `e`. What this one asks of its worlds is
answered alike in the first ones. -/
inductive Repeats : (e : Engine) → List (Operation × World) → List (Operation × World) → Prop where
  | nil {e : Engine} : Repeats e [] []
  | cons {e : Engine} {operation : Operation} {v w : World} {calls calls' : List (Operation × World)} :
    (operation.Renders → v.AlikeOn (· ∈ queries operation e w) w) →
    Repeats (answer operation ⟨e, w⟩).2.engine calls calls' →
    Repeats e ((operation, v) :: calls) ((operation, w) :: calls')

theorem replay_alike {calls calls' : List (Operation × World)} {e f : Engine}
    (repeats : Repeats f calls calls') (same : e.Alike f) :
    (replay e calls).Alike (replay f calls') := by
  induction repeats generalizing e with
  | nil => exact same
  | cons worlds _ ih => exact ih (answer_alike same worlds)

end Family
end DocSite.Template
