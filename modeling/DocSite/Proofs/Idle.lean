import DocSite.Proofs.Filling

/-! Runs that do nothing to their world but look things up in it, because the snippets that they come
to answer at once. -/
namespace DocSite.Template

def Action.Idle : Action → Prop
  | .done _ | .fail _ => True
  | _ => False

/-- A program that asks nothing of the engine, or a script. -/
def Snippet.Idle : Snippet → Prop
  | .program start => ∀ params, (start params).Idle
  | .script _ => True

namespace World

variable {w v : World} {name : String} {snippet : Snippet}

theorem idle_of_search {dirs : List String}
    (found : (Cache.search (w.probeSnippet · name) dirs).1 = some snippet) : snippet.Idle := by
  obtain ⟨dir, -, rfl⟩ := script_of_search found
  trivial

/-- All snippets that are kept are idle. -/
def Idle (w : World) : Prop :=
  ∀ name snippet, w.snippets.known? name = some (some snippet) → snippet.Idle

theorem Idle.found (idle : w.Idle) (found : w.snippet? name = some snippet) : snippet.Idle := by
  have answered : (w.snippets.get w.probeSnippet name).answer = some snippet := found
  cases known : w.snippets.known? name with
  | some answer =>
    rw [Cache.answer_of_known known] at answered
    exact idle name snippet (answered ▸ known)
  | none =>
    rw [Cache.answer_of_unknown known] at answered
    exact idle_of_search answered

theorem Filled.idle {Past : Files → Prop} (filled : w.Filled Past v) (idle : w.Idle) : v.Idle := by
  intro name snippet kept
  rcases filled.snippets.known? name with same | ⟨-, _, ⟨fs, -, rfl⟩, found⟩
  · exact idle name snippet (same.symm.trans kept)
  · exact idle_of_search (Option.some.inj (found.symm.trans kept))

end World

/-- An idle world is as before except for lookups. -/
def Law.looking : Law where
  Holds s _ t := s.world.Idle →
    s.world.Filled (· = s.world.files) t.world ∧ t.world.files = s.world.files
  refl s _ := ⟨.refl _, rfl⟩
  trans := by
    intro s t u stop first second idle
    obtain ⟨filled, files⟩ := first idle
    obtain ⟨filled', files'⟩ := second (filled.idle idle)
    rw [files] at filled' files'
    exact ⟨filled.trans filled', files'⟩

namespace Looking

open Engine

variable {α : Type} {calls : Calls}

theorem record (event : Event) : Law.looking.Obeyed (Run.record event) :=
  fun _ _ => ⟨{ World.Filled.refl _ with }, rfl⟩

theorem note (notice : Notice) : Law.looking.Obeyed (Run.note notice) :=
  fun _ _ => ⟨{ World.Filled.refl _ with }, rfl⟩

theorem onEngine (f : Engine → Engine) : Law.looking.Obeyed (Run.onEngine f) :=
  fun _ _ => ⟨.refl _, rfl⟩

theorem chunk (name : String) : Law.looking.Obeyed (Run.onWorld (·.chunk name)) :=
  fun s _ => ⟨.chunk s.world name, rfl⟩

theorem snippet (name : String) : Law.looking.Obeyed (Run.onWorld (·.snippet name)) :=
  fun s _ => ⟨.snippet s.world name, rfl⟩

/-- An idle snippet leaves its session alone. -/
theorem execute_idle {snippet : Snippet} (idle : snippet.Idle) (name : String) (params : Params)
    (s : Session) : (execute calls name params snippet s).2 = s := by
  cases snippet with
  | program start =>
    have answers : (start params).Idle := idle params
    rw [execute, Run.bind_apply]
    cases act : start params with
    | done | fail => rfl
    | _ =>
      rw [act] at answers
      exact answers.elim
  | script path =>
    simp only [execute]
    split <;> rfl

theorem execute (name : String) (params : Params) {s : Session} {snippet : Snippet}
    (found : s.world.snippet? name = some snippet) :
    Law.looking.At (Engine.execute calls name params snippet) s := by
  intro idle
  rw [execute_idle (idle.found found)]
  exact ⟨.refl _, rfl⟩

/-- What is done with the snippet of a name may rely on what the name leads to. -/
theorem snippet_bind {name : String} {next : Option Snippet → Run α}
    (missing : Law.looking.Obeyed (next none))
    (present : ∀ s snippet, s.world.snippet? name = some snippet →
      Law.looking.At (next (some snippet)) s) :
    Law.looking.Obeyed (Run.onWorld (·.snippet name) >>= next) := by
  intro s
  apply (snippet name s).bind
  rintro (_ | found) t ended
  · exact missing t
  · have known : s.world.snippet? name = some found := Except.ok.inj (congrArg Prod.fst ended)
    have reached : { s with world := (s.world.snippet name).2 } = t := congrArg Prod.snd ended
    subst reached
    exact present _ found ((World.snippet?_snippet ..).trans known)

theorem within {work : Run α} (params : Params) (kept : Law.looking.Obeyed work) :
    Law.looking.Obeyed (Run.within params work) := by
  intro s idle
  obtain ⟨filled, files⟩ := kept (s.enter params) idle
  exact ⟨{ filled with }, files⟩

theorem runSnippet (name : String) (params : Params) :
    Law.looking.Obeyed (runSnippet calls name params) :=
  snippet_bind (.pure _) fun _ _ found => execute name params found

theorem includeSnippet (name : String) (params : Params) :
    Law.looking.Obeyed (includeSnippet calls name params) :=
  snippet_bind (.pure _) fun _ _ found => (execute name params found).bind fun _ t _ =>
    Law.Obeyed.pure _ t

theorem expand (kept : Law.looking.OnCalls calls) (passes : Nat) (current : Rendered) :
    Law.looking.Obeyed (expand calls passes current) :=
  Law.expand_obeyed (Law.dispatch_obeyed {
      refuse := fun _ _ _ _ _ => ⟨{ World.Filled.refl _ with }, rfl⟩
      take := fun s kind name _ => record (.dispatched kind name) s
      chunk := fun s name params _ => Law.includeChunk_obeyed chunk kept.render name params s
      snippet := fun s name params _ => includeSnippet name params s })
    (onEngine _) (onEngine _) note passes current

theorem callsWithin (limit : Nat) : Law.looking.OnCalls (callsWithin limit) := by
  induction limit with
  | zero => exact ⟨fun _ _ s _ => ⟨.refl _, rfl⟩, fun _ _ s _ => ⟨.refl _, rfl⟩⟩
  | succ limit ih =>
    exact ⟨fun text params => within params (expand ih maxPasses (.ofText text)), runSnippet⟩

end Looking
end DocSite.Template
