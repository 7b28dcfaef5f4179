import DocSite.Proofs.Budget
import DocSite.Proofs.Independence
import DocSite.Proofs.Scope

/-! The pages of a site come to an end. Their snippets are idle, so that a page is either rendered or
fails because a snippet does, and its engine counts at least the render of its layout's name. -/
namespace DocSite.Template

theorem Snippet.Idle.quiet {snippet : Snippet} (idle : snippet.Idle) : snippet.Quiet := by
  cases snippet with
  | program start =>
    intro params
    have answers : (start params).Idle := idle params
    cases act : start params with
    | done | fail => trivial
    | _ =>
      rw [act] at answers
      exact answers.elim
  | script path => trivial

theorem World.Idle.quiet {w : World} (idle : w.Idle) : w.Quiet :=
  fun _ _ found => (idle.found found).quiet

/-- Work outside of all renders of an idle world ends outside of them, and not because too many calls
are open. -/
def Law.ending : Law where
  Holds s stop t := s.world.Idle → s.engine.depth = 0 →
    t.world.Idle ∧ t.engine.depth = 0 ∧ stop ≠ some .unfinished
  refl s idle outermost := ⟨idle, outermost, nofun⟩
  trans := by
    intro s t u stop first second idle outermost
    obtain ⟨idle, outermost, -⟩ := first idle outermost
    exact second idle outermost

namespace Ending

open Engine

theorem placeholders (f : Placeholders → Placeholders) :
    Law.ending.Obeyed (Run.onEngine fun e => { e with placeholders := f e.placeholders }) :=
  fun _ idle outermost => ⟨idle, outermost, nofun⟩

theorem chunk (name : String) : Law.ending.Obeyed (Run.onWorld (·.chunk name)) := by
  intro s idle outermost
  obtain ⟨filled, -⟩ := Looking.chunk name s idle
  exact ⟨filled.idle idle, outermost, nofun⟩

theorem render (text : String) (params : Params) :
    Law.ending.Obeyed ((callsWithin callLimit).render text params) := by
  intro s idle outermost
  obtain ⟨filled, -⟩ := (Looking.callsWithin callLimit).render text params s idle
  obtain ⟨-, depth⟩ := Scope.render callLimit text params s
  have deep := Budget.callsWithin 1023 1 (by decide) (by decide)
  have accounted := Accounted.render (Budget.dispatching deep) idle.quiet outermost text params
  exact ⟨filled.idle idle, depth.trans outermost, accounted.finished⟩

end Ending

/-- A render counts itself, and never takes back what it has counted. -/
theorem Counting.render (text : String) (params : Params) (s : Session) :
    ∃ more, (Engine.renderString text params s).2.engine.stats =
      s.engine.stats + (⟨1, 0, 0, 0⟩ + more) := by
  obtain ⟨limit, whole⟩ : ∃ limit, callLimit = limit + 1 := ⟨1023, rfl⟩
  have within := universal.expand (universal.callsWithin limit) maxPasses (.ofText text)
  obtain ⟨more, counted⟩ := within (s.enter params)
  rw [Engine.renderString_apply whole]
  refine ⟨more, counted.trans ?_⟩
  rw [← Stats.add_assoc]
  rfl

end DocSite.Template

namespace DocSite.Site

open Template

namespace Page

theorem render_ends (p : Page) (m : Manifest) (d : DocSet) :
    Law.ending.Obeyed (p.render m d) :=
  p.render_obeyed m d (Ending.placeholders (·.extend (p.rootValues d))) Ending.chunk Ending.render

/-- Whatever comes after the render of the name of the layout counts on. -/
theorem render_counts (p : Page) (m : Manifest) (d : DocSet) (s : Session) :
    ∃ more, (p.render m d s).2.engine.stats = s.engine.stats + (⟨1, 0, 0, 0⟩ + more) := by
  let placed : Session := { s with
    engine.placeholders := s.engine.placeholders.extend (p.rootValues d) }
  obtain ⟨first, counted⟩ := Counting.render (p.layout.getD m.config.layout) {} placed
  have universal := Counting.universal
  have after (layout : String) : Law.counting.Obeyed (do
      let _ ← Run.onWorld (·.chunk (Text.trimmed layout))
      Engine.renderNamedChunk (Text.trimmed layout) (p.params m d)) :=
    (universal.chunk _).bind fun _ => universal.renderChunk (universal.callsWithin callLimit) _ _
  rw [render, Run.onEngine_bind, Run.bind_apply]
  rcases named : Engine.renderString (p.layout.getD m.config.layout) {} placed with ⟨_ | layout, t⟩ <;>
    rw [named] at counted
  · exact ⟨first, counted⟩
  · obtain ⟨second, counted'⟩ := after layout t
    refine ⟨first + second, counted'.trans ?_⟩
    rw [counted, Stats.add_assoc, Stats.add_assoc]

end Page

namespace DocSet

variable {d : DocSet} {m : Manifest} {w : World}

theorem renderPages_end (idle : w.Idle) (pages : List Page) :
    ∀ o ∈ d.renderPages m w pages, o.html ≠ .error .unfinished := by
  induction pages generalizing w with
  | nil => exact nofun
  | cons p rest ih =>
    -- a page leaves an idle world to those after it
    obtain ⟨idle, -, finished⟩ := p.render_ends m d ⟨(d.engine m.config).fork, w⟩ idle rfl
    refine List.forall_mem_cons.mpr ⟨fun same => finished ?_, ih idle⟩
    exact Run.stopped_eq_some.mpr same

theorem renderPages_count (pages : List Page) :
    ∀ o ∈ d.renderPages m w pages, 0 < o.stats.renders := by
  induction pages generalizing w with
  | nil => exact nofun
  | cons p rest ih =>
    obtain ⟨more, counted⟩ := p.render_counts m d ⟨(d.engine m.config).fork, w⟩
    have renders : (d.renderPage m w p).1.stats.renders = 0 + (1 + more.renders) :=
      congrArg Stats.renders counted
    exact List.forall_mem_cons.mpr ⟨Nat.lt_of_lt_of_eq (by omega) renders.symm, ih⟩

end DocSet
end DocSite.Site
