import DocSite.Proofs.Idle
import DocSite.Proofs.Lockstep
import DocSite.Shell.Launch
import DocSite.Site.Rendering

/-! Pages and the order in which they are rendered. Pages share the caches of their doc set, but what a
page comes to does not depend on the pages before it. -/
namespace DocSite.Template

/-- The paths at which directories have been asked for a chunk or a snippet. -/
def World.asked (w : World) : List String :=
  w.journal.filterMap fun
    | .probed kind dir name => some (w.pathOf kind dir name)
    | _ => none

theorem Cache.known?_addSearchPaths {α : Type} (paths : List String) (c : Cache α) (name : String) :
    (paths.foldl (·.addSearchPath ·) c).known? name = c.known? name := by
  induction paths generalizing c with
  | nil => rfl
  | cons path paths ih => exact ih (c.addSearchPath path)

theorem Conditional.idle : Conditional.snippet.Idle := fun _ => trivial

end DocSite.Template

namespace DocSite.Site

open Template

theorem Page.render_agrees {C : Coupling} (universal : C.Universal)
    (agree : C.OnCalls (Engine.callsWithin callLimit) (Engine.callsWithin callLimit)) (p : Page)
    (m : Manifest) (d : DocSet) : C.Agree (p.render m d) (p.render m d) := by
  apply universal.bind (universal.onPlaceholders (·.extend (p.rootValues d)) (.extend _))
  intro _
  have layout := agree.render (p.layout.getD m.config.layout) {}
  apply universal.bind (universal.bind layout fun _ => .pure _)
  intro layout
  apply universal.bind (universal.onWorld (.chunk (Text.trimmed layout)))
  intro _
  exact universal.renderChunk agree (Text.trimmed layout) (p.params m d)

/-- A page is rendered by two renders, with a lookup between them. -/
theorem Page.render_obeyed {L : Law} (p : Page) (m : Manifest) (d : DocSet)
    (placeholders : L.Obeyed (Run.onEngine fun e =>
      { e with placeholders := e.placeholders.extend (p.rootValues d) }))
    (chunk : ∀ name, L.Obeyed (Run.onWorld (·.chunk name)))
    (render : ∀ text params, L.Obeyed ((Engine.callsWithin callLimit).render text params)) :
    L.Obeyed (p.render m d) := by
  apply placeholders.bind
  intro _
  apply ((render (p.layout.getD m.config.layout) {}).bind fun _ => .pure _).bind
  intro layout
  apply (chunk (Text.trimmed layout)).bind
  intro _
  exact Law.renderChunk_obeyed chunk render (Text.trimmed layout) (p.params m d)

theorem Page.render_looks (p : Page) (m : Manifest) (d : DocSet) :
    Law.looking.Obeyed (p.render m d) :=
  p.render_obeyed m d (Looking.onEngine _) Looking.chunk (Looking.callsWithin callLimit).render

namespace DocSet

variable {d : DocSet} {m : Manifest} {w v : World} {Past : Files → Prop}

/-- The pages of a doc set begin with one snippet. -/
theorem snippet_of_world {fs : Files} {source name : String} {c : Config} {snippet : Snippet}
    (kept : (d.world fs source c).snippets.known? name = some (some snippet)) :
    snippet = Conditional.snippet := by
  have builtin : (Cache.register {} "if" Conditional.snippet).known? name = some (some snippet) :=
    (Cache.known?_addSearchPaths _ _ name).symm.trans kept
  rw [Cache.known?_register] at builtin
  split at builtin
  · exact (Option.some.inj (Option.some.inj builtin)).symm
  · cases builtin

theorem world_idle (d : DocSet) (fs : Files) (source : String) (c : Config) :
    (d.world fs source c).Idle := by
  intro name snippet kept
  rw [snippet_of_world kept]
  exact Conditional.idle

/-- No script is among its snippets yet. -/
theorem world_searched (d : DocSet) (fs : Files) (source : String) (c : Config) :
    (d.world fs source c).Searched := by
  intro name path kept
  cases snippet_of_world kept

/-- What becomes of a page when it is rendered alone, and the world that this leaves. -/
def renderAlone (d : DocSet) (m : Manifest) (fs : Files) (source : String) (p : Page) :
    Outcome × World :=
  d.renderPage m (d.world fs source m.config) p

/-- Renders pages one after the other, each of them while the files are as given with it. -/
def renderAmid (d : DocSet) (m : Manifest) : World → List (Files × Page) → List Outcome
  | _, [] => []
  | w, (fs, p) :: rest =>
    let (outcome, after) := d.renderPage m { w with files := fs } p
    outcome :: renderAmid d m after rest

/-- In a world with more in its caches a page comes to the same, whatever has become of the files, if
nothing has changed at the paths that the page asks for in the other world. -/
theorem renderPage_filled (filled : w.Filled Past v) (now : Past v.files) (idle : w.Idle)
    (searched : w.Searched) (p : Page)
    (unchanged : ∀ path ∈ (d.renderPage m w p).2.asked, ¬ w.Changed Past v.files path) :
    (d.renderPage m v p).1 = (d.renderPage m w p).1 := by
  let s : Session := ⟨(d.engine m.config).fork, v⟩
  let t : Session := ⟨(d.engine m.config).fork, w⟩
  have near := filled.near now searched
  have lasting := World.Near.lasting fun kind dir name =>
    w.Changed Past v.files (w.pathOf kind dir name)
  have start : Lockstep _ s t s t := {
    placeholders := .refl _, depth := rfl, nested := rfl, limited := rfl, stats := rfl, world := near
    files := rfl, files' := rfl, blind := .inl rfl }
  have agree := p.render_agrees (Lockstep.universal lasting s t)
    (Lockstep.callsWithin lasting s t callLimit) m d
  rcases agree.meet start with excused | ⟨same, there⟩
  · obtain ⟨kind, dir, name, probed, changed⟩ := excused
    obtain ⟨looked, -⟩ := p.render_looks m d t idle
    have asked : w.pathOf kind dir name ∈ (d.renderPage m w p).2.asked :=
      List.mem_filterMap.mpr ⟨_, probed, congrArg some (looked.pathOf kind dir name)⟩
    exact absurd changed (unchanged _ asked)
  · have stats : (p.render m d s).2.engine.stats = (p.render m d t).2.engine.stats :=
      Stats.add_right_cancel there.stats
    change Outcome.mk p (p.render m d s).1 (p.render m d s).2.engine.stats = .mk p _ _
    rw [same, stats]
    rfl

/-- What a page leaves behind is more in the caches. -/
theorem renderPage_looks (idle : w.Idle) (p : Page) :
    w.Filled (· = w.files) (d.renderPage m w p).2 ∧ (d.renderPage m w p).2.files = w.files :=
  p.render_looks m d ⟨(d.engine m.config).fork, w⟩ idle

/-- Pages that are rendered one after the other each come to what they come to alone, while the files
are as `alone` gives them for the time at which the page is rendered. -/
theorem renderAmid_eq (Past : Files → Prop) (alone : Files → Files) {schedule : List (Files × Page)}
    (idle : w.Idle) (searched : w.Searched) (filled : w.Filled Past v)
    (past : ∀ now ∈ schedule, Past now.1) (unchanged : ∀ now ∈ schedule,
      ∀ path ∈ (d.renderPage m { w with files := alone now.1 } now.2).2.asked,
        ¬ { w with files := alone now.1 }.Changed Past now.1 path) :
    d.renderAmid m v schedule =
      schedule.map fun now => (d.renderPage m { w with files := alone now.1 } now.2).1 := by
  induction schedule generalizing v with
  | nil => rfl
  | cons now rest ih =>
    obtain ⟨fs, p⟩ := now
    obtain ⟨present, past⟩ := List.forall_mem_cons.mp past
    obtain ⟨here, later⟩ := List.forall_mem_cons.mp unchanged
    have warm : w.Filled Past { v with files := fs } := filled.withFiles w.files fs
    have first := renderPage_filled (filled.withFiles (alone fs) fs) present idle searched p here
    obtain ⟨looked, -⟩ := renderPage_looks (d := d) (m := m) (warm.idle idle) p
    have after := warm.trans (looked.mono fun _ same => same ▸ present)
    rw [renderAmid, List.map_cons]
    exact List.cons_eq_cons.mpr ⟨first, ih after past later⟩

theorem renderAmid_still {fs : Files} (idle : w.Idle) (files : w.files = fs) (pages : List Page) :
    d.renderAmid m w (pages.map (fs, ·)) = d.renderPages m w pages := by
  induction pages generalizing w with
  | nil => rfl
  | cons p rest ih =>
    obtain ⟨looked, still⟩ := renderPage_looks (d := d) (m := m) idle p
    have same : { w with files := fs } = w := files ▸ rfl
    rw [List.map_cons, renderAmid, same, renderPages]
    exact congrArg (List.cons _) (ih (looked.idle idle) (still.trans files))

/-- Pages come to what they come to alone while the files are as `alone` gives them, if the paths that
they ask for lead to the same then as at all times, and scripts there do the same. -/
theorem renderAmid_alone (alone : Files → Files) (source : String) (start : Files)
    {schedule : List (Files × Page)}
    (unchanged : ∀ now ∈ schedule, ∀ path ∈ (d.renderAlone m (alone now.1) source now.2).2.asked,
      (∀ other ∈ schedule, other.1.find? path = (alone now.1).find? path) ∧
        Script.run now.1 path = Script.run (alone now.1) path) :
    d.renderAmid m (d.world start source m.config) schedule =
      schedule.map fun now => (d.renderAlone m (alone now.1) source now.2).1 := by
  apply renderAmid_eq (fun past => ∃ other ∈ schedule, other.1 = past) alone
    (d.world_idle start source m.config) (d.world_searched start source m.config) (.refl _)
  · exact fun now member => ⟨now, member, rfl⟩
  · rintro now member path asked (⟨_, ⟨other, among, rfl⟩, differs⟩ | differs)
    · exact differs ((unchanged now member path asked).1 other among)
    · exact differs (unchanged now member path asked).2

/-- Whatever pages are rendered in forks of one engine, in whatever order, each comes to the same text
or error, with the same counters, as when it is rendered alone in a fork of a new engine. Between pages
files may change, but not at the paths under the template directories at which rendering a page alone
looks for chunks and snippets. What scripts do may depend on the time of the page that they are run
for; if it does not, pages come to what they come to alone at any one time. -/
theorem pages_render_alone (d : DocSet) (m : Manifest) (source : String) (fs : Files) :
    (∀ pages, d.renderPages m (d.world fs source m.config) pages =
      pages.map fun p => (d.renderAlone m fs source p).1) ∧
    (∀ schedule : List (Files × Page),
      (∀ now ∈ schedule, ∀ path ∈ (d.renderAlone m now.1 source now.2).2.asked,
        ∀ other ∈ schedule, other.1.find? path = now.1.find? path) →
      d.renderAmid m (d.world fs source m.config) schedule =
        schedule.map fun now => (d.renderAlone m now.1 source now.2).1) ∧
    ∀ schedule : List (Files × Page),
      (∀ now ∈ schedule, ∀ path ∈ (d.renderAlone m fs source now.2).2.asked,
        ∀ other ∈ schedule, other.1.find? path = fs.find? path ∧
          Script.run other.1 path = Script.run fs path) →
      d.renderAmid m (d.world fs source m.config) schedule =
        schedule.map fun now => (d.renderAlone m fs source now.2).1 := by
  refine ⟨fun pages => ?_, fun schedule unchanged => ?_, fun schedule unchanged => ?_⟩
  · have still (now : Files × Page) (member : now ∈ pages.map (fs, ·)) : now.1 = fs := by
      obtain ⟨p, -, rfl⟩ := List.mem_map.mp member
      rfl
    rw [← renderAmid_still (d.world_idle fs source m.config) rfl,
      renderAmid_alone (fun _ => fs) source fs, List.map_map]
    · rfl
    · intro now member path asked
      exact ⟨fun other among => by rw [still other among], by rw [still now member]⟩
  · apply renderAmid_alone id
    intro now member path asked
    exact ⟨fun other among => unchanged now member path asked other among, rfl⟩
  · apply renderAmid_alone fun _ => fs
    intro now member path asked
    exact ⟨fun other among => (unchanged now member path asked other among).1,
      (unchanged now member path asked now member).2⟩

/-! Pages between which output is written. -/

/-- A layout with a chunk and a script, and what is written beside them. -/
def yard (written : List (String × Files.Node)) : Files where
  root := .dir [("site", .dir [("layouts", .dir [
    ("leaf.html", .file "[[label &of=`[[+page.title]]`]] [[$foot]]".toUTF8 false),
    ("foot.html", .file "by [[+site.name]]".toUTF8 false),
    ("label.sh", .file "#!/bin/sh\necho \"Leaf $SNIPPET_OF\"".toUTF8 true)])]), ("out", .dir written)]
  launch := Shell.launch

def twig : DocSet := { label := "", path := "" }

def tree : Manifest := ⟨{ siteName := "Oak", layout := "leaf" }, [twig]⟩

def leaf (name : String) : Page :=
  { source := name ++ ".md", output := name ++ ".html", title := name }

/-- The second page is rendered when the first one has been written, and then the first one again. -/
def leaves : List (Files × Page) :=
  let written := yard [("a.html", .file "Leaf a\n by Oak".toUTF8 false)]
  [(yard [], leaf "a"), (written, leaf "b"), (written, leaf "a")]

theorem leaves_unchanged : ∀ now ∈ leaves, ∀ alone ∈ [now.1, yard []],
    ∀ path ∈ (twig.renderAlone tree alone "site" now.2).2.asked,
      ∀ other ∈ leaves, other.1.find? path = alone.find? path ∧
        Script.run other.1 path = Script.run alone path := by
  have asked : ∀ now ∈ leaves, ∀ alone ∈ [now.1, yard []],
      (twig.renderAlone tree alone "site" now.2).2.asked =
        ["site/layouts/foot.html", "site/layouts/label.sh", "site/layouts/leaf.html"] := by
    decide +kernel
  have aside (written : List (String × Files.Node)) : ∀ path ∈
      ["site/layouts/foot.html", "site/layouts/label.sh", "site/layouts/leaf.html"],
        (yard written).find? path = (yard []).find? path :=
    List.forall_mem_cons.mpr ⟨rfl, List.forall_mem_cons.mpr ⟨rfl, List.forall_mem_singleton.mpr rfl⟩⟩
  have yards : ∀ now ∈ leaves, ∃ written, now.1 = yard written :=
    List.forall_mem_cons.mpr ⟨⟨_, rfl⟩, List.forall_mem_cons.mpr ⟨⟨_, rfl⟩,
      List.forall_mem_singleton.mpr ⟨_, rfl⟩⟩⟩
  intro now member alone time path looked other among
  rw [asked now member alone time] at looked
  obtain ⟨written, here⟩ : ∃ written, alone = yard written := by
    rcases List.mem_cons.mp time with rfl | first
    · exact yards now member
    · exact ⟨[], List.mem_singleton.mp first⟩
  obtain ⟨written', there⟩ := yards other among
  have same : other.1.find? path = alone.find? path := by
    rw [here, there, aside written path looked, aside written' path looked]
  refine ⟨same, Script.run_congr ?_⟩
  rw [here, there] at same ⊢
  exact Shell.launch_congr same

theorem leaves_render_alone :
    (∀ now ∈ leaves, ∀ alone ∈ [now.1, yard []],
      ∀ path ∈ (twig.renderAlone tree alone "site" now.2).2.asked,
        ∀ other ∈ leaves, other.1.find? path = alone.find? path ∧
          Script.run other.1 path = Script.run alone path) ∧
    (twig.renderAmid tree (twig.world (yard []) "site" tree.config) leaves =
      leaves.map fun now => (twig.renderAlone tree now.1 "site" now.2).1) ∧
    (twig.renderAmid tree (twig.world (yard []) "site" tree.config) leaves =
      leaves.map fun now => (twig.renderAlone tree (yard []) "site" now.2).1) ∧
    leaves.map (fun now => (twig.renderAlone tree (yard []) "site" now.2).1.html.toOption) =
      [some "Leaf a\n by Oak", some "Leaf b\n by Oak", some "Leaf a\n by Oak"] := by
  obtain ⟨-, amid, still⟩ := pages_render_alone twig tree "site" (yard [])
  refine ⟨leaves_unchanged, amid leaves fun now member path asked other among => ?_,
    still leaves fun now member path asked other among => ?_, by decide +kernel⟩
  · exact (leaves_unchanged now member _ (List.mem_cons_self ..) path asked other among).1
  · exact leaves_unchanged now member _ (List.mem_cons_of_mem _ (List.mem_singleton_self _)) path
      asked other among

end DocSet
end DocSite.Site
