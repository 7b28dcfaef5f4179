import DocSite.Proofs.Memory
import DocSite.Proofs.SameAnswers

/-! Caches that lookups have filled, at times at which the files may have been different. Beside a
new cache such a one gives the same answers, except where a directory that the new one still has to
ask has changed. -/
namespace DocSite.Template

namespace Cache

variable {α : Type}

/-- What directories answer that are not asked does not matter. -/
theorem search_congr {probe other : String → Probe α} {dirs : List String}
    (same : ∀ dir ∈ (search probe dirs).2, other dir = probe dir) :
    search other dirs = search probe dirs := by
  induction dirs with
  | nil => rfl
  | cons dir rest ih =>
    rw [search] at same ⊢
    cases asked : probe dir with
    | hit resource =>
      rw [asked] at same
      rw [search, same dir (List.mem_cons_self ..), asked]
    | missing | unreadable =>
      rw [asked] at same
      obtain ⟨here, later⟩ := List.forall_mem_cons.mp same
      rw [search, here, asked, ih later]

/-- The first cache after lookups. What is new in it directories have answered to one of the probes. -/
structure Filled (Probes : ((dir name : String) → Probe α) → Prop) (c d : Cache α) : Prop where
  searchPaths : d.searchPaths = c.searchPaths
  known? (name : String) : d.known? name = c.known? name ∨ (c.known? name = none ∧
    ∃ probe, Probes probe ∧ d.known? name = some (search (probe · name) c.searchPaths).1)

namespace Filled

variable {Probes More : ((dir name : String) → Probe α) → Prop} {probe : (dir name : String) → Probe α}
  {b c d : Cache α}

theorem refl (c : Cache α) : Filled Probes c c := ⟨rfl, fun _ => .inl rfl⟩

theorem trans (first : Filled Probes b c) (second : Filled Probes c d) : Filled Probes b d where
  searchPaths := second.searchPaths.trans first.searchPaths
  known? name := by
    rcases second.known? name with same | ⟨unknown, probe, mine, found⟩
    · rw [same]
      exact first.known? name
    · rcases first.known? name with same | ⟨-, _, -, found'⟩
      · rw [first.searchPaths] at found
        exact .inr ⟨same.symm.trans unknown, probe, mine, found⟩
      · rw [unknown] at found'
        cases found'

theorem mono (filled : Filled Probes c d) (more : ∀ probe, Probes probe → More probe) :
    Filled More c d where
  searchPaths := filled.searchPaths
  known? name := (filled.known? name).imp_right fun ⟨unknown, probe, mine, found⟩ =>
    ⟨unknown, probe, more probe mine, found⟩

theorem get (c : Cache α) (mine : Probes probe) (name : String) :
    Filled Probes c (c.get probe name).cache where
  searchPaths := searchPaths_get c probe name
  known? other := by
    by_cases here : other = name
    · subst here
      rw [known?_get]
      cases known : c.known? other with
      | some answer => exact .inl (congrArg some (answer_of_known known probe))
      | none => exact .inr ⟨rfl, probe, mine, congrArg some (answer_of_unknown known probe)⟩
    · exact .inl (known?_get_of_ne c probe here)

end Filled

/-- A lookup still has to ask a directory of which `changed` holds. -/
def Stale (changed : (dir name : String) → Prop) (probe : (dir name : String) → Probe α)
    (d : Cache α) (name : String) : Prop :=
  d.known? name = none ∧ ∃ dir ∈ (search (probe · name) d.searchPaths).2, changed dir name

/-- Both caches give the same answer for each name that is not stale in the second one. -/
def Near (changed : (dir name : String) → Prop) (probe probe' : (dir name : String) → Probe α)
    (c d : Cache α) : Prop :=
  ∀ name, d.Stale changed probe' name ∨ (c.get probe name).answer = (d.get probe' name).answer

section Near

variable {changed : (dir name : String) → Prop} {probe probe' : (dir name : String) → Probe α}
  {c d : Cache α} {name other : String}

theorem Stale.asked (stale : d.Stale changed probe name) :
    ∃ dir ∈ (d.get probe name).asked, changed dir name := by
  obtain ⟨unknown, changes⟩ := stale
  simpa only [Cache.get, unknown] using changes

theorem Stale.get (stale : d.Stale changed probe other) (different : other ≠ name) :
    (d.get probe name).cache.Stale changed probe other := by
  obtain ⟨unknown, changes⟩ := stale
  refine ⟨(known?_get_of_ne d probe different).trans unknown, ?_⟩
  rwa [searchPaths_get]

theorem Stale.register (stale : d.Stale changed probe other) (different : other ≠ name)
    (resource : α) : (d.register name resource).Stale changed probe other := by
  obtain ⟨unknown, changes⟩ := stale
  exact ⟨(known?_register d name other resource).trans ((if_neg different).trans unknown), changes⟩

theorem Near.get (near : Near changed probe probe' c d)
    (same : (c.get probe name).answer = (d.get probe' name).answer) :
    Near changed probe probe' (c.get probe name).cache (d.get probe' name).cache := by
  intro other
  rw [answer_get, answer_get]
  by_cases here : other = name
  · exact .inr (here ▸ same)
  · exact (near other).imp_left fun stale => stale.get here

theorem Near.register (near : Near changed probe probe' c d) (resource : α) :
    Near changed probe probe' (c.register name resource) (d.register name resource) := by
  intro other
  rw [answer_register, answer_register]
  by_cases here : other = name
  · rw [if_pos here, if_pos here]
    exact .inr rfl
  · rw [if_neg here, if_neg here]
    exact (near other).imp_left fun stale => stale.register here resource

/-- A cache that was filled earlier is near one that is still as it was before. -/
theorem Filled.near {Probes : ((dir name : String) → Probe α) → Prop} (filled : Filled Probes d c)
    (kept : ∀ earlier, Probes earlier → ∀ dir name, ¬ changed dir name →
      earlier dir name = probe' dir name) (now : Probes probe) : Near changed probe probe' c d := by
  intro name
  by_cases stale : d.Stale changed probe' name
  · exact .inl stale
  right
  cases known : d.known? name with
  | some answer =>
    have same := (filled.known? name).resolve_right fun new => nomatch known.symm.trans new.1
    rw [answer_of_known known, answer_of_known (same.trans known)]
  | none =>
    -- whenever the name was looked up, the directories answered what they answer now
    have congr {earlier} (mine : Probes earlier) :
        search (earlier · name) d.searchPaths = search (probe' · name) d.searchPaths :=
      search_congr fun dir asked => kept earlier mine dir name fun changes =>
        stale ⟨known, dir, asked, changes⟩
    rw [answer_of_unknown known]
    rcases filled.known? name with same | ⟨-, earlier, mine, found⟩
    · rw [answer_of_unknown (same.trans known), filled.searchPaths, congr now]
    · rw [answer_of_known found, congr mine]

end Near
end Cache

namespace World

/-- Where a directory would have the resource of this name. -/
def pathOf (w : World) (kind : ResourceKind) (dir name : String) : String :=
  resourcePath dir name <| match kind with
    | .chunk => w.chunkExtension
    | .snippet => w.snippetExtension

section Paths

variable {w : World} {fs : Files} {dir name : String}

theorem probeChunk_of_find?
    (same : fs.find? (w.pathOf .chunk dir name) = w.files.find? (w.pathOf .chunk dir name)) :
    { w with files := fs }.probeChunk dir name = w.probeChunk dir name := by
  have text : fs.readText (w.pathOf .chunk dir name) = w.files.readText (w.pathOf .chunk dir name) := by
    simp only [Files.readText, Files.read, same]
  simp only [pathOf] at text
  delta probeChunk
  simp only [text]

theorem probeSnippet_of_find?
    (same : fs.find? (w.pathOf .snippet dir name) = w.files.find? (w.pathOf .snippet dir name)) :
    { w with files := fs }.probeSnippet dir name = w.probeSnippet dir name := by
  have file : fs.isFile (w.pathOf .snippet dir name) = w.files.isFile (w.pathOf .snippet dir name) :=
    congrArg (Option.any Files.Node.isFile) same
  simp only [pathOf] at file
  simp only [probeSnippet, file]

end Paths

theorem mem_probed {kind : ResourceKind} {dir name : String} {asked : List String}
    {journal : List Event} (member : dir ∈ asked) : Event.probed kind dir name ∈
      (asked.map (Event.probed kind · name)).reverse ++ journal :=
  List.mem_append_left _ (List.mem_reverse.mpr (List.mem_map_of_mem member))

/-- Snippets that are found are scripts, each where the last directory was asked. -/
theorem script_of_search {w : World} {name : String} {snippet : Snippet} {dirs : List String}
    (found : (Cache.search (w.probeSnippet · name) dirs).1 = some snippet) :
    ∃ dir ∈ (Cache.search (w.probeSnippet · name) dirs).2,
      snippet = .script (w.pathOf .snippet dir name) := by
  have hit := Cache.search_firstHit (w.probeSnippet · name) dirs
  rw [found] at hit
  generalize (Cache.search (w.probeSnippet · name) dirs).2 = asked at hit ⊢
  cases hit with
  | @hit before behind dir resource none here =>
    refine ⟨dir, List.mem_append_right before (List.mem_singleton_self dir), ?_⟩
    dsimp only [probeSnippet] at here
    split at here <;> cases here
    rfl

/-- Scripts that are kept have been found where a directory was asked. -/
def Searched (w : World) : Prop := ∀ name path, w.snippets.known? name = some (some (.script path)) →
  ∃ dir, .probed .snippet dir name ∈ w.journal ∧ path = w.pathOf .snippet dir name

theorem Searched.snippet {w : World} (searched : w.Searched) (name : String) :
    (w.snippet name).2.Searched := by
  intro other path kept
  change (w.snippets.get w.probeSnippet name).cache.known? other = _ at kept
  have before (old : w.snippets.known? other = some (some (.script path))) :
      ∃ dir, .probed .snippet dir other ∈ (w.snippet name).2.journal ∧
        path = w.pathOf .snippet dir other :=
    (searched other path old).imp fun dir => And.imp_left (List.mem_append_right _)
  by_cases here : other = name
  · subst here
    rw [Cache.known?_get] at kept
    cases known : w.snippets.known? other with
    | some answer =>
      rw [Cache.answer_of_known known] at kept
      exact before (known.trans kept)
    | none =>
      rw [Cache.answer_of_unknown known] at kept
      obtain ⟨dir, asked, same⟩ := script_of_search (Option.some.inj kept)
      refine ⟨dir, mem_probed ?_, Snippet.script.inj same⟩
      simpa only [Cache.get, known] using asked
  · exact before ((Cache.known?_get_of_ne _ _ here).symm.trans kept)

theorem Searched.chunk {w : World} (searched : w.Searched) (name : String) :
    (w.chunk name).2.Searched := fun other path kept =>
  (searched other path kept).imp fun _ => And.imp_left (List.mem_append_right _)

theorem Move.searched {α : Type} {f : World → α × World} {may : Snippet → Prop} (move : Move may f)
    {w : World} (searched : w.Searched) : (f w).2.Searched := by
  intro name path kept
  cases move with
  | note | registerChunk | count => exact searched name path kept
  | record => exact (searched name path kept).imp fun dir => And.imp_left (List.mem_cons_of_mem _)
  | chunk other => exact searched.chunk other name path kept
  | snippet other => exact searched.snippet other name path kept
  | registerSnippet other start =>
    change (w.snippets.register other (.program start)).known? name = _ at kept
    rw [Cache.known?_register] at kept
    split at kept
    · cases kept
    · exact searched name path kept

/-- The first world after lookups, each at a time at which the files were as in `Past`. -/
structure Filled (Past : Files → Prop) (w v : World) : Prop where
  chunks : w.chunks.Filled (fun probe => ∃ fs, Past fs ∧ probe = { w with files := fs }.probeChunk)
    v.chunks
  snippets : w.snippets.Filled
    (fun probe => ∃ fs, Past fs ∧ probe = { w with files := fs }.probeSnippet) v.snippets
  chunkExtension : v.chunkExtension = w.chunkExtension
  snippetExtension : v.snippetExtension = w.snippetExtension
  counters : v.counters = w.counters

/-- Both worlds lead to the same, except for names that are stale in the second one. -/
structure Near (changed : ResourceKind → (dir name : String) → Prop) (v w : World) : Prop where
  chunks : Cache.Near (changed .chunk) v.probeChunk w.probeChunk v.chunks w.chunks
  snippets : Cache.Near (changed .snippet) v.probeSnippet w.probeSnippet v.snippets w.snippets
  script (dir name : String) : ¬ changed .snippet dir name →
    Script.run w.files (w.pathOf .snippet dir name) = Script.run v.files (w.pathOf .snippet dir name)
  searched : w.Searched
  counters : v.counters = w.counters

/-- Something else has been at a path than is there in this world, or the script there does something
else with the files `fs`. -/
def Changed (Past : Files → Prop) (fs : Files) (w : World) (path : String) : Prop :=
  (∃ earlier, Past earlier ∧ earlier.find? path ≠ w.files.find? path) ∨
    Script.run fs path ≠ Script.run w.files path

/-- A directory has been asked of which `changed` holds. -/
def Asked (changed : ResourceKind → (dir name : String) → Prop) (w : World) : Prop :=
  ∃ kind dir name, .probed kind dir name ∈ w.journal ∧ changed kind dir name

namespace Filled

variable {Past More : Files → Prop} {u v w : World}

theorem refl (w : World) : Filled Past w w := ⟨.refl _, .refl _, rfl, rfl, rfl⟩

theorem trans (first : Filled Past u v) (second : Filled Past v w) : Filled Past u w where
  chunks := first.chunks.trans <| second.chunks.mono fun _ ⟨fs, past, same⟩ =>
    ⟨fs, past, same.trans (probeChunk_congr rfl first.chunkExtension)⟩
  snippets := first.snippets.trans <| second.snippets.mono fun _ ⟨fs, past, same⟩ =>
    ⟨fs, past, same.trans (probeSnippet_congr rfl first.snippetExtension)⟩
  chunkExtension := second.chunkExtension.trans first.chunkExtension
  snippetExtension := second.snippetExtension.trans first.snippetExtension
  counters := second.counters.trans first.counters

theorem mono (filled : Filled Past v w) (more : ∀ fs, Past fs → More fs) : Filled More v w :=
  { filled with
    chunks := filled.chunks.mono fun _ ⟨fs, past, same⟩ => ⟨fs, more fs past, same⟩
    snippets := filled.snippets.mono fun _ ⟨fs, past, same⟩ => ⟨fs, more fs past, same⟩ }

/-- What becomes of the files does not matter for what the caches hold. -/
theorem withFiles (fs fs' : Files) (filled : Filled Past v w) :
    Filled Past { v with files := fs } { w with files := fs' } := { filled with }

theorem pathOf (filled : Filled Past w v) (kind : ResourceKind) (dir name : String) :
    v.pathOf kind dir name = w.pathOf kind dir name := by
  cases kind with
  | chunk => exact congrArg (resourcePath dir name) filled.chunkExtension
  | snippet => exact congrArg (resourcePath dir name) filled.snippetExtension

theorem chunk (w : World) (name : String) : Filled (· = w.files) w (w.chunk name).2 where
  chunks := .get _ ⟨w.files, rfl, rfl⟩ name
  snippets := .refl _
  chunkExtension := rfl
  snippetExtension := rfl
  counters := rfl

theorem snippet (w : World) (name : String) : Filled (· = w.files) w (w.snippet name).2 where
  chunks := .refl _
  snippets := .get _ ⟨w.files, rfl, rfl⟩ name
  chunkExtension := rfl
  snippetExtension := rfl
  counters := rfl

/-- A world whose caches were filled earlier is near one whose caches are still as they were before,
as long as only such paths have changed as `changed` tells. -/
theorem near (filled : Filled Past w v) (now : Past v.files) (searched : w.Searched) :
    v.Near (fun kind dir name => w.Changed Past v.files (w.pathOf kind dir name)) w where
  chunks := by
    refine filled.chunks.near ?_ ⟨v.files, now, probeChunk_congr rfl filled.chunkExtension⟩
    rintro _ ⟨fs, past, rfl⟩ dir name kept
    exact probeChunk_of_find? <| Classical.byContradiction fun differs =>
      kept (.inl ⟨fs, past, differs⟩)
  snippets := by
    refine filled.snippets.near ?_ ⟨v.files, now, probeSnippet_congr rfl filled.snippetExtension⟩
    rintro _ ⟨fs, past, rfl⟩ dir name kept
    exact probeSnippet_of_find? <| Classical.byContradiction fun differs =>
      kept (.inl ⟨fs, past, differs⟩)
  script dir name kept := Classical.byContradiction fun differs => kept (.inr (Ne.symm differs))
  searched
  counters := filled.counters

end Filled

section Lookups

variable {changed : ResourceKind → (dir name : String) → Prop} {v w : World} {name : String}

theorem Asked.chunk (stale : w.chunks.Stale (changed .chunk) w.probeChunk name) :
    (w.chunk name).2.Asked changed :=
  let ⟨dir, asked, changes⟩ := stale.asked
  ⟨.chunk, dir, name, mem_probed asked, changes⟩

theorem Asked.snippet (stale : w.snippets.Stale (changed .snippet) w.probeSnippet name) :
    (w.snippet name).2.Asked changed :=
  let ⟨dir, asked, changes⟩ := stale.asked
  ⟨.snippet, dir, name, mem_probed asked, changes⟩

namespace Near

theorem chunk (near : v.Near changed w) (name : String) : (w.chunk name).2.Asked changed ∨
    ((v.chunk name).1 = (w.chunk name).1 ∧ (v.chunk name).2.Near changed (w.chunk name).2) := by
  rcases near.chunks name with stale | same
  · exact .inl (.chunk stale)
  · exact .inr ⟨same, { near with
      chunks := near.chunks.get same
      searched := near.searched.chunk name }⟩

theorem snippet (near : v.Near changed w) (name : String) : (w.snippet name).2.Asked changed ∨
    ((v.snippet name).1 = (w.snippet name).1 ∧
      (v.snippet name).2.Near changed (w.snippet name).2) := by
  rcases near.snippets name with stale | same
  · exact .inl (.snippet stale)
  · exact .inr ⟨same, { near with
      snippets := near.snippets.get same
      searched := near.searched.snippet name }⟩

/-- Two such worlds go on to lead to the same until something is asked for that has changed. -/
theorem lasting (changed : ResourceKind → (dir name : String) → Prop) :
    Lasting (Near changed) (Asked changed) where
  move {α f may v w} move near := by
    have searched := move.searched near.searched
    cases move with
    | record | note => exact .inr ⟨rfl, { near with searched }⟩
    | chunk name => exact near.chunk name
    | snippet name => exact near.snippet name
    | registerChunk name text =>
      exact .inr ⟨rfl, { near with searched, chunks := near.chunks.register text }⟩
    | registerSnippet name start =>
      exact .inr ⟨rfl, { near with searched, snippets := near.snippets.register (.program start) }⟩
    | count counter =>
      dsimp only [count]
      rw [near.counters]
      exact .inr ⟨rfl, { near with searched, counters := rfl }⟩
  note _ near := { near with }
  script {v w name path} near found := by
    rcases near.snippets name with stale | same
    · exact .inl (.snippet stale)
    · have answered : (w.snippets.get w.probeSnippet name).answer = some (.script path) :=
        same.symm.trans found
      have kept := (Cache.known?_get w.snippets w.probeSnippet name).trans (congrArg some answered)
      obtain ⟨dir, asked, rfl⟩ := near.searched.snippet name name path kept
      by_cases changes : changed .snippet dir name
      · exact .inl ⟨.snippet, dir, name, asked, changes⟩
      · exact .inr (near.script dir name changes)
  stays := by
    rintro v w events ⟨kind, dir, name, asked, changes⟩ grown -
    exact ⟨kind, dir, name, grown ▸ List.mem_append_right _ asked, changes⟩

end Near
end Lookups
end World
end DocSite.Template
