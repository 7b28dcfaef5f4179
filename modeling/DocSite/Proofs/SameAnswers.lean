import DocSite.Proofs.Law
import DocSite.Proofs.Lookup

/-! Worlds that give the same answers, because their caches are the same or because all names lead to
the same in them. Whatever a run does to two such worlds, they go on to do so. -/
namespace DocSite.Template

namespace Cache

variable {α : Type}

theorem answer_congr {c d : Cache α} {name : String} (searchPaths : d.searchPaths = c.searchPaths)
    (known : d.known? name = c.known? name) (probe : (dir name : String) → Probe α) :
    (d.get probe name).answer = (c.get probe name).answer := by
  cases before : c.known? name with
  | some answer => rw [answer_of_known before, answer_of_known (known.trans before)]
  | none => rw [answer_of_unknown before, answer_of_unknown (known.trans before), searchPaths]

/-- The directories are the same, and the same answers are kept, in whatever order. -/
structure Same (c d : Cache α) : Prop where
  searchPaths : d.searchPaths = c.searchPaths
  known? (name : String) : d.known? name = c.known? name

namespace Same

variable {c d : Cache α} {probe : (dir name : String) → Probe α}

theorem refl (c : Cache α) : c.Same c := ⟨rfl, fun _ => rfl⟩

theorem answer (same : c.Same d) (name : String) :
    (d.get probe name).answer = (c.get probe name).answer :=
  answer_congr same.searchPaths (same.known? name) probe

theorem get (same : c.Same d) (name : String) : (c.get probe name).cache.Same (d.get probe name).cache where
  searchPaths := by rw [searchPaths_get, searchPaths_get, same.searchPaths]
  known? other := by
    by_cases here : other = name
    · subst here
      rw [known?_get, known?_get, same.answer]
    · rw [known?_get_of_ne _ _ here, known?_get_of_ne _ _ here, same.known?]

theorem register (same : c.Same d) (name : String) (resource : α) :
    (c.register name resource).Same (d.register name resource) where
  searchPaths := same.searchPaths
  known? other := by rw [known?_register, known?_register, same.known?]

end Same
end Cache

namespace World

/-- The caches are the same, and so are files and counters. What is recorded and noted may differ. -/
structure Same (v w : World) : Prop where
  chunks : v.chunks.Same w.chunks
  snippets : v.snippets.Same w.snippets
  chunkExtension : w.chunkExtension = v.chunkExtension
  snippetExtension : w.snippetExtension = v.snippetExtension
  files : w.files = v.files
  counters : w.counters = v.counters

/-- What `asked` holds of is answered alike, and the snippets that such names lead to do the same. -/
structure AlikeOn (asked : Query → Prop) (v w : World) : Prop where
  chunk? {name : String} : asked (.chunk name) → w.chunk? name = v.chunk? name
  snippet? {name : String} : asked (.snippet name) → w.snippet? name = v.snippet? name
  script {name path : String} : asked (.snippet name) → v.snippet? name = some (.script path) →
    Script.run w.files path = Script.run v.files path
  counter {name : String} : asked (.counter name) → (w.count name).1 = (v.count name).1

/-- What runs do to two worlds in `R` they do alike, and they leave two worlds in `R`, unless the
second one comes to be in `E` for good. -/
structure Lasting (R : World → World → Prop) (E : World → Prop) : Prop where
  move {α : Type} {f : World → α × World} {may : Snippet → Prop} {v w : World} : Move may f → R v w →
    E (f w).2 ∨ ((f v).1 = (f w).1 ∧ R (f v).2 (f w).2)
  note {v w : World} (notice : Notice) : R v w → R (v.note notice) (w.note notice)
  script {v w : World} {name path : String} : R v w → v.snippet? name = some (.script path) →
    E (w.snippet name).2 ∨ Script.run w.files path = Script.run v.files path
  stays {v w : World} {events : List Event} : E v → w.journal = events ++ v.journal →
    v.queries <:+ w.queries → E w

theorem Move.files {α : Type} {f : World → α × World} {may : Snippet → Prop} (move : Move may f)
    (w : World) : (f w).2.files = w.files := by
  cases move <;> rfl

theorem probeChunk_congr {v w : World} (files : w.files = v.files)
    (extension : w.chunkExtension = v.chunkExtension) : w.probeChunk = v.probeChunk := by
  cases v
  cases w
  cases files
  cases extension
  rfl

theorem probeSnippet_congr {v w : World} (files : w.files = v.files)
    (extension : w.snippetExtension = v.snippetExtension) : w.probeSnippet = v.probeSnippet := by
  cases v
  cases w
  cases files
  cases extension
  rfl

theorem chunk_probing {w : World} {probe : (dir name : String) → Probe String}
    (same : w.probeChunk = probe) (name : String) :
    (w.chunk name).1 = (w.chunks.get probe name).answer ∧
      (w.chunk name).2.chunks = (w.chunks.get probe name).cache := by
  rw [← same]
  exact ⟨rfl, rfl⟩

theorem snippet_probing {w : World} {probe : (dir name : String) → Probe Snippet}
    (same : w.probeSnippet = probe) (name : String) :
    (w.snippet name).1 = (w.snippets.get probe name).answer ∧
      (w.snippet name).2.snippets = (w.snippets.get probe name).cache := by
  rw [← same]
  exact ⟨rfl, rfl⟩

namespace Same

variable {v w : World}

theorem probeChunk (same : v.Same w) : w.probeChunk = v.probeChunk :=
  probeChunk_congr same.files same.chunkExtension

theorem probeSnippet (same : v.Same w) : w.probeSnippet = v.probeSnippet :=
  probeSnippet_congr same.files same.snippetExtension

theorem chunk (same : v.Same w) (name : String) :
    (v.chunk name).1 = (w.chunk name).1 ∧ (v.chunk name).2.Same (w.chunk name).2 := by
  obtain ⟨answer, cache⟩ := chunk_probing same.probeChunk name
  refine ⟨(answer.trans (same.chunks.answer name)).symm, { same with chunks := ?_ }⟩
  rw [cache]
  exact same.chunks.get name

theorem snippet (same : v.Same w) (name : String) :
    (v.snippet name).1 = (w.snippet name).1 ∧ (v.snippet name).2.Same (w.snippet name).2 := by
  obtain ⟨answer, cache⟩ := snippet_probing same.probeSnippet name
  refine ⟨(answer.trans (same.snippets.answer name)).symm, { same with snippets := ?_ }⟩
  rw [cache]
  exact same.snippets.get name

theorem lasting : Lasting Same fun _ => False where
  move {α f may v w} move same := by
    right
    cases move with
    | record | note => exact ⟨rfl, { same with }⟩
    | chunk name => exact same.chunk name
    | snippet name => exact same.snippet name
    | registerChunk name text => exact ⟨rfl, { same with chunks := same.chunks.register name text }⟩
    | registerSnippet name start =>
      exact ⟨rfl, { same with snippets := same.snippets.register name (.program start) }⟩
    | count counter =>
      dsimp only [count]
      rw [same.counters]
      exact ⟨rfl, { same with counters := rfl }⟩
  note _ same := { same with }
  script same _ := .inr (by rw [same.files])
  stays excused _ _ := excused.elim

end Same

/-- What has been asked of a world since it was `v`. -/
def queriesSince (v w : World) : List Query := w.queries.take (w.queries.length - v.queries.length)

/-- Two worlds that are alike in what may have been asked of the second one since it was `base`. -/
def AlikeSince (asked : Query → Prop) (base v w : World) : Prop :=
  v.AlikeOn asked w ∧ base.queries <:+ w.queries

/-- Something else has been asked of a world since it was `base`. -/
def Strays (asked : Query → Prop) (base w : World) : Prop :=
  ∃ queries, w.queries = queries ++ base.queries ∧ ∃ query ∈ queries, ¬ asked query

theorem raise_raise (a b : String) (counters : List (String × Nat)) :
    (raise b (raise a counters).2).1 =
      if b = a then (raise b counters).1 + 1 else (raise b counters).1 := by
  induction counters with
  | nil => by_cases same : b = a <;> simp [raise, same, Ne.symm]
  | cons c rest ih =>
    obtain ⟨name, n⟩ := c
    by_cases first : name = a <;> by_cases second : name = b <;> simp_all [raise, eq_comm]

theorem count_count (w : World) (a b : String) :
    ((w.count a).2.count b).1 = if b = a then (w.count b).1 + 1 else (w.count b).1 :=
  raise_raise a b w.counters

theorem queriesSince_of_append {v w : World} {queries : List Query}
    (grown : w.queries = queries ++ v.queries) : queriesSince v w = queries := by
  rw [queriesSince, grown, List.length_append, Nat.add_sub_cancel, List.take_left]

namespace AlikeOn

variable {asked : Query → Prop} {v w base : World}

theorem chunk (alike : v.AlikeOn asked w) (name : String) :
    AlikeOn asked (v.chunk name).2 (w.chunk name).2 where
  chunk? about := by rw [chunk?_chunk, chunk?_chunk, alike.chunk? about]
  snippet? about := alike.snippet? about
  script about found := alike.script about found
  counter about := alike.counter about

theorem snippet (alike : v.AlikeOn asked w) (name : String) :
    AlikeOn asked (v.snippet name).2 (w.snippet name).2 where
  chunk? about := alike.chunk? about
  snippet? about := by rw [snippet?_snippet, snippet?_snippet, alike.snippet? about]
  script about found := alike.script about ((snippet?_snippet v ..).symm.trans found)
  counter about := alike.counter about

theorem registerChunk (alike : v.AlikeOn asked w) (name text : String) :
    AlikeOn asked (v.registerChunk name text) (w.registerChunk name text) where
  chunk? about := by rw [chunk?_registerChunk, chunk?_registerChunk, alike.chunk? about]
  snippet? about := alike.snippet? about
  script about found := alike.script about found
  counter about := alike.counter about

theorem registerProgram (alike : v.AlikeOn asked w) (name : String) (start : Params → Action) :
    AlikeOn asked (v.registerSnippet name (.program start))
      (w.registerSnippet name (.program start)) where
  chunk? about := alike.chunk? about
  snippet? about := by
    rw [snippet?_registerSnippet, snippet?_registerSnippet, alike.snippet? about]
  script about found := by
    rw [snippet?_registerSnippet] at found
    split at found
    · cases found
    · exact alike.script about found
  counter about := alike.counter about

theorem count (alike : v.AlikeOn asked w) (counter : String) :
    AlikeOn asked (v.count counter).2 (w.count counter).2 where
  chunk? about := alike.chunk? about
  snippet? about := alike.snippet? about
  script about found := alike.script about found
  counter about := by rw [count_count, count_count, alike.counter about]

/-- As long as nothing else is asked, worlds that are alike in what is asked stay so. -/
theorem lasting (asked : Query → Prop) (base : World) :
    Lasting (AlikeSince asked base) (Strays asked base) where
  move {α f may v w} move := by
    rintro ⟨alike, queries, grown⟩
    have strays (query : Query) : ¬ asked query → ∃ more,
        query :: w.queries = more ++ base.queries ∧ ∃ query ∈ more, ¬ asked query := fun other =>
      ⟨query :: queries, congrArg (query :: ·) grown.symm, query, List.mem_cons_self .., other⟩
    have later (query : Query) : base.queries <:+ query :: w.queries :=
      ⟨query :: queries, congrArg (query :: ·) grown⟩
    cases move with
    | record | note => exact .inr ⟨rfl, { alike with }, queries, grown⟩
    | chunk name =>
      by_cases about : asked (.chunk name)
      · exact .inr ⟨(alike.chunk? about).symm, alike.chunk name, later _⟩
      · exact .inl (strays _ about)
    | snippet name =>
      by_cases about : asked (.snippet name)
      · exact .inr ⟨(alike.snippet? about).symm, alike.snippet name, later _⟩
      · exact .inl (strays _ about)
    | registerChunk name text => exact .inr ⟨rfl, alike.registerChunk name text, queries, grown⟩
    | registerSnippet name start =>
      exact .inr ⟨rfl, alike.registerProgram name start, queries, grown⟩
    | count counter =>
      by_cases about : asked (.counter counter)
      · exact .inr ⟨(alike.counter about).symm, alike.count counter, later _⟩
      · exact .inl (strays _ about)
  note _ := fun ⟨alike, since⟩ => ⟨{ alike with }, since⟩
  script {v w name path} := by
    rintro ⟨alike, queries, grown⟩ found
    by_cases about : asked (.snippet name)
    · exact .inr (alike.script about found)
    · exact .inl ⟨.snippet name :: queries, congrArg (_ :: ·) grown.symm, _,
        List.mem_cons_self .., about⟩
  stays {v w events} := by
    rintro ⟨queries, grown, query, member, other⟩ - ⟨more, later⟩
    refine ⟨more ++ queries, ?_, query, List.mem_append_right _ member, other⟩
    rw [← later, grown, List.append_assoc]

end AlikeOn
end World

end DocSite.Template
