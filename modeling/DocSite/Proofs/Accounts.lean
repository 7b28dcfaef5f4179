import DocSite.Proofs.Turns
import DocSite.Shell.Launch

/-! What a build accounts for. Each page is written or skipped, or it is the first that fails and ends
the build; the counters of engines that are reported are those of the pages that are written. -/
namespace DocSite.Site

open Template (Stats)

namespace Build

variable {m : Manifest} {source output : String} {keepGoing : Bool} {r report : Report}
  {fs fs' : Files} {t : Turn m source} {error : Error}

/-! Pages -/

theorem Turn.error?_isSome : t.error?.isSome ↔ ∃ o ∈ t.outcomes, o.Fails := by
  simp [Turn.error?, Outcome.error?, Outcome.Fails]

theorem skipped_paths (d : DocSet) (outcomes : List Outcome) :
    (outcomes.filterMap (·.skipped? d)).map Prod.fst =
      (outcomes.filter (·.Fails)).map (·.path d) := by
  induction outcomes with
  | nil => rfl
  | cons o rest ih =>
    cases failed : o.failure? with
    | none => simpa [Outcome.skipped?, Outcome.Fails, failed] using ih
    | some reason => simpa [Outcome.skipped?, Outcome.Fails, failed] using ih

/-- Every page is written or skipped, and none is both. -/
theorem Turn.split : t.written.length + t.skipped.length = t.docSet.pages.length := by
  have skipped := congrArg List.length (skipped_paths t.docSet t.outcomes)
  have parted := List.length_eq_length_filter_add (l := t.outcomes) (·.Fails)
  rw [← t.pages, List.length_map, parted]
  simp only [List.length_map] at skipped
  simp only [Turn.written, Turn.skipped, List.length_map, decide_not, skipped]
  exact Nat.add_comm ..

/-- A page fails because a snippet does. -/
theorem failed_of_error? {turns : List (Turn m source)} (found : turns.findSome? Turn.error? = some error) :
    ∃ path e, error = .page path (.failed e) := by
  obtain ⟨t, -, first⟩ := List.exists_of_findSome?_eq_some found
  obtain ⟨o, among, fails⟩ := List.exists_of_findSome?_eq_some first
  obtain ⟨reason, stopped, rfl⟩ := Option.map_eq_some_iff.mp fails
  cases reason with
  | failed e => exact ⟨o.path t.docSet, e, rfl⟩
  | unfinished => exact absurd (Template.Run.stopped_eq_some.mp stopped) (t.ended o among)

/-- A report that has all that was done in the turns of a build. -/
structure Covers (m : Manifest) (turns : List (Turn m source)) (report : Report) : Prop where
  docSets : turns.map (·.docSet) = m.docSets
  written : report.written = turns.flatMap (·.written)
  skipped : report.skipped = turns.flatMap (·.skipped)
  /-- None is missing, and none is counted twice. -/
  count : report.written.length + report.skipped.length = (m.docSets.flatMap (·.pages)).length
  searchIndexes : report.searchIndexes = m.docSets.map fun d => d.path ++ SearchIndex.fileName
  assetsCopied : report.assetsCopied = (m.docSets.flatMap (·.assets)).length

theorem build_ends (m : Manifest) (source output : String) (keepGoing : Bool) (fs : Files) :
    let turns := turns m source output keepGoing {} fs m.docSets
    Ends (build m source output keepGoing) fs (ending? keepGoing (turns.findSome? Turn.error?))
      (turns.foldl Turn.record {}) :=
  docSets_end keepGoing m.docSets {} fs

theorem covers_of_ok (built : build m source output keepGoing fs = (.ok report, fs')) :
    Covers m (turns m source output keepGoing {} fs m.docSets) report := by
  have docSets := turns_whole built
  obtain ⟨-, record⟩ := (build_ends m source output keepGoing fs).ok (congrArg Prod.fst built)
  rw [foldl_record] at record
  generalize turns m source output keepGoing {} fs m.docSets = turns at *
  subst record
  refine ⟨docSets, List.nil_append _, List.nil_append _, ?_, ?_, ?_⟩
  · calc (turns.flatMap (·.written)).length + (turns.flatMap (·.skipped)).length
      _ = (turns.map fun t => t.written.length + t.skipped.length).sum := by
        rw [List.length_flatMap, List.length_flatMap, List.sum_map_add]
      _ = (turns.map (·.docSet.pages.length)).sum :=
        congrArg List.sum (List.map_congr_left fun t _ => t.split)
      _ = (m.docSets.flatMap (·.pages)).length := by
        rw [← docSets, List.flatMap_map, List.length_flatMap]
  · rw [← docSets, List.map_map]
    exact List.nil_append _
  · rw [← docSets, List.flatMap_map]
    exact Nat.zero_add _

theorem fails_of_error? {turns : List (Turn m source)}
    (found : turns.findSome? Turn.error? = some error) :
    ∃ t ∈ turns, ∃ o ∈ t.outcomes, o.Fails := by
  obtain ⟨t, member, first⟩ := List.exists_of_findSome?_eq_some found
  exact ⟨t, member, Turn.error?_isSome.mp (Option.isSome_of_mem first)⟩

/-- Unless files are in the way, a build that does not keep going fails just when a page does, and it
tells which page in the order of the doc sets and of their pages is the first to fail. Any other build
comes to a report. Every doc set has had its turn then, and each of its pages is in order among the
written ones or, just when it fails, among the skipped ones, with the reason. Scripts may do whatever
the files make of them. -/
theorem build_accounts (m : Manifest) (source output : String) (keepGoing : Bool) (fs : Files)
    (possible : (build m source output keepGoing fs).1 ≠ .error .file) :
    let result := (build m source output keepGoing fs).1
    let turns := turns m source output keepGoing {} fs m.docSets
    turns.map (·.docSet) <+: m.docSets ∧
    ((∃ path e, result = .error (.page path (.failed e))) ↔
      keepGoing = false ∧ ∃ t ∈ turns, ∃ o ∈ t.outcomes, o.Fails) ∧
    (∀ error, result = .error error → turns.findSome? Turn.error? = some error) ∧
    (¬ (keepGoing = false ∧ ∃ t ∈ turns, ∃ o ∈ t.outcomes, o.Fails) →
      ∃ report, result = .ok report ∧ Covers m turns report) := by
  intro result turns
  have ends := build_ends m source output keepGoing fs
  refine ⟨turns_docSets .., ⟨?_, ?_⟩, ?_, ?_⟩
  · rintro ⟨path, e, failed⟩
    obtain ⟨stops, found⟩ := ending?_eq_some.mp ((ends.error_iff possible).mp failed)
    exact ⟨stops, fails_of_error? found⟩
  · rintro ⟨stops, t, member, fails⟩
    -- the page that fails need not be the first one, but there is a first one
    have some : (turns.findSome? Turn.error?).isSome :=
      List.findSome?_isSome_iff.mpr ⟨t, member, Turn.error?_isSome.mpr fails⟩
    obtain ⟨error, found⟩ := Option.isSome_iff_exists.mp some
    obtain ⟨path, e, rfl⟩ := failed_of_error? found
    exact ⟨path, e, (ends.error_iff possible).mpr (ending?_eq_some.mpr ⟨stops, found⟩)⟩
  · intro error failed
    exact (ending?_eq_some.mp ((ends.error_iff possible).mp failed)).2
  · intro calm
    cases done : result with
    | ok report => exact ⟨report, rfl, covers_of_ok (Prod.ext done rfl)⟩
    | error error =>
      obtain ⟨stops, found⟩ := ending?_eq_some.mp ((ends.error_iff possible).mp done)
      exact absurd ⟨stops, fails_of_error? found⟩ calm

/-! A site with two pages whose layout has a script that fails. -/

def hedge : Files where
  root := .dir [("site", .dir [("logo.png", .file "x".toUTF8 false), ("layouts", .dir [
    ("default.html", .file "ok".toUTF8 false), ("thorny.html", .file "[[prick]]".toUTF8 false),
    ("prick.sh", .file "#!/bin/sh\necho ouch >&2\nexit 3\n".toUTF8 true)])])]
  launch := Shell.launch

def smooth (name : String) : Page :=
  { source := name ++ ".md", output := name ++ ".html", title := name }

def thorny (name : String) : Page := { smooth name with layout := some "thorny" }

def hedged : Manifest where
  docSets := [
    { label := "2", path := "", pages := [smooth "a", thorny "b", smooth "c"],
      assets := [⟨"logo.png", "logo.png"⟩] },
    { label := "v1", path := "v1/", pages := [thorny "a", smooth "d"] }]

/-- The page that has ended a build. -/
def pageOf? : Except Error Report → Option String
  | .error (.page path _) => some path
  | _ => none

theorem hedged_accounted :
    (∃ report, (build hedged "site" "out" true hedge).1 = .ok report ∧
      Covers hedged (turns hedged "site" "out" true {} hedge hedged.docSets) report ∧
      report.written = ["a.html", "c.html", "v1/d.html"] ∧
      report.skipped.map Prod.fst = ["b.html", "v1/a.html"]) ∧
    ∃ e, (build hedged "site" "out" false hedge).1 = .error (.page "b.html" (.failed e)) := by
  refine ⟨?_, ?_⟩
  · have told : (build hedged "site" "out" true hedge).1.toOption.map (fun r =>
        (r.written, r.skipped.map Prod.fst)) =
          some (["a.html", "c.html", "v1/d.html"], ["b.html", "v1/a.html"]) := by
      decide +kernel
    have possible : (build hedged "site" "out" true hedge).1 ≠ .error .file := by
      intro barred
      rw [barred] at told
      cases told
    obtain ⟨-, -, -, reports⟩ := build_accounts hedged "site" "out" true hedge possible
    obtain ⟨report, done, covers⟩ := reports fun stops => nomatch stops.1
    rw [done] at told
    obtain ⟨written, skipped⟩ := Prod.mk.inj (Option.some.inj told)
    exact ⟨report, done, covers, written, skipped⟩
  · have told : pageOf? (build hedged "site" "out" false hedge).1 = some "b.html" := by
      decide +kernel
    have possible : (build hedged "site" "out" false hedge).1 ≠ .error .file := by
      intro barred
      rw [barred] at told
      cases told
    obtain ⟨-, fails, -, -⟩ := build_accounts hedged "site" "out" false hedge possible
    obtain ⟨path, e, failed⟩ := fails.mpr ⟨rfl, by decide +kernel⟩
    rw [failed] at told
    cases told
    exact ⟨e, failed⟩

/-! Counters -/

theorem sum_stats (turns : List (Turn m source)) : (turns.map (·.stats)).sum =
    (((turns.flatMap (·.outcomes)).filter (¬ ·.Fails)).map Outcome.stats).sum := by
  induction turns with
  | nil => rfl
  | cons t rest ih =>
    rw [List.map_cons, List.sum_cons, ih, List.flatMap_cons, List.filter_append, List.map_append,
      List.sum_append]
    rfl

theorem skipped_eq_nil {turns : List (Turn m source)} : turns.flatMap (·.skipped) = [] ↔
    (turns.flatMap (·.outcomes)).filter (·.Fails) = [] := by
  rw [List.flatMap_eq_nil_iff, List.filter_eq_nil_iff, List.forall_mem_flatMap]
  refine forall₂_congr fun t _ => List.filterMap_eq_nil_iff.trans (forall₂_congr fun o _ => ?_)
  rw [decide_eq_true_eq]
  simp [Outcome.skipped?, Outcome.Fails]

/-- Pages that count something add to the sum. -/
theorem sum_eq_zero {outcomes : List Outcome} (counted : ∀ o ∈ outcomes, 0 < o.stats.renders) :
    (outcomes.map (·.stats)).sum = 0 ↔ outcomes = [] := by
  refine ⟨fun none => ?_, fun empty => empty ▸ rfl⟩
  cases outcomes with
  | nil => rfl
  | cons o rest =>
    have renders : o.stats.renders + (rest.map Outcome.stats).sum.renders = 0 :=
      congrArg Stats.renders none
    have := counted o (List.mem_cons_self ..)
    omega

/-- The counters that are reported are those of all pages but the ones that are skipped. As these have
counted something, too, the reported counters are those of all pages only if none is skipped. -/
theorem build_counts (built : build m source output keepGoing fs = (.ok report, fs')) :
    let outcomes := (turns m source output keepGoing {} fs m.docSets).flatMap (·.outcomes)
    outcomes.map (·.page) = m.docSets.flatMap (·.pages) ∧
    report.stats + ((outcomes.filter (·.Fails)).map (·.stats)).sum = (outcomes.map (·.stats)).sum ∧
    (report.stats = (outcomes.map (·.stats)).sum ↔ report.skipped = []) := by
  intro outcomes
  have docSets := turns_whole built
  obtain ⟨-, record⟩ := (build_ends m source output keepGoing fs).ok (congrArg Prod.fst built)
  rw [foldl_record] at record
  have stats : report.stats = ((outcomes.filter (¬ ·.Fails)).map Outcome.stats).sum := by
    rw [record, ← sum_stats]
    exact zero_add _
  have whole : report.stats + ((outcomes.filter (·.Fails)).map (·.stats)).sum =
      (outcomes.map (·.stats)).sum := by
    rw [stats, add_comm]
    exact List.sum_map_filter_add_sum_map_filter_not Outcome.Fails Outcome.stats outcomes
  have counted : ∀ o ∈ outcomes.filter (·.Fails), 0 < o.stats.renders := by
    intro o failed
    obtain ⟨t, -, among⟩ := List.mem_flatMap.mp (List.mem_of_mem_filter failed)
    exact t.counted o among
  have skipped : report.skipped = [] ↔ outcomes.filter (·.Fails) = [] := by
    rw [record]
    exact skipped_eq_nil
  refine ⟨?_, whole, ?_⟩
  · rw [← docSets, List.flatMap_map, List.map_flatMap]
    exact congrArg (List.flatMap · _) (funext fun t => t.pages)
  · rw [skipped, ← sum_eq_zero counted, ← whole]
    exact left_eq_add

/-- Without thorns all is counted. -/
theorem trimmed_counted :
    let m : Manifest := { docSets := [{ label := "", path := "", pages := [smooth "a", smooth "c"] }] }
    ∃ report fs', build m "site" "out" true hedge = (.ok report, fs') ∧ report.skipped = [] ∧
      report.stats = ⟨4, 4, 0, 0⟩ ∧ report.stats =
        (((turns m "site" "out" true {} hedge m.docSets).flatMap (·.outcomes)).map (·.stats)).sum := by
  intro m
  have told : (build m "site" "out" true hedge).1.toOption.map (fun r => (r.skipped, r.stats)) =
      some ([], ⟨4, 4, 0, 0⟩) := by
    decide +kernel
  rcases built : build m "site" "out" true hedge with ⟨_ | report, fs'⟩ <;> rw [built] at told
  · cases told
  · obtain ⟨skipped, stats⟩ := Prod.mk.inj (Option.some.inj told)
    obtain ⟨-, -, whole⟩ := build_counts built
    exact ⟨report, fs', rfl, skipped, stats, whole.mpr skipped⟩

/-- What the pages with thorns have counted is lost. -/
theorem hedged_miscounted :
    ∃ report fs', build hedged "site" "out" true hedge = (.ok report, fs') ∧ report.stats ≠
      (((turns hedged "site" "out" true {} hedge hedged.docSets).flatMap (·.outcomes)).map
        (·.stats)).sum := by
  have told : (build hedged "site" "out" true hedge).1.toOption.map (·.stats) =
      some ⟨6, 6, 0, 0⟩ := by
    decide +kernel
  have total : (((turns hedged "site" "out" true {} hedge hedged.docSets).flatMap
      (·.outcomes)).map (·.stats)).sum = ⟨10, 10, 0, 0⟩ := by
    decide +kernel
  rcases built : build hedged "site" "out" true hedge with ⟨_ | report, fs'⟩ <;> rw [built] at told
  · cases told
  · have stats : report.stats = ⟨6, 6, 0, 0⟩ := Option.some.inj told
    refine ⟨report, fs', rfl, ?_⟩
    rw [total, stats]
    decide

end Build
end DocSite.Site
