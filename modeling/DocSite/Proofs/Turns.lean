import Mathlib.Algebra.BigOperators.Group.List.Basic
import DocSite.Proofs.Building
import DocSite.Proofs.Ending

/-! The turns of a build. Each doc set has its turn, with what becomes of its pages. Unless files are
in the way, the turns say how the build ends: with the first page that fails, or with a report that
has each page either as written or as skipped. -/
namespace DocSite

namespace Template

instance : Zero Stats := ⟨{}⟩

/-- Counters are added up over engines. -/
instance : AddCancelCommMonoid Stats where
  add_assoc := Stats.add_assoc
  zero_add s := (Stats.add_comm {} s).trans rfl
  add_zero _ := rfl
  add_comm := Stats.add_comm
  nsmul := nsmulRec
  add_left_cancel a b c same :=
    Stats.add_right_cancel ((Stats.add_comm b a).trans (same.trans (Stats.add_comm a c)))

end Template

namespace Site

open Build (Error reasonText)
open Files.Path (join)
open Template (Run Stats Stop)

namespace Outcome

/-- Why there is no HTML, if the page failed. -/
def failure? (o : Outcome) : Option Stop := Run.stopped o.html

def Fails (o : Outcome) : Prop := o.failure?.isSome

instance : DecidablePred Fails := fun o => inferInstanceAs (Decidable (o.failure?.isSome))

/-- The path of the page in the output. -/
def path (d : DocSet) (o : Outcome) : String := d.path ++ o.page.output

/-- The page and the reason, if it failed. -/
def skipped? (d : DocSet) (o : Outcome) : Option (String × String) :=
  o.failure?.map fun reason => (o.path d, reasonText reason)

/-- The error of a build that does not skip the page. -/
def error? (d : DocSet) (o : Outcome) : Option Error := o.failure?.map (Error.page (o.path d))

/-- A report with the page. -/
def note (d : DocSet) (r : Report) (o : Outcome) : Report :=
  match o.failure? with
  | none => { r with written := r.written ++ [o.path d], stats := r.stats + o.stats }
  | some reason => { r with skipped := r.skipped ++ [(o.path d, reasonText reason)] }

end Outcome

namespace Build

/-- A doc set at its turn in a build, and the files at the time when its pages are rendered. -/
structure Turn (m : Manifest) (source : String) where
  docSet : DocSet
  files : Files

variable {m : Manifest} {source output : String}

namespace Turn

/-- What becomes of the pages. -/
def outcomes (t : Turn m source) : List Outcome := t.docSet.outcomes m t.files source

theorem pages (t : Turn m source) : t.outcomes.map (·.page) = t.docSet.pages :=
  t.docSet.outcomes_pages m t.files source

/-- No page is given up because too many calls are open. -/
theorem ended (t : Turn m source) : ∀ o ∈ t.outcomes, o.html ≠ .error .unfinished :=
  DocSet.renderPages_end (t.docSet.world_idle t.files source m.config) t.docSet.pages

/-- All engines have counted, also those of pages that fail. -/
theorem counted (t : Turn m source) : ∀ o ∈ t.outcomes, 0 < o.stats.renders :=
  DocSet.renderPages_count t.docSet.pages

/-- The paths of the pages that do not fail. -/
def written (t : Turn m source) : List String := (t.outcomes.filter (¬ ·.Fails)).map (·.path t.docSet)

/-- The paths of the pages that fail, with the reasons. -/
def skipped (t : Turn m source) : List (String × String) := t.outcomes.filterMap (·.skipped? t.docSet)

/-- The counters of the pages that do not fail. -/
def stats (t : Turn m source) : Stats := ((t.outcomes.filter (¬ ·.Fails)).map (·.stats)).sum

/-- The first page that fails. -/
def error? (t : Turn m source) : Option Error := t.outcomes.findSome? (·.error? t.docSet)

def searchIndex (t : Turn m source) : String := t.docSet.path ++ SearchIndex.fileName

/-- A report with the whole turn. -/
def record (r : Report) (t : Turn m source) : Report where
  written := r.written ++ t.written
  searchIndexes := r.searchIndexes ++ [t.searchIndex]
  skipped := r.skipped ++ t.skipped
  assetsCopied := r.assetsCopied + t.docSet.assets.length
  stats := r.stats + t.stats

end Turn

/-- The turns of a build that has come to the doc sets `docSets`. A doc set has its turn if all files
before its pages are in place, and those after it if the build goes on. -/
def turns (m : Manifest) (source output : String) (keepGoing : Bool) :
    Report → Files → List DocSet → List (Turn m source)
  | _, _, [] => []
  | r, fs, d :: rest =>
    match openSet source output d fs with
    | (.error _, _) => []
    | (.ok (), opened) =>
      ⟨d, opened⟩ ::
        match closeSet m source output keepGoing r d opened with
        | (.error _, _) => []
        | (.ok r, closed) => turns m source output keepGoing r closed rest

/-! How work ends -/

variable {α β : Type}

theorem findSome?_cons_or (f : α → Option β) (a : α) (rest : List α) :
    (a :: rest).findSome? f = (f a).or (rest.findSome? f) := by
  rw [List.findSome?_cons]
  cases f a <;> rfl

/-- Unless files are in the way, the work ends with the error, if there is one, and with the answer
otherwise. -/
def Ends (work : Work α) (fs : Files) (error? : Option Error) (a : α) : Prop :=
  (work fs).1 = .error .file ∨ (work fs).1 = error?.elim (.ok a) .error

namespace Ends

variable {fs : Files} {error? error?' : Option Error} {a : α} {b : β}

theorem pure (a : α) (fs : Files) : Ends (pure a) fs none a := .inr rfl

theorem onFiles (change? : Files → Option Files) (fs : Files) :
    Ends (onFiles change?) fs none () := by
  unfold Ends Build.onFiles
  split
  · exact .inr rfl
  · exact .inl rfl

theorem bind {work : Work α} {next : α → Work β} (first : Ends work fs error? a)
    (second : ∀ fs', work fs = (.ok a, fs') → Ends (next a) fs' error?' b) :
    Ends (work >>= next) fs (error?.or error?') b := by
  unfold Ends
  rw [Template.Work.bind_apply]
  rcases ended : work fs with ⟨answer, fs'⟩
  rw [Ends, ended] at first
  rcases first with rfl | same
  · exact .inl rfl
  · cases error? with
    | some error =>
      cases same
      exact .inr rfl
    | none =>
      cases same
      exact second fs' ended

/-- Work that only files are in the way of, and what comes after it. -/
theorem before {work : Work α} {next : α → Work β} (first : Ends work fs none a)
    (second : ∀ fs', work fs = (.ok a, fs') → Ends (next a) fs' error? b) :
    Ends (work >>= next) fs error? b :=
  first.bind second

theorem error_iff {work : Work α} {error : Error} (ends : Ends work fs error? a)
    (possible : (work fs).1 ≠ .error .file) :
    (work fs).1 = .error error ↔ error? = some error := by
  rw [ends.resolve_left possible]
  cases error? <;> simp

theorem ok {work : Work α} {answer : α} (ends : Ends work fs error? a)
    (done : (work fs).1 = .ok answer) : error? = none ∧ answer = a := by
  have same := ends.resolve_left fun barred => nomatch done.symm.trans barred
  rw [done] at same
  cases error? <;> cases same
  exact ⟨rfl, rfl⟩

theorem forM {items : List α} {work : α → Work Unit}
    (each : ∀ item fs, Ends (work item) fs none ()) : ∀ fs, Ends (items.forM work) fs none () := by
  induction items with
  | nil => exact fun fs => pure () fs
  | cons item rest ih => exact fun fs => (each item fs).before fun fs' _ => ih fs'

theorem foldlM {items : List α} {work : β → α → Work β} {error? : α → Option Error}
    {next : β → α → β} (each : ∀ b item fs, Ends (work b item) fs (error? item) (next b item)) :
    ∀ b fs, Ends (items.foldlM work b) fs (items.findSome? error?) (items.foldl next b) := by
  induction items with
  | nil => exact fun b fs => pure b fs
  | cons item rest ih =>
    intro b fs
    rw [List.foldlM_cons, List.foldl_cons, findSome?_cons_or]
    exact (each b item fs).bind fun fs' _ => ih (next b item) fs'

end Ends

/-! One doc set -/

theorem openSet_ends (d : DocSet) (fs : Files) : Ends (openSet source output d) fs none () :=
  (Ends.onFiles _ fs).before fun fs' _ => Ends.forM (fun _ fs =>
    (Ends.onFiles _ fs).before fun fs' _ => Ends.onFiles _ fs') fs'

/-- Only a build that does not keep going ends with the failure of a page. -/
def ending? (keepGoing : Bool) (error? : Option Error) : Option Error :=
  if keepGoing then none else error?

theorem ending?_eq_some {keepGoing : Bool} {error? : Option Error} {error : Error} :
    ending? keepGoing error? = some error ↔ keepGoing = false ∧ error? = some error := by
  cases keepGoing <;> simp [ending?]

theorem finishPage_ends (d : DocSet) (targetDir : String) (keepGoing : Bool) (r : Report)
    (o : Outcome) (fs : Files) :
    Ends (finishPage d targetDir keepGoing r o) fs (ending? keepGoing (o.error? d)) (o.note d r) := by
  obtain ⟨page, html, stats⟩ := o
  cases html with
  | ok html =>
    have none : ending? keepGoing (Outcome.error? d ⟨page, .ok html, stats⟩) = none := ite_self _
    rw [none]
    refine (Ends.onFiles _ fs).before fun fs' _ => (Ends.onFiles _ fs').before fun fs' _ => ?_
    exact Ends.pure _ fs'
  | error reason =>
    cases keepGoing with
    | true => exact .inr rfl
    | false => exact .inr rfl

theorem findSome?_ending (keepGoing : Bool) (error? : α → Option Error) (items : List α) :
    items.findSome? (fun item => ending? keepGoing (error? item)) =
      ending? keepGoing (items.findSome? error?) := by
  cases keepGoing with
  | true => exact List.findSome?_eq_none_iff.mpr fun _ _ => rfl
  | false => rfl

/-- Pages are noted one after the other. -/
theorem foldl_note (d : DocSet) (outcomes : List Outcome) (r : Report) :
    outcomes.foldl (Outcome.note d) r = { r with
      written := r.written ++ (outcomes.filter (¬ ·.Fails)).map (·.path d)
      skipped := r.skipped ++ outcomes.filterMap (·.skipped? d)
      stats := r.stats + ((outcomes.filter (¬ ·.Fails)).map (·.stats)).sum } := by
  induction outcomes generalizing r with
  | nil => simp
  | cons o rest ih =>
    rw [List.foldl_cons, ih]
    cases failed : o.failure? with
    | none => simp [Outcome.note, Outcome.Fails, Outcome.skipped?, failed, add_assoc]
    | some reason => simp [Outcome.note, Outcome.Fails, Outcome.skipped?, failed]

theorem pages_end (d : DocSet) (targetDir : String) (keepGoing : Bool) (outcomes : List Outcome)
    (r : Report) (fs : Files) :
    Ends (outcomes.foldlM (finishPage d targetDir keepGoing) r) fs
      (ending? keepGoing (outcomes.findSome? (·.error? d))) (outcomes.foldl (Outcome.note d) r) := by
  rw [← findSome?_ending]
  exact Ends.foldlM (finishPage_ends d targetDir keepGoing) r fs

/-- A turn that does not end the build is recorded as a whole. -/
theorem closeSet_ends (d : DocSet) (keepGoing : Bool) (r : Report) (fs : Files) :
    let t : Turn m source := ⟨d, fs⟩
    Ends (closeSet m source output keepGoing r d) fs (ending? keepGoing t.error?) (t.record r) := by
  intro t
  have looked : Ends (get : Work Files) fs none fs := .inr rfl
  rw [← Option.or_none (o := ending? keepGoing t.error?)]
  refine looked.before fun fs _ => (pages_end d _ keepGoing t.outcomes _ fs).bind fun fs _ => ?_
  rw [foldl_note]
  exact (Ends.onFiles _ fs).before fun fs _ => Ends.pure _ fs

/-! The whole build -/

theorem ending?_or (keepGoing : Bool) (error? error?' : Option Error) :
    ending? keepGoing (error?.or error?') =
      (ending? keepGoing error?).or (ending? keepGoing error?') := by
  cases keepGoing <;> rfl

/-- A build ends as its turns say. -/
theorem docSets_end (keepGoing : Bool) (docSets : List DocSet) (r : Report) (fs : Files) :
    let turns := turns m source output keepGoing r fs docSets
    Ends (docSets.foldlM (buildSet m source output keepGoing) r) fs
      (ending? keepGoing (turns.findSome? Turn.error?)) (turns.foldl Turn.record r) := by
  dsimp only
  induction docSets generalizing r fs with
  | nil =>
    have none : ending? keepGoing none = none := ite_self _
    rw [turns, List.findSome?_nil, none]
    exact Ends.pure r fs
  | cons d rest ih =>
    rw [List.foldlM_cons, buildSet_eq, bind_assoc, turns]
    refine (openSet_ends d fs).before fun opened same => ?_
    -- only a doc set that is opened has a turn
    rw [same]
    dsimp only
    rw [findSome?_cons_or, ending?_or, List.foldl_cons]
    refine (closeSet_ends d keepGoing r opened).bind fun closed same => ?_
    -- and only after one that is closed there are others
    rw [same]
    exact ih _ closed

theorem turns_docSets (keepGoing : Bool) (docSets : List DocSet) (r : Report) (fs : Files) :
    (turns m source output keepGoing r fs docSets).map (·.docSet) <+: docSets := by
  induction docSets generalizing r fs with
  | nil => exact List.prefix_rfl
  | cons d rest ih =>
    rw [turns]
    split
    · exact List.nil_prefix
    · refine (List.prefix_cons_inj d).mpr ?_
      split
      · exact List.nil_prefix
      · exact ih ..

/-- In a build that comes to its end every doc set has its turn. -/
theorem turns_whole {keepGoing : Bool} {docSets : List DocSet} {r r' : Report} {fs fs' : Files}
    (done : docSets.foldlM (buildSet m source output keepGoing) r fs = (.ok r', fs')) :
    (turns m source output keepGoing r fs docSets).map (·.docSet) = docSets := by
  induction docSets generalizing r fs with
  | nil => rfl
  | cons d rest ih =>
    rw [List.foldlM_cons] at done
    obtain ⟨r₁, closed, first, done⟩ := Template.Work.ok_of_bind done
    obtain ⟨opened, opening, closing⟩ := buildSet_ok first
    rw [turns, opening]
    dsimp only
    rw [closing, List.map_cons, ih done]

theorem foldl_record (turns : List (Turn m source)) (r : Report) : turns.foldl Turn.record r = {
    written := r.written ++ turns.flatMap (·.written)
    searchIndexes := r.searchIndexes ++ turns.map (·.searchIndex)
    skipped := r.skipped ++ turns.flatMap (·.skipped)
    assetsCopied := r.assetsCopied + (turns.flatMap (·.docSet.assets)).length
    stats := r.stats + (turns.map (·.stats)).sum } := by
  induction turns generalizing r with
  | nil => simp
  | cons t rest ih =>
    rw [List.foldl_cons, ih]
    simp [Turn.record, add_assoc]

end Build
end Site
end DocSite
