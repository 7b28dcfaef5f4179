import DocSite.Proofs.Lookup

/-! A cache over time. Directories are asked for a name once; from then on the answer stays,
whatever becomes of directories and files, until something is registered under the name. -/
namespace DocSite.Template.Cache

variable {α : Type}

/-- What is asked of a cache. A lookup comes with what the directories answer at that time, which
may be something else at every lookup. -/
inductive Request (α : Type) where
  | addSearchPath (path : String)
  | register (name : String) (resource : α)
  | get (probe : (dir name : String) → Probe α) (name : String)

namespace Request

/-- The directory that a request adds. -/
def added? : Request α → Option String
  | .addSearchPath path => some path
  | .register .. | .get .. => none

/-- The request registers something under the name. -/
def Registers (name : String) : Request α → Prop
  | .register n _ => n = name
  | .addSearchPath _ | .get .. => False

/-- The request registers something under the name or looks it up. -/
def Concerns (name : String) : Request α → Prop
  | .register n _ | .get _ n => n = name
  | .addSearchPath _ => False

end Request

def step (c : Cache α) : Request α → Cache α
  | .addSearchPath path => c.addSearchPath path
  | .register name resource => c.register name resource
  | .get probe name => (c.get probe name).cache

/-- A cache that was new before these requests. -/
def after (history : List (Request α)) : Cache α := history.foldl step {}

/-- The directories that requests have added, the last one first. -/
def directories (history : List (Request α)) : List String :=
  (history.filterMap Request.added?).reverse

/-- What comes of asking directories in turn: the resource of the first that has it, or nothing
when none has it. Those that cannot be read are passed over like those without it. -/
inductive FirstHit (probe : (dir : String) → Probe α) :
    (dirs : List String) → (answer : Option α) → (asked : List String) → Prop where
  | hit {before behind : List String} {dir : String} {resource : α} :
    (∀ d ∈ before, ∀ r, probe d ≠ .hit r) → probe dir = .hit resource →
    FirstHit probe (before ++ dir :: behind) (some resource) (before ++ [dir])
  | miss {dirs : List String} : (∀ d ∈ dirs, ∀ r, probe d ≠ .hit r) → FirstHit probe dirs none dirs

/-- A directory without the resource in front of others does not change what they come to. -/
theorem FirstHit.behind {probe : String → Probe α} {dir : String} {dirs asked : List String}
    {answer : Option α} (nothing : ∀ r, probe dir ≠ .hit r)
    (found : FirstHit probe dirs answer asked) :
    FirstHit probe (dir :: dirs) answer (dir :: asked) := by
  cases found with
  | hit none here => exact .hit (List.forall_mem_cons.mpr ⟨nothing, none⟩) here
  | miss none => exact .miss (List.forall_mem_cons.mpr ⟨nothing, none⟩)

theorem search_firstHit (probe : String → Probe α) (dirs : List String) :
    FirstHit probe dirs (search probe dirs).1 (search probe dirs).2 := by
  induction dirs with
  | nil => exact .miss fun _ none => nomatch none
  | cons dir rest ih =>
    rw [search]
    cases asked : probe dir with
    | hit resource =>
      have none : ∀ d ∈ ([] : List String), ∀ r, probe d ≠ .hit r := fun _ none => nomatch none
      exact .hit none asked
    | missing | unreadable =>
      exact ih.behind fun r hit => by rw [asked] at hit; cases hit

/-! One request -/

theorem asked_of_known {c : Cache α} {name : String} {answer : Option α}
    (known : c.known? name = some answer) (probe : String → String → Probe α) :
    (c.get probe name).asked = [] := by
  simp [get, known]

theorem firstHit_of_unknown {c : Cache α} {name : String} (unknown : c.known? name = none)
    (probe : String → String → Probe α) :
    FirstHit (probe · name) c.searchPaths (c.get probe name).answer (c.get probe name).asked := by
  have found := search_firstHit (probe · name) c.searchPaths
  simpa only [get, unknown] using found

theorem searchPaths_step (c : Cache α) (r : Request α) :
    (c.step r).searchPaths = r.added?.toList ++ c.searchPaths := by
  cases r with
  | addSearchPath path => rfl
  | register name resource => rfl
  | get probe name => exact searchPaths_get c probe name

/-- Requests for other names do not touch what is kept for a name. -/
theorem known?_step (c : Cache α) {r : Request α} {name : String} (other : ¬ r.Concerns name) :
    (c.step r).known? name = c.known? name := by
  cases r with
  | addSearchPath path => rfl
  | register n resource =>
    exact (known?_register c n name resource).trans (if_neg fun same => other same.symm)
  | get probe n => exact known?_get_of_ne c probe fun same => other same.symm

/-- An answer that is kept outlives every request but a registration under its name. -/
theorem known?_step_of_known {c : Cache α} {r : Request α} {name : String} {answer : Option α}
    (known : c.known? name = some answer) (kept : ¬ r.Registers name) :
    (c.step r).known? name = some answer := by
  cases r with
  | addSearchPath path => exact known
  | register n resource => exact (known?_step c (r := .register n resource) kept).trans known
  | get probe n =>
    by_cases same : n = name
    · subst same
      refine (known?_get c probe n).trans ?_
      rw [answer_of_known known]
    · exact (known?_step c (r := .get probe n) same).trans known

/-! A history of requests -/

theorem searchPaths_foldl (history : List (Request α)) (c : Cache α) :
    (history.foldl step c).searchPaths = directories history ++ c.searchPaths := by
  induction history generalizing c with
  | nil => rfl
  | cons r rest ih =>
    rw [List.foldl_cons, ih, searchPaths_step, ← List.append_assoc]
    congr 1
    cases added : r.added? <;> simp [directories, added]

theorem searchPaths_after (history : List (Request α)) :
    (after history).searchPaths = directories history :=
  (searchPaths_foldl history {}).trans (List.append_nil _)

theorem known?_foldl {history : List (Request α)} {name : String}
    (others : ∀ r ∈ history, ¬ r.Concerns name) (c : Cache α) :
    (history.foldl step c).known? name = c.known? name := by
  induction history generalizing c with
  | nil => rfl
  | cons r rest ih =>
    obtain ⟨other, others⟩ := List.forall_mem_cons.mp others
    exact (ih others _).trans (known?_step c other)

theorem known?_foldl_of_known {later : List (Request α)} {name : String} {answer : Option α}
    (kept : ∀ r ∈ later, ¬ r.Registers name) {c : Cache α} (known : c.known? name = some answer) :
    (later.foldl step c).known? name = some answer := by
  induction later generalizing c with
  | nil => exact known
  | cons r rest ih =>
    obtain ⟨now, later⟩ := List.forall_mem_cons.mp kept
    exact ih later (known?_step_of_known known now)

/-- What a request leaves as the answer for a name stays until the next registration under it. -/
theorem known?_after {history earlier later : List (Request α)} {r : Request α} {name : String}
    {answer : Option α} (split : history = earlier ++ r :: later)
    (left : ((after earlier).step r).known? name = some answer)
    (kept : ∀ r ∈ later, ¬ r.Registers name) : (after history).known? name = some answer := by
  rw [split, after, List.foldl_append, List.foldl_cons]
  exact known?_foldl_of_known kept left

/-- A lookup in a cache with any history. For a name that no request was about, the directories
are asked, the one added last first, up to the first hit. Otherwise no directory is asked: the
answer is that of an earlier lookup since which nothing was registered under the name, and what
was registered last under it. -/
theorem lookup_memoised (history : List (Request α)) (probe : (dir name : String) → Probe α)
    (name : String) :
    ((∀ r ∈ history, ¬ r.Concerns name) →
      FirstHit (probe · name) (directories history) ((after history).get probe name).answer
        ((after history).get probe name).asked) ∧
    (∀ (earlier later : List (Request α)) (before : (dir name : String) → Probe α),
      history = earlier ++ .get before name :: later → (∀ r ∈ later, ¬ r.Registers name) →
      ((after history).get probe name).answer = ((after earlier).get before name).answer ∧
        ((after history).get probe name).asked = []) ∧
    (∀ (earlier later : List (Request α)) (resource : α),
      history = earlier ++ .register name resource :: later → (∀ r ∈ later, ¬ r.Registers name) →
      ((after history).get probe name).answer = some resource ∧
        ((after history).get probe name).asked = []) := by
  refine ⟨fun others => ?_, fun earlier later before split kept => ?_,
    fun earlier later resource split kept => ?_⟩
  · have unknown : (after history).known? name = none := known?_foldl others {}
    exact searchPaths_after history ▸ firstHit_of_unknown unknown probe
  · have known := known?_after split (known?_get (after earlier) before name) kept
    exact ⟨answer_of_known known probe, asked_of_known known probe⟩
  · have registered : ((after earlier).step (.register name resource)).known? name =
        some (some resource) := (known?_register ..).trans (if_pos rfl)
    have known := known?_after split registered kept
    exact ⟨answer_of_known known probe, asked_of_known known probe⟩

namespace Aged

/-- What directories answer while these files are in them. Nothing in `locked` can be read. -/
def disk (files : List (String × String)) (dir name : String) : Probe String :=
  if dir = "locked" then .unreadable
  else match files.lookup (dir ++ "/" ++ name) with
    | some text => .hit text
    | none => .missing

/-- `nav` is looked up before the directory `theme` is added, and registered twice after that.
`toc` is looked up before there is any file for it. -/
def history : List (Request String) :=
  [.addSearchPath "base", .get (disk [("base/nav", "old")]) "nav", .addSearchPath "theme",
    .addSearchPath "locked", .get (disk []) "toc", .register "nav" "mine", .addSearchPath "late",
    .register "nav" "ours", .get (disk []) "nav"]

def now : List (String × String) :=
  [("base/foot", "v1"), ("theme/foot", "v2"), ("late/nav", "new"), ("late/toc", "new")]

end Aged

section

open Aged

theorem aged_cache_memoised :
    FirstHit (disk now · "foot") ["late", "locked", "theme", "base"] (some "v2")
      ["late", "locked", "theme"] ∧
    (((after history).get (disk now) "toc").answer = none ∧
      ((after history).get (disk now) "toc").asked = []) ∧
    ((after history).get (disk now) "nav").answer = some "ours" ∧
      ((after history).get (disk now) "nav").asked = [] := by
  have foot := (lookup_memoised history (disk now) "foot").1 (by simp [history, Request.Concerns])
  have toc := (lookup_memoised history (disk now) "toc").2.1 (history.take 4) (history.drop 5)
    (disk []) rfl (by simp [history, Request.Registers])
  have nav := (lookup_memoised history (disk now) "nav").2.2 (history.take 7) (history.drop 8)
    "ours" rfl (by simp [history, Request.Registers])
  exact ⟨foot, toc, nav⟩

end

end DocSite.Template.Cache
