import Mathlib.Data.List.Induction
import Mathlib.Data.List.TakeWhile
import DocSite.Markdown.Link
import DocSite.Proofs.PlainPath

/-! Relative references. A reference is read from a directory, which is the list of names that lead
to it from the root. Dots in it stand for that directory and the one above, and none goes above the
root. What follows the path of a reference does not matter for where it leads. -/
namespace DocSite

namespace Files.Path

/-- The directory above. -/
def above? (dir : List (List Char)) : Option (List (List Char)) :=
  if dir = [] then none else some dir.dropLast

def step? (dir : List (List Char)) (segment : List Char) : Option (List (List Char)) :=
  if segment = ['.'] then some dir
  else if segment = ['.', '.'] then above? dir
  else some (dir ++ [segment])

/-- The step to the end of a path. A path to a directory ends in an empty name. -/
def arrive? (dir : List (List Char)) (segment : List Char) : Option (List (List Char)) :=
  if segment = ['.'] ∨ segment = ['.', '.'] then (step? dir segment).map (· ++ [[]])
  else some (dir ++ [segment])

/-- Where the segments of a path lead from a directory. -/
def resolve? (dir : List (List Char)) : List (List Char) → Option (List (List Char))
  | [] => none
  | [last] => arrive? dir last
  | segment :: next :: rest => (step? dir segment).bind (resolve? · (next :: rest))

variable {dir path : List (List Char)} {segment : List Char}

theorem resolve?_cons (filled : path ≠ []) :
    resolve? dir (segment :: path) = (step? dir segment).bind (resolve? · path) := by
  cases path with
  | nil => exact absurd rfl filled
  | cons next rest => rfl

theorem resolve?_plain (filled : path ≠ []) (plain : ∀ segment ∈ path, Plain segment) :
    resolve? dir path = some (dir ++ path) := by
  induction path generalizing dir with
  | nil => exact absurd rfl filled
  | cons segment rest ih =>
    obtain ⟨⟨-, dot, dots⟩, plain⟩ := List.forall_mem_cons.mp plain
    cases rest with
    | nil => simp [resolve?, arrive?, dot, dots]
    | cons next rest =>
      simp [resolve?, step?, dot, dots, ih (List.cons_ne_nil next rest) plain]

/-! The way up -/

theorem segments_up (path : String) : segments ("../" ++ path) = ['.', '.'] :: segments path :=
  segments_sep ".." path

/-- A prefix that turns paths from `here` into paths from `there`. -/
def Bridges (here : List (List Char)) (front : String) (there : List (List Char)) : Prop :=
  ∀ path, resolve? here (segments (front ++ path)) = resolve? there (segments path)

namespace Bridges

variable {here there further : List (List Char)} {front next : String}

theorem empty (here : List (List Char)) : Bridges here "" here := by
  intro path
  rw [String.empty_append]

theorem append (first : Bridges here front there) (second : Bridges there next further) :
    Bridges here (front ++ next) further := by
  intro path
  rw [String.append_assoc, first, second]

theorem up (dir : List (List Char)) (name : List Char) : Bridges (dir ++ [name]) "../" dir := by
  intro path
  rw [segments_up, resolve?_cons (segments_ne_nil path)]
  simp [step?, above?]

theorem unique (first : Bridges here front there) (second : Bridges here front further) :
    there = further := by
  have both := (first "x").symm.trans (second "x")
  have plain : ∀ segment ∈ segments "x", Plain segment := by decide
  rw [resolve?_plain (segments_ne_nil "x") plain, resolve?_plain (segments_ne_nil "x") plain] at both
  exact List.append_cancel_right (Option.some.inj both)

theorem climb (dir names : List (List Char)) :
    Bridges (dir ++ names) (String.join (List.replicate names.length "../")) dir := by
  induction names using List.reverseRecOn with
  | nil =>
    rw [List.append_nil]
    exact empty dir
  | append_singleton names name ih =>
    rw [List.length_append, List.length_singleton, List.replicate_succ, String.join_cons,
      ← List.append_assoc]
    exact (up _ name).append ih

end Bridges

end Files.Path

namespace Markdown.Link

/-- The path of a target. -/
def pathOf (target : List Char) : List Char := target.takeWhile (!endsPath ·)

/-- The query and the fragment of a target. -/
def tailOf (target : List Char) : List Char := target.drop (pathOf target).length

/-- Whether a reader of the output takes what stands in front of a colon for a scheme. -/
def opensScheme (target : List Char) : Bool := target.head?.any Char.isAlpha && hasScheme target

/-- Where a reader of the output is led from a directory, and what goes on from there. A target
with a scheme or from the root does not depend on the directory. -/
def destination? (dir : List (List Char)) (target : List Char) :
    Option (List (List Char) × List Char) :=
  if opensScheme target || pathOf target = [] || target.head? == some '/' then none
  else (Files.Path.resolve? dir (Files.Path.splitOnChar '/' (pathOf target))).map (·, tailOf target)

theorem destination?_eq_some {dir place : List (List Char)} {target tail : List Char} :
    destination? dir target = some (place, tail) ↔ opensScheme target = false ∧
      pathOf target ≠ [] ∧ target.head? ≠ some '/' ∧
      Files.Path.resolve? dir (Files.Path.splitOnChar '/' (pathOf target)) = some place ∧
      tailOf target = tail := by
  rw [destination?]
  split
  · rename_i apart
    simp only [Bool.or_eq_true, decide_eq_true_eq, beq_iff_eq] at apart
    rcases apart with (opens | empty) | rooted
    · simp [opens]
    · simp [empty]
    · simp [rooted]
  · rename_i relative
    simp only [Bool.or_eq_true, decide_eq_true_eq, beq_iff_eq, not_or, Bool.not_eq_true] at relative
    simp [relative]

theorem pathOf_append_tailOf (target : List Char) : pathOf target ++ tailOf target = target :=
  List.prefix_iff_eq_append.mp (List.takeWhile_prefix _)

theorem pathOf_append {path : List Char} (whole : ∀ c ∈ path, endsPath c = false)
    (target : List Char) :
    pathOf (path ++ tailOf target) = path ∧ tailOf (path ++ tailOf target) = tailOf target := by
  have cut {front : List Char} (whole : ∀ c ∈ front, endsPath c = false) (behind : List Char) :
      pathOf (front ++ behind) = front ++ pathOf behind :=
    List.takeWhile_append_of_pos fun c member => by rw [whole c member, Bool.not_false]
  have within : ∀ c ∈ pathOf target, endsPath c = false := by
    intro c member
    simpa using List.mem_takeWhile_imp member
  have none : pathOf (tailOf target) = [] := by
    have again := cut within (tailOf target)
    rw [pathOf_append_tailOf] at again
    exact List.self_eq_append_right.mp again
  have path : pathOf (path ++ tailOf target) = path := by rw [cut whole, none, List.append_nil]
  refine ⟨path, ?_⟩
  rw [tailOf, path, List.drop_left]

/-- Text that begins with a name is a reference without an end if all of it is path. -/
theorem destination?_whole {url : String} {dir place : List (List Char)}
    (filled : ∀ segment ∈ Files.Path.segments url, segment ≠ []) :
    destination? dir url.toList = some (place, []) ↔
      Files.Path.resolve? dir (Files.Path.segments url) = some place ∧
        pathOf url.toList = url.toList ∧ opensScheme url.toList = false := by
  have relative := Files.Path.relative_of_filled filled
  have some_path : url.toList ≠ [] := by
    intro none
    rw [Files.Path.segments, none] at filled
    exact filled [] (List.mem_singleton_self _) rfl
  rw [destination?_eq_some]
  constructor
  · rintro ⟨plain, -, -, leads, tail⟩
    have whole := pathOf_append_tailOf url.toList
    rw [tail, List.append_nil] at whole
    rw [whole] at leads
    exact ⟨leads, whole, plain⟩
  · rintro ⟨leads, whole, plain⟩
    refine ⟨plain, ?_, ?_, ?_, ?_⟩
    · rwa [whole]
    · intro rooted
      rw [Files.Path.isAbsolute, rooted] at relative
      cases relative
    · rwa [whole]
    · rw [tailOf, whole, List.drop_length]

/-- What is taken for a scheme stands in the first name of the path. -/
theorem colon_of_opensScheme {target : List Char} (opens : opensScheme target = true) :
    ':' ∈ (pathOf target).takeWhile (· ≠ '/') := by
  simp only [opensScheme, hasScheme, Bool.and_eq_true, List.contains_iff_mem] at opens
  obtain ⟨-, ⟨colon, -⟩, scheme⟩ := opens
  obtain ⟨front, behind, rfl, free⟩ := List.eq_append_cons_of_mem colon
  have first : (front ++ ':' :: behind).takeWhile (· ≠ ':') = front := by
    rw [List.takeWhile_append_of_pos]
    · simp
    · intro c member
      apply decide_eq_true
      rintro rfl
      exact free member
  rw [first] at scheme
  have inside : ∀ c ∈ front, (c ≠ '/' ∧ endsPath c = false) := by
    intro c member
    have one := List.all_eq_true.mp scheme c member
    constructor
    · rintro rfl
      revert one
      decide
    · apply Bool.eq_false_iff.mpr
      intro ends
      simp only [endsPath, Bool.or_eq_true, beq_iff_eq] at ends
      rcases ends with rfl | rfl <;> revert one <;> decide
  rw [pathOf, List.takeWhile_takeWhile, List.takeWhile_append_of_pos]
  · exact List.mem_append_right _ (by simp [endsPath])
  · intro c member
    simpa using inside c member

end Markdown.Link

end DocSite
