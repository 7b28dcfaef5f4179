import DocSite.Template.Rendered

/-! What pushes do to rendered text: to all of its characters, and to the texts that the next
pass reads again. -/
namespace DocSite.Template.Rendered

theorem flatten_newestFirst (newestFirst : List Segment) :
    flatten ⟨newestFirst⟩ = newestFirst.foldr (fun s acc => acc ++ s.content) "" := by
  rw [flatten, segments, List.foldl_reverse]

theorem append_newestFirst (r : Rendered) (newestFirst : List Segment) :
    r ++ ⟨newestFirst⟩ = newestFirst.foldr (fun s r => r.push s.kind s.content) r := by
  change append r ⟨newestFirst⟩ = _
  rw [append, segments, List.foldl_reverse]

/-- Appended segments are pushed from the oldest to the newest. -/
theorem append_cons (r : Rendered) (newest : Segment) (older : List Segment) :
    r ++ (⟨newest :: older⟩ : Rendered) = (r ++ ⟨older⟩).push newest.kind newest.content := by
  rw [append_newestFirst, List.foldr_cons, ← append_newestFirst]

/-- The newest segment is of a kind, or there is none of that kind to join. -/
theorem newest_cases (kind : SegmentKind) (r : Rendered) :
    (∃ last older, r = ⟨⟨kind, last⟩ :: older⟩) ∨
    ∀ s ∈ r.newestFirst.head?, s.kind ≠ kind := by
  obtain ⟨newestFirst⟩ := r
  cases newestFirst with
  | nil => exact .inr nofun
  | cons last older =>
    by_cases same : last.kind = kind
    · exact .inl ⟨last.content, older, by rw [← same]⟩
    · exact .inr fun s newest => Option.some.inj newest ▸ same

theorem push_same (kind : SegmentKind) (last content : String) (older : List Segment) :
    push kind content ⟨⟨kind, last⟩ :: older⟩ = ⟨⟨kind, last ++ content⟩ :: older⟩ := by
  by_cases none : content.isEmpty
  · rw [String.isEmpty_iff.mp none, String.append_empty]
    rfl
  · simp only [push, if_neg none, if_pos]

theorem push_apart {kind : SegmentKind} {content : String} {r : Rendered} (filled : content ≠ "")
    (apart : ∀ s ∈ r.newestFirst.head?, s.kind ≠ kind) :
    r.push kind content = ⟨⟨kind, content⟩ :: r.newestFirst⟩ := by
  have some : ¬ content.isEmpty := fun none => filled (String.isEmpty_iff.mp none)
  obtain ⟨newestFirst⟩ := r
  cases newestFirst with
  | nil => simp only [push, if_neg some]
  | cons last older => simp only [push, if_neg some, if_neg (apart last rfl)]

/-- A push joins the newest segment, or begins a new one, or has nothing to add. -/
theorem push_cases (kind : SegmentKind) (content : String) (r : Rendered) :
    (content = "" ∧ r.push kind content = r) ∨
    (∃ last older, r = ⟨⟨kind, last⟩ :: older⟩ ∧
      r.push kind content = ⟨⟨kind, last ++ content⟩ :: older⟩) ∨
    r.push kind content = ⟨⟨kind, content⟩ :: r.newestFirst⟩ := by
  by_cases filled : content = ""
  · subst filled
    exact .inl ⟨rfl, rfl⟩
  · rcases newest_cases kind r with ⟨last, older, rfl⟩ | apart
    · exact .inr (.inl ⟨last, older, rfl, push_same ..⟩)
    · exact .inr (.inr (push_apart filled apart))

/-- Pushes of one kind come to one push. -/
theorem push_push (kind : SegmentKind) (a b : String) (r : Rendered) :
    (r.push kind a).push kind b = r.push kind (a ++ b) := by
  by_cases filled : a = ""
  · subst filled
    rw [String.empty_append]
    rfl
  · rcases newest_cases kind r with ⟨last, older, rfl⟩ | apart
    · rw [push_same, push_same, push_same, String.append_assoc]
    · have whole : a ++ b ≠ "" := fun none => filled (String.append_eq_empty_iff.mp none).1
      rw [push_apart filled apart, push_apart whole apart, push_same]

theorem append_push (r other : Rendered) (kind : SegmentKind) (content : String) :
    r ++ other.push kind content = (r ++ other).push kind content := by
  rcases push_cases kind content other with ⟨rfl, same⟩ | ⟨last, older, rfl, joined⟩ | added
  · rw [same]
    rfl
  · rw [joined, append_cons, append_cons, push_push]
  · rw [added, append_cons]

theorem append_ofText (r : Rendered) (content : String) : r ++ ofText content = r.pushText content :=
  append_push r {} .text content

theorem append_assoc (a b c : Rendered) : a ++ (b ++ c) = (a ++ b) ++ c := by
  obtain ⟨newestFirst⟩ := c
  induction newestFirst with
  | nil => rfl
  | cons newest older ih => rw [append_cons, append_push, ih, append_cons]

/-- As pushes make it: its segments, pushed from nothing, come to itself again. -/
def Built (r : Rendered) : Prop := {} ++ r = r

namespace Built

theorem empty : Built {} := rfl

theorem push {r : Rendered} (built : r.Built) (kind : SegmentKind) (content : String) :
    (r.push kind content).Built := by
  rw [Built, append_push, built]

theorem append {r : Rendered} (built : r.Built) (other : Rendered) : (r ++ other).Built := by
  rw [Built, append_assoc, built]

theorem ofText (content : String) : (ofText content).Built := empty.push .text content

end Built

@[simp] theorem flatten_empty : flatten {} = "" := (rfl)

@[simp] theorem flatten_push (kind : SegmentKind) (content : String) (r : Rendered) :
    (r.push kind content).flatten = r.flatten ++ content := by
  rcases push_cases kind content r with ⟨rfl, same⟩ | ⟨last, older, rfl, joined⟩ | added
  · rw [same, String.append_empty]
  · rw [joined, flatten_newestFirst, flatten_newestFirst, List.foldr_cons, List.foldr_cons,
      String.append_assoc]
  · rw [added, flatten_newestFirst, List.foldr_cons, ← flatten_newestFirst]

@[simp] theorem flatten_pushText (r : Rendered) (content : String) :
    (r.pushText content).flatten = r.flatten ++ content := flatten_push ..

@[simp] theorem flatten_pushVerbatim (r : Rendered) (content : String) :
    (r.pushVerbatim content).flatten = r.flatten ++ content := flatten_push ..

@[simp] theorem flatten_ofText (content : String) : (ofText content).flatten = content := by
  rw [ofText, flatten_pushText]
  exact String.empty_append

theorem segments_ofText (content : String) : (ofText content).segments =
    if content.isEmpty then [] else [⟨.text, content⟩] := by
  change (if content.isEmpty then ({} : Rendered) else ⟨[⟨.text, content⟩]⟩).newestFirst.reverse = _
  split <;> rfl

@[simp] theorem flatten_append (r other : Rendered) :
    (r ++ other).flatten = r.flatten ++ other.flatten := by
  obtain ⟨newestFirst⟩ := other
  rw [append_newestFirst, flatten_newestFirst newestFirst]
  induction newestFirst with
  | nil => exact String.append_empty.symm
  | cons s older ih => rw [List.foldr_cons, flatten_push, ih, List.foldr_cons, String.append_assoc]

/-- Every segment is of the form that its kind asks for. -/
def All (form : SegmentKind → List Char → Prop) (r : Rendered) : Prop :=
  ∀ s ∈ r.newestFirst, form s.kind s.content.toList

namespace All

variable {form : SegmentKind → List Char → Prop} {r other : Rendered}

theorem empty : All form {} := by
  intro s member
  cases member

/-- A segment that grows must stay of its form. -/
theorem push (joins : ∀ kind a b, form kind a → form kind b → form kind (a ++ b))
    (before : r.All form) {kind : SegmentKind} {content : String}
    (formed : form kind content.toList) : (r.push kind content).All form := by
  rcases push_cases kind content r with ⟨-, same⟩ | ⟨last, older, rfl, joined⟩ | added
  · rw [same]
    exact before
  · rw [joined]
    intro s member
    rcases List.mem_cons.mp member with rfl | member
    · rw [String.toList_append]
      exact joins _ _ _ (before ⟨kind, last⟩ (List.mem_cons_self ..)) formed
    · exact before s (List.mem_cons_of_mem _ member)
  · rw [added]
    intro s member
    rcases List.mem_cons.mp member with rfl | member
    · exact formed
    · exact before s member

theorem append (joins : ∀ kind a b, form kind a → form kind b → form kind (a ++ b))
    (before : r.All form) (after : other.All form) : (r ++ other).All form := by
  obtain ⟨newestFirst⟩ := other
  rw [append_newestFirst]
  induction newestFirst with
  | nil => exact before
  | cons s older ih =>
    have formed := after s (List.mem_cons_self ..)
    exact (ih fun t member => after t (List.mem_cons_of_mem _ member)).push joins formed

end All

/-- What the next pass reads again is of this form, segment by segment. -/
def Reread (form : List Char → Prop) : Rendered → Prop :=
  All fun kind chars => kind = .text → form chars

namespace Reread

variable {form : List Char → Prop} {r other : Rendered}

theorem joins (form : List Char → Prop) (joins : ∀ a b, form a → form b → form (a ++ b))
    (kind : SegmentKind) (a b : List Char) (first : kind = .text → form a)
    (second : kind = .text → form b) : kind = .text → form (a ++ b) :=
  fun text => joins a b (first text) (second text)

theorem empty : Reread form {} := All.empty

theorem pushText (joined : ∀ a b, form a → form b → form (a ++ b)) (before : r.Reread form)
    {content : String} (formed : form content.toList) : (r.pushText content).Reread form :=
  All.push (joins form joined) before fun _ => formed

theorem pushVerbatim (joined : ∀ a b, form a → form b → form (a ++ b)) (before : r.Reread form)
    (content : String) : (r.pushVerbatim content).Reread form :=
  All.push (joins form joined) before fun text => by cases text

theorem append (joined : ∀ a b, form a → form b → form (a ++ b)) (before : r.Reread form)
    (after : other.Reread form) : (r ++ other).Reread form :=
  All.append (joins form joined) before after

end Reread

end DocSite.Template.Rendered
