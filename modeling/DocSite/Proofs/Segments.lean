import DocSite.Proofs.Rendered
import Mathlib.Data.List.Chain

/-! The segments of rendered text, by whatever pushes and appends it was made. They come to the
same as a push of every character by itself, so the characters and their kinds decide them. -/
namespace DocSite.Template.Rendered

theorem kinded_cons (newest : Segment) (older : List Segment) :
    kinded ⟨newest :: older⟩ = kinded ⟨older⟩ ++ newest.content.toList.map (newest.kind, ·) := by
  simp only [kinded, segments, List.reverse_cons, List.flatMap_append, List.flatMap_singleton]

@[simp] theorem kinded_push (kind : SegmentKind) (content : String) (r : Rendered) :
    (r.push kind content).kinded = r.kinded ++ content.toList.map (kind, ·) := by
  rcases push_cases kind content r with ⟨rfl, same⟩ | ⟨last, older, rfl, joined⟩ | added
  · rw [same, String.toList_empty, List.map_nil, List.append_nil]
  · rw [joined, kinded_cons, kinded_cons, String.toList_append, List.map_append, List.append_assoc]
  · rw [added, kinded_cons]

/-- Pushes characters one by one, each with its kind. -/
def pushEach (chars : List (SegmentKind × Char)) (r : Rendered) : Rendered :=
  chars.foldl (fun r c => r.push c.1 (String.singleton c.2)) r

theorem pushEach_append (a b : List (SegmentKind × Char)) (r : Rendered) :
    r.pushEach (a ++ b) = (r.pushEach a).pushEach b := List.foldl_append

theorem push_ofList (kind : SegmentKind) (chars : List Char) (r : Rendered) :
    r.push kind (String.ofList chars) = r.pushEach (chars.map (kind, ·)) := by
  induction chars generalizing r with
  | nil => rfl
  | cons c rest ih =>
    rw [String.ofList_cons, ← push_push, ih]
    rfl

theorem push_eq_pushEach (kind : SegmentKind) (content : String) (r : Rendered) :
    r.push kind content = r.pushEach (content.toList.map (kind, ·)) := by
  rw [← push_ofList, String.ofList_toList]

/-- Of appended text only the characters and their kinds matter. -/
theorem append_eq_pushEach (r other : Rendered) : r ++ other = r.pushEach other.kinded := by
  obtain ⟨newestFirst⟩ := other
  induction newestFirst with
  | nil => rfl
  | cons newest older ih =>
    rw [append_cons, ih, push_eq_pushEach, kinded_cons, pushEach_append]

@[simp] theorem kinded_append (r other : Rendered) :
    (r ++ other).kinded = r.kinded ++ other.kinded := by
  obtain ⟨newestFirst⟩ := other
  induction newestFirst with
  | nil => exact (List.append_nil _).symm
  | cons newest older ih =>
    rw [append_cons, kinded_push, ih, kinded_cons, List.append_assoc]

/-- Texts that pushes make are the same when their characters and the kinds of these are. -/
theorem Built.eq_of_kinded {r other : Rendered} (built : r.Built) (built' : other.Built)
    (same : r.kinded = other.kinded) : r = other :=
  calc
    r = {} ++ r := built.symm
    _ = pushEach r.kinded {} := append_eq_pushEach ..
    _ = pushEach other.kinded {} := by rw [same]
    _ = {} ++ other := (append_eq_pushEach ..).symm
    _ = other := built'

/-- No segment is empty, and none is of the kind of the one before it. -/
structure Merged (r : Rendered) : Prop where
  filled : ∀ s ∈ r.segments, s.content ≠ ""
  alternating : r.segments.IsChain fun s next => s.kind ≠ next.kind

theorem merged_newestFirst {newestFirst : List Segment} : Merged ⟨newestFirst⟩ ↔
    (∀ s ∈ newestFirst, s.content ≠ "") ∧
      newestFirst.IsChain fun s before => before.kind ≠ s.kind := by
  rw [← List.isChain_reverse]
  constructor
  · intro merged
    exact ⟨fun s member => merged.filled s (List.mem_reverse.mpr member), merged.alternating⟩
  · rintro ⟨filled, alternating⟩
    exact ⟨fun s member => filled s (List.mem_reverse.mp member), alternating⟩

theorem merged_cons {newest : Segment} {older : List Segment} : Merged ⟨newest :: older⟩ ↔
    newest.content ≠ "" ∧ (∀ s ∈ older.head?, s.kind ≠ newest.kind) ∧ Merged ⟨older⟩ := by
  rw [merged_newestFirst, merged_newestFirst, List.forall_mem_cons, List.isChain_cons]
  constructor
  · rintro ⟨⟨first, filled⟩, apart, alternating⟩
    exact ⟨first, apart, filled, alternating⟩
  · rintro ⟨first, apart, filled, alternating⟩
    exact ⟨⟨first, filled⟩, apart, alternating⟩

namespace Merged

theorem empty : Merged {} := ⟨nofun, .nil⟩

theorem push {r : Rendered} (merged : r.Merged) (kind : SegmentKind) (content : String) :
    (r.push kind content).Merged := by
  rcases eq_or_ne content "" with rfl | filled
  · exact merged
  rcases newest_cases kind r with ⟨last, older, rfl⟩ | apart
  · obtain ⟨-, apart, merged⟩ := merged_cons.mp merged
    have grown : last ++ content ≠ "" := fun none => filled (String.append_eq_empty_iff.mp none).2
    rw [push_same]
    exact merged_cons.mpr ⟨grown, apart, merged⟩
  · rw [push_apart filled apart]
    exact merged_cons.mpr ⟨filled, apart, merged⟩

theorem append {r : Rendered} (merged : r.Merged) (other : Rendered) : (r ++ other).Merged := by
  obtain ⟨newestFirst⟩ := other
  induction newestFirst with
  | nil => exact merged
  | cons newest older ih =>
    rw [append_cons]
    exact ih.push newest.kind newest.content

end Merged

/-- Text is as pushes make it just when its segments are merged. -/
theorem built_iff_merged {r : Rendered} : r.Built ↔ r.Merged := by
  constructor
  · intro built
    rw [← built]
    exact Merged.empty.append r
  · intro merged
    obtain ⟨newestFirst⟩ := r
    induction newestFirst with
    | nil => rfl
    | cons newest older ih =>
      -- the newest segment meets one of the other kind, so its push begins it anew
      obtain ⟨filled, apart, merged⟩ := merged_cons.mp merged
      have before : {} ++ (⟨older⟩ : Rendered) = ⟨older⟩ := ih merged
      rw [Built, append_cons, before, push_apart filled apart]

/-- Merged segments are decided by their characters and the kinds of these. -/
theorem Merged.eq_of_kinded {r other : Rendered} (merged : r.Merged) (merged' : other.Merged)
    (same : r.kinded = other.kinded) : r = other :=
  (built_iff_merged.mpr merged).eq_of_kinded (built_iff_merged.mpr merged') same

/-- How rendered text is made from nothing. What is appended has a history of its own. -/
inductive History where
  | empty
  | push (before : History) (kind : SegmentKind) (content : String)
  | append (before other : History)

namespace History

def result : History → Rendered
  | empty => {}
  | push before kind content => before.result.push kind content
  | append before other => before.result ++ other.result

/-- Every push in order, with those of appended text in the place of the append. -/
def pushes : History → List Segment
  | empty => []
  | push before kind content => before.pushes ++ [⟨kind, content⟩]
  | append before other => before.pushes ++ other.pushes

/-- Every pushed character in order, with the kind that it is pushed with. -/
def characters (h : History) : List (SegmentKind × Char) :=
  h.pushes.flatMap fun s => s.content.toList.map (s.kind, ·)

theorem result_merged (h : History) : h.result.Merged := by
  induction h with
  | empty => exact Merged.empty
  | push before kind content ih => exact ih.push kind content
  | append before other ih => exact ih.append other.result

theorem flatten_result (h : History) :
    h.result.flatten = String.join (h.pushes.map (·.content)) := by
  induction h with
  | empty => rfl
  | push before kind content ih =>
    rw [result, flatten_push, ih, pushes, List.map_append, String.join_append, List.map_singleton,
      String.join_cons, String.join_nil, String.append_empty]
  | append before other ih ih' =>
    rw [result, flatten_append, ih, ih', pushes, List.map_append, String.join_append]

theorem kinded_result (h : History) : h.result.kinded = h.characters := by
  induction h with
  | empty => rfl
  | push before kind content ih =>
    rw [result, kinded_push, ih, characters, characters, pushes, List.flatMap_append,
      List.flatMap_singleton]
  | append before other ih ih' =>
    rw [result, kinded_append, ih, ih', characters, characters, characters, pushes,
      List.flatMap_append]

/-- Whatever pushes and appends make a text, its segments are merged, all of it is what was pushed,
in order, and every character has the kind it was pushed with. Two histories come to the same
segments just when they push the same characters with the same kinds, however they divide them. -/
theorem segments_determined (h : History) :
    h.result.Merged ∧
    h.result.flatten = String.join (h.pushes.map (·.content)) ∧
    h.result.kinded = h.characters ∧
    ∀ other : History,
      other.result.segments = h.result.segments ↔ other.characters = h.characters := by
  refine ⟨h.result_merged, h.flatten_result, h.kinded_result, fun other => ?_⟩
  rw [← other.kinded_result, ← h.kinded_result]
  constructor
  · intro same
    rw [kinded, kinded, same]
  · intro same
    rw [other.result_merged.eq_of_kinded h.result_merged same]

/-- A tag that comes in parts is whole again, also across an append and an empty push. -/
example : (append (push empty .text "[[")
      (push (push (push empty .verbatim "") .text "+x") .text "]]")).result.segments =
    [⟨.text, "[[+x]]"⟩] := by
  decide +kernel

end History
end DocSite.Template.Rendered
