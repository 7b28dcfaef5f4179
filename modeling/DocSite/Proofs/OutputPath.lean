import Mathlib.Data.List.TakeWhile
import DocSite.Naming
import DocSite.Proofs.Lowercase
import DocSite.Proofs.PlainPath

/-! Output paths name by name. Every name of a source path loses its order prefix and becomes
lowercase, and the last name of a page gets another ending. None of this makes or takes away
slashes and dots, but what an order prefix leaves of a name can be nothing, or dots alone. -/
namespace DocSite.Naming

open Files.Path

theorem plain_lower {segment : List Char} : Plain (Text.lower segment) ↔ Plain segment := by
  simp only [plain_iff, ne_eq, Text.lower_eq_dots]

theorem splitPrefix?_unmarked {name : List Char} (unmarked : '_' ∉ name) :
    splitPrefix? name = none := by
  have whole : name.takeWhile (· ≠ '_') = name :=
    List.takeWhile_eq_self_iff.mpr fun c member =>
      decide_eq_true fun same => unmarked (same ▸ member)
  simp only [splitPrefix?, whole, List.drop_length]

theorem splitPrefix?_marked {digits : List Char} (unmarked : '_' ∉ digits) (rest : List Char) :
    splitPrefix? (digits ++ '_' :: rest) =
      if digits.isEmpty || !digits.all isAsciiDigit || numberBound ≤ numberOf digits then none
      else some (numberOf digits, rest) := by
  have front : (digits ++ '_' :: rest).takeWhile (· ≠ '_') = digits := by
    rw [List.takeWhile_append_of_pos]
    · simp
    · exact fun c member => decide_eq_true fun same => unmarked (same ▸ member)
  simp only [splitPrefix?, front, List.drop_left]

theorem splitPrefix?_append {ending : List Char} (unmarked : '_' ∉ ending) (name : List Char) :
    splitPrefix? (name ++ ending) = (splitPrefix? name).map fun p => (p.1, p.2 ++ ending) := by
  by_cases marked : '_' ∈ name
  · obtain ⟨digits, rest, rfl, free⟩ := List.eq_append_cons_of_mem marked
    rw [List.append_assoc, List.cons_append, splitPrefix?_marked free, splitPrefix?_marked free]
    split <;> rfl
  · have none : '_' ∉ name ++ ending := fun member =>
      (List.mem_append.mp member).elim marked unmarked
    rw [splitPrefix?_unmarked none, splitPrefix?_unmarked marked, Option.map_none]

theorem stripSegment_append {ending : List Char} (unmarked : '_' ∉ ending) (name : List Char) :
    stripSegment (name ++ ending) = stripSegment name ++ ending := by
  unfold stripSegment
  rw [splitPrefix?_append unmarked]
  cases splitPrefix? name <;> rfl

theorem stripSegment_suffix (segment : List Char) : stripSegment segment <:+ segment := by
  unfold stripSegment
  by_cases marked : '_' ∈ segment
  · obtain ⟨digits, rest, rfl, free⟩ := List.eq_append_cons_of_mem marked
    rw [splitPrefix?_marked free]
    split
    · rename_i found
      split at found
      · cases found
      · cases found
        exact ⟨digits ++ ['_'], by simp⟩
    · exact List.suffix_rfl
  · simp only [splitPrefix?_unmarked marked, List.suffix_refl]

theorem beforeSuffix?_append (stem suffix : List Char) :
    beforeSuffix? suffix (stem ++ suffix) = some stem := by
  have ends : suffix.reverse.isPrefixOf (stem ++ suffix).reverse = true := by
    rw [List.isPrefixOf_iff_prefix, List.reverse_prefix]
    exact List.suffix_append ..
  rw [beforeSuffix?, if_pos ends, List.length_append, Nat.add_sub_cancel, List.take_left]

theorem beforeSuffix?_eq_none {suffix cs : List Char} (other : ¬ suffix <:+ cs) :
    beforeSuffix? suffix cs = none := by
  rw [beforeSuffix?, if_neg]
  rwa [List.isPrefixOf_iff_prefix, List.reverse_prefix]

theorem htmlForMarkdown_append (stem : List Char) :
    htmlForMarkdown (stem ++ markdownSuffix) = stem ++ htmlSuffix := by
  rw [htmlForMarkdown, beforeSuffix?_append]

theorem htmlForMarkdown_other {path : List Char} (other : ¬ markdownSuffix <:+ path) :
    htmlForMarkdown path = path := by
  rw [htmlForMarkdown, beforeSuffix?_eq_none other]

theorem htmlForMarkdown_ne_nil {name : List Char} (filled : htmlForMarkdown name ≠ []) :
    name ≠ [] := by
  rintro rfl
  exact filled rfl

/-- Only the last name of a path gets another ending. -/
theorem htmlForMarkdown_intercalate (front : List (List Char)) (last : List Char) :
    htmlForMarkdown (['/'].intercalate (front ++ [last])) =
      ['/'].intercalate (front ++ [htmlForMarkdown last]) := by
  by_cases page : markdownSuffix <:+ last
  · obtain ⟨stem, rfl⟩ := page
    rw [htmlForMarkdown_append]
    rw [intercalate_last, intercalate_last, htmlForMarkdown_append]
  · have other : ¬ markdownSuffix <:+ ['/'].intercalate (front ++ [last]) :=
      fun ends => page (suffix_of_intercalate (by decide) ends)
    rw [htmlForMarkdown_other other, htmlForMarkdown_other page]

theorem htmlForMarkdown_subset (name : List Char) :
    ∀ c ∈ htmlForMarkdown name, c ∈ name ∨ c ∈ htmlSuffix := by
  by_cases page : markdownSuffix <:+ name
  · obtain ⟨stem, rfl⟩ := page
    rw [htmlForMarkdown_append]
    intro c member
    exact (List.mem_append.mp member).imp_left (List.mem_append_left _)
  · rw [htmlForMarkdown_other page]
    exact fun c => .inl

theorem plain_html (stem : List Char) : Plain (stem ++ htmlSuffix) := by
  have long : 5 ≤ (stem ++ htmlSuffix).length := by simp [htmlSuffix]
  refine ⟨?_, ?_, ?_⟩ <;> intro same <;> rw [same] at long <;> exact absurd long (by decide)

theorem plain_htmlForMarkdown {name : List Char} (plain : Plain name) :
    Plain (htmlForMarkdown name) := by
  by_cases page : markdownSuffix <:+ name
  · obtain ⟨stem, rfl⟩ := page
    rw [htmlForMarkdown_append]
    exact plain_html stem
  · rwa [htmlForMarkdown_other page]

theorem segments_lower {parts : List (List Char)} (apart : ∀ part ∈ parts, '/' ∉ part)
    (filled : parts ≠ []) :
    segments (String.ofList (Text.lower (['/'].intercalate parts))) = parts.map Text.lower := by
  rw [Text.lower_intercalate, segments_ofList]
  · intro part member
    obtain ⟨name, named, rfl⟩ := List.mem_map.mp member
    exact fun slash => apart name named ((Text.mark_mem_lower (by decide) name).mp slash)
  · exact fun none => filled (List.map_eq_nil_iff.mp none)

theorem slash_not_mem_stripSegment {source : String} {segment : List Char}
    (member : segment ∈ segments source) : '/' ∉ stripSegment segment :=
  fun slash => sep_not_mem member ((stripSegment_suffix segment).subset slash)

theorem segments_assetOutputPath (source : String) :
    segments (assetOutputPath source) =
      (segments source).map fun s => Text.lower (stripSegment s) := by
  rw [assetOutputPath, stripOrderPrefixes]
  refine (segments_lower ?_ ?_).trans (List.map_map ..)
  · intro part member
    obtain ⟨segment, named, rfl⟩ := List.mem_map.mp member
    exact slash_not_mem_stripSegment named
  · exact fun none => splitOnChar_ne_nil _ _ (List.map_eq_nil_iff.mp none)

theorem segments_pageOutputPath (source : String) :
    ∃ front last, segments source = front ++ [last] ∧ segments (pageOutputPath source) =
      (front.map stripSegment ++ [htmlForMarkdown (stripSegment last)]).map Text.lower := by
  obtain ⟨front, last, parted⟩ := Files.Path.segments_last source
  refine ⟨front, last, parted, ?_⟩
  have free {segment : List Char} (member : segment ∈ front ++ [last]) :
      '/' ∉ stripSegment segment := slash_not_mem_stripSegment (parted ▸ member)
  rw [segments] at parted
  rw [pageOutputPath, stripOrderPrefixes, parted, List.map_append, List.map_singleton,
    htmlForMarkdown_intercalate]
  refine segments_lower (fun part member => ?_) (by simp)
  rcases List.mem_append.mp member with member | member
  · obtain ⟨segment, named, rfl⟩ := List.mem_map.mp member
    exact free (List.mem_append_left _ named)
  · rw [List.mem_singleton.mp member]
    intro slash
    rcases htmlForMarkdown_subset _ '/' slash with slash | slash
    · exact free (List.mem_append_right front (List.mem_singleton_self _)) slash
    · exact absurd slash (by decide)

/-- The last name of a page ends in `.html`, whatever it was, so only the directories on the way
to it can lose their names. -/
theorem plainPath_pageOutputPath {source : String} (page : markdownSuffix <:+ source.toList) :
    PlainPath (pageOutputPath source) ↔
      ∀ segment ∈ (segments source).dropLast, Plain (stripSegment segment) := by
  obtain ⟨front, last, parted, out⟩ := segments_pageOutputPath source
  rw [← intercalate_splitOnChar '/' source.toList, ← segments, parted] at page
  obtain ⟨stem, rfl⟩ := suffix_of_intercalate (by decide) page
  rw [stripSegment_append (by decide), htmlForMarkdown_append] at out
  rw [PlainPath, out, parted, List.dropLast_concat, List.map_append, List.map_map,
    List.forall_mem_append, List.forall_mem_map]
  simp only [Function.comp_apply, plain_lower, List.map_singleton, List.mem_singleton, forall_eq,
    plain_html, and_true]

theorem plainPath_assetOutputPath (source : String) :
    PlainPath (assetOutputPath source) ↔
      ∀ segment ∈ segments source, Plain (stripSegment segment) := by
  rw [PlainPath, segments_assetOutputPath, List.forall_mem_map]
  simp only [plain_lower]

theorem filled_of_stripSegment {segment : List Char} (filled : stripSegment segment ≠ []) :
    segment ≠ [] := by
  rintro rfl
  exact filled rfl

/-- No name of a path is empty if its output path is plain. -/
theorem filled_of_plainPath {source : String} (plain : PlainPath (pageOutputPath source)) :
    ∀ segment ∈ segments source, segment ≠ [] := by
  obtain ⟨front, last, parted, out⟩ := segments_pageOutputPath source
  rw [PlainPath, out] at plain
  have filled : ∀ part ∈ front.map stripSegment ++ [htmlForMarkdown (stripSegment last)],
      part ≠ [] := fun part member => (plain_lower.mp (plain _ (List.mem_map_of_mem member))).1
  rw [parted]
  intro segment member
  rcases List.mem_append.mp member with member | member
  · exact filled_of_stripSegment (filled _ (List.mem_append_left _ (List.mem_map_of_mem member)))
  · rw [List.mem_singleton.mp member]
    exact filled_of_stripSegment (htmlForMarkdown_ne_nil
      (filled _ (List.mem_append_right _ (List.mem_singleton_self _))))

theorem html_pageOutputPath {source : String} (page : markdownSuffix <:+ source.toList) :
    htmlSuffix <:+ (pageOutputPath source).toList := by
  obtain ⟨front, last, parted, out⟩ := segments_pageOutputPath source
  rw [← intercalate_splitOnChar '/' source.toList, ← segments, parted] at page
  obtain ⟨stem, rfl⟩ := suffix_of_intercalate (by decide) page
  rw [stripSegment_append (by decide), htmlForMarkdown_append, List.map_append,
    List.map_singleton] at out
  rw [← intercalate_splitOnChar '/' (pageOutputPath source).toList, ← segments, out]
  obtain ⟨image, same⟩ := Text.lowerFrom_append [] (stripSegment stem) htmlSuffix
  have ending : Text.lower (stripSegment stem ++ htmlSuffix) = image ++ htmlSuffix := by
    rw [Text.lower, same]
    rfl
  rw [ending]
  rw [intercalate_last]
  exact List.suffix_append ..

end DocSite.Naming
