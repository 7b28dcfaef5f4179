import DocSite.Proofs.OutputPath
import DocSite.Proofs.Reference

/-! Links between pages. A rewritten target leads from the output of its page to the output of the
file that it led to in the source, as far as it is still read as a path. Without its order prefix
the first name of a target can be read as a scheme. -/
namespace DocSite

open Files.Path (Plain segments splitOnChar)

namespace Files.Path

/-- A path with other names for its directories and for what it leads to. -/
def rename (directory file : List Char → List Char) : List (List Char) → List (List Char)
  | [] => []
  | [last] => [file last]
  | segment :: next :: rest => directory segment :: rename directory file (next :: rest)

/-- Another name for a name, and no other for dots. -/
structure Steady (segment other : List Char) : Prop where
  filled : other ≠ []
  dot : other = ['.'] ↔ segment = ['.']
  dots : other = ['.', '.'] ↔ segment = ['.', '.']

variable {directory file : List Char → List Char} {dir path : List (List Char)}
  {segment : List Char}

theorem rename_concat (front : List (List Char)) (last : List Char) :
    rename directory file (front ++ [last]) = front.map directory ++ [file last] := by
  induction front with
  | nil => rfl
  | cons segment front ih =>
    cases front with
    | nil => rfl
    | cons next front => exact congrArg (List.cons (directory segment)) ih

theorem above?_map : above? (dir.map directory) = (above? dir).map (·.map directory) := by
  simp only [above?, List.map_eq_nil_iff]
  split
  · rfl
  · rw [Option.map_some, List.map_dropLast]

theorem step?_map (steady : Steady segment (directory segment)) :
    step? (dir.map directory) (directory segment) = (step? dir segment).map (·.map directory) := by
  simp only [step?, steady.dot, steady.dots, above?_map]
  split
  · rfl
  · split <;> simp

theorem arrive?_rename (steady : Steady segment (directory segment))
    (ending : Steady segment (file segment)) (empty : file [] = []) :
    arrive? (dir.map directory) (file segment) =
      (arrive? dir segment).map (rename directory file) := by
  simp only [arrive?, ending.dot, ending.dots]
  split
  · rename_i dots
    have same : file segment = directory segment := by
      rcases dots with rfl | rfl
      · rw [ending.dot.mpr rfl, steady.dot.mpr rfl]
      · rw [ending.dots.mpr rfl, steady.dots.mpr rfl]
    rw [same, step?_map steady]
    cases step? dir segment with
    | none => rfl
    | some there => simp [rename_concat, empty]
  · rw [Option.map_some, rename_concat]

/-- Renaming keeps where paths lead. -/
theorem resolve?_rename (empty : file [] = [])
    (steady : ∀ segment ∈ path, Steady segment (directory segment) ∧ Steady segment (file segment)) :
    resolve? (dir.map directory) (rename directory file path) =
      (resolve? dir path).map (rename directory file) := by
  induction path generalizing dir with
  | nil => rfl
  | cons segment rest ih =>
    obtain ⟨⟨step, ending⟩, steady⟩ := List.forall_mem_cons.mp steady
    cases rest with
    | nil => exact arrive?_rename step ending empty
    | cons next rest =>
      rw [rename, resolve?_cons, resolve?_cons (List.cons_ne_nil next rest), step?_map step]
      · cases step? dir segment with
        | none => rfl
        | some there => exact ih steady
      · cases rest <;> exact List.cons_ne_nil _ _

theorem rename_cons (segment : List Char) (rest : List (List Char)) :
    ∃ name more, rename directory file (segment :: rest) = name :: more ∧
      (name = directory segment ∨ name = file segment) := by
  cases rest with
  | nil => exact ⟨_, _, rfl, .inr rfl⟩
  | cons next rest => exact ⟨_, _, rfl, .inl rfl⟩

theorem mem_rename {name : List Char} (member : name ∈ rename directory file path) :
    ∃ segment ∈ path, name = directory segment ∨ name = file segment := by
  induction path with
  | nil => cases member
  | cons segment rest ih =>
    cases rest with
    | nil => exact ⟨segment, List.mem_cons_self .., .inr (List.mem_singleton.mp member)⟩
    | cons next rest =>
      rcases List.mem_cons.mp member with same | member
      · exact ⟨segment, List.mem_cons_self .., .inl same⟩
      · obtain ⟨other, listed, same⟩ := ih member
        exact ⟨other, List.mem_cons_of_mem _ listed, same⟩

end Files.Path

namespace Naming

open Files.Path (Steady rename rename_concat)

/-- A directory of a source path as the output has it. -/
def outputName (segment : List Char) : List Char := Text.lower (stripSegment segment)

/-- What a source path leads to as the output has it. -/
def outputFile (isLink : Bool) (segment : List Char) : List Char :=
  Text.lower (if isLink then htmlForMarkdown (stripSegment segment) else stripSegment segment)

/-- The output path of what links or images name. -/
def outputPath (isLink : Bool) (source : String) : String :=
  if isLink then pageOutputPath source else assetOutputPath source

theorem segments_outputPath (isLink : Bool) (source : String) :
    segments (outputPath isLink source) =
      rename outputName (outputFile isLink) (segments source) := by
  cases isLink with
  | true =>
    obtain ⟨front, last, parted, out⟩ := segments_pageOutputPath source
    rw [outputPath, if_pos rfl, out, parted, rename_concat, List.map_append, List.map_map]
    rfl
  | false =>
    rw [outputPath, if_neg Bool.false_ne_true, segments_assetOutputPath]
    obtain ⟨front, last, parted⟩ := Files.Path.segments_last source
    rw [parted, rename_concat, List.map_append]
    rfl

/-- A link to a file that is no page changes its name as an image does. -/
theorem pageOutputPath_other {source : String} (other : ¬ markdownSuffix <:+ source.toList) :
    pageOutputPath source = assetOutputPath source := by
  rw [pageOutputPath, htmlForMarkdown_other, assetOutputPath]
  intro ends
  obtain ⟨front, last, parted⟩ := Files.Path.segments_last source
  rw [stripOrderPrefixes, ← segments, parted, List.map_append, List.map_singleton] at ends
  have last_ends := Files.Path.suffix_of_intercalate (by decide) ends
  apply other
  rw [← Files.Path.intercalate_splitOnChar '/' source.toList, ← segments, parted]
  exact (last_ends.trans (stripSegment_suffix last)).trans (Files.Path.last_suffix front last)

theorem directory_outputPath (isLink : Bool) (source : String) :
    (segments (outputPath isLink source)).dropLast =
      (segments source).dropLast.map outputName := by
  obtain ⟨front, last, parted⟩ := Files.Path.segments_last source
  rw [segments_outputPath, parted, rename_concat, List.dropLast_concat, List.dropLast_concat]

theorem mem_outputName {c : Char} (mark : Text.isMark c = true) {segment : List Char}
    (member : c ∈ outputName segment) : c ∈ segment :=
  (stripSegment_suffix segment).subset ((Text.mark_mem_lower mark _).mp member)

theorem mem_outputFile {c : Char} (mark : Text.isMark c = true) (other : c ∉ htmlSuffix)
    {isLink : Bool} {segment : List Char} (member : c ∈ outputFile isLink segment) :
    c ∈ segment := by
  have stripped := (Text.mark_mem_lower mark _).mp member
  cases isLink with
  | true =>
    rcases htmlForMarkdown_subset _ c stripped with stripped | html
    · exact (stripSegment_suffix segment).subset stripped
    · exact absurd html other
  | false => exact (stripSegment_suffix segment).subset stripped

theorem mem_outputPath {c : Char} (mark : Text.isMark c = true) (other : c ∉ htmlSuffix)
    (inner : c ≠ '/') {isLink : Bool} {source : String}
    (member : c ∈ (outputPath isLink source).toList) : c ∈ source.toList := by
  obtain ⟨part, parted, inside⟩ := (Files.Path.mem_iff_splitOnChar inner).mp member
  rw [← segments, segments_outputPath] at parted
  obtain ⟨segment, listed, same⟩ := Files.Path.mem_rename parted
  refine (Files.Path.mem_iff_splitOnChar inner).mpr ⟨segment, listed, ?_⟩
  rcases same with rfl | rfl
  · exact mem_outputName mark inside
  · exact mem_outputFile mark other inside

/-- A segment that means the same in the source and in the output: dots, or a name that is more
than an order prefix and dots. -/
def Lasting (segment : List Char) : Prop :=
  segment = ['.'] ∨ segment = ['.', '.'] ∨ Plain (stripSegment segment)

instance (segment : List Char) : Decidable (Lasting segment) :=
  inferInstanceAs (Decidable (_ ∨ _))

theorem steady_of_plain {segment other : List Char} (plain : Plain (stripSegment segment))
    (named : Plain other) : Steady segment other where
  filled := named.1
  dot := iff_of_false named.2.1 fun same => absurd plain (same ▸ by decide)
  dots := iff_of_false named.2.2 fun same => absurd plain (same ▸ by decide)

theorem Lasting.steady {segment : List Char} (lasting : Lasting segment) (isLink : Bool) :
    Steady segment (outputName segment) ∧ Steady segment (outputFile isLink segment) := by
  rcases lasting with rfl | rfl | plain
  · have one : outputName ['.'] = ['.'] ∧ outputFile isLink ['.'] = ['.'] := by
      cases isLink <;> decide
    rw [one.1, one.2]
    exact ⟨⟨by decide, by decide, by decide⟩, ⟨by decide, by decide, by decide⟩⟩
  · have two : outputName ['.', '.'] = ['.', '.'] ∧ outputFile isLink ['.', '.'] = ['.', '.'] := by
      cases isLink <;> decide
    rw [two.1, two.2]
    exact ⟨⟨by decide, by decide, by decide⟩, ⟨by decide, by decide, by decide⟩⟩
  · refine ⟨steady_of_plain plain (plain_lower.mpr plain), steady_of_plain plain ?_⟩
    refine plain_lower.mpr ?_
    cases isLink with
    | true => exact plain_htmlForMarkdown plain
    | false => exact plain

end Naming

namespace Markdown.Link

open Naming (outputPath)

variable {isLink : Bool} {target : List Char}

theorem forOutput_eq (isLink : Bool) (target : List Char) : forOutput isLink target =
    (outputPath isLink (String.ofList (pathOf target))).toList ++ tailOf target := by
  dsimp only [forOutput]
  rw [← pathOf, ← tailOf]
  cases isLink <;> simp [outputPath, Naming.pageOutputPath, Naming.assetOutputPath]

theorem parts_forOutput (isLink : Bool) (target : List Char) :
    pathOf (forOutput isLink target) =
        (outputPath isLink (String.ofList (pathOf target))).toList ∧
      tailOf (forOutput isLink target) = tailOf target := by
  rw [forOutput_eq]
  apply pathOf_append
  intro c member
  apply Bool.eq_false_iff.mpr
  intro ends
  have marked : Text.isMark c = true ∧ c ∉ Naming.htmlSuffix ∧ c ≠ '/' := by
    simp only [endsPath, Bool.or_eq_true, beq_iff_eq] at ends
    rcases ends with rfl | rfl <;> decide
  have inside := Naming.mem_outputPath marked.1 marked.2.1 marked.2.2 member
  rw [String.toList_ofList] at inside
  simpa [ends] using List.mem_takeWhile_imp inside

/-- A path leads in the output to what it leads to in the source. -/
theorem resolve?_forOutput (isLink : Bool) {a b : String}
    (lasting : ∀ segment ∈ splitOnChar '/' (pathOf target), Naming.Lasting segment)
    (leads : Files.Path.resolve? (segments a).dropLast (splitOnChar '/' (pathOf target)) =
      some (segments b)) :
    Files.Path.resolve? (segments (Naming.pageOutputPath a)).dropLast
        (splitOnChar '/' (pathOf (forOutput isLink target))) =
      some (segments (outputPath isLink b)) := by
  have named : splitOnChar '/' (pathOf target) = segments (String.ofList (pathOf target)) := by
    rw [segments, String.toList_ofList]
  rw [named] at lasting leads
  have here : (segments (Naming.pageOutputPath a)).dropLast = _ :=
    Naming.directory_outputPath true a
  rw [(parts_forOutput isLink target).1, here, ← segments, Naming.segments_outputPath,
    Files.Path.resolve?_rename, leads, Option.map_some, Naming.segments_outputPath]
  · cases isLink <;> rfl
  · intro segment member
    exact (lasting segment member).steady isLink

theorem forOutput_relative (isLink : Bool)
    (lasting : ∀ segment ∈ splitOnChar '/' (pathOf target), Naming.Lasting segment) :
    pathOf (forOutput isLink target) ≠ [] ∧ (forOutput isLink target).head? ≠ some '/' := by
  rw [(parts_forOutput isLink target).1, forOutput_eq]
  have filled : ∀ part ∈ segments (outputPath isLink (String.ofList (pathOf target))),
      part ≠ [] := by
    intro part member
    rw [Naming.segments_outputPath] at member
    obtain ⟨segment, listed, same⟩ := Files.Path.mem_rename member
    rw [segments, String.toList_ofList] at listed
    have steady := (lasting segment listed).steady isLink
    rcases same with rfl | rfl
    · exact steady.1.filled
    · exact steady.2.filled
  have relative := Files.Path.relative_of_filled filled
  cases found : (outputPath isLink (String.ofList (pathOf target))).toList with
  | nil =>
    rw [segments, found] at filled
    exact absurd rfl (filled [] (List.mem_singleton_self _))
  | cons c rest =>
    rw [Files.Path.isAbsolute, found] at relative
    exact ⟨List.cons_ne_nil c rest, by simpa using relative⟩

theorem colon_of_forOutput (opens : opensScheme (forOutput isLink target) = true) :
    ':' ∈ (pathOf target).takeWhile (· ≠ '/') := by
  have colon := colon_of_opensScheme opens
  rw [(parts_forOutput isLink target).1] at colon
  obtain ⟨_, out⟩ := Files.Path.segments_first (outputPath isLink (String.ofList (pathOf target)))
  obtain ⟨_, first⟩ := Files.Path.segments_first (String.ofList (pathOf target))
  rw [Naming.segments_outputPath, first] at out
  obtain ⟨name, _, renamed, same⟩ := Files.Path.rename_cons _ _
  rw [renamed, List.cons.injEq] at out
  rw [← out.1] at colon
  rw [← String.toList_ofList (l := pathOf target)]
  rcases same with rfl | rfl
  · exact Naming.mem_outputName (by decide) colon
  · exact Naming.mem_outputFile (by decide) (by decide) colon

/-- A target that leads from the page `a` to the file `b` leads, rewritten, from the output of the
one to the output of the other. A reader of the output comes there too, unless the target has come
to begin with a scheme. -/
theorem forOutput_leads {a b output : String} {tail : List Char}
    (lasting : ∀ segment ∈ splitOnChar '/' (pathOf target), Naming.Lasting segment)
    (leads : destination? (segments a).dropLast target = some (segments b, tail))
    (kind : isLink = true ∧ output = Naming.pageOutputPath b ∨
      output = Naming.assetOutputPath b ∧ ¬ Naming.markdownSuffix <:+ b.toList) :
    Files.Path.resolve? (segments (Naming.pageOutputPath a)).dropLast
        (splitOnChar '/' (pathOf (forOutput isLink target))) = some (segments output) ∧
      tailOf (forOutput isLink target) = tail ∧
      (destination? (segments (Naming.pageOutputPath a)).dropLast (forOutput isLink target) =
        some (segments output, tail) ↔ opensScheme (forOutput isLink target) = false) ∧
      (opensScheme (forOutput isLink target) = true →
        ':' ∈ (pathOf target).takeWhile (· ≠ '/')) := by
  obtain ⟨-, -, -, path, behind⟩ := destination?_eq_some.mp leads
  have named : output = outputPath isLink b := by
    rcases kind with ⟨rfl, rfl⟩ | ⟨rfl, other⟩
    · rfl
    · cases isLink with
      | true => exact (Naming.pageOutputPath_other other).symm
      | false => rfl
  have arrives := resolve?_forOutput isLink lasting path
  have rest : tailOf (forOutput isLink target) = tail :=
    (parts_forOutput isLink target).2.trans behind
  rw [← named] at arrives
  refine ⟨arrives, rest, ?_, colon_of_forOutput⟩
  constructor
  · intro comes
    exact (destination?_eq_some.mp comes).1
  · intro plain
    obtain ⟨filled, relative⟩ := forOutput_relative isLink lasting
    exact destination?_eq_some.mpr ⟨plain, filled, relative, arrives, rest⟩

theorem climbing_link_leads :
    let page := "02_Guide/01_Intro.md"
    let file := "02_Guide/ΟΔΟΣ/03_API.md"
    let target := "../02_Guide/./ΟΔΟΣ/03_API.md?x#Top".toList
    isRelative target = true ∧ Naming.pageOutputPath file = "guide/οδος/api.html" ∧
      destination? (segments (Naming.pageOutputPath page)).dropLast (forOutput true target) =
        some (segments (Naming.pageOutputPath file), "?x#Top".toList) := by
  intro page file target
  refine ⟨by decide +kernel, by decide +kernel, ?_⟩
  have source : destination? (segments page).dropLast target =
      some (segments file, "?x#Top".toList) := by decide +kernel
  have leads := forOutput_leads (by decide +kernel) source (.inl ⟨rfl, rfl⟩)
  exact leads.2.2.1.mpr (by decide +kernel)

/-- The source leads from one page to another, and the output to something with a scheme. -/
theorem shortened_link_opens_scheme :
    let target := "01_a:b.md".toList
    isRelative target = true ∧
      (∀ segment ∈ splitOnChar '/' (pathOf target), Naming.Lasting segment) ∧
      destination? (segments "02_c.md").dropLast target = some (segments "01_a:b.md", []) ∧
      Naming.pageOutputPath "01_a:b.md" = "a:b.html" ∧
      forOutput true target = "a:b.html".toList ∧
      destination? (segments (Naming.pageOutputPath "02_c.md")).dropLast (forOutput true target) =
        none := by
  decide +kernel

end Markdown.Link

end DocSite
