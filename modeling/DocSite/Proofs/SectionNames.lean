import Mathlib.Data.List.Induction
import DocSite.Proofs.MenuTree
import DocSite.Proofs.OutputPath
import DocSite.Proofs.Walk

/-! Sections are called after the directories that their pages are written to. A section is named
step by step, a page as a whole, and both come to the same names. -/
namespace DocSite.Site

open Files.Path (EntryName segments intercalate_append intercalate_segments)

/-- What a source directory is called in output paths. -/
def dirName (segment : String) : String := Text.lowered (Naming.parse segment).name

theorem toList_dirName (segment : String) :
    (dirName segment).toList = Text.lower (Naming.stripSegment segment.toList) := by
  rw [dirName, Text.lowered, String.toList_ofList, Naming.parse, Naming.stripSegment]
  cases Naming.splitPrefix? segment.toList with
  | none => rfl
  | some found => rw [String.toList_ofList]

/-- A directory keeps a name if its order prefix leaves one. -/
theorem entryName_dirName {segment : String} (apart : '/' ∉ segment.toList)
    (left : Naming.stripSegment segment.toList ≠ []) : EntryName (dirName segment) := by
  have name := toList_dirName segment
  refine ⟨fun none => ?_, fun slash => ?_⟩
  · rw [none] at name
    exact left (Text.lower_eq_dots (n := 0) |>.mp name.symm)
  · rw [name, Text.mark_mem_lower (by decide)] at slash
    exact apart ((Naming.stripSegment_suffix _).subset slash)

/-- The name of a page's file in its output directory. -/
theorem exists_file (source : String) : ∃ file, '/' ∉ String.toList file ∧
    Naming.pageOutputPath source =
      "/".intercalate ((Files.Path.splitOn '/' source).dropLast.map dirName ++ [file]) := by
  obtain ⟨front, last, parted, out⟩ := Naming.segments_pageOutputPath source
  rw [List.map_append, List.map_map, List.map_singleton] at out
  refine ⟨String.ofList (Text.lower (Naming.htmlForMarkdown (Naming.stripSegment last))), ?_, ?_⟩
  · rw [String.toList_ofList]
    refine @Files.Path.sep_not_mem '/' (Naming.pageOutputPath source).toList _ ?_
    change _ ∈ segments _
    rw [out]
    exact List.mem_append_right _ (List.mem_singleton_self _)
  · have dirs : (Files.Path.splitOn '/' source).dropLast = front.map String.ofList := by
      change ((segments source).map String.ofList).dropLast = _
      rw [parted, List.map_append, List.map_singleton, List.dropLast_concat]
    have each : (dirName ∘ String.ofList) = String.ofList ∘ Text.lower ∘ Naming.stripSegment := by
      funext part
      refine String.toList_injective ?_
      simp only [Function.comp_apply, toList_dirName, String.toList_ofList]
    rw [← intercalate_segments (Naming.pageOutputPath source), out, dirs, List.map_append,
      List.map_map, List.map_map, each]
    rfl

namespace Folder

theorem outputPath_filled {parent : String} (filled : parent ≠ "") (name : String) :
    outputPath parent (Naming.parse name).name = parent ++ "/" ++ dirName name := by
  rw [outputPath, if_neg (mt String.isEmpty_iff.mp filled)]
  rfl

theorem append_slash_ne (parent name : String) : parent ++ "/" ++ name ≠ "" := by
  intro none
  have length := congrArg (List.length ∘ String.toList) none
  simp [String.toList_append] at length

/-- Step by step a directory comes to the names on the way to it. -/
theorem outputOf_eq {path : List String} (some : path ≠ [])
    (named : ∀ segment ∈ path, dirName segment ≠ "") :
    outputOf "" path = "/".intercalate (path.map dirName) ∧ outputOf "" path ≠ "" := by
  induction path using List.reverseRecOn with
  | nil => exact absurd rfl some
  | append_singleton front last ih =>
    obtain ⟨before, here⟩ := List.forall_mem_append.mp named
    have step : outputOf "" (front ++ [last]) =
        outputPath (outputOf "" front) (Naming.parse last).name := by
      rw [outputOf, List.foldl_append]
      rfl
    rw [step]
    by_cases first : front = []
    · subst first
      refine ⟨?_, here last (List.mem_singleton_self last)⟩
      rw [List.nil_append, List.map_singleton, String.intercalate_singleton]
      rfl
    · obtain ⟨known, filled⟩ := ih first before
      rw [outputPath_filled filled, List.map_append, List.map_singleton,
        intercalate_append (mt List.map_eq_nil_iff.mp first) (List.cons_ne_nil _ _),
        String.intercalate_singleton, ← known]
      exact ⟨rfl, append_slash_ne _ _⟩

end Folder

/-- Only one text without a slash can follow the last slash of another text. -/
theorem eq_of_suffix_slash {a b front : List Char} (first : '/' ∉ a) (second : '/' ∉ b)
    (ends : '/' :: a <:+ front ++ '/' :: b) : a = b := by
  have apart {x y : List Char} (free : '/' ∉ y) (within : '/' :: x <:+ '/' :: y) : x = y := by
    rcases List.suffix_cons_iff.mp within with same | inside
    · exact (List.cons.inj same).2
    · exact absurd (inside.subset (List.mem_cons_self ..)) free
  rcases List.suffix_or_suffix_of_suffix ends (List.suffix_append front ('/' :: b)) with
    within | around
  · exact apart second within
  · exact (apart first around).symm

/-- In a directory only the file `index.html` is at an index path. -/
theorem eq_of_isIndexPath {parent file : String} (apart : '/' ∉ file.toList)
    (index : isIndexPath (parent ++ "/" ++ file) = true) :
    parent ++ "/" ++ file = parent ++ "/index.html" := by
  have whole : (parent ++ "/" ++ file).toList = parent.toList ++ '/' :: file.toList := by
    simp [String.toList_append]
  rw [isIndexPath, Bool.or_eq_true, beq_iff_eq, List.isPrefixOf_iff_prefix, List.reverse_prefix,
    whole] at index
  rcases index with same | ends
  · have slash : '/' ∈ (parent ++ "/" ++ file).toList := by simp [whole]
    rw [same] at slash
    exact absurd slash (by decide)
  · have last : "index.html".toList = file.toList := eq_of_suffix_slash (by decide) apart ends
    rw [← String.toList_injective last, String.append_assoc]
    rfl

/-- Whatever is listed in a folder has its directories first on the way to it. -/
theorem lies_of_leads {pages : List Page} {path : List String} {g : Folder}
    (leads : Folder.Leads (Folder.ofPages pages) path g) :
    ∀ e ∈ g.listed, e.2 ∈ pages ∧ Folder.pathOf e.2 = path ++ e.1 := by
  intro e inside
  have member := (Folder.listed_ofPages pages).mem_iff.mp (leads.listed inside)
  obtain ⟨p, found, same⟩ := List.mem_map.mp member
  obtain ⟨way, rfl⟩ := Prod.mk.inj same
  exact ⟨found, way⟩

theorem entryName_of_pathOf {p : Page} {segment : String} (member : segment ∈ Folder.pathOf p)
    (left : Naming.stripSegment segment.toList ≠ []) : EntryName (dirName segment) := by
  refine entryName_dirName ?_ left
  obtain ⟨part, parted, rfl⟩ := List.mem_map.mp ((List.dropLast_sublist _).mem member)
  rw [String.toList_ofList]
  exact Files.Path.sep_not_mem parted

/-- The output of a page goes on behind the directories that its source lies in. -/
theorem output_below {p : Page} {path more : List String} (some : path ≠ [])
    (output : p.output = Naming.pageOutputPath p.source) (way : Folder.pathOf p = path ++ more) :
    ∃ file, '/' ∉ String.toList file ∧ p.output =
      "/".intercalate (path.map dirName) ++ "/" ++ "/".intercalate (more.map dirName ++ [file]) := by
  obtain ⟨file, apart, same⟩ := exists_file p.source
  refine ⟨file, apart, ?_⟩
  rw [output, same]
  change "/".intercalate ((Folder.pathOf p).map dirName ++ [file]) = _
  rw [way, List.map_append, List.append_assoc,
    intercalate_append (mt List.map_eq_nil_iff.mp some) (by simp)]

/-- The name of a section is the directory of everything in it: of the pages at whatever depth, of
the sections next below, and of its own page if it has one. No directory may lose its whole name
with its order prefix. -/
theorem section_names_lead (pages : List Page)
    (outputs : ∀ p ∈ pages, p.output = Naming.pageOutputPath p.source)
    (named : ∀ p ∈ pages, ∀ segment ∈ Folder.pathOf p, Naming.stripSegment segment.toList ≠ [])
    (title name : String) (index : Option String) (children : List MenuItem)
    (within : (MenuItem.section title name index children).Within (MenuItem.ofPages pages)) :
    (∀ shown path, (MenuItem.page shown path).Within children →
      ∃ rest, path = name ++ "/" ++ rest) ∧
    (∀ shown path own inner, .section shown path own inner ∈ children →
      ∃ segment, EntryName segment ∧ path = name ++ "/" ++ segment) ∧
    ∀ path, index = some path → path = name ++ "/index.html" := by
  obtain ⟨front, last, g, leads, -, rfl, rfl, rfl, shows⟩ := Folder.folder_of_section within
  have lies := lies_of_leads leads
  have entry : ∀ e ∈ g.listed, ∀ segment ∈ front ++ [last] ++ e.1, EntryName (dirName segment) := by
    intro e inside segment member
    obtain ⟨found, way⟩ := lies e inside
    rw [← way] at member
    exact entryName_of_pathOf member (named e.2 found segment member)
  obtain ⟨first, inside, -⟩ := Folder.shown_of_items g shows
  obtain ⟨known, filled⟩ := @Folder.outputOf_eq (front ++ [last]) (by simp) fun segment member =>
    (entry first inside segment (List.mem_append_left _ member)).1
  have output : ∀ e ∈ g.listed, ∃ file, '/' ∉ String.toList file ∧ e.2.output =
      Folder.outputOf "" (front ++ [last]) ++ "/" ++ "/".intercalate (e.1.map dirName ++ [file]) := by
    intro e inside
    obtain ⟨found, way⟩ := lies e inside
    rw [known]
    exact output_below (by simp) (outputs e.2 found) way
  refine ⟨fun shown path page => ?_, fun shown path own inner child => ?_, fun path index => ?_⟩
  · obtain ⟨e, inside, -, -, rfl⟩ := Folder.page_of_within page
    obtain ⟨file, -, same⟩ := output e inside
    exact ⟨_, same⟩
  · obtain ⟨segment, folder, found, -, rfl, -, rfl, shows⟩ := Folder.section_of_mem_items child
    obtain ⟨e, inside, -⟩ := Folder.shown_of_items folder shows
    have listed := (Folder.Leads.down found .here).listed inside
    refine ⟨dirName segment, entry _ listed segment (by simp), ?_⟩
    exact Folder.outputPath_filled filled segment
  · obtain ⟨p, found, rfl⟩ := Option.map_eq_some_iff.mp index
    have own := Folder.listed_of_mem_pages (List.mem_of_find?_eq_some found)
    obtain ⟨file, apart, same⟩ := output _ own
    rw [List.map_nil, List.nil_append, String.intercalate_singleton] at same
    have isIndex := List.find?_some found
    rw [Page.isIndex, same] at isIndex
    rw [same]
    exact eq_of_isIndexPath apart isIndex

/-! Directories that end in a capital sigma, which as a whole path would be followed by letters. -/
namespace Odyssey

def page (source : String) : Page :=
  { source, output := Naming.pageOutputPath source, title := "Page" }

def way : Page := page "1_Guide/02_ΟΔΟΣ/index.md"

def song : Page := page "1_Guide/02_ΟΔΟΣ/03_Σ/ΑΣ.md"

def pages : List Page := [way, song]

def entries : List MenuItem :=
  [.page "Page" "guide/οδος/index.html",
    .section "Σ" "guide/οδος/σ" none [.page "Page" "guide/οδος/σ/ασ.html"]]

def menu : List MenuItem :=
  [.section "Guide" "guide" none [.section "ΟΔΟΣ" "guide/οδος" (some "guide/οδος/index.html") entries]]

theorem folders_eq : Folder.ofPages pages =
    .mk [] [("1_Guide", .mk [] [("02_ΟΔΟΣ", .mk [way] [("03_Σ", .mk [song] [])])])] := by
  have first : Folder.pathOf way = ["1_Guide", "02_ΟΔΟΣ"] := by decide +kernel
  have second : Folder.pathOf song = ["1_Guide", "02_ΟΔΟΣ", "03_Σ"] := by decide +kernel
  simp [Folder.ofPages, pages, first, second, Folder.insert, Folder.alter, Folder.empty]

theorem menu_eq : MenuItem.ofPages pages = menu := by
  have names : Naming.parse "1_Guide" = ⟨some 1, "Guide"⟩ ∧
      Naming.parse "02_ΟΔΟΣ" = ⟨some 2, "ΟΔΟΣ"⟩ ∧ Naming.parse "03_Σ" = ⟨some 3, "Σ"⟩ := by
    decide +kernel
  have paths : Folder.outputPath "" "Guide" = "guide" ∧
      Folder.outputPath "guide" "ΟΔΟΣ" = "guide/οδος" ∧
      Folder.outputPath "guide/οδος" "Σ" = "guide/οδος/σ" := by decide +kernel
  have titles : (⟨some 1, "Guide"⟩ : Naming.EntryName).displayTitle = "Guide" ∧
      (⟨some 2, "ΟΔΟΣ"⟩ : Naming.EntryName).displayTitle = "ΟΔΟΣ" ∧
      (⟨some 3, "Σ"⟩ : Naming.EntryName).displayTitle = "Σ" := by decide +kernel
  have outputs : way.output = "guide/οδος/index.html" ∧ song.output = "guide/οδος/σ/ασ.html" := by
    decide +kernel
  have index : way.isIndex = true ∧ song.isIndex = false := by decide +kernel
  have shown : (way.inMenu = true ∧ song.inMenu = true) ∧ way.title = "Page" ∧ song.title = "Page" :=
    ⟨⟨rfl, rfl⟩, rfl, rfl⟩
  rw [MenuItem.ofPages, folders_eq]
  simp only [Folder.items, Folder.sections, names, paths, shown, List.filter, List.map]
  simp [titles, outputs, index, Folder.index?, Folder.pages, menu, entries]

end Odyssey

open Odyssey in
theorem odyssey_names_lead : (∀ p ∈ pages, p.output = Naming.pageOutputPath p.source) ∧
    (∀ p ∈ pages, ∀ segment ∈ Folder.pathOf p, Naming.stripSegment segment.toList ≠ []) ∧
    (MenuItem.section "ΟΔΟΣ" "guide/οδος" (some "guide/οδος/index.html") entries).Within
      (MenuItem.ofPages pages) ∧
    (∀ shown path, (MenuItem.page shown path).Within entries →
      ∃ rest, path = "guide/οδος" ++ "/" ++ rest) ∧
    (∀ shown path own below, .section shown path own below ∈ entries →
      ∃ segment, EntryName segment ∧ path = "guide/οδος" ++ "/" ++ segment) ∧
    ∀ path, some "guide/οδος/index.html" = some path → path = "guide/οδος" ++ "/index.html" := by
  have outputs : ∀ p ∈ pages, p.output = Naming.pageOutputPath p.source := by decide +kernel
  have named : ∀ p ∈ pages, ∀ segment ∈ Folder.pathOf p,
      Naming.stripSegment segment.toList ≠ [] := by decide +kernel
  have within : (MenuItem.section "ΟΔΟΣ" "guide/οδος" (some "guide/οδος/index.html") entries).Within
      (MenuItem.ofPages pages) := by
    rw [menu_eq]
    exact .under (List.mem_singleton_self _) (.here (List.mem_singleton_self _))
  exact ⟨outputs, named, within, section_names_lead pages outputs named _ _ _ _ within⟩

end DocSite.Site
