import DocSite.Proofs.FolderOrder
import DocSite.Proofs.SectionNames
import DocSite.Proofs.Sources

/-! The page that leads its directory. The order of pages looks at the name of the file and a link to
a directory at the output path, and both can mean another page: the own page of a directory comes
first in it if its file is called `index.md`, or if its number and name say so. -/
namespace DocSite

open Files.Path (segments names join)
open Std (OrientedCmp ReflCmp TransCmp)

/-! The order of pages -/

instance : TransCmp Naming.compareKeys :=
  inferInstanceAs (TransCmp (compareLex (compareOn fun key : Nat × String => key.1)
    (compareOn fun key : Nat × String => key.2)))

namespace Site

namespace PageKey

theorem transCmp_on {α β : Type} (cmp : β → β → Ordering) [TransCmp cmp] (f : α → β) :
    TransCmp fun a b => cmp (f a) (f b) where
  eq_swap := OrientedCmp.eq_swap
  isLE_trans := TransCmp.isLE_trans

instance : TransCmp PageKey.compare := by
  have dirs := transCmp_on (List.compareLex Naming.compareKeys) PageKey.dirs
  have file := transCmp_on Naming.compareKeys PageKey.file
  exact inferInstanceAs (TransCmp (compareLex
    (fun a b : PageKey => a.dirs.compareLex Naming.compareKeys b.dirs)
    (compareLex (compareOn PageKey.notIndex)
      fun a b : PageKey => Naming.compareKeys a.file b.file)))

end PageKey

/-- Pages are sorted by their keys. -/
theorem Page.sort_ordered (pages : List Page) : (Page.sort pages).Pairwise fun p q =>
    (PageKey.ofSource p.source).AtMost (PageKey.ofSource q.source) := by
  have fits (o : Ordering) : (o != .gt) = o.isLE := by cases o <;> rfl
  refine (List.pairwise_mergeSort ?_ ?_ pages).imp fun {p q} order => bne_iff_ne.mp order
  · intro p q r first second
    rw [fits] at first second ⊢
    exact TransCmp.isLE_trans first second
  · intro p q
    rw [fits, fits, @OrientedCmp.eq_swap _ PageKey.compare _ (PageKey.ofSource q.source)]
    cases (PageKey.ofSource p.source).compare (PageKey.ofSource q.source) <;> rfl

theorem atMost_of_dirs {a b : PageKey} (beside : a.dirs = b.dirs) :
    a.AtMost b ↔ (compare a.notIndex b.notIndex).then (Naming.compareKeys a.file b.file) ≠ .gt := by
  have same : a.dirs.compareLex Naming.compareKeys b.dirs = .eq := by
    rw [beside]
    exact @ReflCmp.compare_self _ (List.compareLex Naming.compareKeys) _ _
  rw [PageKey.AtMost, PageKey.compare, same, Ordering.eq_then]

/-! Pages that are their directory's own -/

/-- The name of a page's file. -/
def Page.fileName (p : Page) : String := (Files.Path.splitOn '/' p.source).getLastD ""

/-- A path that a page can have: with a name that ends in `.md`, unless it has no last name. -/
def MarkdownPath (source : String) : Prop :=
  ∃ front last, segments source = front ++ [last] ∧ (last = [] ∨ Naming.markdownSuffix <:+ last)

theorem isIndexPath_iff {path : String} {front : List (List Char)} {last : List Char}
    (parted : segments path = front ++ [last]) :
    isIndexPath path = true ↔ last = "index.html".toList := by
  have apart : '/' ∉ last :=
    Files.Path.sep_not_mem (parted ▸ List.mem_append_right front (List.mem_singleton_self last))
  rw [isIndexPath, Bool.or_eq_true, beq_iff_eq, List.isPrefixOf_iff_prefix, List.reverse_prefix,
    ← String.toList_inj]
  have whole := Files.Path.intercalate_segments path
  rw [parted, List.map_append, List.map_singleton] at whole
  by_cases top : front = []
  · rw [top, List.map_nil, List.nil_append, String.intercalate_singleton] at whole
    rw [← whole, String.toList_ofList]
    refine or_iff_left fun ends => apart (ends.subset ?_)
    exact List.mem_cons_self ..
  · rw [Files.Path.intercalate_append (mt List.map_eq_nil_iff.mp top) (List.cons_ne_nil _ _),
      String.intercalate_singleton] at whole
    have toList : path.toList =
        ("/".intercalate (front.map String.ofList)).toList ++ '/' :: last := by
      simp [← whole, String.toList_append]
    have slash : '/' ∈ path.toList := by simp [toList]
    constructor
    · rintro (same | ends)
      · rw [same] at slash
        exact absurd slash (by decide)
      · rw [toList] at ends
        exact (eq_of_suffix_slash (by decide) apart ends).symm
    · rintro rfl
      exact .inr (toList ▸ List.suffix_append _ _)

section

variable {source : String}

theorem getLastD_splitOn {front : List (List Char)} {last : List Char}
    (parted : segments source = front ++ [last]) :
    (Files.Path.splitOn '/' source).getLastD "" = String.ofList last := by
  rw [Files.Path.splitOn, ← segments, parted, List.map_append, List.map_singleton,
    List.getLastD_concat]

theorem key_of_last {front : List (List Char)} {last : List Char}
    (parted : segments source = front ++ [last]) :
    PageKey.ofSource source =
      let stem := (Naming.beforeSuffix? Naming.markdownSuffix last).getD last
      ⟨(Files.Path.splitOn '/' source).dropLast.map fun s => (Naming.parse s).sortKey,
        String.ofList stem != "index", (Naming.parse (String.ofList stem)).sortKey⟩ := by
  rw [PageKey.ofSource]
  dsimp only
  rw [getLastD_splitOn parted, String.toList_ofList]

theorem lowered_name_iff {stem : List Char} (word : String) :
    (Naming.parse (String.ofList stem)).sortKey.2 = word ↔
      Text.lower (Naming.stripSegment stem) = word.toList := by
  have name := toList_dirName (String.ofList stem)
  rw [String.toList_ofList] at name
  rw [← String.toList_inj, ← name]
  rfl

/-- A page is its directory's own just when its file is called `index` but for number and case. -/
theorem isIndexPath_pageOutputPath (path : MarkdownPath source) :
    isIndexPath (Naming.pageOutputPath source) = true ↔
      (PageKey.ofSource source).file.2 = "index" := by
  obtain ⟨front, last, parted, out⟩ := Naming.segments_pageOutputPath source
  rw [List.map_append, List.map_singleton] at out
  rw [isIndexPath_iff out, key_of_last parted]
  dsimp only
  rw [lowered_name_iff]
  obtain ⟨front', last', parted', ends⟩ := path
  obtain ⟨-, same⟩ := List.append_inj' (parted'.symm.trans parted) rfl
  obtain rfl := List.singleton_inj.mp same
  rcases ends with rfl | ⟨stem, rfl⟩
  · decide
  · rw [Naming.beforeSuffix?_append, Option.getD_some, Naming.stripSegment_append (by decide),
      Naming.htmlForMarkdown_append]
    exact @Text.lower_append_eq_iff _ "index".toList _ (by decide) (by decide) (by decide)

theorem notIndex_eq_false_iff {p : Page} (path : MarkdownPath p.source) :
    (PageKey.ofSource p.source).notIndex = false ↔ p.fileName = "index.md" := by
  obtain ⟨front, last, parted, ends⟩ := path
  rw [Page.fileName, getLastD_splitOn parted, key_of_last parted]
  dsimp only
  rw [bne_eq_false_iff_eq, ← String.toList_inj, ← String.toList_inj, String.toList_ofList,
    String.toList_ofList]
  rcases ends with rfl | ⟨stem, rfl⟩
  · decide
  · have whole : "index.md".toList = "index".toList ++ Naming.markdownSuffix := rfl
    rw [Naming.beforeSuffix?_append, Option.getD_some, String.toList_ofList, whole]
    exact List.append_left_inj _ |>.symm

/-- A file called `index.md` is its directory's own page. -/
theorem index_of_notIndex (path : MarkdownPath source)
    (named : (PageKey.ofSource source).notIndex = false) :
    (PageKey.ofSource source).file.2 = "index" := by
  obtain ⟨front, last, parted, -⟩ := path
  rw [key_of_last parted] at named ⊢
  dsimp only at named ⊢
  rw [bne_eq_false_iff_eq.mp named]
  decide +kernel

end

/-! What a scan finds -/

/-- Pages in order, each at a Markdown path and with the output path that comes of it. -/
structure DocSet.Filed (d : DocSet) : Prop where
  ordered : d.pages.Pairwise fun p q =>
    (PageKey.ofSource p.source).AtMost (PageKey.ofSource q.source)
  paths : ∀ p ∈ d.pages, MarkdownPath p.source
  outputs : ∀ p ∈ d.pages, p.output = Naming.pageOutputPath p.source

namespace Manifest

/-- The last name of a path that a Markdown file is found at is the name of the file. -/
theorem markdownPath_of_isMarkdown {dir : String} {f : Files.Found}
    (markdown : isMarkdown dir f = true) : MarkdownPath f.path := by
  obtain ⟨front, last, parted⟩ := Files.Path.segments_last f.path
  exact ⟨front, last, parted, or_iff_not_imp_left.mpr (suffix_of_isMarkdown markdown parted)⟩

theorem filed_of_scanSet {fs : Files} {dir label path : String} {excludes : List String}
    {d : DocSet} (scanned : scanSet fs dir excludes label path = .ok d) : d.Filed := by
  obtain ⟨node, pages, -, read, rfl⟩ := scanSet_eq_ok.mp scanned
  have made {p : Page} (listed : p ∈ Page.sort pages) :
      MarkdownPath p.source ∧ p.output = Naming.pageOutputPath p.source := by
    obtain ⟨f, found, same⟩ := mem_of_mapM_ok read (List.mem_mergeSort.mp listed)
    rw [source_of_readPage same, output_of_readPage same]
    exact ⟨markdownPath_of_isMarkdown (List.mem_filter.mp found).2, rfl⟩
  exact ⟨Page.sort_ordered pages, fun p listed => (made listed).1,
    fun p listed => (made listed).2⟩

theorem filed_of_scan {fs : Files} {source : String} {m : Manifest}
    (scanned : scan fs source = .ok m) : ∀ d ∈ m.docSets, d.Filed := by
  intro d listed
  obtain ⟨_, _, _, alone, -⟩ := scanSet_of_scan scanned listed
  exact filed_of_scanSet alone

end Manifest

/-! The pages of one directory -/

/-- The pages of one source directory, in the order of the doc set. -/
def DocSet.pagesIn (d : DocSet) (dir : List String) : List Page :=
  d.pages.filter (Folder.pathOf · = dir)

/-- The number and the lowercase name that order the pages of a directory. -/
def Page.fileKey (p : Page) : Nat × String := (PageKey.ofSource p.source).file

namespace DocSet.Filed

variable {d : DocSet} {dir : List String} {p q : Page}

theorem isIndex_iff (filed : d.Filed) (member : p ∈ d.pagesIn dir) :
    p.isIndex = true ↔ p.fileKey.2 = "index" := by
  have listed := (List.mem_filter.mp member).1
  rw [Page.isIndex, filed.outputs p listed]
  exact isIndexPath_pageOutputPath (filed.paths p listed)

theorem isIndex_of_named (filed : d.Filed) (member : p ∈ d.pagesIn dir)
    (named : (PageKey.ofSource p.source).notIndex = false) : p.isIndex = true :=
  (filed.isIndex_iff member).mpr
    (index_of_notIndex (filed.paths p (List.mem_filter.mp member).1) named)

theorem order_of_head? (filed : d.Filed) (leads : (d.pagesIn dir).head? = some p)
    (member : q ∈ d.pagesIn dir) :
    (compare (PageKey.ofSource p.source).notIndex (PageKey.ofSource q.source).notIndex).then
      (Naming.compareKeys p.fileKey q.fileKey) ≠ .gt := by
  have beside (r : Page) (inR : r ∈ d.pagesIn dir) :
      (PageKey.ofSource r.source).dirs = dir.map dirKey := by
    rw [← of_decide_eq_true (List.mem_filter.mp inR).2]
    rfl
  have order : (PageKey.ofSource p.source).AtMost (PageKey.ofSource q.source) := by
    obtain ⟨rest, same⟩ := List.head?_eq_some_iff.mp leads
    have ordered := filed.ordered.filter (Folder.pathOf · = dir)
    rw [← pagesIn, same] at ordered
    rw [same] at member
    rcases List.mem_cons.mp member with rfl | behind
    · intro greater
      rw [@ReflCmp.compare_self _ PageKey.compare] at greater
      cases greater
    · exact (List.pairwise_cons.mp ordered).1 q behind
  exact (atMost_of_dirs ((beside p (List.mem_of_head? leads)).trans (beside q member).symm)).mp order

/-- An own page and another page never have the same key. -/
theorem lt_of_not_gt (filed : d.Filed) (inP : p ∈ d.pagesIn dir) (inQ : q ∈ d.pagesIn dir)
    (index : p.isIndex = true) (other : q.isIndex = false)
    (order : Naming.compareKeys p.fileKey q.fileKey ≠ .gt) :
    Naming.compareKeys p.fileKey q.fileKey = .lt := by
  cases same : Naming.compareKeys p.fileKey q.fileKey with
  | lt => rfl
  | gt => exact absurd same order
  | eq =>
    rw [Bool.eq_false_iff, Ne, filed.isIndex_iff inQ, ← Naming.compareKeys_eq_iff.mp same] at other
    exact absurd ((filed.isIndex_iff inP).mp index) other

theorem leads_of_named (filed : d.Filed) (leads : (d.pagesIn dir).head? = some p)
    (inQ : q ∈ d.pagesIn dir) (named : (PageKey.ofSource q.source).notIndex = false) :
    p.isIndex = true := by
  have order := filed.order_of_head? leads inQ
  refine filed.isIndex_of_named (List.mem_of_head? leads) (Bool.eq_false_iff.mpr fun other => ?_)
  rw [other, named] at order
  exact order rfl

theorem leads_of_least (filed : d.Filed) (leads : (d.pagesIn dir).head? = some p)
    (inQ : q ∈ d.pagesIn dir)
    (least : p.isIndex = false → Naming.compareKeys q.fileKey p.fileKey = .lt) :
    p.isIndex = true := by
  refine Bool.of_not_eq_false fun other => ?_
  have order := filed.order_of_head? leads inQ
  rw [OrientedCmp.gt_iff_lt.mpr (least other)] at order
  cases named : (PageKey.ofSource q.source).notIndex with
  | false => rw [filed.leads_of_named leads inQ named] at other; cases other
  | true =>
    rw [named] at order
    cases first : (PageKey.ofSource p.source).notIndex with
    | true => exact order (by rw [first]; rfl)
    | false => rw [filed.isIndex_of_named (List.mem_of_head? leads) first] at other; cases other

end DocSet.Filed

/-- A directory's own page comes first in it just when it is called `index.md`, or has a lower
number, or a name that comes first, than each of the other pages. -/
theorem index_leads_iff {fs : Files} {source : String} {m : Manifest} {d : DocSet}
    (scanned : Manifest.scan fs source = .ok m) (listed : d ∈ m.docSets) (dir : List String) :
    (∃ first, (d.pagesIn dir).head? = some first ∧ first.isIndex = true) ↔
      (∃ p ∈ d.pagesIn dir, p.fileName = "index.md") ∨
      ∃ p ∈ d.pagesIn dir, p.isIndex = true ∧ ∀ q ∈ d.pagesIn dir, q.isIndex = false →
        Naming.compareKeys p.fileKey q.fileKey = .lt := by
  have filed := Manifest.filed_of_scan scanned d listed
  have named {p : Page} (member : p ∈ d.pagesIn dir) :=
    notIndex_eq_false_iff (filed.paths p (List.mem_filter.mp member).1)
  constructor
  · rintro ⟨first, leads, index⟩
    have member : first ∈ d.pagesIn dir := List.mem_of_head? leads
    cases own : (PageKey.ofSource first.source).notIndex with
    | false => exact .inl ⟨first, member, (named member).mp own⟩
    | true =>
      refine .inr ⟨first, member, index, fun q inQ other => ?_⟩
      refine filed.lt_of_not_gt member inQ index other ?_
      have order := filed.order_of_head? leads inQ
      have last : (PageKey.ofSource q.source).notIndex = true :=
        Bool.of_not_eq_false fun ownQ => by simp [filed.isIndex_of_named inQ ownQ] at other
      rwa [own, last, Std.ReflOrd.compare_self, Ordering.eq_then] at order
  · intro leading
    have filled : d.pagesIn dir ≠ [] := by
      rcases leading with ⟨p, member, -⟩ | ⟨p, member, -⟩ <;> exact List.ne_nil_of_mem member
    obtain ⟨first, rest, parted⟩ := List.exists_cons_of_ne_nil filled
    have leads : (d.pagesIn dir).head? = some first := by rw [parted, List.head?_cons]
    refine ⟨first, leads, ?_⟩
    rcases leading with ⟨p, member, called⟩ | ⟨p, member, -, least⟩
    · exact filed.leads_of_named leads member ((named member).mpr called)
    · exact filed.leads_of_least leads member (least first (List.mem_of_head? leads))

/-! An own page with the lowest number, and one with a capital letter -/
namespace Handbook

/-- A source with these files in its directory `guide`. -/
def files (names : List String) : Files where
  root := .dir [("site", .dir [("guide",
    .dir (names.map fun name => (name, .file "Text.".toUTF8 false)))])]

def page (source output title : String) : Page := { source, output, title, body := "Text." }

def numbered : List Page :=
  [page "guide/1_Index.md" "guide/index.html" "Index", page "guide/2_FAQ.md" "guide/faq.html" "FAQ",
    page "guide/about.md" "guide/about.html" "about"]

def capital : List Page :=
  [page "guide/About.md" "guide/about.html" "About", page "guide/Index.md" "guide/index.html" "Index"]

def docSet (pages : List Page) : DocSet := ⟨"", "", pages, [], MenuItem.ofPages pages⟩

def manifest (pages : List Page) : Manifest := ⟨{}, [docSet pages]⟩

theorem scan_numbered : Manifest.scan (files ["1_Index.md", "2_FAQ.md", "about.md"]) "site" =
    .ok (manifest numbered) :=
  Manifest.scan_unversioned rfl rfl (Manifest.scanSet_sorted rfl (by decide +kernel)
    (by decide +kernel) (by decide +kernel) (by decide +kernel))

theorem scan_capital : Manifest.scan (files ["About.md", "Index.md"]) "site" =
    .ok (manifest capital) :=
  Manifest.scan_unversioned rfl rfl (Manifest.scanSet_sorted rfl (by decide +kernel)
    (by decide +kernel) (by decide +kernel) (by decide +kernel))

end Handbook

open Handbook in
theorem numbered_index_leads :
    Manifest.scan (files ["1_Index.md", "2_FAQ.md", "about.md"]) "site" = .ok (manifest numbered) ∧
    docSet numbered ∈ (manifest numbered).docSets ∧
    ((docSet numbered).pagesIn ["guide"]).all (·.fileName ≠ "index.md") = true ∧
    ∃ first, ((docSet numbered).pagesIn ["guide"]).head? = some first ∧ first.isIndex = true := by
  have least : ∃ p ∈ (docSet numbered).pagesIn ["guide"], p.isIndex = true ∧
      ∀ q ∈ (docSet numbered).pagesIn ["guide"], q.isIndex = false →
        Naming.compareKeys p.fileKey q.fileKey = .lt := by decide +kernel
  have listed := List.mem_singleton_self (docSet numbered)
  exact ⟨scan_numbered, listed, by decide +kernel,
    (index_leads_iff scan_numbered listed ["guide"]).mpr (.inr least)⟩

open Handbook in
/-- The page of `Index.md` is the own page of its directory, and that of `About.md` comes first. -/
theorem capital_index_follows :
    (Manifest.scan (files ["About.md", "Index.md"]) "site").toOption.map (fun m =>
      m.docSets.map fun d => (d.pagesIn ["guide"]).map fun p => (p.fileName, p.isIndex)) =
    some [[("About.md", false), ("Index.md", true)]] := by
  rw [scan_capital]
  decide +kernel

end Site
end DocSite
