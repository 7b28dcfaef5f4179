import Mathlib.Data.List.Nodup
import DocSite.Proofs.Sources

/-! What a scan finds, as one filter. The walk leaves out directories with all that is below them,
each by its own path, and in the end has the files whose whole path is kept. -/
namespace DocSite

open Files (Node Found)
open Files.Path (EntryName splitOn)

namespace Files.Path

theorem intercalate_splitOn (path : String) : "/".intercalate (splitOn '/' path) = path :=
  intercalate_segments path

theorem splitOn_ne_nil (path : String) : splitOn '/' path ≠ [] :=
  mt List.map_eq_nil_iff.mp (segments_ne_nil path)

theorem splitOn_intercalate {front : List String} (filled : front ≠ [])
    (proper : ∀ name ∈ front, EntryName name) : splitOn '/' ("/".intercalate front) = front := by
  have parted := segments_intercalate filled proper
  rw [segments] at parted
  rw [splitOn, parted, List.map_map, String.ofList_comp_toList, List.map_id]

/-- The extension of a name that does not begin with a dot stands behind its last dot. -/
theorem extension_iff {name extension : String} (shown : name.toList.head? ≠ some '.')
    (whole : '.' ∉ extension.toList) :
    (splitExtension name).2 = some extension ↔ '.' :: extension.toList <:+ name.toList := by
  constructor
  · exact extension_suffix
  · rintro ⟨stem, ends⟩
    have reversed : name.toList.reverse = extension.toList.reverse ++ '.' :: stem.reverse := by
      rw [← ends, List.reverse_append, List.reverse_cons, List.append_assoc]
      rfl
    have all : ∀ c ∈ extension.toList.reverse, (decide (c ≠ '.')) = true := by
      intro c member
      rw [decide_eq_true_eq]
      rintro rfl
      exact whole (List.mem_reverse.mp member)
    have other : name ≠ ".." := by
      rintro rfl
      exact shown rfl
    unfold splitExtension
    dsimp only
    rw [reversed, List.takeWhile_append_of_pos all, List.dropWhile_append_of_pos all,
      List.takeWhile_cons_of_neg (by simp), List.dropWhile_cons_of_neg (by simp)]
    cases stem with
    | nil =>
      rw [← ends] at shown
      exact absurd rfl shown
    | cons c stem =>
      obtain ⟨last, rest, reversed⟩ :=
        List.exists_cons_of_ne_nil (List.reverse_ne_nil_iff.mpr (List.cons_ne_nil c stem))
      simp [reversed, other]

end Files.Path

namespace Files.Node

variable {n : Node} {skip : (names : List String) → (isDir : Bool) → Bool} {place : List String}
  {content : ByteArray}

/-- A walk comes upon the files that it passes over neither themselves nor on the way. -/
theorem mem_collect_iff (sound : n.sound = true) :
    (∃ f ∈ n.collect skip [], f.names = place ∧ f.content = content) ↔
      (∃ executable, n.find? place = some (.file content executable)) ∧
        passes skip [] place = true := by
  constructor
  · rintro ⟨f, found, rfl, rfl⟩
    obtain ⟨down, executable, names, file⟩ := file_of_collect skip [] n sound f found
    rw [List.nil_append] at names
    rw [← names] at file
    refine ⟨⟨executable, file⟩, ?_⟩
    have once := count_collect skip [] sound file
    rw [List.nil_append] at once
    have some := List.count_pos_iff.mpr (List.mem_map_of_mem (f := Found.names) found)
    by_contra passed
    rw [once, if_neg passed] at some
    exact Nat.lt_irrefl 0 some
  · rintro ⟨⟨executable, file⟩, passed⟩
    have once := count_collect skip [] sound file
    rw [List.nil_append, if_pos passed] at once
    have member := List.count_pos_iff.mp (once ▸ Nat.one_pos)
    obtain ⟨f, found, rfl⟩ := List.mem_map.mp member
    obtain ⟨down, mark, names, same⟩ := file_of_collect skip [] n sound f found
    rw [List.nil_append] at names
    rw [← names, file] at same
    cases same
    exact ⟨f, found, rfl, rfl⟩

theorem nodup_collect (sound : n.sound = true) :
    ((n.collect skip []).map Found.names).Nodup := by
  refine List.nodup_iff_count_eq_one.mpr fun place member => ?_
  obtain ⟨f, found, rfl⟩ := List.mem_map.mp member
  obtain ⟨down, executable, names, file⟩ := file_of_collect skip [] n sound f found
  have once := count_collect skip [] sound file
  have some := List.count_pos_iff.mpr member
  rw [names, once] at some ⊢
  split at some
  · rename_i passed
    exact if_pos passed
  · exact absurd some (Nat.lt_irrefl 0)

/-- The content of the file at a path. -/
def fileAt? (n : Node) (path : String) : Option ByteArray :=
  match n.find? (splitOn '/' path) with
  | some (.file content _) => some content
  | _ => none

theorem fileAt?_eq_some {path : String} : n.fileAt? path = some content ↔
    ∃ executable, n.find? (splitOn '/' path) = some (.file content executable) := by
  rw [fileAt?]
  split
  · rename_i found
    simp [found]
  · rename_i none
    simp only [reduceCtorEq, false_iff, not_exists]
    exact none content

end Files.Node

namespace Site

namespace Manifest

/-- A path with no hidden name that no entry covers. -/
def Kept (excludes : List String) (path : String) : Prop :=
  (∀ name ∈ splitOn '/' path, isHidden name = false) ∧
    ∀ entry ∈ excludes, covers entry path = false

/-- A path with a name that ends in `.md`. -/
def Markdown (path : String) : Prop :=
  Naming.markdownSuffix <:+ ((splitOn '/' path).getLastD "").toList

instance (excludes : List String) (path : String) : Decidable (Kept excludes path) :=
  inferInstanceAs (Decidable (_ ∧ _))

instance (path : String) : Decidable (Markdown path) := inferInstanceAs (Decidable (_ <:+ _))

/-- Whether a page can be made of a file: it is text, and its front matter, if any, is sound. -/
def Readable (content : ByteArray) : Prop :=
  ∃ text, String.fromUTF8? content = some text ∧ ∃ parts, FrontMatter.parse text = .ok parts

variable {fs : Files} {dir label path : String} {excludes : List String} {tree : Node}
  {content : ByteArray} {d : DocSet}

section

variable (isDir : tree.isDir = true) (sound : tree.sound = true)

include isDir sound

/-- The names of what a walk comes upon, and its path. -/
theorem names_of_found {skip : (names : List String) → (isDir : Bool) → Bool} {f : Found}
    (found : f ∈ tree.collect skip []) : splitOn '/' f.path = f.names := by
  obtain ⟨down, executable, names, file⟩ := Node.file_of_collect _ [] tree sound f found
  rw [List.nil_append] at names
  rw [← names] at file
  refine Files.Path.splitOn_intercalate ?_ (Node.sound_find? sound file).1
  intro none
  rw [none] at file
  cases file
  cases isDir

/-- A walk comes upon the files that are kept by their whole path. -/
theorem mem_walk_iff {file : String} :
    (∃ f ∈ tree.walk (isSkipped excludes), f.path = file ∧ f.content = content) ↔
      tree.fileAt? file = some content ∧ Kept excludes file := by
  -- The walk asks at each name on the way, the filter asks the whole path.
  have kept {place : List String} {executable : Bool} (same : splitOn '/' file = place)
      (found : tree.find? place = some (.file content executable)) :
      Node.passes (isSkipped excludes) [] place = true ↔ Kept excludes file := by
    rw [Kept, same, ← Files.Path.intercalate_splitOn file, same]
    refine passes_isSkipped ?_ (Node.sound_find? sound found).1
    exact same ▸ Files.Path.splitOn_ne_nil file
  have walked (f : Found) : f ∈ tree.walk (isSkipped excludes) ↔
      f ∈ tree.collect (isSkipped excludes) [] := List.mem_mergeSort
  simp only [walked]
  constructor
  · rintro ⟨f, found, rfl, rfl⟩
    have names := names_of_found isDir sound found
    obtain ⟨⟨executable, at'⟩, passed⟩ :=
      (Node.mem_collect_iff sound).mp ⟨f, found, rfl, rfl⟩
    rw [Node.fileAt?_eq_some, names]
    exact ⟨⟨executable, at'⟩, (kept names at').mp passed⟩
  · rintro ⟨at', keeps⟩
    obtain ⟨executable, at'⟩ := Node.fileAt?_eq_some.mp at'
    obtain ⟨f, found, names, same⟩ :=
      (Node.mem_collect_iff sound).mpr ⟨⟨executable, at'⟩, (kept rfl at').mpr keeps⟩
    refine ⟨f, found, ?_, same⟩
    rw [Found.path, names, Files.Path.intercalate_splitOn]

/-- A walk comes upon each path once. -/
theorem nodup_walk : ((tree.walk (isSkipped excludes)).map Found.path).Nodup := by
  have perm := (List.mergeSort_perm (tree.collect (isSkipped excludes) []) Found.notAfter).map
    Found.path
  have names : ((tree.collect (isSkipped excludes) []).map Found.path).map (splitOn '/') =
      (tree.collect (isSkipped excludes) []).map Found.names := by
    rw [List.map_map]
    exact List.map_congr_left fun f found => names_of_found isDir sound found
  exact perm.nodup_iff.mpr (List.Nodup.of_map _ (names ▸ Node.nodup_collect sound))

theorem isMarkdown_iff {f : Found} (found : f ∈ tree.walk (isSkipped excludes)) :
    isMarkdown dir f = true ↔ Markdown f.path := by
  obtain ⟨at', shown, -⟩ := (mem_walk_iff isDir sound).mp ⟨f, found, rfl, rfl⟩
  obtain ⟨executable, at'⟩ := Node.fileAt?_eq_some.mp at'
  obtain ⟨front, last, parted⟩ := Files.Path.segments_last f.path
  have names : splitOn '/' f.path = front.map String.ofList ++ [String.ofList last] := by
    rw [splitOn, ← Files.Path.segments, parted, List.map_append, List.map_singleton]
  have member : String.ofList last ∈ splitOn '/' f.path := names ▸ List.mem_concat_self
  have filled : last ≠ [] := by
    rintro rfl
    exact ((Node.sound_find? sound at').1 _ member).1 rfl
  have plain : (String.ofList last).toList.head? ≠ some '.' := by
    have shown := shown _ member
    simpa [isHidden] using shown
  rw [isMarkdown, fileName_of_last parted filled, beq_iff_eq,
    Files.Path.extension_iff plain (by decide), Markdown, names, List.getLastD_concat]
  rfl

/-- What a filter on the files of a walk leaves, if it looks at their paths only. -/
theorem mem_filter_walk {p : Found → Bool} (holds : String → Prop)
    (each : ∀ f ∈ tree.walk (isSkipped excludes), p f = true ↔ holds f.path) {file : String} :
    file ∈ ((tree.walk (isSkipped excludes)).filter p).map Found.path ↔
      (tree.fileAt? file).isSome = true ∧ Kept excludes file ∧ holds file := by
  rw [List.mem_map]
  constructor
  · rintro ⟨f, found, rfl⟩
    obtain ⟨found, passes⟩ := List.mem_filter.mp found
    obtain ⟨at', keeps⟩ := (mem_walk_iff isDir sound).mp ⟨f, found, rfl, rfl⟩
    exact ⟨Option.isSome_of_eq_some at', keeps, (each f found).mp passes⟩
  · rintro ⟨at', keeps, named⟩
    obtain ⟨content, at'⟩ := Option.isSome_iff_exists.mp at'
    obtain ⟨f, found, rfl, -⟩ := (mem_walk_iff isDir sound).mpr ⟨at', keeps⟩
    exact ⟨f, List.mem_filter.mpr ⟨found, (each f found).mpr named⟩, rfl⟩

end

theorem readable_iff {f : Found} : (∃ p, readPage dir f = .ok p) ↔ Readable f.content := by
  unfold readPage
  split
  · rename_i none
    simp [Readable, none]
  · rename_i text decoded
    split
    · rename_i bad
      simp [Readable, decoded, bad]
    · rename_i parsed
      simp [Readable, decoded, parsed]

/-- A list is read just when each of its members is. -/
theorem exists_mapM_ok_iff {ε α β : Type} {f : α → Except ε β} {items : List α} :
    (∃ found, items.mapM f = .ok found) ↔ ∀ a ∈ items, ∃ b, f a = .ok b := by
  induction items with
  | nil => simp [pure, Except.pure]
  | cons item rest ih =>
    rw [List.forall_mem_cons, ← ih]
    constructor
    · rintro ⟨found, mapped⟩
      obtain ⟨first, others, head, tail, -⟩ := mapM_cons_eq_ok.mp mapped
      exact ⟨⟨first, head⟩, others, tail⟩
    · rintro ⟨⟨first, head⟩, others, tail⟩
      exact ⟨first :: others, mapM_cons_eq_ok.mpr ⟨first, others, head, tail, rfl⟩⟩

/-- A scan succeeds just when each Markdown file that it keeps can be read. -/
theorem scanSet_succeeds_iff (here : fs.find? dir = some tree) (isDir : tree.isDir = true)
    (sound : tree.sound = true) :
    (∃ d, scanSet fs dir excludes label path = .ok d) ↔
      ∀ file content, tree.fileAt? file = some content → Kept excludes file → Markdown file →
        Readable content := by
  have named (f : Found) (found : f ∈ tree.walk (isSkipped excludes)) :
      isMarkdown dir f = true ↔ Markdown f.path := isMarkdown_iff isDir sound found
  have scans : (∃ d, scanSet fs dir excludes label path = .ok d) ↔ ∃ pages,
      ((tree.walk (isSkipped excludes)).filter (isMarkdown dir)).mapM (readPage dir) =
        .ok pages := by
    constructor
    · rintro ⟨d, scanned⟩
      obtain ⟨node, pages, found, read, -⟩ := scanSet_eq_ok.mp scanned
      cases here.symm.trans found
      exact ⟨pages, read⟩
    · rintro ⟨pages, read⟩
      exact ⟨_, scanSet_eq_ok.mpr ⟨tree, pages, here, read, rfl⟩⟩
  rw [scans, exists_mapM_ok_iff]
  simp only [readable_iff]
  constructor
  · intro every file content at' keeps markdown
    obtain ⟨f, found, rfl, rfl⟩ := (mem_walk_iff isDir sound).mpr ⟨at', keeps⟩
    exact every f (List.mem_filter.mpr ⟨found, (named f found).mpr markdown⟩)
  · intro every f found
    obtain ⟨found, markdown⟩ := List.mem_filter.mp found
    obtain ⟨at', keeps⟩ := (mem_walk_iff isDir sound).mp ⟨f, found, rfl, rfl⟩
    exact every f.path f.content at' keeps ((named f found).mp markdown)

section

variable (here : fs.find? dir = some tree)
  (scanned : scanSet fs dir excludes label path = .ok d)

include here scanned

theorem pages_perm : (d.pages.map (·.source)).Perm
    (((tree.walk (isSkipped excludes)).filter (isMarkdown dir)).map Found.path) := by
  obtain ⟨node, pages, found, read, rfl⟩ := scanSet_eq_ok.mp scanned
  cases here.symm.trans found
  exact sources_of_mapM read ▸ (List.mergeSort_perm _ _).map _

theorem assets_eq : d.assets.map (·.source) =
    ((tree.walk (isSkipped excludes)).filter (not ∘ isMarkdown dir)).map Found.path := by
  obtain ⟨node, pages, found, read, rfl⟩ := scanSet_eq_ok.mp scanned
  cases here.symm.trans found
  exact List.map_map ..

variable (isDir : tree.isDir = true) (sound : tree.sound = true)

include isDir sound

theorem mem_pages_iff {file : String} : file ∈ d.pages.map (·.source) ↔
    (tree.fileAt? file).isSome = true ∧ Kept excludes file ∧ Markdown file :=
  (pages_perm here scanned).mem_iff.trans
    (mem_filter_walk isDir sound Markdown fun _ found => isMarkdown_iff isDir sound found)

theorem mem_assets_iff {file : String} : file ∈ d.assets.map (·.source) ↔
    (tree.fileAt? file).isSome = true ∧ Kept excludes file ∧ ¬ Markdown file := by
  rw [assets_eq here scanned]
  refine mem_filter_walk isDir sound (¬ Markdown ·) fun f found => ?_
  have named : isMarkdown dir f = true ↔ Markdown f.path := isMarkdown_iff isDir sound found
  rw [Function.comp_apply, ← named, Bool.not_eq_true', Bool.not_eq_true]

/-- The files of a doc set are those that its scan keeps. -/
theorem mem_sources_iff_kept {file : String} :
    file ∈ d.sources ↔ (tree.fileAt? file).isSome = true ∧ Kept excludes file := by
  rw [DocSet.sources, List.mem_append, mem_pages_iff here scanned isDir sound,
    mem_assets_iff here scanned isDir sound, ← and_or_left, ← and_or_left,
    and_iff_left (Classical.em _)]

theorem nodup_sources : d.sources.Nodup := by
  rw [DocSet.sources, assets_eq here scanned]
  refine ((pages_perm here scanned).append_right _).nodup_iff.mpr ?_
  rw [← List.map_append]
  exact ((List.filter_append_perm _ _).map _).nodup_iff.mpr (nodup_walk isDir sound)

end

/-- The walk of a scan finds the files that are kept by their whole path, each once: pages where the
name ends in `.md`, and else assets. The scan fails only where a page cannot be read. -/
theorem scanSet_filters (here : fs.find? dir = some tree) (isDir : tree.isDir = true)
    (sound : tree.sound = true) :
    ((∃ d, scanSet fs dir excludes label path = .ok d) ↔
      ∀ file content, tree.fileAt? file = some content → Kept excludes file → Markdown file →
        Readable content) ∧
    ∀ d, scanSet fs dir excludes label path = .ok d →
      d.sources.Nodup ∧
      (∀ file, file ∈ d.pages.map (·.source) ↔
        (tree.fileAt? file).isSome = true ∧ Kept excludes file ∧ Markdown file) ∧
      ∀ file, file ∈ d.assets.map (·.source) ↔
        (tree.fileAt? file).isSome = true ∧ Kept excludes file ∧ ¬ Markdown file := by
  refine ⟨scanSet_succeeds_iff here isDir sound, fun d scanned => ?_⟩
  exact ⟨nodup_sources here scanned isDir sound,
    fun _ => mem_pages_iff here scanned isDir sound,
    fun _ => mem_assets_iff here scanned isDir sound⟩

end Manifest

/-! Drafts and old texts beside a guide -/
namespace Drafts

def text (content : String) : Node := .file content.toUTF8 false

def root : Node :=
  .dir [("drafts", .dir [("later.md", text "Later.")]),
    ("guide", .dir [(".old", .dir [("a.md", text "Old.")]), ("a.md", text "Text."),
      ("draft.png", text "")])]

def source : Files where
  root := .dir [("site", root)]

def left : List String := ["drafts/", "guide/draft"]

def page : Page :=
  { source := "guide/a.md", output := "guide/a.html", title := "a", body := "Text." }

def docSet : DocSet :=
  ⟨"", "", [page], [⟨"guide/draft.png", "guide/draft.png"⟩], MenuItem.ofPages [page]⟩

theorem scanned : Manifest.scanSet source "site" left "" "" = .ok docSet :=
  Manifest.scanSet_sorted rfl (by decide +kernel) (by decide +kernel) (by decide +kernel)
    (by decide +kernel)

end Drafts

open Drafts in
theorem drafts_left_out : source.find? "site" = some root ∧ root.isDir = true ∧
    root.sound = true ∧ Manifest.scanSet source "site" left "" "" = .ok docSet ∧
    docSet.sources.Nodup ∧ "guide/a.md" ∈ docSet.pages.map (·.source) ∧
    "guide/draft.png" ∈ docSet.assets.map (·.source) ∧
    "drafts/later.md" ∉ docSet.pages.map (·.source) ∧
    "guide/.old/a.md" ∉ docSet.pages.map (·.source) := by
  have sound : root.sound = true := by decide +kernel
  obtain ⟨-, every⟩ := @Manifest.scanSet_filters source "site" "" "" left root rfl rfl sound
  obtain ⟨once, pages, assets⟩ := every docSet scanned
  refine ⟨rfl, rfl, sound, scanned, once, (pages _).mpr ?_, (assets _).mpr ?_,
    mt (pages _).mp ?_, mt (pages _).mp ?_⟩ <;> decide +kernel

end Site
end DocSite
