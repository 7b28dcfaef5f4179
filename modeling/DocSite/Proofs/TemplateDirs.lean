import DocSite.Proofs.Selection
import DocSite.Site.Rendering

/-! Template directories. A search path is an entry of the configuration joined to the root of the
source, and what keeps its files out of a doc set is the same entry, read as text in front of their
paths. The two name one directory where the entry is a plain path. -/
namespace DocSite

open Files (Node)
open Files.Path (EntryName PlainPath join names splitOn trimSlashes isAbsolute segments)

namespace Files

namespace Path

theorem trimSlashes_append (path : String) :
    ∃ n, path = trimSlashes path ++ String.ofList (List.replicate n '/') := by
  have whole := List.takeWhile_append_dropWhile (p := (· == '/')) (l := path.toList.reverse)
  have slashes : path.toList.reverse.takeWhile (· == '/') =
      List.replicate (path.toList.reverse.takeWhile (· == '/')).length '/' := by
    apply List.eq_replicate_of_mem
    intro c member
    have slash := List.mem_takeWhile_imp member
    exact eq_of_beq slash
  refine ⟨(path.toList.reverse.takeWhile (· == '/')).length, String.toList_injective ?_⟩
  rw [String.toList_append, trimSlashes, String.toList_ofList, String.toList_ofList]
  apply List.reverse_injective
  rw [List.reverse_append, List.reverse_reverse, List.reverse_replicate, ← slashes, whole]

theorem names_trimSlashes (path : String) : names (trimSlashes path) = names path := by
  obtain ⟨n, same⟩ := trimSlashes_append path
  generalize trimSlashes path = trimmed at same
  subst same
  induction n with
  | zero => rw [List.replicate_zero, String.ofList_nil, String.append_empty]
  | succ n ih =>
    have last : String.ofList (List.replicate (n + 1) '/') =
        String.ofList (List.replicate n '/') ++ "/" := by
      apply String.toList_injective
      rw [String.toList_append, String.toList_ofList, String.toList_ofList, List.replicate_succ']
      rfl
    rw [last, ← String.append_assoc, names_slash, ← ih]

theorem PlainPath.relative_of_trimmed {path : String} (plain : PlainPath (trimSlashes path)) :
    isAbsolute path = false := by
  obtain ⟨n, same⟩ := trimSlashes_append path
  rw [same, isAbsolute_append plain.filled_path, plain.relative]

end Path

/-- A plain path leads straight down from the directory that it is joined to. -/
theorem place_of_join {fs : Files} {dir path : String} {base place : List String}
    (plain : PlainPath (trimSlashes path)) (root : fs.place? dir = some base)
    (led : fs.place? (join dir path) = some place) : place = base ++ names (trimSlashes path) := by
  have straight := plain.straight
  rw [Path.names_trimSlashes] at straight ⊢
  exact (reaches_of_place? root).of_join plain.relative_of_trimmed straight (reaches_of_place? led)

end Files

namespace Site

/-! Search paths -/

/-- Where a doc set looks for chunks and for snippets. -/
def DocSet.searched (d : DocSet) (fs : Files) (source : String) (c : Config) : List String :=
  (d.world fs source c).chunks.searchPaths ++ (d.world fs source c).snippets.searchPaths

/-- The template directories of a configuration, as they are written there. -/
def Config.templateDirs (c : Config) : List String :=
  c.templates.chunkDirs ++ c.templates.snippetDirs

theorem searchPaths_foldl {α : Type} (paths : List String) (cache : Template.Cache α) :
    (paths.foldl (·.addSearchPath ·) cache).searchPaths = paths.reverse ++ cache.searchPaths := by
  induction paths generalizing cache with
  | nil => rfl
  | cons path paths ih =>
    rw [List.foldl_cons, ih, List.reverse_cons, List.append_assoc]
    rfl

/-- The doc set in the root of the source looks in the template directories below the root. -/
theorem DocSet.mem_searched {d : DocSet} (root : d.path = "") {fs : Files} {source looked : String}
    {c : Config} : looked ∈ d.searched fs source c ↔
      ∃ entry ∈ c.templateDirs, join source entry = looked := by
  have roots : d.templateRoots source = [source] := by
    rw [templateRoots, root]
    rfl
  have paths (dirs : List String) : DocSet.searchPaths [source] dirs = dirs.map (join source) :=
    List.flatMap_singleton ..
  have none : (Template.Family.withBuiltins { files := fs }).chunks.searchPaths = [] ∧
      (Template.Family.withBuiltins { files := fs }).snippets.searchPaths = [] := ⟨rfl, rfl⟩
  rw [searched, world]
  dsimp only
  rw [searchPaths_foldl, searchPaths_foldl, none.1, none.2, roots, paths, paths]
  simp only [List.append_nil, List.mem_append, List.mem_reverse, List.mem_map, Config.templateDirs]
  constructor
  · rintro (⟨entry, listed, same⟩ | ⟨entry, listed, same⟩)
    · exact ⟨entry, .inl listed, same⟩
    · exact ⟨entry, .inr listed, same⟩
  · rintro ⟨entry, listed | listed, same⟩
    · exact .inl ⟨entry, listed, same⟩
    · exact .inr ⟨entry, listed, same⟩

namespace Manifest

/-! What the entry of a template directory keeps out -/

variable {entry : String} {place inner down : List String}

theorem plain_of_shown {name : String} (proper : EntryName name) (shown : isHidden name = false) :
    Files.Path.Plain name.toList := by
  refine ⟨fun none => proper.1 (String.toList_injective none), ?_, ?_⟩ <;>
  · intro dots
    rw [isHidden, dots] at shown
    cases shown

/-- An entry that is no plain path covers hidden files only. -/
theorem covers_of_not_plain (filled : place ≠ []) (proper : ∀ name ∈ place, EntryName name)
    (shown : ∀ name ∈ place, isHidden name = false) (crooked : ¬ PlainPath (trimSlashes entry)) :
    covers (Config.asDir entry) ("/".intercalate place) = false := by
  apply Bool.eq_false_iff.mpr
  intro covered
  apply crooked
  rw [Config.asDir, covers, if_pos, List.isPrefixOf_iff_prefix] at covered
  -- What it covers has the segments of the entry for names, and those are in use as names.
  · obtain ⟨behind, -, rfl⟩ := names_of_prefix filled proper covered
    intro segment parted
    have member : String.ofList segment ∈
        (segments (trimSlashes entry)).map String.ofList ++ behind :=
      List.mem_append_left _ (List.mem_map_of_mem parted)
    have plain := plain_of_shown (proper _ member) (shown _ member)
    rwa [String.toList_ofList] at plain
  · rw [Files.Path.endsWithSlash_append (by decide)]
    rfl

theorem covers_of_plain (proper : ∀ name ∈ inner ++ down, EntryName name)
    (plain : PlainPath (trimSlashes entry)) (leads : inner = names (trimSlashes entry))
    (inside : down ≠ []) :
    covers (Config.asDir entry) ("/".intercalate (inner ++ down)) = true := by
  have filled : inner ++ down ≠ [] := List.append_ne_nil_of_right_ne_nil _ inside
  rw [Config.asDir, covers_below filled proper plain, ← leads]
  exact ⟨List.prefix_append _ _, fun whole => inside (List.self_eq_append_right.mp whole)⟩

theorem mem_scanExcludes_asDir {c : Config} (listed : entry ∈ c.templateDirs) :
    Config.asDir entry ∈ c.scanExcludes :=
  mem_scanExcludes.mpr (.inr (.inl ⟨entry, listed, rfl⟩))

/-- A file below a template directory is kept only where the entry is no plain path. -/
theorem kept_iff {c : Config} (proper : ∀ name ∈ inner ++ down, EntryName name)
    (inside : down ≠ []) (listed : entry ∈ c.templateDirs)
    (leads : PlainPath (trimSlashes entry) → inner = names (trimSlashes entry)) :
    Kept c.scanExcludes ("/".intercalate (inner ++ down)) ↔
      ¬ PlainPath (trimSlashes entry) ∧ (∀ name ∈ inner ++ down, isHidden name = false) ∧
        ∀ other ∈ c.scanExcludes, other ≠ Config.asDir entry →
          covers other ("/".intercalate (inner ++ down)) = false := by
  have filled : inner ++ down ≠ [] := List.append_ne_nil_of_right_ne_nil _ inside
  rw [Kept, Files.Path.splitOn_intercalate filled proper]
  constructor
  · rintro ⟨shown, free⟩
    refine ⟨fun plain => ?_, shown, fun other given _ => free other given⟩
    have own := covers_of_plain proper plain (leads plain) inside
    rw [free _ (mem_scanExcludes_asDir listed)] at own
    cases own
  · rintro ⟨crooked, shown, others⟩
    refine ⟨shown, fun other given => ?_⟩
    by_cases own : other = Config.asDir entry
    · rw [own]
      exact covers_of_not_plain filled proper shown crooked
    · exact others other given own

theorem scanSet_of_head {fs : Files} {source : String} {m : Manifest} {d : DocSet}
    (scanned : scan fs source = .ok m) (first : m.docSets.head? = some d) :
    scanSet fs source m.config.scanExcludes m.config.version "" = .ok d := by
  obtain ⟨config, current, others, -, head, -, rfl⟩ := scan_eq_ok.mp scanned
  cases first
  exact head

/-- The first doc set looks for templates in the directories of the configuration, from the root of
the source. A file in such a directory is a page or an asset just when the entry is no plain path,
nothing on the way is hidden, and no other entry covers it. -/
theorem templates_published_iff {fs : Files} {source looked : String} {m : Manifest} {d : DocSet}
    {tree : Node} {base inner down : List String} {content : ByteArray} {executable : Bool}
    (scanned : scan fs source = .ok m) (first : m.docSets.head? = some d)
    (here : fs.find? source = some tree) (sound : tree.sound = true)
    (searched : looked ∈ d.searched fs source m.config)
    (root : fs.place? source = some base) (leads : fs.place? looked = some (base ++ inner))
    (file : tree.find? (inner ++ down) = some (.file content executable)) (inside : down ≠ []) :
    (∃ entry ∈ m.config.templateDirs, join source entry = looked) ∧
    ∀ entry ∈ m.config.templateDirs, join source entry = looked →
      ("/".intercalate (inner ++ down) ∈ d.sources ↔
        ¬ PlainPath (trimSlashes entry) ∧ (∀ name ∈ inner ++ down, isHidden name = false) ∧
          ∀ other ∈ m.config.scanExcludes, other ≠ Config.asDir entry →
            covers other ("/".intercalate (inner ++ down)) = false) := by
  have current := scanSet_of_head scanned first
  have isRoot : d.path = "" := (sources_of_scanSet current).1
  have proper := (Node.sound_find? sound file).1
  have filled : inner ++ down ≠ [] := List.append_ne_nil_of_right_ne_nil _ inside
  have isDir : tree.isDir = true := by
    cases tree with
    | dir => rfl
    | file =>
      obtain ⟨name, rest, parted⟩ := List.exists_cons_of_ne_nil filled
      rw [parted] at file
      cases file
  have there : (tree.fileAt? ("/".intercalate (inner ++ down))).isSome = true := by
    rw [Option.isSome_iff_exists]
    refine ⟨content, Node.fileAt?_eq_some.mpr ⟨executable, ?_⟩⟩
    rw [Files.Path.splitOn_intercalate filled proper, file]
  refine ⟨(DocSet.mem_searched isRoot).mp searched, fun entry listed same => ?_⟩
  rw [mem_sources_iff_kept here current isDir sound, and_iff_right there]
  apply kept_iff proper inside listed
  intro plain
  rw [← same] at leads
  exact List.append_cancel_left (Files.place_of_join plain root leads)

end Manifest

/-! The layouts of a site, by their plain name and with a dot in front -/
namespace Layouts

def template : Node := .file "[[+page.content]]".toUTF8 false

def entries : List (String × Node) :=
  [("index.md", .file "Text.".toUTF8 false), ("layouts", .dir [("default.html", template)])]

def named : Files where
  root := .dir [("site", .dir entries)]

def dotted : Files where
  root := .dir [("site", .dir (("config.toml",
    .file "[templates]\nchunk_dirs = [\"./layouts\"]\nsnippet_dirs = [\"./layouts\"]".toUTF8 false)
      :: entries))]

def config : Config :=
  { templates := { chunkDirs := ["./layouts"], snippetDirs := ["./layouts"] } }

def page : Page :=
  { source := "index.md", output := "index.html", title := "index", body := "Text." }

def docSet (assets : List Asset) : DocSet := ⟨"", "", [page], assets, MenuItem.ofPages [page]⟩

def layout : Asset := ⟨"layouts/default.html", "layouts/default.html"⟩

theorem scan_named : Manifest.scan named "site" = .ok ⟨{}, [docSet []]⟩ :=
  Manifest.scan_unversioned rfl rfl (Manifest.scanSet_sorted rfl (by decide +kernel)
    (by decide +kernel) (by decide +kernel) (by decide +kernel))

theorem read_dotted : Manifest.readConfig dotted "site" = .ok config :=
  Manifest.ok_of_toOption (by decide +kernel)

theorem scan_dotted : Manifest.scan dotted "site" = .ok ⟨config, [docSet [layout]]⟩ :=
  Manifest.scan_unversioned read_dotted rfl (Manifest.scanSet_sorted rfl (by decide +kernel)
    (by decide +kernel) (by decide +kernel) (by decide +kernel))

end Layouts

open Layouts in
theorem named_layouts_kept_out :
    Manifest.scan named "site" = .ok ⟨{}, [docSet []]⟩ ∧
    "site/layouts" ∈ (docSet []).searched named "site" {} ∧
    named.place? "site" = some ["site"] ∧
    named.place? "site/layouts" = some (["site"] ++ ["layouts"]) ∧
    (Node.dir entries).find? (["layouts"] ++ ["default.html"]) = some template ∧
    "layouts/default.html" ∉ (docSet []).sources := by
  have sound : (Node.dir entries).sound = true := by decide +kernel
  have searched : "site/layouts" ∈ (docSet []).searched named "site" {} := by decide +kernel
  have root : named.place? "site" = some ["site"] := by decide +kernel
  have leads : named.place? "site/layouts" = some (["site"] ++ ["layouts"]) := by decide +kernel
  have file : (Node.dir entries).find? (["layouts"] ++ ["default.html"]) = some template := rfl
  have here : named.find? "site" = some (.dir entries) := by rfl
  obtain ⟨-, published⟩ := Manifest.templates_published_iff scan_named (List.head?_cons ..) here
    sound searched root leads file (by decide)
  refine ⟨scan_named, searched, root, leads, file, fun listed => ?_⟩
  exact ((published "layouts" (by decide) (by decide +kernel)).mp listed).1 (by decide)

open Layouts in
/-- The layout is looked up in `./layouts` of the source, and copied from there. -/
theorem dotted_layouts_published :
    Manifest.scan dotted "site" = .ok ⟨config, [docSet [layout]]⟩ ∧
    "site/./layouts" ∈ (docSet [layout]).searched dotted "site" config ∧
    dotted.place? "site" = some ["site"] ∧
    dotted.place? "site/./layouts" = some ["site", "layouts"] ∧
    "layouts/default.html" ∈ (docSet [layout]).sources :=
  ⟨scan_dotted, by decide +kernel, by decide +kernel, by decide +kernel, by decide +kernel⟩

end Site
end DocSite
