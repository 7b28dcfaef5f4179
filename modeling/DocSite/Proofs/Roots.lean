import DocSite.Proofs.Reference
import DocSite.Proofs.Scanned
import DocSite.Site.Rendering

/-! The way from a page up to the roots. The way to the root of its doc set is right at every depth.
From there to the root of the output it is one step, so it is right for doc sets that lie no deeper
than that, and so are the links of the version picker. -/
namespace DocSite

open Files.Path (Bridges PlainPath Plain names resolve? segments splitOnChar)
open Markdown.Link (destination? opensScheme pathOf)

namespace Files.Path

theorem length_segments (path : String) :
    (segments path).length = path.toList.count '/' + 1 := by
  unfold segments
  induction path.toList with
  | nil => rfl
  | cons c rest ih =>
    rw [splitOnChar]
    split
    · rename_i same
      rw [List.length_cons, ih, same, List.count_cons_self]
    · rename_i other
      rw [List.count_cons_of_ne other, ← ih]
      cases found : splitOnChar '/' rest with
      | nil => exact absurd found (splitOnChar_ne_nil '/' rest)
      | cons first more => rfl

end Files.Path

theorem Naming.pathToRoot_eq (output : String) : pathToRoot output =
    String.join (List.replicate (segments output).dropLast.length "../") := by
  rw [List.length_dropLast, Files.Path.length_segments, Nat.add_sub_cancel, pathToRoot]

theorem Naming.bridges_pathToRoot (dir : List (List Char)) (output : String) :
    Bridges (dir ++ (segments output).dropLast) (pathToRoot output) dir := by
  rw [pathToRoot_eq]
  exact .climb dir _

namespace Site.DocSet

/-- The names on the way from the root of the output to a doc set. -/
def directory (d : DocSet) : List (List Char) := (names d.path).map String.toList

/-- Where the picker of a page leads for a version. -/
def optionUrl (current : DocSet) (output : String) (target : DocSet) : String :=
  Naming.pathToRoot output ++ current.up ++ target.path ++ output

theorem versionOption_eq (current : DocSet) (output : String) (target : DocSet) :
    ∃ rest, current.versionOption output target =
      "<option value=\"" ++ current.optionUrl output target ++ "\"" ++ rest := by
  unfold optionUrl versionOption
  dsimp only [toString]
  generalize (if target.label = current.label then " selected=\"selected\"" else "") = mark
  refine ⟨mark ++ (">Version " ++ (target.label ++ "</option>")), ?_⟩
  simp only [String.append_assoc]

variable {d t : DocSet} {output : String}

theorem Rooted.segments_append (rooted : d.Rooted) (path : String) :
    segments (d.path ++ path) = d.directory ++ segments path := by
  obtain none | ⟨dir, plain, same⟩ := rooted
  · rw [directory, none, String.empty_append, Files.Path.names_empty]
    rfl
  · rw [directory, same, Files.Path.segments_sep, Files.Path.names_slash, plain.names_eq,
      List.map_map, String.toList_comp_ofList, List.map_id]

theorem Rooted.directory_of_up (rooted : d.Rooted) :
    d.up = "" ∧ d.directory = [] ∨ d.up = "../" ∧ ∃ front last, d.directory = front ++ [last] := by
  obtain none | ⟨dir, plain, same⟩ := rooted
  · refine .inl ⟨?_, ?_⟩
    · rw [up, none]
      rfl
    · rw [directory, none, Files.Path.names_empty, List.map_nil]
  · refine .inr ⟨?_, ?_⟩
    · rw [up, if_neg]
      rw [same]
      intro empty
      simpa using String.isEmpty_iff.mp empty
    · have filled : d.directory ≠ [] := by
        rw [directory, same, Files.Path.names_slash]
        intro none
        exact plain.names_ne_nil (List.map_eq_nil_iff.mp none)
      exact ⟨_, _, (List.dropLast_concat_getLast filled).symm⟩

/-- The way up from a doc set goes one step at most. -/
theorem Rooted.bridges_up (rooted : d.Rooted) : Bridges d.directory d.up d.directory.dropLast := by
  obtain ⟨up, root⟩ | ⟨up, front, last, below⟩ := rooted.directory_of_up
  · rw [up, root]
    exact .empty []
  · rw [up, below, List.dropLast_concat]
    exact .up front last

theorem Rooted.bridges_themeRoot (rooted : d.Rooted) :
    Bridges (d.directory ++ (segments output).dropLast) (d.up ++ Naming.pathToRoot output)
      d.directory.dropLast := by
  obtain ⟨up, root⟩ | ⟨up, front, last, below⟩ := rooted.directory_of_up
  · rw [up, root, String.empty_append]
    exact Naming.bridges_pathToRoot [] output
  · have climb := Bridges.climb front (last :: (segments output).dropLast)
    rw [List.length_cons, List.replicate_succ, String.join_cons, ← Naming.pathToRoot_eq] at climb
    rwa [up, below, List.dropLast_concat, List.append_assoc, List.singleton_append]

theorem directory_dropLast_eq_nil (d : DocSet) :
    d.directory.dropLast = [] ↔ d.directory.length ≤ 1 := by
  rw [← List.length_eq_zero_iff, List.length_dropLast]
  omega

theorem Rooted.bridges_themeRoot_iff (rooted : d.Rooted) :
    Bridges (d.directory ++ (segments output).dropLast) (d.up ++ Naming.pathToRoot output) [] ↔
      d.directory.length ≤ 1 := by
  rw [← directory_dropLast_eq_nil]
  constructor
  · intro leads
    exact rooted.bridges_themeRoot.unique leads
  · intro root
    rw [← root]
    exact rooted.bridges_themeRoot

/-- The link of the picker leads to the page of the other version, seen from the directory above
the doc set. -/
theorem Rooted.resolve?_optionUrl (rooted : d.Rooted) (other : t.Rooted)
    (plain : PlainPath output) :
    resolve? (d.directory ++ (segments output).dropLast) (segments (d.optionUrl output t)) =
      some (d.directory.dropLast ++ segments (t.path ++ output)) := by
  have back := (Naming.bridges_pathToRoot d.directory output).append rooted.bridges_up
  rw [optionUrl, String.append_assoc, back]
  exact Files.Path.resolve?_plain (Files.Path.segments_ne_nil _) (other.plain plain)

theorem Rooted.resolve?_optionUrl_iff (rooted : d.Rooted) (other : t.Rooted)
    (plain : PlainPath output) :
    resolve? (d.directory ++ (segments output).dropLast) (segments (d.optionUrl output t)) =
        some (segments (t.path ++ output)) ↔ d.directory.length ≤ 1 := by
  rw [rooted.resolve?_optionUrl other plain, Option.some.injEq, List.append_left_eq_self,
    directory_dropLast_eq_nil]

theorem Rooted.filled_optionUrl (rooted : d.Rooted) (other : t.Rooted) (plain : PlainPath output) :
    ∀ segment ∈ segments (d.optionUrl output t), segment ≠ [] := by
  have climbing {path : String} (filled : ∀ segment ∈ segments path, segment ≠ []) :
      ∀ segment ∈ segments ("../" ++ path), segment ≠ [] := by
    rw [Files.Path.segments_up]
    exact List.forall_mem_cons.mpr ⟨List.cons_ne_nil _ _, filled⟩
  have page : ∀ segment ∈ segments (d.up ++ (t.path ++ output)), segment ≠ [] := by
    have below := (other.plain plain).filled
    obtain ⟨up, -⟩ | ⟨up, -⟩ := rooted.directory_of_up
    · rwa [up, String.empty_append]
    · rw [up]
      exact climbing below
  rw [optionUrl, String.append_assoc, String.append_assoc, Naming.pathToRoot_eq]
  induction (segments output).dropLast.length with
  | zero => exact page
  | succ n ih =>
    rw [List.replicate_succ, String.join_cons, String.append_assoc]
    exact climbing ih

end Site.DocSet

namespace Site.Manifest

/-- From the directory of a page the one prefix leads to the root of its doc set. The other leads to
the root of the output, and the links of the picker to the page of each version, just when the doc
set is no deeper than one directory. What a reader of the output takes for more than a path leads
elsewhere. -/
theorem roots_lead {fs : Files} {source : String} {m : Manifest} {d : DocSet} {p : Page}
    (scanned : scan fs source = .ok m) (listed : d ∈ m.docSets) (plain : PlainPath p.output) :
    let here := (segments (d.path ++ p.output)).dropLast
    (∀ b : Template.Bindings, ∃ toRoot themeRoot,
      (b.extend (p.rootValues d)).get? "site.toRoot" = some toRoot ∧
      (b.extend (p.rootValues d)).get? "site.themeRoot" = some themeRoot ∧
      Bridges here toRoot d.directory ∧
      (Bridges here themeRoot [] ↔ d.directory.length ≤ 1)) ∧
    ∀ t ∈ m.docSets,
      (∃ rest, d.versionOption p.output t =
        "<option value=\"" ++ d.optionUrl p.output t ++ "\"" ++ rest) ∧
      (resolve? here (segments (d.optionUrl p.output t)) = some (segments (t.path ++ p.output)) ↔
        d.directory.length ≤ 1) ∧
      (destination? here (d.optionUrl p.output t).toList =
          some (segments (t.path ++ p.output), []) ↔
        d.directory.length ≤ 1 ∧ pathOf (d.optionUrl p.output t).toList =
          (d.optionUrl p.output t).toList ∧ opensScheme (d.optionUrl p.output t).toList = false) := by
  intro here
  have rooted := (scan_spec scanned d listed).1
  have placed : here = d.directory ++ (segments p.output).dropLast := by
    rw [← List.dropLast_append_of_ne_nil (Files.Path.segments_ne_nil p.output),
      ← rooted.segments_append]
  rw [placed]
  constructor
  · intro b
    refine ⟨Naming.pathToRoot p.output, d.up ++ Naming.pathToRoot p.output, ?_, ?_,
      Naming.bridges_pathToRoot d.directory p.output, rooted.bridges_themeRoot_iff⟩
    · simp [Page.rootValues, Template.Bindings.extend]
    · simp [Page.rootValues, Template.Bindings.extend]
  · intro t other
    have target := (scan_spec scanned t other).1
    have leads := rooted.resolve?_optionUrl_iff target plain
    refine ⟨DocSet.versionOption_eq d p.output t, leads, ?_⟩
    rw [Markdown.Link.destination?_whole (rooted.filled_optionUrl target plain), leads]

/-! Two sources -/

/-- What each page of a site is given to find its way. -/
def ways (m : Manifest) : List (String × List (String × String) × List String) :=
  m.docSets.flatMap fun d => d.pages.map fun p =>
    (d.path ++ p.output, p.rootValues d, m.docSets.map (d.optionUrl p.output))

/-- A source with one page, and one more version. -/
def edition (versions : String) (entry : String × Files.Node) : Files where
  root := .dir [("site", .dir [
    ("config.toml", .file ("version = \"2\"\nversions = " ++ versions).toUTF8 false),
    ("a.md", .file "x".toUTF8 false), entry])]

/-- A version one directory down. -/
def shallow : Files :=
  edition "[\"v1\"]" ("v1", .dir [("guide", .dir [("b.md", .file "y".toUTF8 false)])])

/-- A version two directories down. -/
def deep : Files :=
  edition "[\"old/v1\"]" ("old", .dir [("v1", .dir [("a.md", .file "y".toUTF8 false)])])

theorem shallow_roots_lead : ∃ m d, scan shallow "site" = .ok m ∧ d ∈ m.docSets ∧
    d.path = "v1/" ∧ PlainPath "guide/b.html" ∧
    let here := (segments "v1/guide/b.html").dropLast
    Bridges here "../" [['v', '1']] ∧ Bridges here "../../" [] ∧
      ∀ t ∈ m.docSets, destination? here (d.optionUrl "guide/b.html" t).toList =
        some (segments (t.path ++ "guide/b.html"), []) := by
  have found : (scan shallow "site").toOption.map (·.docSets.map (·.path)) =
      some ["", "v1/"] := by decide +kernel
  cases scanned : scan shallow "site" with
  | error e => rw [scanned] at found; cases found
  | ok m =>
    rw [scanned] at found
    have paths : m.docSets.map (·.path) = ["", "v1/"] := Option.some.inj found
    obtain ⟨d, listed, path⟩ : ∃ d ∈ m.docSets, d.path = "v1/" :=
      List.mem_map.mp (paths ▸ by simp)
    have plain : PlainPath "guide/b.html" := by decide
    have there : d.directory = [['v', '1']] := by rw [DocSet.directory, path]; decide
    let p : Page := ⟨"guide/b.md", "guide/b.html", "b", none, true, [], [], "y"⟩
    obtain ⟨prefixes, options⟩ := roots_lead (p := p) scanned listed plain
    obtain ⟨toRoot, themeRoot, first, second, toSet, toOutput⟩ := prefixes {}
    have values : p.rootValues d = [("site.toRoot", "../"), ("site.themeRoot", "../../")] := by
      rw [Page.rootValues, DocSet.up, path]
      decide
    rw [values] at first second
    cases first
    cases second
    rw [there] at toSet toOutput
    rw [path] at toSet toOutput options
    refine ⟨m, d, rfl, listed, path, plain, toSet, toOutput.mpr (by decide), ?_⟩
    intro t other
    obtain ⟨-, -, reader⟩ := options t other
    refine reader.mpr ⟨by rw [there]; decide, ?_⟩
    have either : t.path = "" ∨ t.path = "v1/" := by
      have member : t.path ∈ m.docSets.map (·.path) := List.mem_map_of_mem other
      rw [paths] at member
      simpa using member
    rw [DocSet.optionUrl, DocSet.up, path]
    rcases either with same | same <;> rw [same] <;> decide

/-- The doc set lies two directories down, and the way up is one step. -/
theorem deep_roots_miss :
    (scan deep "site").toOption.map ways =
      some [("a.html", [("site.toRoot", ""), ("site.themeRoot", "")],
          ["a.html", "old/v1/a.html"]),
        ("old/v1/a.html", [("site.toRoot", ""), ("site.themeRoot", "../")],
          ["../a.html", "../old/v1/a.html"])] ∧
    let here := (segments "old/v1/a.html").dropLast
    ¬ Bridges here "../" [] ∧ resolve? here (segments "../a.html") = some (segments "old/a.html") ∧
      resolve? here (segments "../old/v1/a.html") = some (segments "old/old/v1/a.html") := by
  refine ⟨by decide +kernel, ?_, by decide +kernel⟩
  intro leads
  have outside := leads "x"
  revert outside
  decide +kernel

end Site.Manifest

end DocSite
