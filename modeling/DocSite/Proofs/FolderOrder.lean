import Mathlib.Data.List.Induction
import DocSite.Proofs.Folders

/-! Folders keep the order of their pages. Pages that come in order fill one folder after the other,
when no two directories beside each other count as equal in that order. -/
namespace DocSite.Naming

theorem compareKeys_swap (a b : Nat × String) : compareKeys a b = (compareKeys b a).swap := by
  rw [compareKeys, compareKeys, Ordering.swap_then, ← Std.OrientedCmp.eq_swap,
    ← Std.OrientedCmp.eq_swap]

theorem compareKeys_eq_iff {a b : Nat × String} : compareKeys a b = .eq ↔ a = b := by
  rw [compareKeys, Ordering.then_eq_eq, Std.compare_eq_iff_eq, Std.compare_eq_iff_eq, Prod.ext_iff]

/-- Keys that come neither before nor behind each other are the same. -/
theorem eq_of_compareKeys {a b : Nat × String} (first : compareKeys a b ≠ .gt)
    (second : compareKeys b a ≠ .gt) : a = b := by
  rw [compareKeys_swap] at second
  refine compareKeys_eq_iff.mp ?_
  cases order : compareKeys a b with
  | eq => rfl
  | gt => exact absurd order first
  | lt =>
    rw [order] at second
    exact absurd rfl second

end DocSite.Naming

namespace DocSite.Site

/-- The key that orders a directory among those beside it. -/
def dirKey (name : String) : Nat × String := (Naming.parse name).sortKey

/-- The first key does not come behind the second. -/
def PageKey.AtMost (a b : PageKey) : Prop := a.compare b ≠ .gt

instance (a b : PageKey) : Decidable (a.AtMost b) := inferInstanceAs (Decidable (_ ≠ _))

/-- Directories beside each other, on the way to any of these places, have different keys. -/
def Apart (paths : List (List String)) : Prop :=
  ∀ path ∈ paths, ∀ other ∈ paths, ∀ n < path.length, path.take n = other.take n →
    path[n]?.map dirKey = other[n]?.map dirKey → path[n]? = other[n]?

instance (paths : List (List String)) : Decidable (Apart paths) :=
  inferInstanceAs (Decidable (∀ path ∈ paths, ∀ other ∈ paths, ∀ n < path.length, _ → _ → _))

theorem Apart.mono {paths fewer : List (List String)} (apart : Apart paths)
    (among : ∀ path ∈ fewer, path ∈ paths) : Apart fewer :=
  fun path member other member' => apart path (among path member) other (among other member')

namespace Folder

/-- The key of a page, seen from a directory on the way to it. -/
def key (e : List String × Page) : PageKey :=
  { PageKey.ofSource e.2.source with dirs := e.1.map dirKey }

theorem key_located (p : Page) : key (located p) = PageKey.ofSource p.source := by
  have each : dirKey = fun name => (Naming.parse name).sortKey := rfl
  rw [key, located, pathOf, each, PageKey.ofSource]

theorem atMost_under {name : String} {e other : List String × Page} :
    (key (under name e)).AtMost (key (under name other)) ↔ (key e).AtMost (key other) := by
  simp only [PageKey.AtMost, PageKey.compare, key, under, List.map_cons, List.compareLex_cons_cons,
    Naming.compareKeys_eq_iff.mpr, Ordering.eq_then]

theorem compareKeys_of_under {a b : String} {e other : List String × Page}
    (order : (key (under a e)).AtMost (key (under b other))) :
    Naming.compareKeys (dirKey a) (dirKey b) ≠ .gt := by
  intro behind
  refine order ?_
  simp only [PageKey.compare, key, under, List.map_cons, List.compareLex_cons_cons, behind,
    Ordering.gt_then]

/-- A page of a directory does not come behind the pages of the directories in it. -/
theorem not_atMost_own {name : String} {e : List String × Page} {p : Page} :
    ¬ (key (under name e)).AtMost (key ([], p)) := by
  intro order
  refine order ?_
  simp only [PageKey.compare, key, under, List.map_cons, List.map_nil, List.compareLex_cons_nil,
    Ordering.gt_then]

theorem names_of_listedAll {e : List String × Page} {folders : List (String × Folder)}
    (member : e ∈ listedAll folders) : ∃ name ∈ folders.map Prod.fst, ∃ inner, under name inner = e := by
  obtain ⟨name, folder, found, inner, -, same⟩ := mem_listedAll.mp member
  exact ⟨name, List.mem_map_of_mem found, inner, same⟩

theorem TidyAll.split {name : String} {g : Folder} {before after : List (String × Folder)}
    (tidy : TidyAll (before ++ (name, g) :: after)) :
    name ∉ after.map Prod.fst ∧ g.listed ≠ [] ∧ g.Tidy := by
  induction before with
  | nil => exact tidy.1
  | cons _ _ ih => exact ih tidy.2

/-- By induction on the path: what would be listed behind the place of the page is in a directory
beside one of the path, which has pages before it and behind it, and so the same key. -/
theorem last_of_ordered {p : Page} (path : List String) : ∀ {f : Folder}, f.Tidy →
    (∀ e ∈ f.listed, (key e).AtMost (key (path, p))) →
    f.listed.Pairwise (fun e other => (key e).AtMost (key other)) →
    Apart (path :: f.listed.map Prod.fst) → Last path f := by
  induction path with
  | nil =>
    rintro ⟨pages, folders⟩ - upTo - -
    refine List.eq_nil_iff_forall_not_mem.mpr fun e member => ?_
    obtain ⟨name, -, inner, rfl⟩ := names_of_listedAll member
    exact not_atMost_own (upTo _ (List.mem_append_right _ member))
  | cons name path ih =>
    rintro ⟨pages, folders⟩ tidy upTo ordered apart before g after rfl
    obtain ⟨fresh, filled, inner⟩ := TidyAll.split tidy
    have parts : (mk pages (before ++ (name, g) :: after)).listed =
        (pages.map (([], ·)) ++ listedAll before) ++
          (g.listed.map (under name) ++ listedAll after) := by
      rw [listed, listedAll_append, listedAll, List.append_assoc]
    rw [parts] at upTo ordered apart
    have inside : ∀ e ∈ g.listed, under name e ∈ (pages.map (([], ·)) ++ listedAll before) ++
        (g.listed.map (under name) ++ listedAll after) := fun e member =>
      List.mem_append_right _ (List.mem_append_left _ (List.mem_map_of_mem member))
    obtain ⟨-, behind, -⟩ := List.pairwise_append.mp ordered
    obtain ⟨own, -, between⟩ := List.pairwise_append.mp behind
    refine ⟨List.eq_nil_iff_forall_not_mem.mpr fun e member => ?_, ih inner ?_ ?_ ?_⟩
    · obtain ⟨other, named, e, rfl⟩ := names_of_listedAll member
      obtain ⟨first, found⟩ := List.exists_mem_of_ne_nil _ filled
      have later := compareKeys_of_under
        (between _ (List.mem_map_of_mem found) _ member)
      have earlier := @compareKeys_of_under _ _ _ (path, p)
        (upTo _ (List.mem_append_right _ (List.mem_append_right _ member)))
      have same : some name = some other := by
        refine apart (name :: path) (List.mem_cons_self ..) (other :: e.1) ?_ 0 (Nat.succ_pos _) rfl
          (congrArg some (Naming.eq_of_compareKeys later earlier))
        have among := List.mem_append_right (g.listed.map (under name)) member
        exact List.mem_cons_of_mem _ (List.mem_map.mpr ⟨_, List.mem_append_right _ among, rfl⟩)
      exact fresh (Option.some.inj same ▸ named)
    · exact fun e member => atMost_under.mp (upTo _ (inside e member))
    · exact (List.pairwise_map.mp own).imp atMost_under.mp
    · have lift : ∀ q ∈ path :: g.listed.map Prod.fst, name :: q ∈ (name :: path) ::
          ((pages.map (([], ·)) ++ listedAll before) ++
            (g.listed.map (under name) ++ listedAll after)).map Prod.fst := by
        intro q member
        rcases List.mem_cons.mp member with rfl | member
        · exact List.mem_cons_self ..
        · obtain ⟨e, found, rfl⟩ := List.mem_map.mp member
          exact List.mem_cons_of_mem _ (List.mem_map.mpr ⟨_, inside e found, rfl⟩)
      intro one member other member' n inside front
      exact apart _ (lift one member) _ (lift other member') (n + 1) (Nat.succ_lt_succ inside)
        (congrArg (List.cons name) front)

/-- Pages in order are listed as they come. -/
theorem listed_of_ordered {pages : List Page}
    (ordered : pages.Pairwise fun p q => (PageKey.ofSource p.source).AtMost (PageKey.ofSource q.source))
    (apart : Apart (pages.map pathOf)) : (ofPages pages).listed = pages.map located := by
  induction pages using List.reverseRecOn with
  | nil => rfl
  | append_singleton pages p ih =>
    obtain ⟨before, -, upTo⟩ := List.pairwise_append.mp ordered
    have known : (ofPages pages).listed = pages.map located := by
      refine ih before (apart.mono fun path member => ?_)
      rw [List.map_append]
      exact List.mem_append_left _ member
    have paths : (pages.map located).map Prod.fst = pages.map pathOf := List.map_map
    have last : Last (pathOf p) (ofPages pages) := by
      refine last_of_ordered (p := p) (pathOf p) (tidy_ofPages pages) ?_ ?_ ?_
      · rw [known, List.forall_mem_map, ← located]
        intro q member
        rw [key_located, key_located]
        exact upTo q member p (List.mem_singleton_self p)
      · rw [known, List.pairwise_map]
        simpa only [key_located] using before
      · rw [known, paths]
        refine apart.mono fun path member => ?_
        rw [List.map_append, List.map_singleton, List.mem_append, List.mem_singleton]
        exact (List.mem_cons.mp member).symm
    have added := insert_last p (pathOf p) last
    rw [ofPages, List.foldl_append, List.foldl_cons, List.foldl_nil, List.map_append,
      List.map_singleton, ← known]
    exact added

end Folder
end DocSite.Site
