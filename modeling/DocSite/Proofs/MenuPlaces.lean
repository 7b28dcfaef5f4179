import Mathlib.Data.List.Forall2
import DocSite.Proofs.FolderOrder
import DocSite.Proofs.MenuTree

/-! Where the pages of a site stand in its menu: each page that shows once, below the sections of
its directories, and in the order of the pages. -/
namespace DocSite.Site

/-- A page entry as it stands in a menu. -/
structure Place where
  /-- Which of its siblings each section above the entry is, the outermost section first. -/
  route : List Nat
  /-- Titles and output paths of these sections. -/
  above : List (String × String)
  title : String
  output : String
  deriving DecidableEq, Repr

/-- The entry with one more section above it. -/
def Place.below (position : Nat) (title output : String) (x : Place) : Place :=
  { x with route := position :: x.route, above := (title, output) :: x.above }

namespace MenuItem

mutual

/-- The page entries of an item and all below it, where `position` is the place of the item among
its siblings. -/
def places (position : Nat) : MenuItem → List Place
  | .page title path => [⟨[], [], title, path⟩]
  | .section title name _ children => (placesAll 0 children).map (Place.below position title name)

def placesAll (position : Nat) : List MenuItem → List Place
  | [] => []
  | item :: rest => item.places position ++ placesAll (position + 1) rest

end

theorem placesAll_append (position : Nat) (a b : List MenuItem) :
    placesAll position (a ++ b) = placesAll position a ++ placesAll (position + a.length) b := by
  induction a generalizing position with
  | nil => rfl
  | cons item rest ih =>
    rw [List.cons_append, placesAll, placesAll, ih, List.append_assoc, List.length_cons,
      Nat.add_assoc, Nat.add_comm 1]

end MenuItem

namespace Folder

open MenuItem

/-- The page shows in the menu. -/
def shows (e : List String × Page) : Bool := e.2.inMenu

/-- The entry is that of the page, below the sections of its directories. -/
structure Stands (parent : String) (e : List String × Page) (x : Place) : Prop where
  title : x.title = e.2.title
  output : x.output = e.2.output
  above : x.above = chain parent e.1

/-- Both pages part where their entries part: in the same directory just as far as they are below
the same section. -/
def Alongside (a b : (List String × Page) × Place) : Prop :=
  ∀ n, a.2.route.take n = b.2.route.take n ↔ a.1.1.take n = b.1.1.take n

/-- The pages and their entries, one by one. -/
structure Matches (parent : String) (listed : List (List String × Page)) (places : List Place) :
    Prop where
  stands : List.Forall₂ (Stands parent) listed places
  alongside : ∀ a ∈ listed.zip places, ∀ b ∈ listed.zip places, Alongside a b

theorem Alongside.symm {a b : (List String × Page) × Place} (along : Alongside a b) :
    Alongside b a := fun n => by
  rw [eq_comm, along n, eq_comm]

theorem take_eq_iff_of_head? {α : Type} {a b : List α} (part : a.head? ≠ b.head?) (n : Nat) :
    a.take n = b.take n ↔ n = 0 := by
  refine ⟨fun same => ?_, fun none => by rw [none]; rfl⟩
  cases n with
  | zero => rfl
  | succ n =>
    have heads := congrArg List.head? same
    rw [List.head?_take, List.head?_take] at heads
    exact absurd (by simpa using heads) part

/-- Pages that part at once stand alongside when their entries part at once. -/
theorem Alongside.of_head? {a b : (List String × Page) × Place}
    (dirs : a.1.1.head? ≠ b.1.1.head?) (routes : a.2.route.head? ≠ b.2.route.head?) :
    Alongside a b := fun n => by
  rw [take_eq_iff_of_head? dirs, take_eq_iff_of_head? routes]

theorem Matches.append {parent : String} {listed more : List (List String × Page)}
    {places later : List Place} (first : Matches parent listed places)
    (second : Matches parent more later)
    (part : ∀ a ∈ listed.zip places, ∀ b ∈ more.zip later, Alongside a b) :
    Matches parent (listed ++ more) (places ++ later) where
  stands := List.rel_append first.stands second.stands
  alongside := by
    rw [List.zip_append first.stands.length_eq]
    intro a inA b inB
    rcases List.mem_append.mp inA with inA | inA <;> rcases List.mem_append.mp inB with inB | inB
    · exact first.alongside a inA b inB
    · exact part a inA b inB
    · exact (part b inB a inA).symm
    · exact second.alongside a inA b inB

theorem Matches.under {name parent : String} {listed : List (List String × Page)}
    {places : List Place} (position : Nat) (inner : Matches (outputOf parent [name]) listed places) :
    Matches parent (listed.map (under name))
      (places.map (Place.below position (Naming.parse name).displayTitle (outputOf parent [name])))
    where
  stands := by
    rw [List.forall₂_map_left_iff, List.forall₂_map_right_iff]
    exact inner.stands.imp fun e x stands =>
      ⟨stands.title, stands.output, congrArg (List.cons _) stands.above⟩
  alongside := by
    rw [List.zip_map, List.forall_mem_map]
    intro a inA
    rw [List.forall_mem_map]
    rintro b inB (_ | n)
    · exact iff_of_true rfl rfl
    · have along := inner.alongside a inA b inB n
      simpa [Folder.under, Place.below] using along

theorem filter_listedAll_cons (name : String) (folder : Folder) (rest : List (String × Folder)) :
    (listedAll ((name, folder) :: rest)).filter shows =
      (folder.listed.filter shows).map (under name) ++ (listedAll rest).filter shows := by
  rw [listedAll, List.filter_append, List.filter_map]
  rfl

/-- Entries below sections know the section and the directory where they begin. -/
theorem routes_of_sections {output : String} {folders : List (String × Folder)} {position : Nat}
    {x : Place} (member : x ∈ placesAll position (sections output folders)) :
    ∃ n ≥ position, x.route.head? = some n := by
  induction folders generalizing position with
  | nil =>
    rw [sections] at member
    cases member
  | cons named rest ih =>
    obtain ⟨name, folder⟩ := named
    rw [sections] at member
    split at member
    · exact ih member
    · rw [placesAll, places, List.mem_append] at member
      rcases member with here | later
      · obtain ⟨y, -, rfl⟩ := List.mem_map.mp here
        exact ⟨position, Nat.le_refl _, rfl⟩
      · obtain ⟨n, behind, same⟩ := ih later
        exact ⟨n, Nat.le_of_succ_le behind, same⟩

theorem dirs_of_sections {folders : List (String × Folder)} {e : List String × Page}
    (member : e ∈ (listedAll folders).filter shows) :
    ∃ name ∈ folders.map Prod.fst, e.1.head? = some name := by
  obtain ⟨name, named, inner, rfl⟩ := names_of_listedAll (List.mem_filter.mp member |>.1)
  exact ⟨name, named, rfl⟩

theorem placesAll_own (position : Nat) (pages : List Page) :
    placesAll position (pages.map fun p => .page p.title p.output) =
      pages.map fun p => ⟨[], [], p.title, p.output⟩ := by
  induction pages generalizing position with
  | nil => rfl
  | cons p rest ih =>
    rw [List.map_cons, placesAll, ih]
    rfl

/-- The pages of a folder itself are in no section of its menu. -/
theorem own_match (parent : String) (pages : List Page) :
    Matches parent (pages.map (([], ·))) (pages.map fun p => ⟨[], [], p.title, p.output⟩) where
  stands := by
    rw [List.forall₂_map_left_iff, List.forall₂_map_right_iff, List.forall₂_same]
    exact fun p _ => ⟨rfl, rfl, rfl⟩
  alongside := by
    rw [List.zip_map, List.forall_mem_map]
    intro a _
    rw [List.forall_mem_map]
    exact fun b _ n => iff_of_true rfl rfl

mutual

/-- A folder and its menu, by recursion over both: what the menu leaves out shows nowhere. -/
theorem items_match : ∀ (f : Folder) (parent : String) (position : Nat), f.Tidy →
    Matches parent (f.listed.filter shows) (placesAll position (f.items parent))
  | mk pages folders, parent, position, tidy => by
    have own : (pages.map fun p => (([], p) : List String × Page)).filter shows =
        (pages.filter (·.inMenu)).map (([], ·)) := List.filter_map
    rw [listed, List.filter_append, own, items, placesAll_append, placesAll_own]
    refine (own_match parent _).append (sections_match folders parent _ tidy) fun a inA b inB => ?_
    obtain ⟨ownDirs, ownRoute⟩ := List.of_mem_zip inA
    obtain ⟨p, -, dirs⟩ := List.mem_map.mp ownDirs
    obtain ⟨q, -, route⟩ := List.mem_map.mp ownRoute
    obtain ⟨inDirs, inRoutes⟩ := List.of_mem_zip inB
    obtain ⟨name, -, dir⟩ := dirs_of_sections inDirs
    obtain ⟨n, -, position⟩ := routes_of_sections inRoutes
    refine .of_head? ?_ ?_
    · rw [dir, ← dirs]
      exact Option.some_ne_none name |>.symm
    · rw [position, ← route]
      exact Option.some_ne_none n |>.symm

theorem sections_match : ∀ (folders : List (String × Folder)) (parent : String) (position : Nat),
    TidyAll folders →
    Matches parent ((listedAll folders).filter shows) (placesAll position (sections parent folders))
  | [], parent, position, _ => ⟨.nil, fun a inA => by cases inA⟩
  | (name, folder) :: rest, parent, position, tidy => by
    obtain ⟨⟨fresh, -, inside⟩, later⟩ := tidy
    have inner := items_match folder (outputOf parent [name]) 0 inside
    have path : outputPath parent (Naming.parse name).name = outputOf parent [name] := rfl
    rw [filter_listedAll_cons, sections, path]
    split
    · rename_i none
      rw [none] at inner
      rw [List.forall₂_nil_right_iff.mp inner.stands, List.map_nil, List.nil_append]
      exact sections_match rest parent position later
    · rw [placesAll, places]
      refine (inner.under position).append (sections_match rest parent _ later) fun a inA b inB => ?_
      obtain ⟨hereDirs, hereRoute⟩ := List.of_mem_zip inA
      obtain ⟨e, -, dirs⟩ := List.mem_map.mp hereDirs
      obtain ⟨x, -, route⟩ := List.mem_map.mp hereRoute
      obtain ⟨inDirs, inRoutes⟩ := List.of_mem_zip inB
      obtain ⟨other, named, dir⟩ := dirs_of_sections inDirs
      obtain ⟨n, behind, next⟩ := routes_of_sections inRoutes
      refine .of_head? ?_ ?_
      · rw [dir, ← dirs]
        rintro same
        exact fresh (Option.some.inj same ▸ named)
      · rw [next, ← route]
        rintro same
        have := Option.some.inj same
        omega

end

theorem Tidy.of_leads {f g : Folder} {path : List String} (tidy : f.Tidy) (leads : Leads f path g) :
    g.Tidy := by
  induction leads with
  | here => exact tidy
  | @down f g h name path found _ ih =>
    obtain ⟨pages, folders⟩ := f
    obtain ⟨before, after, rfl⟩ : ∃ before after, folders = before ++ (name, g) :: after :=
      List.append_of_mem found
    exact ih (TidyAll.split tidy).2.2

/-- Where an item shows, a page stands. -/
theorem places_of_items {f : Folder} {parent : String} (tidy : f.Tidy) (some : f.items parent ≠ []) :
    placesAll 0 (f.items parent) ≠ [] := by
  obtain ⟨e, listed, visible⟩ := shown_of_items f some
  intro none
  have stands := (items_match f parent 0 tidy).stands
  rw [none, List.forall₂_nil_right_iff] at stands
  exact List.ne_nil_of_mem (List.mem_filter.mpr ⟨listed, visible⟩) stands

end Folder

open Folder (located pathOf shows Matches)
open MenuItem (placesAll)

/-- The menu of some pages shows each of them once that is not hidden, and nothing else: below the
sections of its directories, which are the sections of another page as far as both have their
directories in common. There is a page in each section. Pages that come in order stay in order,
unless directories beside each other have the same key. -/
theorem menu_shows_pages (pages : List Page) : ∃ order : List Page,
    order.Perm (pages.filter (·.inMenu)) ∧
    Matches "" (order.map located) (placesAll 0 (MenuItem.ofPages pages)) ∧
    (∀ title name index children,
      (MenuItem.section title name index children).Within (MenuItem.ofPages pages) →
        placesAll 0 children ≠ []) ∧
    ((pages.Pairwise fun p q => (PageKey.ofSource p.source).AtMost (PageKey.ofSource q.source)) →
      Apart (pages.map pathOf) → order = pages.filter (·.inMenu)) := by
  have tidy := Folder.tidy_ofPages pages
  have perm := Folder.listed_ofPages pages
  have visible : (pages.map located).filter shows = (pages.filter (·.inMenu)).map located :=
    List.filter_map
  have undo (some : List Page) : (some.map located).map Prod.snd = some := by
    rw [List.map_map]
    exact List.map_id some
  have lies : (((Folder.ofPages pages).listed.filter shows).map Prod.snd).map located =
      (Folder.ofPages pages).listed.filter shows := by
    rw [List.map_map]
    refine (List.map_congr_left fun e member => ?_).trans (List.map_id _)
    obtain ⟨p, -, rfl⟩ := List.mem_map.mp (perm.mem_iff.mp (List.mem_filter.mp member).1)
    rfl
  refine ⟨((Folder.ofPages pages).listed.filter shows).map Prod.snd, ?_, ?_, ?_, ?_⟩
  · have shown := (perm.filter shows).map Prod.snd
    rwa [visible, undo] at shown
  · rw [lies]
    exact Folder.items_match (Folder.ofPages pages) "" 0 tidy
  · intro title name index children within
    obtain ⟨front, last, g, leads, -, rfl, -, rfl, some⟩ := Folder.folder_of_section within
    exact Folder.places_of_items (tidy.of_leads leads) some
  · intro ordered apart
    rw [Folder.listed_of_ordered ordered apart, visible, undo]

/-! Two directories of one title, and so two sections of one name, beside each other. -/
namespace Twins

def page (source : String) (inMenu : Bool) : Page :=
  { source, output := Naming.pageOutputPath source, title := "Page", inMenu }

def pages : List Page :=
  [page "readme.md" true, page "01_Guide/index.md" true, page "01_Guide/draft.md" false,
    page "01_Guide/02_Part/first.md" true, page "Guide/last.md" true]

end Twins

open Twins in
theorem twins_shown :
    (pages.Pairwise fun p q => (PageKey.ofSource p.source).AtMost (PageKey.ofSource q.source)) ∧
    Apart (pages.map pathOf) ∧ (pages.filter (·.inMenu)).length = 4 ∧
    Matches "" ((pages.filter (·.inMenu)).map located) (placesAll 0 (MenuItem.ofPages pages)) := by
  have ordered : pages.Pairwise fun p q =>
      (PageKey.ofSource p.source).AtMost (PageKey.ofSource q.source) := by decide +kernel
  have apart : Apart (pages.map pathOf) := by decide +kernel
  obtain ⟨order, -, placed, -, kept⟩ := menu_shows_pages pages
  exact ⟨ordered, apart, rfl, kept ordered apart ▸ placed⟩

end DocSite.Site
