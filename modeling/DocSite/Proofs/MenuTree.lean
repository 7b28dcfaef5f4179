import DocSite.Proofs.Folders

/-! Menus as trees, and the folders that they come from. Each section of a menu stands for one folder,
and each page entry for one page that shows. -/
namespace DocSite.Site

/-- The item is in the menu, on whatever level. -/
inductive MenuItem.Within (item : MenuItem) : List MenuItem → Prop where
  | here {items : List MenuItem} : item ∈ items → Within item items
  | under {items children : List MenuItem} {title name : String} {index : Option String} :
    .section title name index children ∈ items → Within item children → Within item items

namespace Folder

/-- From the first folder this path leads down to the last. -/
inductive Leads : Folder → List String → Folder → Prop where
  | here {f : Folder} : Leads f [] f
  | down {f g h : Folder} {name : String} {path : List String} : (name, g) ∈ f.folders →
    Leads g path h → Leads f (name :: path) h

theorem Leads.listed {f g : Folder} {path : List String} (leads : Leads f path g)
    {e : List String × Page} (member : e ∈ g.listed) : (path ++ e.1, e.2) ∈ f.listed := by
  induction leads with
  | here => exact member
  | @down f g h name path found _ ih =>
    obtain ⟨pages, folders⟩ := f
    exact List.mem_append_right _ (mem_listedAll.mpr ⟨name, g, found, _, ih member, rfl⟩)

theorem Leads.snoc {f g h : Folder} {path : List String} {name : String} (leads : Leads f path g)
    (found : (name, h) ∈ g.folders) : Leads f (path ++ [name]) h := by
  induction leads with
  | here => exact .down found .here
  | down first _ ih => exact .down first (ih found)

/-- The output path of the directory that `path` leads to. -/
def outputOf (parent : String) (path : List String) : String :=
  path.foldl (fun parent name => outputPath parent (Naming.parse name).name) parent

/-- Titles and output paths of the directories on the way down `path`. -/
def chain (parent : String) : List String → List (String × String)
  | [] => []
  | name :: path =>
    let entry := Naming.parse name
    (entry.displayTitle, outputPath parent entry.name) :: chain (outputPath parent entry.name) path

theorem mem_sections {output : String} {item : MenuItem} {folders : List (String × Folder)} :
    item ∈ sections output folders ↔ ∃ name folder, (name, folder) ∈ folders ∧
      folder.items (outputOf output [name]) ≠ [] ∧
      item = .section (Naming.parse name).displayTitle (outputOf output [name]) folder.index?
        (folder.items (outputOf output [name])) := by
  induction folders with
  | nil => simp [sections]
  | cons named rest ih =>
    obtain ⟨name, folder⟩ := named
    have path : outputPath output (Naming.parse name).name = outputOf output [name] := rfl
    rw [sections, path]
    split
    · rename_i none
      rw [ih]
      constructor
      · rintro ⟨n, f, member, shows⟩
        exact ⟨n, f, List.mem_cons_of_mem _ member, shows⟩
      · rintro ⟨n, f, member, shows, same⟩
        rcases List.mem_cons.mp member with here | later
        · cases here
          exact absurd none shows
        · exact ⟨n, f, later, shows, same⟩
    · rename_i some
      rw [List.mem_cons, ih]
      constructor
      · rintro (here | ⟨n, f, member, shows⟩)
        · exact ⟨name, folder, List.mem_cons_self .., some, here⟩
        · exact ⟨n, f, List.mem_cons_of_mem _ member, shows⟩
      · rintro ⟨n, f, member, shows, same⟩
        rcases List.mem_cons.mp member with here | later
        · cases here
          exact .inl same
        · exact .inr ⟨n, f, later, shows, same⟩

theorem section_of_mem_items {f : Folder} {output title path : String} {index : Option String}
    {children : List MenuItem} (member : .section title path index children ∈ f.items output) :
    ∃ name folder, (name, folder) ∈ f.folders ∧ title = (Naming.parse name).displayTitle ∧
      path = outputOf output [name] ∧ index = folder.index? ∧ children = folder.items path ∧
      children ≠ [] := by
  obtain ⟨pages, folders⟩ := f
  rw [items, List.mem_append, List.mem_map] at member
  rcases member with ⟨_, -, other⟩ | member
  · cases other
  · obtain ⟨name, folder, found, shows, same⟩ := mem_sections.mp member
    cases same
    exact ⟨name, folder, found, rfl, rfl, rfl, rfl, shows⟩

theorem page_of_mem_items {f : Folder} {output title path : String}
    (member : .page title path ∈ f.items output) :
    ∃ p ∈ f.pages, p.inMenu = true ∧ p.title = title ∧ p.output = path := by
  obtain ⟨pages, folders⟩ := f
  rw [items, List.mem_append, List.mem_map] at member
  rcases member with ⟨p, shown, same⟩ | member
  · cases same
    obtain ⟨found, shows⟩ := List.mem_filter.mp shown
    exact ⟨p, found, shows, rfl, rfl⟩
  · obtain ⟨_, _, _, _, same⟩ := mem_sections.mp member
    cases same

theorem listed_of_mem_pages {f : Folder} {p : Page} (member : p ∈ f.pages) : ([], p) ∈ f.listed := by
  obtain ⟨pages, folders⟩ := f
  exact List.mem_append_left _ (List.mem_map.mpr ⟨p, member, rfl⟩)

/-- What is in the menu of a folder is an item of the menu of a folder inside of it. -/
theorem items_of_within {f : Folder} {output : String} {item : MenuItem}
    (within : item.Within (f.items output)) :
    ∃ path g, Leads f path g ∧ item ∈ g.items (outputOf output path) := by
  generalize shown : f.items output = items at within
  induction within generalizing f output with
  | here member => exact ⟨[], f, .here, shown ▸ member⟩
  | under member _ ih =>
    rw [← shown] at member
    obtain ⟨name, folder, found, -, rfl, -, children, -⟩ := section_of_mem_items member
    obtain ⟨path, g, leads, inside⟩ := ih children.symm
    exact ⟨name :: path, g, .down found leads, inside⟩

/-- A section stands for a folder, of which it shows the menu. -/
theorem folder_of_section {f : Folder} {output title name : String} {index : Option String}
    {children : List MenuItem}
    (within : (MenuItem.section title name index children).Within (f.items output)) :
    ∃ path last g, Leads f (path ++ [last]) g ∧ title = (Naming.parse last).displayTitle ∧
      name = outputOf output (path ++ [last]) ∧ index = g.index? ∧ children = g.items name ∧
      children ≠ [] := by
  obtain ⟨path, g, leads, member⟩ := items_of_within within
  obtain ⟨last, h, found, title, path', rest⟩ := section_of_mem_items member
  refine ⟨path, last, h, leads.snoc found, title, ?_, rest⟩
  rw [path', outputOf, outputOf, outputOf, List.foldl_append]

theorem page_of_within {f : Folder} {output title path : String}
    (within : (MenuItem.page title path).Within (f.items output)) :
    ∃ e ∈ f.listed, e.2.inMenu = true ∧ e.2.title = title ∧ e.2.output = path := by
  obtain ⟨dirs, g, leads, member⟩ := items_of_within within
  obtain ⟨p, found, shows⟩ := page_of_mem_items member
  exact ⟨_, leads.listed (listed_of_mem_pages found), shows⟩

/-- Where an item shows, a page does. -/
theorem shown_of_items : ∀ (f : Folder) {output : String}, f.items output ≠ [] →
    ∃ e ∈ f.listed, e.2.inMenu = true
  | mk pages folders, output, shows => by
    obtain ⟨item, member⟩ := List.exists_mem_of_ne_nil _ shows
    match item, member with
    | .page title path, member =>
      obtain ⟨p, found, visible, -⟩ := page_of_mem_items member
      exact ⟨_, listed_of_mem_pages found, visible⟩
    | .section title path index children, member =>
      obtain ⟨name, folder, found, -, -, -, same, some⟩ := section_of_mem_items member
      have smaller : sizeOf (name, folder) < sizeOf folders := List.sizeOf_lt_of_mem found
      obtain ⟨e, inside, visible⟩ := shown_of_items folder (same ▸ some)
      exact ⟨_, (Leads.down found .here).listed inside, visible⟩
termination_by f => sizeOf f
decreasing_by
  simp only [Prod.mk.sizeOf_spec, mk.sizeOf_spec] at *
  omega

end Folder
end DocSite.Site
