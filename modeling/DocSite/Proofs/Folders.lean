import DocSite.Site.Navigation
import DocSite.Site.PageOrder

/-! The folders that a list of pages makes. Each page stands in them once, at the end of its own
path, and the folders beside each other have different names. Pages that come in order stay in
order. -/
namespace DocSite.Site.Folder

/-- What stands in a folder called `name`, seen from outside of it. -/
def under (name : String) (e : List String × Page) : List String × Page := (name :: e.1, e.2)

mutual

/-- The pages of a folder with the directories on the way to them: its own pages first, then those
of one folder after the other. -/
def listed : Folder → List (List String × Page)
  | mk pages folders => pages.map (([], ·)) ++ listedAll folders

def listedAll : List (String × Folder) → List (List String × Page)
  | [] => []
  | (name, folder) :: rest => folder.listed.map (under name) ++ listedAll rest

end

/-- A page where it lies. -/
def located (p : Page) : List String × Page := (pathOf p, p)

theorem listed_empty : empty.listed = [] := rfl

theorem listedAll_append (a b : List (String × Folder)) :
    listedAll (a ++ b) = listedAll a ++ listedAll b := by
  induction a with
  | nil => rfl
  | cons named rest ih =>
    obtain ⟨name, folder⟩ := named
    rw [List.cons_append, listedAll, listedAll, ih, List.append_assoc]

theorem mem_listedAll {e : List String × Page} {folders : List (String × Folder)} :
    e ∈ listedAll folders ↔
      ∃ name folder, (name, folder) ∈ folders ∧ ∃ inner ∈ folder.listed, under name inner = e := by
  induction folders with
  | nil => simp [listedAll]
  | cons named rest ih =>
    obtain ⟨name, folder⟩ := named
    rw [listedAll, List.mem_append, ih, List.mem_map]
    constructor
    · rintro (inside | ⟨other, found, member, inside⟩)
      · exact ⟨name, folder, List.mem_cons_self .., inside⟩
      · exact ⟨other, found, List.mem_cons_of_mem _ member, inside⟩
    · rintro ⟨other, found, member, inside⟩
      rcases List.mem_cons.mp member with same | member
      · cases same
        exact .inl inside
      · exact .inr ⟨other, found, member, inside⟩

/-! Inserting a page -/

theorem alter_perm {name : String} {change : Folder → Folder} {e : List String × Page}
    (adds : ∀ f, (change f).listed.Perm (f.listed ++ [e])) (folders : List (String × Folder)) :
    (listedAll (alter name change folders)).Perm (listedAll folders ++ [under name e]) := by
  induction folders with
  | nil =>
    have first := (adds empty).map (under name)
    simpa [alter, listedAll, listed_empty] using first
  | cons named rest ih =>
    obtain ⟨n, f⟩ := named
    rw [alter]
    split
    · rename_i same
      subst same
      rw [listedAll, listedAll]
      have here := ((adds f).map (under n)).append_right (listedAll rest)
      rw [List.map_append, List.append_assoc] at here
      rw [List.append_assoc]
      exact here.trans (List.Perm.append_left _ List.perm_append_comm)
    · rw [listedAll, listedAll, List.append_assoc]
      exact ih.append_left _

/-- A page is added at the end of its path and nothing else changes. -/
theorem insert_perm (p : Page) (path : List String) :
    ∀ f : Folder, (f.insert p path).listed.Perm (f.listed ++ [(path, p)]) := by
  induction path with
  | nil =>
    rintro ⟨pages, folders⟩
    rw [insert, listed, listed, List.map_append, List.append_assoc, List.append_assoc]
    exact List.Perm.append_left _ List.perm_append_comm
  | cons name path ih =>
    rintro ⟨pages, folders⟩
    rw [insert, listed, listed, List.append_assoc]
    exact (alter_perm ih folders).append_left _

theorem foldl_perm (pages : List Page) (f : Folder) :
    (pages.foldl (fun f p => f.insert p (pathOf p)) f).listed.Perm
      (f.listed ++ pages.map located) := by
  induction pages generalizing f with
  | nil => simp
  | cons p rest ih =>
    have added := (insert_perm p (pathOf p) f).append_right (rest.map located)
    rw [List.append_assoc] at added
    exact (ih (f.insert p (pathOf p))).trans added

/-- The folders of a list of pages hold each of them once, where it lies, and no other page. -/
theorem listed_ofPages (pages : List Page) : (ofPages pages).listed.Perm (pages.map located) :=
  foldl_perm pages empty

/-! Folders beside each other -/

mutual

/-- Folders beside each other have different names, and there is a page in each. -/
def Tidy : Folder → Prop
  | mk _ folders => TidyAll folders

def TidyAll : List (String × Folder) → Prop
  | [] => True
  | (name, folder) :: rest =>
    (name ∉ rest.map Prod.fst ∧ folder.listed ≠ [] ∧ folder.Tidy) ∧ TidyAll rest

end

theorem names_alter (name : String) (change : Folder → Folder) (folders : List (String × Folder)) :
    ∀ n ∈ (alter name change folders).map Prod.fst, n = name ∨ n ∈ folders.map Prod.fst := by
  induction folders with
  | nil => simp [alter]
  | cons named rest ih =>
    obtain ⟨m, f⟩ := named
    rw [alter]
    split
    · exact fun n => .inr
    · intro n member
      rcases List.mem_cons.mp member with rfl | member
      · exact .inr (List.mem_cons_self ..)
      · exact (ih n member).imp_right (List.mem_cons_of_mem _)

theorem TidyAll.alter {name : String} {change : Folder → Folder} (fills : ∀ f, (change f).listed ≠ [])
    (keeps : ∀ f : Folder, f.Tidy → (change f).Tidy) {folders : List (String × Folder)}
    (tidy : TidyAll folders) : TidyAll (alter name change folders) := by
  induction folders with
  | nil => exact ⟨⟨List.not_mem_nil, fills empty, keeps empty trivial⟩, trivial⟩
  | cons named rest ih =>
    obtain ⟨n, f⟩ := named
    obtain ⟨⟨fresh, filled, inner⟩, later⟩ := tidy
    rw [Folder.alter]
    split
    · exact ⟨⟨fresh, fills f, keeps f inner⟩, later⟩
    · rename_i other
      refine ⟨⟨fun member => ?_, filled, inner⟩, ih later⟩
      rcases names_alter name change rest n member with same | old
      · exact other same
      · exact fresh old

theorem insert_filled (p : Page) (path : List String) (f : Folder) :
    (f.insert p path).listed ≠ [] := by
  intro none
  have added := (insert_perm p path f).length_eq
  rw [none, List.length_append] at added
  simp at added

theorem Tidy.insert (p : Page) (path : List String) :
    ∀ {f : Folder}, f.Tidy → (f.insert p path).Tidy := by
  induction path with
  | nil =>
    rintro ⟨pages, folders⟩ tidy
    exact tidy
  | cons name path ih =>
    rintro ⟨pages, folders⟩ tidy
    exact TidyAll.alter (insert_filled p path) (fun _ => ih) tidy

theorem tidy_ofPages (pages : List Page) : (ofPages pages).Tidy := by
  have all : ∀ f : Folder, f.Tidy → (pages.foldl (fun f p => f.insert p (pathOf p)) f).Tidy := by
    induction pages with
    | nil => exact fun _ tidy => tidy
    | cons p rest ih => exact fun f tidy => ih _ (tidy.insert p (pathOf p))
  exact all empty trivial

/-! Pages in order -/

/-- Nothing is listed behind the place of a page that comes to the end of `path`. -/
def Last : List String → Folder → Prop
  | [], f => listedAll f.folders = []
  | name :: path, f => ∀ before g after, f.folders = before ++ (name, g) :: after →
    listedAll after = [] ∧ Last path g

theorem alter_last {name : String} {change : Folder → Folder} {e : List String × Page}
    (made : (change empty).listed = [e]) {folders : List (String × Folder)}
    (last : ∀ before g after, folders = before ++ (name, g) :: after →
      listedAll after = [] ∧ (change g).listed = g.listed ++ [e]) :
    listedAll (alter name change folders) = listedAll folders ++ [under name e] := by
  induction folders with
  | nil => simp [alter, listedAll, made]
  | cons named rest ih =>
    obtain ⟨n, f⟩ := named
    rw [alter]
    split
    · rename_i same
      subst same
      obtain ⟨behind, added⟩ := last [] f rest rfl
      rw [listedAll, listedAll, behind, added, List.map_append, List.append_nil, List.append_nil]
      rfl
    · have later := ih fun before g after split =>
        last ((n, f) :: before) g after (congrArg (List.cons _) split)
      rw [listedAll, listedAll, later, List.append_assoc]

theorem last_empty (path : List String) : Last path empty := by
  cases path with
  | nil => rfl
  | cons name path =>
    intro before g after split
    cases before <;> cases split

theorem insert_last (p : Page) (path : List String) :
    ∀ {f : Folder}, Last path f → (f.insert p path).listed = f.listed ++ [(path, p)] := by
  induction path with
  | nil =>
    rintro ⟨pages, folders⟩ last
    have none : listedAll folders = [] := last
    rw [insert, listed, listed, none]
    simp
  | cons name path ih =>
    rintro ⟨pages, folders⟩ last
    have made : (empty.insert p path).listed = [(path, p)] := ih (last_empty path)
    rw [insert, listed, listed, alter_last made, List.append_assoc]
    · rfl
    · intro before g after split
      obtain ⟨behind, inner⟩ := last before g after split
      exact ⟨behind, ih inner⟩

end DocSite.Site.Folder
