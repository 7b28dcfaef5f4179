import DocSite.Proofs.MenuTree

/-! The text of a menu. It is made of lines: one for each page, and two for each section, around
those of its items. The lines show what the listing of the menu shows, in its order and as deep. -/
namespace DocSite.Site

/-- An HTML tag. -/
inductive Tag where
  | opens (name : String)
  | closes (name : String)
deriving DecidableEq, Repr

namespace Tag

def name : Tag → String
  | opens name => name
  | closes name => name

/-- The tag that a text behind `<` begins with. -/
def read : List Char → Tag
  | '/' :: rest => closes (String.ofList (rest.takeWhile Char.isAlphanum))
  | rest => opens (String.ofList (rest.takeWhile Char.isAlphanum))

/-- The tags of a text. -/
def readAll : List Char → List Tag
  | [] => []
  | c :: rest => if c = '<' then read rest :: readAll rest else readAll rest

/-- Whether each tag closes the one that was opened last of those still open, and all are closed
in the end. -/
def nested : (stack : List String) → List Tag → Bool
  | stack, [] => stack.isEmpty
  | stack, opens name :: rest => nested (name :: stack) rest
  | [], closes _ :: _ => false
  | top :: stack, closes name :: rest => top == name && nested stack rest

/-- Text in which no tag begins has none. -/
theorem readAll_free {text : List Char} (free : '<' ∉ text) (rest : List Char) :
    readAll (text ++ rest) = readAll rest := by
  induction text with
  | nil => rfl
  | cons c text ih =>
    obtain ⟨other, free⟩ := List.ne_and_not_mem_of_not_mem_cons free
    rw [List.cons_append, readAll, if_neg other.symm, ih free]

/-- Leaving out all tags of some names leaves the others nested. -/
theorem nested_filter (keep : String → Bool) {stack : List String} {ts : List Tag}
    (all : nested stack ts = true) :
    nested (stack.filter keep) (ts.filter (keep ·.name)) = true := by
  induction ts generalizing stack with
  | nil =>
    rw [nested, List.isEmpty_iff] at all
    rw [all]
    rfl
  | cons t ts ih =>
    cases t with
    | opens name =>
      have inner := ih all
      cases kept : keep name <;> simpa [Tag.name, kept, nested] using inner
    | closes name =>
      cases stack with
      | nil => cases all
      | cons top stack =>
        rw [nested, Bool.and_eq_true, beq_iff_eq] at all
        obtain ⟨rfl, all⟩ := all
        have inner := ih all
        cases kept : keep top <;> simpa [Tag.name, kept, nested] using inner

/-- Tags that leave everything as it was open. -/
def Neutral (ts : List Tag) : Prop :=
  ∀ stack rest, nested stack (ts ++ rest) = nested stack rest

theorem Neutral.nil : Neutral [] := fun _ _ => rfl

theorem Neutral.append {a b : List Tag} (first : Neutral a) (second : Neutral b) :
    Neutral (a ++ b) := fun stack rest => by
  rw [List.append_assoc, first, second]

theorem Neutral.around {ts : List Tag} (inner : Neutral ts) (name : String) :
    Neutral (opens name :: (ts ++ [closes name])) := fun stack rest => by
  rw [List.cons_append, nested, List.append_assoc, inner, List.singleton_append, nested,
    beq_self_eq_true, Bool.true_and]

end Tag

namespace MenuItem

/-- A line of a written menu. A section has a line before its list and one behind it. -/
inductive Line where
  | link (marked : Bool) (title path : String)
  | opened (title : String) (index : Option String)
  | closed
deriving DecidableEq, Repr

namespace Line

/-- A line as it is written. -/
def html (toRoot : String) : Line → String
  | link marked title path =>
    let mark := if marked then " class=\"active\"" else ""
    s!"<li{mark}><a href=\"{toRoot}{path}\">{title}</a></li>\n"
  | opened title index =>
    match index with
    | some path => s!"<li><a href=\"{toRoot}{path}\">{title}</a> <ul>\n"
    | none => s!"<li><span class=\"folder\">{title}</span> <ul>\n"
  | closed => "</ul>\n</li>\n"

/-- The HTML of all lines. -/
def text (toRoot : String) (lines : List Line) : String := String.join (lines.map (html toRoot))

/-- The titles that lines show, each with the number of lists that are open around it and, in the
line of a page, its path. -/
def shown : (depth : Nat) → List Line → List (Nat × String × Option String)
  | _, [] => []
  | depth, link _ title path :: rest => (depth, title, some path) :: shown depth rest
  | depth, opened title _ :: rest => (depth, title, none) :: shown (depth + 1) rest
  | depth, closed :: rest => shown (depth - 1) rest

/-- The tags of a line whose texts have none. -/
def tags : Line → List Tag
  | link .. => [.opens "li", .opens "a", .closes "a", .closes "li"]
  | opened _ (some _) => [.opens "li", .opens "a", .closes "a", .opens "ul"]
  | opened _ none => [.opens "li", .opens "span", .closes "span", .opens "ul"]
  | closed => [.closes "ul", .closes "li"]

/-- The titles and paths of a line. -/
def texts : Line → List String
  | link _ title path => [title, path]
  | opened title index => title :: index.toList
  | closed => []

variable {toRoot : String}

/-- Text that is put into other text stands there as it is. -/
theorem toString_text (s : String) : toString s = s := rfl

theorem readAll_html (up : '<' ∉ toRoot.toList) {line : Line}
    (free : ∀ text ∈ line.texts, '<' ∉ text.toList) (rest : List Char) :
    Tag.readAll ((line.html toRoot).toList ++ rest) = line.tags ++ Tag.readAll rest := by
  have up := Tag.readAll_free up
  unfold html
  cases line with
  | closed =>
    simp only [String.reduceToList]
    rfl
  | link marked title path =>
    have title := Tag.readAll_free (free title (by simp [texts]))
    have path := Tag.readAll_free (free path (by simp [texts]))
    cases marked <;> simp [tags, Tag.readAll, Tag.read, up, path, title, toString_text]
  | opened title index =>
    have title := Tag.readAll_free (free title (by cases index <;> simp [texts]))
    cases index with
    | none => simp [tags, Tag.readAll, Tag.read, title, toString_text]
    | some path =>
      have path := Tag.readAll_free (free path (by simp [texts]))
      simp [tags, Tag.readAll, Tag.read, up, path, title, toString_text]

theorem text_nil : text toRoot [] = "" := rfl

theorem text_cons (line : Line) (lines : List Line) :
    text toRoot (line :: lines) = line.html toRoot ++ text toRoot lines := by
  rw [text, List.map_cons, String.join_cons, ← text]

theorem text_append (a b : List Line) :
    text toRoot (a ++ b) = text toRoot a ++ text toRoot b := by
  rw [text, List.map_append, String.join_append, ← text, ← text]

/-- The tags of written lines are those of the lines. -/
theorem readAll_text (up : '<' ∉ toRoot.toList) {lines : List Line}
    (free : ∀ line ∈ lines, ∀ text ∈ line.texts, '<' ∉ text.toList) :
    Tag.readAll (text toRoot lines).toList = lines.flatMap tags := by
  induction lines with
  | nil => rfl
  | cons line lines ih =>
    obtain ⟨first, free⟩ := List.forall_mem_cons.mp free
    rw [text_cons, String.toList_append, readAll_html up first, ih free, List.flatMap_cons]

theorem html_ne_empty (line : Line) : line.html toRoot ≠ "" := by
  unfold html
  cases line with
  | closed => simp
  | link marked title path => simp [toString_text]
  | opened title index => cases index <;> simp [toString_text]

theorem text_ne_empty {lines : List Line} (some : lines ≠ []) : text toRoot lines ≠ "" := by
  obtain ⟨line, lines, rfl⟩ := List.exists_cons_of_ne_nil some
  rw [text_cons]
  exact fun none => html_ne_empty line (String.append_eq_empty_iff.mp none).1

end Line

/-! The lines of a menu -/

mutual

def lines (active : String) : MenuItem → List Line
  | .page title path => [.link (path = active) title path]
  | .section title _ index children => .opened title index :: (linesAll active children ++ [.closed])

/-- The lines of all items, in stored order. -/
def linesAll (active : String) : List MenuItem → List Line
  | [] => []
  | item :: rest => item.lines active ++ linesAll active rest

end

mutual

/-- The titles and paths of an item and of all below it. -/
def texts : MenuItem → List String
  | .page title path => [title, path]
  | .section title _ index children => title :: (index.toList ++ textsAll children)

def textsAll : List MenuItem → List String
  | [] => []
  | item :: rest => item.texts ++ textsAll rest

end

mutual

theorem shown_lines (active : String) (depth position : Nat) (rest : List Line) :
    ∀ item : MenuItem, Line.shown depth (item.lines active ++ rest) =
      (item.entries depth position).map (fun e => (e.depth, e.title, e.output)) ++
        Line.shown depth rest
  | .page title path => rfl
  | .section title name index children => by
    have inner := shown_linesAll active (depth + 1) 1 (.closed :: rest) children
    rw [lines, List.cons_append, List.append_assoc, Line.shown, List.singleton_append, inner,
      entries, List.map_cons, List.cons_append, Line.shown, Nat.add_sub_cancel]

theorem shown_linesAll (active : String) (depth position : Nat) (rest : List Line) :
    ∀ items : List MenuItem, Line.shown depth (linesAll active items ++ rest) =
      (entriesAll depth position items).map (fun e => (e.depth, e.title, e.output)) ++
        Line.shown depth rest
  | [] => rfl
  | item :: items => by
    rw [linesAll, entriesAll, List.map_append, List.append_assoc, List.append_assoc,
      shown_lines active depth position _ item,
      shown_linesAll active depth (position + 1) rest items]

end

mutual

theorem neutral_lines (active : String) :
    ∀ item : MenuItem, Tag.Neutral ((item.lines active).flatMap Line.tags)
  | .page title path => (Tag.Neutral.nil.around "a").append .nil |>.around "li"
  | .section title name index children => by
    have list := (neutral_linesAll active children).around "ul"
    have whole (heading : String) := ((Tag.Neutral.nil.around heading).append list).around "li"
    cases index with
    | none => simpa [lines, Line.tags] using whole "span"
    | some path => simpa [lines, Line.tags] using whole "a"

theorem neutral_linesAll (active : String) :
    ∀ items : List MenuItem, Tag.Neutral ((linesAll active items).flatMap Line.tags)
  | [] => .nil
  | item :: items => by
    rw [linesAll, List.flatMap_append]
    exact (neutral_lines active item).append (neutral_linesAll active items)

end

mutual

theorem texts_lines (active : String) :
    ∀ item : MenuItem, (item.lines active).flatMap Line.texts = item.texts
  | .page title path => rfl
  | .section title name index children => by
    rw [lines, List.flatMap_cons, List.flatMap_append, texts_linesAll active children, texts]
    simp [Line.texts]

theorem texts_linesAll (active : String) :
    ∀ items : List MenuItem, (linesAll active items).flatMap Line.texts = textsAll items
  | [] => rfl
  | item :: items => by
    rw [linesAll, List.flatMap_append, texts_lines active item, texts_linesAll active items,
      textsAll]

end

mutual

theorem marked_lines {active title path : String} {marked : Bool} :
    ∀ item : MenuItem, .link marked title path ∈ item.lines active →
      (marked = true ↔ path = active)
  | .page other target, member => by
    cases List.mem_singleton.mp member
    exact decide_eq_true_iff
  | .section other name index children, member => by
    rw [lines, List.mem_cons, List.mem_append, List.mem_singleton] at member
    rcases member with first | inside | last
    · cases first
    · exact marked_linesAll children inside
    · cases last

/-- Only the line of the active page is marked. -/
theorem marked_linesAll {active title path : String} {marked : Bool} :
    ∀ items : List MenuItem, .link marked title path ∈ linesAll active items →
      (marked = true ↔ path = active)
  | item :: items, member => by
    rw [linesAll, List.mem_append] at member
    rcases member with first | later
    · exact marked_lines item first
    · exact marked_linesAll items later

end

/-! Menus in order -/

/-- On each level the pages come before the sections, and no section is empty. -/
inductive Arranged : List MenuItem → Prop where
  | nil : Arranged []
  | page {title path : String} {items : List MenuItem} : Arranged items →
    Arranged (.page title path :: items)
  | section {title name : String} {index : Option String} {children items : List MenuItem} :
    Arranged children → children ≠ [] → Arranged items →
    (∀ title path, .page title path ∉ items) →
    Arranged (.section title name index children :: items)

theorem linesAll_ne_empty {active : String} {items : List MenuItem} (some : items ≠ []) :
    linesAll active items ≠ [] := by
  obtain ⟨item, items, rfl⟩ := List.exists_cons_of_ne_nil some
  cases item <;> simp [linesAll, lines]

theorem pagesHtml_of_sections {toRoot active : String} {items : List MenuItem}
    (sections : ∀ title path, .page title path ∉ items) : pagesHtml toRoot active items = "" := by
  induction items with
  | nil => rfl
  | cons item items ih =>
    have rest := ih fun title path later => sections title path (List.mem_cons_of_mem _ later)
    cases item with
    | page title path => exact absurd (List.mem_cons_self ..) (sections title path)
    | «section» title name index children =>
      rw [pagesHtml, List.map_cons, String.join_cons, ← pagesHtml, rest]
      rfl

/-- A menu in order is written line by line. -/
theorem menuHtml_of_arranged {toRoot active : String} {items : List MenuItem}
    (arranged : Arranged items) :
    menuHtml toRoot active items = Line.text toRoot (linesAll active items) := by
  induction arranged with
  | nil => rfl
  | @page title path items _ ih =>
    have first : pageHtml toRoot active (.page title path) =
        Line.html toRoot (.link (path = active) title path) := by
      unfold pageHtml Line.html
      simp only [decide_eq_true_eq]
    rw [menuHtml, pagesHtml, List.map_cons, String.join_cons, ← pagesHtml, sectionsHtml,
      sectionHtml, String.empty_append, String.append_assoc, ← menuHtml, ih, first, linesAll, lines,
      List.singleton_append, Line.text_cons]
  | @«section» title name index children items _ some _ sections inner ih =>
    -- The section is not left out, as something of its items is written.
    have shows : (Line.text toRoot (linesAll active children)).isEmpty = false := by
      simpa using Line.text_ne_empty (linesAll_ne_empty some)
    have first : sectionHtml toRoot active (.section title name index children) =
        Line.text toRoot ((MenuItem.section title name index children).lines active) := by
      rw [lines, Line.text_cons, Line.text_append, Line.text_cons, Line.text_nil]
      unfold sectionHtml Line.html
      rw [← menuHtml, inner]
      simp only [shows]
      apply String.toList_injective
      cases index <;> simp [Line.toString_text]
    -- No page comes behind it, so the sweep for pages is through.
    have none : pageHtml toRoot active (.section title name index children) = "" := rfl
    have later : sectionsHtml toRoot active items = Line.text toRoot (linesAll active items) := by
      rw [← ih, menuHtml, pagesHtml_of_sections sections, String.empty_append]
    rw [menuHtml, pagesHtml, List.map_cons, String.join_cons, ← pagesHtml, none,
      pagesHtml_of_sections sections, String.empty_append, String.empty_append, sectionsHtml, first,
      later, linesAll, Line.text_append]

end MenuItem

namespace Folder

mutual

theorem arranged_items (output : String) : ∀ f : Folder, MenuItem.Arranged (f.items output)
  | mk pages folders => by
    rw [items]
    have rest := arranged_sections output folders
    generalize (pages.filter (·.inMenu)) = shown
    induction shown with
    | nil => exact rest
    | cons p shown ih => exact .page ih

theorem arranged_sections (output : String) : ∀ folders : List (String × Folder),
    MenuItem.Arranged (sections output folders)
  | [] => .nil
  | (name, folder) :: rest => by
    have later := arranged_sections output rest
    rw [sections]
    split
    · exact later
    · rename_i some
      refine .section (arranged_items _ folder) some later fun title path member => ?_
      obtain ⟨_, _, _, _, same⟩ := mem_sections.mp member
      cases same

end

end Folder

open MenuItem in
/-- The menu of some pages is written as lines that show the entries of its listing: the same pages
and sections in the same order, each as deep. Only the lines of the active page are marked. Where no
title and no path has a `<`, the tags of the menu are closed in the order opposite to that in which
they were opened, also those of some names without the others. -/
theorem menu_written_as_listed (pages : List Page) (up : Nat) (active : String) :
    let items := MenuItem.ofPages pages
    let toRoot := String.join (List.replicate up "../")
    ∃ lines, menuHtml toRoot active items = Line.text toRoot lines ∧
      Line.shown 0 lines = (listing items).map (fun e => (e.depth, e.title, e.output)) ∧
      (∀ marked title path, .link marked title path ∈ lines → (marked = true ↔ path = active)) ∧
      ((∀ text ∈ textsAll items, '<' ∉ text.toList) → ∀ names : List String, Tag.nested []
        ((Tag.readAll (menuHtml toRoot active items).toList).filter (names.contains ·.name)) =
          true) := by
  intro items toRoot
  have written : menuHtml toRoot active items = Line.text toRoot (linesAll active items) :=
    menuHtml_of_arranged (Folder.arranged_items "" _)
  refine ⟨linesAll active items, written, ?_, ?_, ?_⟩
  · have shown := shown_linesAll active 0 1 [] items
    rwa [List.append_nil, Line.shown, List.append_nil] at shown
  · intro marked title path member
    exact marked_linesAll items member
  · intro free names
    have ground : '<' ∉ toRoot.toList := by
      rw [String.toList_join, List.mem_flatMap]
      rintro ⟨part, member, inside⟩
      rw [List.eq_of_mem_replicate member] at inside
      revert inside
      decide
    have free : ∀ line ∈ linesAll active items, ∀ text ∈ line.texts, '<' ∉ text.toList := by
      intro line member text inside
      apply free
      rw [← texts_linesAll active items]
      exact List.mem_flatMap.mpr ⟨line, member, inside⟩
    have tags := Line.readAll_text ground free
    have balanced := neutral_linesAll active items [] []
    rw [List.append_nil] at balanced
    rw [written, tags]
    exact Tag.nested_filter names.contains balanced

/-! A page beside a section with one page, which is that of the section. -/
namespace Leaflet

def pages : List Page :=
  [{ source := "readme.md", output := "readme.html", title := "Read me" },
    { source := "01_guide/index.md", output := "guide/index.html", title := "Start" }]

def items : List MenuItem := MenuItem.ofPages pages

def html : String := MenuItem.menuHtml "../" "guide/index.html" items

/-- What the menu shows, each title with the number of lists around it. -/
def titles : List (Nat × String × Option String) :=
  [(0, "Read me", some "readme.html"), (0, "guide", none), (1, "Start", some "guide/index.html")]

end Leaflet

open Leaflet MenuItem in
theorem leaflet_written :
    html = Line.text "../" [.link false "Read me" "readme.html",
      .opened "guide" (some "guide/index.html"), .link true "Start" "guide/index.html", .closed] ∧
    (∃ lines, html = Line.text "../" lines ∧ Line.shown 0 lines = titles ∧
      ∀ marked title path, .link marked title path ∈ lines →
        (marked = true ↔ path = "guide/index.html")) ∧
    (listing items).map (fun e => (e.depth, e.title, e.output)) = titles ∧
    (∀ text ∈ textsAll items, '<' ∉ text.toList) ∧
    Tag.nested [] ((Tag.readAll html.toList).filter (["li", "ul"].contains ·.name)) = true := by
  have listed : (listing items).map (fun e => (e.depth, e.title, e.output)) = titles := by
    decide +kernel
  have free : ∀ text ∈ textsAll items, '<' ∉ text.toList := by decide +kernel
  obtain ⟨lines, written, shown, marked, balanced⟩ :=
    menu_written_as_listed pages 1 "guide/index.html"
  exact ⟨by decide +kernel, ⟨lines, written, shown.trans listed, marked⟩, listed, free,
    balanced free ["li", "ul"]⟩

end DocSite.Site
