/-! The main menu: pages, and sections that group the pages of a directory. -/
namespace DocSite.Site

inductive MenuItem where
  | page (title path : String)
  /-- A directory with its output path, and its own page if it has one. -/
  | section (title name : String) (index : Option String) (children : List MenuItem)
  deriving Repr, Inhabited

namespace MenuItem

def title : MenuItem → String
  | .page title _ => title
  | .section title .. => title

def children : MenuItem → List MenuItem
  | .page .. => []
  | .section _ _ _ children => children

def pageHtml (toRoot active : String) : MenuItem → String
  | .page title path =>
    let mark := if path = active then " class=\"active\"" else ""
    s!"<li{mark}><a href=\"{toRoot}{path}\">{title}</a></li>\n"
  | .section .. => ""

def pagesHtml (toRoot active : String) (items : List MenuItem) : String :=
  String.join (items.map (pageHtml toRoot active))

mutual

/-- The HTML of a section. A section in which nothing shows is left out. -/
def sectionHtml (toRoot active : String) : MenuItem → String
  | .page .. => ""
  | .section title _ index children =>
    let inner := pagesHtml toRoot active children ++ sectionsHtml toRoot active children
    if inner.isEmpty then ""
    else
      let list := s!"<ul>\n{inner}</ul>\n"
      match index with
      | some path => s!"<li><a href=\"{toRoot}{path}\">{title}</a> {list}</li>\n"
      | none => s!"<li><span class=\"folder\">{title}</span> {list}</li>\n"

def sectionsHtml (toRoot active : String) : List MenuItem → String
  | [] => ""
  | item :: rest => item.sectionHtml toRoot active ++ sectionsHtml toRoot active rest

end

/-- The HTML of a menu. On each level the pages come before the sections. -/
def menuHtml (toRoot active : String) (items : List MenuItem) : String :=
  pagesHtml toRoot active items ++ sectionsHtml toRoot active items

/-- One entry of a menu listing. -/
structure Entry where
  depth : Nat
  /-- The place among its siblings, from 1. -/
  position : Nat
  title : String
  /-- Where a page entry leads. -/
  output : Option String
  deriving Repr, DecidableEq, Inhabited

mutual

def entries (depth position : Nat) : MenuItem → List Entry
  | .page title path => [⟨depth, position, title, some path⟩]
  | .section title _ _ children =>
    ⟨depth, position, title, none⟩ :: entriesAll (depth + 1) 1 children

def entriesAll (depth position : Nat) : List MenuItem → List Entry
  | [] => []
  | item :: rest => item.entries depth position ++ entriesAll depth (position + 1) rest

end

/-- A menu as a list, in stored order. -/
def listing (items : List MenuItem) : List Entry := entriesAll 0 1 items

end MenuItem
end DocSite.Site
