import DocSite.Proofs.Building
import DocSite.Proofs.OutputPath

/-! Where output goes. What is written for a page or an asset stays strictly below the directory of
its doc set if the output path is plain. It is, unless a name on the way is nothing, or dots, behind
an order prefix. -/
namespace DocSite

open Files (Admits Aims Below Leads follow)
open Files.Node (Grows)
open Files.Path (Plain PlainPath join names segments)

namespace Files

/-- Files and directories are made or changed strictly below one directory, and nowhere else. -/
structure Confined (base : List String) (old new : Files) : Prop where
  current : new.current = old.current
  grows : Grows (Below base) old.root new.root

/-- A path leads to a file strictly below a directory. -/
def LandsBelow (base : List String) (path : String) (fs : Files) : Prop :=
  ∃ place, fs.place? path = some place ∧ Below base place ∧ fs.root.FileAt place

namespace Confined

variable {base : List String} {a b c : Files}

theorem refl (a : Files) : Confined base a a := ⟨rfl, .refl _⟩

theorem trans (first : Confined base a b) (second : Confined base b c) : Confined base a c :=
  ⟨second.current.trans first.current, first.grows.trans second.grows⟩

theorem aims (confined : Confined base a b) {dir output : String}
    (reached : a.Reaches dir base) (plain : PlainPath output) :
    b.Aims (join dir output) base (names output) :=
  (aims_join reached plain).keeps confined.current confined.grows

/-- What is written at a plain path from a directory is confined to it. -/
theorem admits {dir output : String} (reached : a.Reaches dir base)
    (plain : PlainPath output) : Admits (Confined base a) (join dir output) where
  parents confined made := by
    obtain ⟨still, grows⟩ := (confined.aims reached plain).createParents? made
    exact confined.trans ⟨still, grows.mono fun _ changed => changed.1⟩
  put confined put := by
    have aims := confined.aims reached plain
    obtain ⟨still, grows, -⟩ := aims.put? put
    exact confined.trans ⟨still, grows.mono fun _ same => same ▸ below_append aims.filled⟩

theorem lands {path : String} {down : List String} {content : ByteArray}
    {executable : Option Bool → Bool} (aims : a.Aims path base down)
    (put : a.put? path content executable = some b) : b.LandsBelow base path := by
  obtain ⟨still, grows, e, file⟩ := aims.put? put
  refine ⟨_, (aims.keeps still grows).place? ?_, below_append aims.filled, content, e, file⟩
  rw [file]
  exact Node.Sight.noConfusion

end Confined
end Files

namespace Site.Build

open Files (Confined LandsBelow)

section

variable {dir : String} {fs : Files} {base : List String}

theorem finishPage_confined (reached : fs.Reaches dir base) {o : Outcome}
    (plain : PlainPath o.page.output) (d : DocSet) (keepGoing : Bool) (r : Report) :
    Confined base fs (finishPage d dir keepGoing r o fs).2 :=
  finishPage_keeps (Confined.admits reached plain) d keepGoing r fs (.refl fs)

theorem finishPage_lands (reached : fs.Reaches dir base) {d : DocSet}
    {keepGoing : Bool} {r r' : Report} {o : Outcome} {html : String} {fs' : Files}
    (plain : PlainPath o.page.output) (rendered : o.html = .ok html)
    (done : finishPage d dir keepGoing r o fs = (.ok r', fs')) :
    fs'.LandsBelow base (join dir o.page.output) := by
  obtain ⟨_, mid, -, made, written, -⟩ | ⟨reason, failed, -⟩ := finishPage_ok done
  · have made := (Confined.admits reached plain).parents (.refl fs) made
    exact Confined.lands (made.aims reached plain) written
  · cases rendered.symm.trans failed

theorem copyAsset_confined (reached : fs.Reaches dir base) {a : Asset}
    (plain : PlainPath a.output) (sourceDir : String) :
    Confined base fs (copyAsset sourceDir dir a fs).2 :=
  copyAsset_keeps (Confined.admits reached plain) sourceDir fs (.refl fs)

theorem copyAsset_lands (reached : fs.Reaches dir base)
    {sourceDir : String} {a : Asset} {fs' : Files} (plain : PlainPath a.output)
    (done : copyAsset sourceDir dir a fs = (.ok (), fs')) :
    fs'.LandsBelow base (join dir a.output) := by
  obtain ⟨mid, made, copied⟩ := copyAsset_ok done
  obtain ⟨opened, content, executable, emptied, filled⟩ := Files.copy?_eq_some copied
  have admits := Confined.admits reached plain
  have opened := admits.put (admits.parents (.refl fs) made) emptied
  exact Confined.lands (opened.aims reached plain) filled

end

/-- The output path of a page is plain if every directory on the way to it keeps a plain name
without its order prefix, that of an asset if its last name does too. Then what is written for
it stays below the directory of its doc set. -/
theorem outputs_stay_below (source : String) {dir : String} {fs : Files} {base : List String}
    (there : follow fs.root (fs.start dir) (names dir) = some base) :
    (Naming.markdownSuffix <:+ source.toList →
      (PlainPath (Naming.pageOutputPath source) ↔
        ∀ s ∈ (segments source).dropLast, Plain (Naming.stripSegment s))) ∧
    (PlainPath (Naming.assetOutputPath source) ↔
      ∀ s ∈ segments source, Plain (Naming.stripSegment s)) ∧
    (PlainPath (Naming.pageOutputPath source) →
      ∀ d keepGoing r o, o.page.output = Naming.pageOutputPath source →
        Confined base fs (finishPage d dir keepGoing r o fs).2 ∧
        ∀ html r' fs', o.html = .ok html → finishPage d dir keepGoing r o fs = (.ok r', fs') →
          fs'.LandsBelow base (join dir o.page.output)) ∧
    (PlainPath (Naming.assetOutputPath source) →
      ∀ sourceDir a, a.output = Naming.assetOutputPath source →
        Confined base fs (copyAsset sourceDir dir a fs).2 ∧
        ∀ fs', copyAsset sourceDir dir a fs = (.ok (), fs') →
          fs'.LandsBelow base (join dir a.output)) := by
  have reached : fs.Reaches dir base := Files.leads_of_follow there
  refine ⟨Naming.plainPath_pageOutputPath, Naming.plainPath_assetOutputPath source, ?_, ?_⟩
  · intro plain d keepGoing r o here
    rw [← here] at plain
    exact ⟨finishPage_confined reached plain d keepGoing r,
      fun _ _ _ rendered done => finishPage_lands reached plain rendered done⟩
  · intro plain sourceDir a here
    rw [← here] at plain
    exact ⟨copyAsset_confined reached plain sourceDir,
      fun _ done => copyAsset_lands reached plain done⟩

/-- A directory to write to, beside a source with a directory of a strange name. -/
def yard : Files where
  root := .dir [("out", .dir []),
    ("site", .dir [("01_..", .dir [("x.png", .file "image".toUTF8 false)])])]

theorem numbered_stays_below :
    follow yard.root (yard.start "out") (names "out") = some ["out"] ∧
    PlainPath (Naming.pageOutputPath "02_Guide/01_Intro.md") ∧
    ∀ d keepGoing r o, o.page.output = Naming.pageOutputPath "02_Guide/01_Intro.md" →
      Confined ["out"] yard (finishPage d "out" keepGoing r o yard).2 := by
  have there : follow yard.root (yard.start "out") (names "out") = some ["out"] := by decide +kernel
  obtain ⟨page, -, written, -⟩ := outputs_stay_below "02_Guide/01_Intro.md" there
  have plain := (page (by decide)).mpr (by decide)
  exact ⟨there, plain, fun d keepGoing r o here => (written plain d keepGoing r o here).1⟩

/-- Behind an order prefix there may be dots, or nothing: an asset is copied out of the output
directory, and a page is written to the root of the file system. -/
theorem prefix_leads_out :
    (PlainPath "01_../x.png" ∧ Naming.assetOutputPath "01_../x.png" = "../x.png" ∧
      follow yard.root (yard.start "out") (names "out") = some ["out"] ∧
      let copied := copyAsset "site" "out"
        ⟨"01_../x.png", Naming.assetOutputPath "01_../x.png"⟩ yard
      copied.1.isOk = true ∧ copied.2.place? (join "out" "../x.png") = some ["x.png"] ∧
        copied.2.root.look ["x.png"] = .file "image".toUTF8 false ∧ ¬ Below ["out"] ["x.png"]) ∧
    (PlainPath "01_/x.md" ∧ Naming.pageOutputPath "01_/x.md" = "/x.html" ∧
      let page : Page := ⟨"01_/x.md", Naming.pageOutputPath "01_/x.md", "x", none, true, [], [], ""⟩
      let written := finishPage ⟨"", "", [page], [], []⟩ "out" false {} ⟨page, .ok "x", {}⟩ yard
      written.1.isOk = true ∧ written.2.root.look ["x.html"] = .file "x".toUTF8 false ∧
        ¬ Below ["out"] ["x.html"]) ∧
    (PlainPath "07_" ∧ Naming.assetOutputPath "07_" = "" ∧ ¬ PlainPath "") := by
  decide +kernel

/-! A whole doc set -/

/-- Once the directory of a doc set is made, its build stays below this directory, also if it
fails. -/
theorem fillSet_confined {output : String} {d : DocSet} {fs : Files} {base : List String}
    (reached : fs.Reaches (join output d.path) base)
    (pages : ∀ p ∈ d.pages, PlainPath p.output) (assets : ∀ a ∈ d.assets, PlainPath a.output)
    (m : Manifest) (source : String) (keepGoing : Bool) (r : Report) :
    Confined base fs ((do
      d.assets.forM (copyAsset (join source d.path) (join output d.path))
      closeSet m source output keepGoing r d) fs).2 := by
  have admits : ∀ out ∈ d.outputs, Admits (Confined base fs) (join (join output d.path) out) :=
    fun out member => Confined.admits reached (DocSet.plain_outputs pages assets out member)
  refine (copyAssets_keeps (DocSet.forall_outputs.mp admits).1 _).bind (fun _ => ?_) fs (.refl fs)
  exact closeSet_keeps admits m source keepGoing r

end Site.Build
end DocSite
