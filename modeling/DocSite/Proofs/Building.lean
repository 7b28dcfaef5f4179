import DocSite.Proofs.Run
import DocSite.Proofs.Writing
import DocSite.Site.Build

/-! A build as a sequence of writes. The pages, assets and search index of a doc set are written
one after the other, each to a path of its own. What outlasts a write to each of these paths
outlasts the whole of the build, however it ends, so that a property of the files only has to be
looked at for one path at a time. -/
namespace DocSite

namespace Files

/-- What lasts as a file is written at a path, and as directories are made on the way to it. -/
structure Admits (Inv : Files → Prop) (path : String) : Prop where
  parents : ∀ {fs fs' : Files}, Inv fs → fs.createParents? path = some fs' → Inv fs'
  put : ∀ {fs fs' : Files} {content : ByteArray} {executable : Option Bool → Bool}, Inv fs →
    fs.put? path content executable = some fs' → Inv fs'

/-- A copy is written twice, the first time empty. -/
theorem copy?_eq_some {fs fs' : Files} {source target : String}
    (copied : fs.copy? source target = some fs') :
    ∃ opened content executable, fs.put? target .empty executable = some opened ∧
      opened.put? target content executable = some fs' := by
  obtain ⟨node, -, copied⟩ := Option.bind_eq_some_iff.mp copied
  split at copied
  · rename_i executable
    obtain ⟨opened, emptied, copied⟩ := Option.bind_eq_some_iff.mp copied
    obtain ⟨content, -, filled⟩ := Option.bind_eq_some_iff.mp copied
    exact ⟨opened, content, _, emptied, filled⟩
  · cases copied

theorem Admits.copy {Inv : Files → Prop} {fs fs' : Files} {source target : String}
    (admits : Admits Inv target) (holds : Inv fs) (copied : fs.copy? source target = some fs') :
    Inv fs' := by
  obtain ⟨opened, content, executable, emptied, filled⟩ := copy?_eq_some copied
  exact admits.put (admits.put holds emptied) filled

end Files

namespace Site

namespace Build

open Files (Admits)
open Files.Path (join)

variable {α β : Type} {Inv : Files → Prop}

/-- Work after which a property of the files still holds, also if it failed. -/
def Keeps (Inv : Files → Prop) (work : Work α) : Prop := ∀ fs, Inv fs → Inv (work fs).2

namespace Keeps

theorem after {work : Work α} {answer : Except Error α} {fs fs' : Files} (keeps : Keeps Inv work)
    (holds : Inv fs) (done : work fs = (answer, fs')) : Inv fs' := by
  have kept := keeps fs holds
  rwa [done] at kept

theorem pure (a : α) : Keeps Inv (pure a : Work α) := fun _ holds => holds

theorem bind {work : Work α} {next : α → Work β} (first : Keeps Inv work)
    (second : ∀ a, Keeps Inv (next a)) : Keeps Inv (work >>= next) := by
  intro fs holds
  rw [Template.Work.bind_apply]
  have after := first fs holds
  rcases ended : work fs with ⟨_ | a, between⟩ <;> rw [ended] at after
  · exact after
  · exact second a between after

theorem onFiles {change? : Files → Option Files}
    (kept : ∀ {fs fs'}, Inv fs → change? fs = some fs' → Inv fs') :
    Keeps Inv (onFiles change?) := by
  intro fs holds
  rw [Build.onFiles]
  split
  · rename_i next changed
    exact kept holds changed
  · exact holds

theorem forM {items : List α} {work : α → Work Unit}
    (each : ∀ item ∈ items, Keeps Inv (work item)) : Keeps Inv (items.forM work) := by
  induction items with
  | nil => exact pure ()
  | cons item rest ih =>
    obtain ⟨first, others⟩ := List.forall_mem_cons.mp each
    exact first.bind fun _ => ih others

theorem foldlM {items : List α} {work : β → α → Work β}
    (each : ∀ item ∈ items, ∀ b, Keeps Inv (work b item)) (b : β) :
    Keeps Inv (items.foldlM work b) := by
  induction items generalizing b with
  | nil => exact pure b
  | cons item rest ih =>
    obtain ⟨first, others⟩ := List.forall_mem_cons.mp each
    rw [List.foldlM_cons]
    exact (first b).bind fun b => ih others b

end Keeps

/-! One file -/

theorem onFiles_ok {change? : Files → Option Files} {fs fs' : Files}
    (done : onFiles change? fs = (.ok (), fs')) : change? fs = some fs' := by
  rw [onFiles] at done
  split at done
  · rename_i next changed
    cases done
    exact changed
  · cases done

theorem copyAsset_keeps {targetDir : String} {a : Asset}
    (admits : Admits Inv (join targetDir a.output)) (sourceDir : String) :
    Keeps Inv (copyAsset sourceDir targetDir a) :=
  (Keeps.onFiles admits.parents).bind fun _ => Keeps.onFiles admits.copy

theorem copyAsset_ok {sourceDir targetDir : String} {a : Asset} {fs fs' : Files}
    (done : copyAsset sourceDir targetDir a fs = (.ok (), fs')) :
    ∃ mid, fs.createParents? (join targetDir a.output) = some mid ∧
      mid.copy? (join sourceDir a.source) (join targetDir a.output) = some fs' := by
  obtain ⟨⟨⟩, mid, made, done⟩ := Template.Work.ok_of_bind done
  exact ⟨mid, onFiles_ok made, onFiles_ok done⟩

theorem writeText_keeps {path : String} (admits : Admits Inv path) (text : String) :
    Keeps Inv (writeText path text) :=
  Keeps.onFiles admits.put

theorem finishPage_keeps {targetDir : String} {o : Outcome}
    (admits : Admits Inv (join targetDir o.page.output)) (d : DocSet) (keepGoing : Bool)
    (r : Report) : Keeps Inv (finishPage d targetDir keepGoing r o) := by
  rw [finishPage]
  split
  · refine (Keeps.onFiles admits.parents).bind fun _ => ?_
    exact (writeText_keeps admits _).bind fun _ => Keeps.pure _
  · split
    · exact Keeps.pure _
    · exact fun fs holds => holds

/-- A page is either written or skipped. -/
theorem finishPage_ok {d : DocSet} {targetDir : String} {keepGoing : Bool} {r r' : Report}
    {o : Outcome} {fs fs' : Files}
    (done : finishPage d targetDir keepGoing r o fs = (.ok r', fs')) :
    (∃ html mid, o.html = .ok html ∧ fs.createParents? (join targetDir o.page.output) = some mid ∧
      mid.write? (join targetDir o.page.output) html.toUTF8 = some fs' ∧ r'.skipped = r.skipped) ∨
    (∃ reason, o.html = .error reason ∧
      r'.skipped = r.skipped ++ [(d.path ++ o.page.output, reasonText reason)]) := by
  unfold finishPage at done
  cases rendered : o.html with
  | ok html =>
    rw [rendered] at done
    obtain ⟨⟨⟩, mid, made, done⟩ := Template.Work.ok_of_bind done
    obtain ⟨⟨⟩, after, written, done⟩ := Template.Work.ok_of_bind done
    cases done
    exact .inl ⟨html, mid, rfl, onFiles_ok made, onFiles_ok written, rfl⟩
  | error reason =>
    rw [rendered] at done
    cases keepGoing with
    | true =>
      cases done
      exact .inr ⟨reason, rfl, rfl⟩
    | false => cases done

/-! One doc set -/

end Build

/-- The output paths of a doc set, in the order in which they are written. -/
def DocSet.outputs (d : DocSet) : List String :=
  d.assets.map (·.output) ++ d.pages.map (·.output) ++ [SearchIndex.fileName]

theorem DocSet.forall_outputs {d : DocSet} {holds : String → Prop} :
    (∀ out ∈ d.outputs, holds out) ↔ (∀ a ∈ d.assets, holds a.output) ∧
      (∀ p ∈ d.pages, holds p.output) ∧ holds SearchIndex.fileName := by
  simp only [outputs, List.forall_mem_append, List.forall_mem_map, List.forall_mem_singleton,
    and_assoc]

open Files.Path (PlainPath) in
theorem DocSet.plain_outputs {d : DocSet} (pages : ∀ p ∈ d.pages, PlainPath p.output)
    (assets : ∀ a ∈ d.assets, PlainPath a.output) : ∀ out ∈ d.outputs, PlainPath out :=
  forall_outputs.mpr ⟨assets, pages, by decide⟩

theorem DocSet.renderPages_pages (d : DocSet) (m : Manifest) (w : Template.World)
    (pages : List Page) : (d.renderPages m w pages).map (·.page) = pages := by
  induction pages generalizing w with
  | nil => rfl
  | cons p rest ih => exact congrArg (List.cons p) (ih _)

theorem DocSet.outcomes_pages (d : DocSet) (m : Manifest) (fs : Files) (source : String) :
    (d.outcomes m fs source).map (·.page) = d.pages :=
  d.renderPages_pages m _ d.pages

namespace Build

open Files (Admits)
open Files.Path (join)

variable {Inv : Files → Prop}

/-- What a doc set begins with: its directory and its assets. -/
def openSet (source output : String) (d : DocSet) : Work Unit := do
  onFiles (·.createDirs? (join output d.path))
  d.assets.forM (copyAsset (join source d.path) (join output d.path))

/-- The pages of a doc set and its search index. -/
def closeSet (m : Manifest) (source output : String) (keepGoing : Bool) (r : Report)
    (d : DocSet) : Work Report := do
  let targetDir := join output d.path
  let fs ← get
  let r ← (d.outcomes m fs source).foldlM (finishPage d targetDir keepGoing)
    { r with assetsCopied := r.assetsCopied + d.assets.length }
  writeText (join targetDir SearchIndex.fileName) (SearchIndex.script d)
  return { r with searchIndexes := r.searchIndexes ++ [d.path ++ SearchIndex.fileName] }

theorem buildSet_eq (m : Manifest) (source output : String) (keepGoing : Bool) (r : Report)
    (d : DocSet) : buildSet m source output keepGoing r d =
      openSet source output d >>= fun _ => closeSet m source output keepGoing r d := by
  rw [openSet, bind_assoc]
  rfl

theorem buildSet_ok {m : Manifest} {source output : String} {keepGoing : Bool} {r r' : Report}
    {d : DocSet} {fs fs' : Files}
    (done : buildSet m source output keepGoing r d fs = (.ok r', fs')) :
    ∃ fs₁, openSet source output d fs = (.ok (), fs₁) ∧
      closeSet m source output keepGoing r d fs₁ = (.ok r', fs') := by
  rw [buildSet_eq] at done
  obtain ⟨⟨⟩, fs₁, opened, closed⟩ := Template.Work.ok_of_bind done
  exact ⟨fs₁, opened, closed⟩

theorem copyAssets_keeps {targetDir : String} {assets : List Asset}
    (admits : ∀ a ∈ assets, Admits Inv (join targetDir a.output)) (sourceDir : String) :
    Keeps Inv (assets.forM (copyAsset sourceDir targetDir)) :=
  Keeps.forM fun a listed => copyAsset_keeps (admits a listed) sourceDir

theorem closeSet_keeps {output : String} {d : DocSet}
    (admits : ∀ out ∈ d.outputs, Admits Inv (join (join output d.path) out)) (m : Manifest)
    (source : String) (keepGoing : Bool) (r : Report) :
    Keeps Inv (closeSet m source output keepGoing r d) := by
  obtain ⟨-, pages, index⟩ := DocSet.forall_outputs.mp admits
  refine Keeps.bind (fun _ holds => holds) fun fs => ?_
  refine (Keeps.foldlM (fun o member r => ?_) _).bind fun r => ?_
  · have page : o.page ∈ d.pages := d.outcomes_pages m fs source ▸ List.mem_map_of_mem member
    exact finishPage_keeps (pages o.page page) d keepGoing r
  · exact (writeText_keeps index _).bind fun _ => Keeps.pure _

end Build
end Site
end DocSite
