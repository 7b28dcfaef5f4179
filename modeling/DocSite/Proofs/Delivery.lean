import DocSite.Proofs.Building
import DocSite.Proofs.Scanned

/-! The pages of a build. All doc sets are written into one tree, one after the other, and each of
their files could take the place of one that was there. A page that is written is there in the end
if no other page, and no asset that is copied later, has its path. -/
namespace DocSite

open Files (Admits Aims Leads)
open Files.Node (Grows)
open Files.Path (PlainPath names join segments isAbsolute endsWithSlash)

namespace Files

/-- There is a file below the directory that a path leads to. -/
structure Stored (dir : String) (base down : List String) (content : ByteArray) (fs : Files) :
    Prop where
  reached : fs.Reaches dir base
  file : ∃ executable, fs.root.look (base ++ down) = .file content executable

namespace Stored

variable {dir : String} {base down : List String} {content : ByteArray} {fs fs' : Files}

/-- A file stays where directories are made, and where other files are written. -/
theorem keeps {changes : List String → Prop} (stored : Stored dir base down content fs)
    (still : fs'.current = fs.current) (grows : Grows changes fs.root fs'.root)
    (apart : changes (base ++ down) → fs.root.look (base ++ down) = .nothing) :
    Stored dir base down content fs' where
  reached := stored.reached.keeps still grows
  file := by
    obtain ⟨executable, file⟩ := stored.file
    refine ⟨executable, (grows.same _ fun changed => ?_).trans file⟩
    cases file.symm.trans (apart changed)

theorem createDirs? {path : String} (stored : Stored dir base down content fs)
    (made : fs.createDirs? path = some fs') : Stored dir base down content fs' := by
  obtain ⟨still, grows, -⟩ := createDirs?_spec made
  exact stored.keeps still grows id

theorem read {path : String} (stored : Stored dir base (names path) content fs)
    (plain : PlainPath path) : fs.read (join dir path) = .ok content ∧
      fs.place? (join dir path) = some (base ++ names path) := by
  obtain ⟨executable, file⟩ := stored.file
  have aims := aims_join stored.reached plain
  refine ⟨aims.read (plain.noSlash_join dir) file, aims.place? ?_⟩
  rw [file]
  exact Node.Sight.noConfusion

end Stored

end Files

namespace Site.DocSet.Rooted

open Files (Reaches Stored)

variable {d : DocSet} {output out : String} {base down : List String} {content : ByteArray}

/-- What a doc set writes goes down from the directory of the whole output. -/
theorem aims {fs : Files} (rooted : d.Rooted) (reached : fs.Reaches output base)
    (plain : PlainPath out) :
    fs.Aims (join (join output d.path) out) base (names (d.path ++ out)) where
  leads := by
    refine ⟨names output, ?_, ?_⟩
    · rw [Files.Path.names_join plain.relative, Files.Path.names_join rooted.relative,
        rooted.names_append, List.append_assoc]
    · rw [Files.start, Files.Path.isAbsolute_join plain.relative,
        Files.Path.isAbsolute_join rooted.relative]
      exact reached
  straight := (rooted.plain plain).straight
  filled := (rooted.plain plain).names_ne_nil

theorem admits_reaches (rooted : d.Rooted) (plain : PlainPath out) :
    Admits (Reaches output base) (join (join output d.path) out) where
  parents reached made := by
    obtain ⟨still, grows⟩ := (rooted.aims reached plain).createParents? made
    exact reached.keeps still grows
  put reached put := by
    obtain ⟨still, grows, -⟩ := (rooted.aims reached plain).put? put
    exact reached.keeps still grows

/-- A file outlasts what is written to another path. -/
theorem admits_stored {path : String} (rooted : d.Rooted) (plain : PlainPath out)
    (below : PlainPath path) (other : d.path ++ out ≠ path) :
    Admits (Stored output base (names path) content) (join (join output d.path) out) where
  parents stored made := by
    obtain ⟨still, grows⟩ := (rooted.aims stored.reached plain).createParents? made
    exact stored.keeps still grows fun changed => changed.2
  put stored put := by
    obtain ⟨still, grows, -⟩ := (rooted.aims stored.reached plain).put? put
    refine stored.keeps still grows fun same => absurd ?_ other
    exact (rooted.plain plain).eq_of_names below (List.append_cancel_left same).symm

end Site.DocSet.Rooted

namespace Site

namespace Build

open Files (Reaches Stored)

variable {m : Manifest} {source output : String} {keepGoing : Bool} {r r' : Report}
  {fs fs' : Files} {base : List String}

/-! Skipped pages -/

theorem foldlM_skipped {α : Type} {items : List α} {work : Report → α → Work Report}
    (done : items.foldlM work r fs = (.ok r', fs'))
    (each : ∀ item r r' fs fs', work r item fs = (.ok r', fs') → r'.skipped = [] → r.skipped = [])
    (complete : r'.skipped = []) :
    r.skipped = [] := by
  induction items generalizing r fs with
  | nil =>
    cases done
    exact complete
  | cons item rest ih =>
    rw [List.foldlM_cons] at done
    obtain ⟨r₁, between, first, done⟩ := Template.Work.ok_of_bind done
    exact each item r r₁ fs between first (ih done)

theorem finishPage_skipped {d : DocSet} {targetDir : String} {o : Outcome}
    (done : finishPage d targetDir keepGoing r o fs = (.ok r', fs')) (complete : r'.skipped = []) :
    r.skipped = [] := by
  obtain ⟨_, _, -, -, -, same⟩ | ⟨_, -, more⟩ := finishPage_ok done
  · exact same ▸ complete
  · cases (List.append_eq_nil_iff.mp (more.symm.trans complete)).2

theorem closeSet_ok {d : DocSet}
    (done : closeSet m source output keepGoing r d fs = (.ok r', fs')) :
    ∃ r₁ fs₁, (d.outcomes m fs source).foldlM (finishPage d (join output d.path) keepGoing)
        { r with assetsCopied := r.assetsCopied + d.assets.length } fs = (.ok r₁, fs₁) ∧
      writeText (join (join output d.path) SearchIndex.fileName) (SearchIndex.script d) fs₁ =
        (.ok (), fs') ∧ r'.skipped = r₁.skipped := by
  obtain ⟨_, _, got, done⟩ := Template.Work.ok_of_bind done
  cases got
  obtain ⟨r₁, fs₁, pages, done⟩ := Template.Work.ok_of_bind done
  obtain ⟨⟨⟩, _, index, done⟩ := Template.Work.ok_of_bind done
  cases done
  exact ⟨r₁, fs₁, pages, index, rfl⟩

theorem closeSet_skipped {d : DocSet}
    (done : closeSet m source output keepGoing r d fs = (.ok r', fs'))
    (complete : r'.skipped = []) :
    r.skipped = [] := by
  obtain ⟨r₁, fs₁, pages, -, same⟩ := closeSet_ok done
  have kept := foldlM_skipped pages (fun _ _ _ _ _ => finishPage_skipped) (same ▸ complete)
  exact kept

theorem buildSet_skipped {d : DocSet}
    (done : buildSet m source output keepGoing r d fs = (.ok r', fs'))
    (complete : r'.skipped = []) :
    r.skipped = [] := by
  obtain ⟨fs₁, -, closed⟩ := buildSet_ok done
  exact closeSet_skipped closed complete

/-! What stays -/

theorem openSet_keeps {Inv : Files → Prop} {d : DocSet}
    (dirs : ∀ {fs fs' path}, Inv fs → fs.createDirs? path = some fs' → Inv fs')
    (admits : ∀ a ∈ d.assets, Admits Inv (join (join output d.path) a.output)) :
    Keeps Inv (openSet source output d) :=
  (Keeps.onFiles dirs).bind fun _ => copyAssets_keeps admits _

theorem openSet_ok {d : DocSet} (rooted : d.Rooted)
    (assets : ∀ a ∈ d.assets, PlainPath a.output)
    (done : openSet source output d fs = (.ok (), fs')) : ∃ base, fs'.Reaches output base := by
  obtain ⟨⟨⟩, made, first, done⟩ := Template.Work.ok_of_bind done
  obtain ⟨-, -, place, leads⟩ := Files.createDirs?_spec (onFiles_ok first)
  rw [Reaches, Files.Path.names_join rooted.relative] at leads
  obtain ⟨base, leads, -⟩ := leads.of_append
  rw [Files.start, Files.Path.isAbsolute_join rooted.relative] at leads
  have admits : ∀ a ∈ d.assets, Admits (Reaches output base) (join (join output d.path) a.output) :=
    fun a listed => rooted.admits_reaches (assets a listed)
  exact ⟨base, (copyAssets_keeps admits _).after leads done⟩

/-- A file outlasts the build of a doc set that writes no file of its path. -/
theorem buildSet_keeps {d : DocSet} {path : String} {content : ByteArray} (rooted : d.Rooted)
    (plain : ∀ out ∈ d.outputs, PlainPath out) (below : PlainPath path)
    (other : ∀ out ∈ d.outputs, d.path ++ out ≠ path) (m : Manifest) (source : String)
    (keepGoing : Bool) (r : Report) :
    Keeps (Stored output base (names path) content) (buildSet m source output keepGoing r d) := by
  have admits : ∀ out ∈ d.outputs, Admits (Stored output base (names path) content)
      (join (join output d.path) out) :=
    fun out listed => rooted.admits_stored (plain out listed) below (other out listed)
  rw [buildSet_eq]
  exact (openSet_keeps Stored.createDirs? (DocSet.forall_outputs.mp admits).1).bind fun _ =>
    closeSet_keeps admits m source keepGoing r

/-! What is written -/

theorem finishPage_stored {d : DocSet} {o : Outcome} (rooted : d.Rooted)
    (plain : PlainPath o.page.output) (reached : fs.Reaches output base)
    (done : finishPage d (join output d.path) keepGoing r o fs = (.ok r', fs'))
    (complete : r'.skipped = []) : ∃ html, o.html = .ok html ∧
      Stored output base (names (d.path ++ o.page.output)) html.toUTF8 fs' := by
  obtain ⟨html, mid, rendered, made, written, -⟩ | ⟨_, -, more⟩ := finishPage_ok done
  · have admits : Admits (Reaches output base) (join (join output d.path) o.page.output) :=
      rooted.admits_reaches plain
    have reached := admits.parents reached made
    obtain ⟨-, -, file⟩ := (rooted.aims reached plain).put? written
    exact ⟨html, rendered, admits.put reached written, file⟩
  · cases (List.append_eq_nil_iff.mp (more.symm.trans complete)).2

/-- Of pages with different paths, each is there when all of them are written. -/
theorem finishPages_stored {d : DocSet} (rooted : d.Rooted) {outcomes : List Outcome}
    (plain : ∀ o ∈ outcomes, PlainPath o.page.output)
    (distinct : outcomes.Pairwise fun o p => o.page.output ≠ p.page.output)
    (reached : fs.Reaches output base)
    (done : outcomes.foldlM (finishPage d (join output d.path) keepGoing) r fs = (.ok r', fs'))
    (complete : r'.skipped = []) :
    ∀ o ∈ outcomes, ∃ html, o.html = .ok html ∧
      Stored output base (names (d.path ++ o.page.output)) html.toUTF8 fs' := by
  induction outcomes generalizing r fs with
  | nil => exact fun _ none => nomatch none
  | cons o rest ih =>
    rw [List.foldlM_cons] at done
    obtain ⟨r₁, fs₁, first, behind⟩ := Template.Work.ok_of_bind done
    obtain ⟨here, others⟩ := List.forall_mem_cons.mp plain
    obtain ⟨unlike, distinct⟩ := List.pairwise_cons.mp distinct
    refine List.forall_mem_cons.mpr ⟨?_, ?_⟩
    · have complete := foldlM_skipped behind (fun _ _ _ _ _ => finishPage_skipped) complete
      obtain ⟨html, rendered, stored⟩ := finishPage_stored rooted here reached first complete
      refine ⟨html, rendered, (Keeps.foldlM (fun p later r => ?_) _).after stored behind⟩
      exact finishPage_keeps (rooted.admits_stored (others p later) (rooted.plain here) fun same =>
        unlike p later ((String.append_right_inj _).mp same).symm) d keepGoing r
    · have reached := (finishPage_keeps (rooted.admits_reaches here) d keepGoing r).after reached
        first
      exact ih others distinct reached behind

/-- Each page of a doc set is there after the others and the search index are written. -/
theorem closeSet_stored {d : DocSet} (rooted : d.Rooted) (plain : ∀ p ∈ d.pages, PlainPath p.output)
    (distinct : d.pages.Pairwise fun p q => p.output ≠ q.output)
    (apart : ∀ p ∈ d.pages, d.path ++ SearchIndex.fileName ≠ d.path ++ p.output)
    (reached : fs.Reaches output base)
    (done : closeSet m source output keepGoing r d fs = (.ok r', fs'))
    (complete : r'.skipped = []) :
    ∀ o ∈ d.outcomes m fs source, ∃ html, o.html = .ok html ∧
      Stored output base (names (d.path ++ o.page.output)) html.toUTF8 fs' := by
  obtain ⟨r₁, fs₁, pages, index, same⟩ := closeSet_ok done
  rw [← d.outcomes_pages m fs source] at plain distinct apart
  rw [List.pairwise_map] at distinct
  have outputs := List.forall_mem_map.mp plain
  intro o member
  obtain ⟨html, rendered, stored⟩ := finishPages_stored rooted outputs distinct reached pages
    (same ▸ complete) o member
  refine ⟨html, rendered, (writeText_keeps ?_ _).after stored index⟩
  exact rooted.admits_stored (by decide) (rooted.plain (outputs o member))
    (List.forall_mem_map.mp apart o member)

end Build

/-! The whole of a site -/

theorem ends_unlike_index {path : String} (html : Naming.htmlSuffix <:+ path.toList)
    (dir above : String) : dir ++ SearchIndex.fileName ≠ above ++ path := by
  intro same
  have ends : Naming.htmlSuffix <:+ dir.toList ++ SearchIndex.fileName.toList := by
    rw [← String.toList_append, same, String.toList_append]
    exact html.trans (List.suffix_append ..)
  have within := List.suffix_of_suffix_length_le ends (List.suffix_append ..) (by decide)
  exact absurd within (by decide)

namespace Manifest

/-- The paths of all pages in the output. -/
def pagePaths (m : Manifest) : List String :=
  m.docSets.flatMap fun d => d.pages.map fun p => d.path ++ p.output

/-- No page is written over: all paths go straight down, no two pages have one path, and no asset
that is copied after a page has been written has the path of the page. -/
structure Tidy (m : Manifest) : Prop where
  pages : ∀ d ∈ m.docSets, ∀ p ∈ d.pages, PlainPath p.output
  assets : ∀ d ∈ m.docSets, ∀ a ∈ d.assets, PlainPath a.output
  distinct : m.pagePaths.Nodup
  clear : m.docSets.Pairwise fun d later => ∀ p ∈ d.pages, ∀ a ∈ later.assets,
    later.path ++ a.output ≠ d.path ++ p.output

namespace Tidy

variable {m : Manifest} {earlier later : List DocSet} {d : DocSet}

theorem outputs (tidy : m.Tidy) : ∀ d ∈ m.docSets, ∀ out ∈ d.outputs, PlainPath out :=
  fun d listed => d.plain_outputs (tidy.pages d listed) (tidy.assets d listed)

theorem unlike (tidy : m.Tidy) (parted : m.docSets = earlier ++ d :: later) :
    d.pages.Pairwise fun p q => p.output ≠ q.output := by
  have distinct := tidy.distinct
  rw [pagePaths, parted, List.flatMap_append, List.flatMap_cons] at distinct
  have here := (List.nodup_append.mp (List.nodup_append.mp distinct).2.1).1
  exact (List.pairwise_map.mp here).imp fun other same => other (congrArg (d.path ++ ·) same)

/-- What is written for later doc sets is not written over a page. -/
theorem apart (tidy : m.Tidy) (parted : m.docSets = earlier ++ d :: later) {p : Page}
    (listed : p ∈ d.pages) (html : Naming.htmlSuffix <:+ p.output.toList) :
    ∀ d' ∈ later, ∀ out ∈ d'.outputs, d'.path ++ out ≠ d.path ++ p.output := by
  have distinct := tidy.distinct
  have clear := tidy.clear
  rw [pagePaths, parted, List.flatMap_append, List.flatMap_cons] at distinct
  rw [parted] at clear
  refine fun d' behind => DocSet.forall_outputs.mpr ⟨fun a copied => ?_, fun p' written => ?_, ?_⟩
  · have unlike := (List.pairwise_cons.mp (List.pairwise_append.mp clear).2.1).1
    exact unlike d' behind p listed a copied
  · have unlike := (List.nodup_append.mp (List.nodup_append.mp distinct).2.1).2.2
    exact (unlike _ (List.mem_map_of_mem listed) _
      (List.mem_flatMap.mpr ⟨d', behind, List.mem_map_of_mem written⟩)).symm
  · exact ends_unlike_index html d'.path d.path

end Tidy
end Manifest

namespace Build

open Files (Reaches Stored)

variable {m : Manifest} {source output : String} {keepGoing : Bool} {report : Report}
  {scanned fs fs' : Files}

theorem build_stored (found : Manifest.scan scanned source = .ok m)
    (built : build m source output keepGoing fs = (.ok report, fs'))
    (complete : report.skipped = []) (tidy : m.Tidy)
    {earlier later : List DocSet} {d : DocSet} (parted : m.docSets = earlier ++ d :: later) :
    ∃ r fs₀ fs₁ base, earlier.foldlM (buildSet m source output keepGoing) {} fs = (.ok r, fs₀) ∧
      openSet source output d fs₀ = (.ok (), fs₁) ∧
      ∀ o ∈ d.outcomes m fs₁ source, ∃ html, o.html = .ok html ∧
        Stored output base (names (d.path ++ o.page.output)) html.toUTF8 fs' := by
  have member : ∀ d' ∈ d :: later, d' ∈ m.docSets :=
    fun d' behind => parted ▸ List.mem_append_right _ behind
  have here := member d (List.mem_cons_self ..)
  obtain ⟨rooted, html⟩ := Manifest.scan_spec found d here
  -- the doc sets before this one, this one, and those after it
  rw [build, parted, List.foldlM_append] at built
  obtain ⟨r, fs₀, first, built⟩ := Template.Work.ok_of_bind built
  rw [List.foldlM_cons] at built
  obtain ⟨r₁, fs₂, done, behind⟩ := Template.Work.ok_of_bind built
  obtain ⟨fs₁, opened, closed⟩ := buildSet_ok done
  obtain ⟨base, reached⟩ := openSet_ok rooted (tidy.assets d here) opened
  have complete := foldlM_skipped behind (fun _ _ _ _ _ => buildSet_skipped) complete
  refine ⟨r, fs₀, fs₁, base, first, opened, fun o among => ?_⟩
  have listed : o.page ∈ d.pages := d.outcomes_pages m fs₁ source ▸ List.mem_map_of_mem among
  have page := tidy.pages d here
  have index : ∀ p ∈ d.pages, d.path ++ SearchIndex.fileName ≠ d.path ++ p.output :=
    fun p listed => ends_unlike_index (html p listed (page p listed)) d.path d.path
  obtain ⟨text, rendered, stored⟩ := closeSet_stored rooted page (tidy.unlike parted) index reached
    closed complete o among
  have apart := tidy.apart parted listed (html o.page listed (page o.page listed))
  refine ⟨text, rendered, (Keeps.foldlM (fun d' later r => ?_) _).after stored behind⟩
  have among := member d' (List.mem_cons_of_mem _ later)
  exact buildSet_keeps (Manifest.scan_spec found d' among).1 (tidy.outputs d' among)
    (rooted.plain (page o.page listed)) (apart d' later) m source keepGoing r

/-- If no page was skipped, each is in the end at its place with the HTML that was rendered for
it, and no two are at one place, whatever scripts were run for them. -/
theorem build_delivers (found : Manifest.scan scanned source = .ok m)
    (built : build m source output keepGoing fs = (.ok report, fs'))
    (complete : report.skipped = []) (tidy : m.Tidy) :
    (∀ earlier d later, m.docSets = earlier ++ d :: later → ∃ r fs₀ fs₁,
      earlier.foldlM (buildSet m source output keepGoing) {} fs = (.ok r, fs₀) ∧
      openSet source output d fs₀ = (.ok (), fs₁) ∧
      (d.outcomes m fs₁ source).map (·.page) = d.pages ∧
      ∀ o ∈ d.outcomes m fs₁ source, ∃ html, o.html = .ok html ∧
        fs'.read (join output (d.path ++ o.page.output)) = .ok html.toUTF8) ∧
    (m.pagePaths.map fun path => fs'.place? (join output path)).Nodup := by
  have plain {d : DocSet} (listed : d ∈ m.docSets) {p : Page} (page : p ∈ d.pages) :
      PlainPath (d.path ++ p.output) :=
    (Manifest.scan_spec found d listed).1.plain (tidy.pages d listed p page)
  refine ⟨fun earlier d later parted => ?_, ?_⟩
  · have listed : d ∈ m.docSets := parted ▸ List.mem_append_right _ (List.mem_cons_self ..)
    obtain ⟨r, fs₀, fs₁, base, first, opened, stored⟩ :=
      build_stored found built complete tidy parted
    have pages := d.outcomes_pages m fs₁ source
    refine ⟨r, fs₀, fs₁, first, opened, pages, fun o among => ?_⟩
    obtain ⟨html, rendered, stored⟩ := stored o among
    exact ⟨html, rendered, (stored.read (plain listed (pages ▸ List.mem_map_of_mem among))).1⟩
  · have placed : ∀ path ∈ m.pagePaths, PlainPath path ∧ ∃ base, fs'.Reaches output base ∧
        fs'.place? (join output path) = some (base ++ names path) := by
      intro path member
      obtain ⟨d, listed, member⟩ := List.mem_flatMap.mp member
      obtain ⟨p, page, rfl⟩ := List.mem_map.mp member
      obtain ⟨earlier, later, parted⟩ := List.append_of_mem listed
      obtain ⟨_, _, fs₁, base, -, -, stored⟩ := build_stored found built complete tidy parted
      obtain ⟨o, among, rfl⟩ := List.mem_map.mp (d.outcomes_pages m fs₁ source ▸ page)
      obtain ⟨html, -, stored⟩ := stored o among
      exact ⟨plain listed page, base, stored.reached, (stored.read (plain listed page)).2⟩
    refine List.pairwise_map.mpr (tidy.distinct.imp_of_mem fun here there other same => other ?_)
    obtain ⟨plain, base, reached, place⟩ := placed _ here
    obtain ⟨plain', base', reached', place'⟩ := placed _ there
    rw [place, place', reached.unique reached'] at same
    exact plain.eq_of_names plain' (List.append_cancel_left (Option.some.inj same))

/-! Two pages -/

/-- A source of two pages, and a layout that shows the title of a page. -/
def shelf (first second : String) : Files where
  root := .dir [("site", .dir [(first, .file "x".toUTF8 false), (second, .file "y".toUTF8 false),
    ("layouts", .dir [("default.html", .file "[[+page.title]]".toUTF8 false)])])]

def shelfSet (pages : List Page) : DocSet := ⟨"", "", pages, [], MenuItem.ofPages pages⟩

def shelved (pages : List Page) : Manifest := ⟨{}, [shelfSet pages]⟩

def page (source output title body : String) : Page :=
  ⟨source, output, title, none, true, [], [], body⟩

/-- Pages with different names. -/
def pair : List Page := [page "01_a.md" "a.html" "a" "x", page "02_b.md" "b.html" "b" "y"]

/-- Pages with names that differ by their order prefixes and by case only. -/
def twins : List Page := [page "01_a.md" "a.html" "a" "x", page "02_A.md" "a.html" "A" "y"]

theorem scan_pair : Manifest.scan (shelf "01_a.md" "02_b.md") "site" = .ok (shelved pair) :=
  Manifest.scan_unversioned rfl rfl (Manifest.scanSet_sorted rfl (by decide +kernel)
    (by decide +kernel) (by decide +kernel) (by decide +kernel))

theorem scan_twins : Manifest.scan (shelf "01_a.md" "02_A.md") "site" = .ok (shelved twins) :=
  Manifest.scan_unversioned rfl rfl (Manifest.scanSet_sorted rfl (by decide +kernel)
    (by decide +kernel) (by decide +kernel) (by decide +kernel))

theorem pair_delivered : ∃ report fs',
    build (shelved pair) "site" "out" false (shelf "01_a.md" "02_b.md") = (.ok report, fs') ∧
    report.skipped = [] ∧ (shelved pair).Tidy ∧
    (∃ opened, openSet "site" "out" (shelfSet pair) (shelf "01_a.md" "02_b.md") =
        (.ok (), opened) ∧
      ∀ o ∈ (shelfSet pair).outcomes (shelved pair) opened "site", ∃ html, o.html = .ok html ∧
        fs'.read (join "out" o.page.output) = .ok html.toUTF8) ∧
    ((shelved pair).pagePaths.map fun path => fs'.place? (join "out" path)).Nodup := by
  have tidy : (shelved pair).Tidy := ⟨by decide, by decide, by decide +kernel, by decide⟩
  have ended : (build (shelved pair) "site" "out" false (shelf "01_a.md" "02_b.md")).1.toOption.map
      (·.skipped) = some [] := by decide +kernel
  rcases built : build (shelved pair) "site" "out" false (shelf "01_a.md" "02_b.md") with
    ⟨_ | report, fs'⟩ <;> rw [built] at ended
  · cases ended
  · have complete := Option.some.inj ended
    obtain ⟨delivered, places⟩ := build_delivers scan_pair built complete tidy
    obtain ⟨_, _, opened, first, opening, -, files⟩ := delivered [] (shelfSet pair) [] rfl
    cases first
    exact ⟨report, fs', rfl, complete, tidy, ⟨opened, opening, files⟩, places⟩

/-- Both pages are reported as written, and the file of the first holds the second. -/
theorem twins_collide :
    let fs := shelf "01_a.md" "02_A.md"
    let m := shelved twins
    let built := build m "site" "out" false fs
    Manifest.scan fs "site" = .ok m ∧
    built.1.toOption.map (fun r => (r.written, r.skipped)) = some (["a.html", "a.html"], []) ∧
    (m.docSets.flatMap fun d => (d.outcomes m (openSet "site" "out" d fs).2 "site").map
      fun o => (o.page.source, o.html.toOption)) = [("01_a.md", some "a"), ("02_A.md", some "A")] ∧
    (built.2.read "out/a.html").toOption = some "A".toUTF8 :=
  ⟨scan_twins, by decide +kernel⟩

end Build
end Site
end DocSite
