import Mathlib.Data.List.Forall2
import DocSite.Proofs.Excluded
import DocSite.Proofs.Writing

/-! The files of a source and the doc sets that have them. Each doc set is scanned with the same
excludes, told from its own root. A file that is meant for the innermost version around it is in
this doc set and in no other one, unless an exclude that is meant for another root takes it away, or
fails to keep it from a version around. -/
namespace DocSite.Site

open Files (Node Found)
open Files.Path (EntryName PlainPath join names)

/-- The files that a doc set has, as pages or as assets. -/
def DocSet.sources (d : DocSet) : List String := d.pages.map (·.source) ++ d.assets.map (·.source)

namespace Config

/-- The directories of the versions that are not the current one, name by name. -/
def versionNames (c : Config) : List (List String) :=
  c.versions.map fun version => names (Files.Path.trimSlashes version)

/-- The one of two version directories that is further in, if the first is around a place. -/
def inner (place version found : List String) : List String :=
  if version.isPrefixOf place && found.length < version.length then version else found

/-- The innermost version directory around a place. The root of the source is around all. -/
def home (c : Config) (place : List String) : List String :=
  c.versionNames.foldr (inner place) []

theorem home_spec (c : Config) (place : List String) :
    c.home place ∈ [] :: c.versionNames ∧ c.home place <+: place ∧
      ∀ version ∈ c.versionNames, version <+: place → version <+: c.home place := by
  unfold home
  induction c.versionNames with
  | nil => simp
  | cons version rest ih =>
    rw [List.foldr_cons]
    generalize rest.foldr (inner place) [] = found at ih ⊢
    obtain ⟨member, around, within⟩ := ih
    rw [inner]
    split
    · rename_i deeper
      rw [Bool.and_eq_true, List.isPrefixOf_iff_prefix, decide_eq_true_eq] at deeper
      refine ⟨by simp, deeper.1, ?_⟩
      intro other listed outer
      apply List.prefix_of_prefix_length_le outer deeper.1
      rcases List.mem_cons.mp listed with rfl | listed
      · exact Nat.le_refl _
      · have short := (within other listed outer).length_le
        omega
    · rename_i shallow
      rw [Bool.and_eq_true, List.isPrefixOf_iff_prefix, decide_eq_true_eq, not_and,
        Nat.not_lt] at shallow
      refine ⟨?_, around, ?_⟩
      · rcases List.mem_cons.mp member with rfl | listed
        · exact List.mem_cons_self ..
        · exact List.mem_cons_of_mem _ (List.mem_cons_of_mem _ listed)
      · intro other listed outer
        rcases List.mem_cons.mp listed with rfl | listed
        · exact List.prefix_of_prefix_length_le outer around (shallow outer)
        · exact within other listed outer

end Config

namespace Manifest

/-- The files of all doc sets, each from the root of the source, as often as it was found. -/
def files (m : Manifest) : List String := m.docSets.flatMap fun d => d.sources.map (d.path ++ ·)

theorem source_of_readPage {dir : String} {f : Found} {p : Page}
    (read : readPage dir f = .ok p) : p.source = f.path := by
  unfold readPage at read
  split at read
  · cases read
  · split at read
    · cases read
    · cases read
      rfl

theorem forall₂_of_mapM_ok {ε α β : Type} {f : α → Except ε β} {R : α → β → Prop}
    {items : List α} {found : List β} (mapped : items.mapM f = .ok found)
    (each : ∀ a ∈ items, ∀ b, f a = .ok b → R a b) : List.Forall₂ R items found := by
  induction items generalizing found with
  | nil =>
    cases mapped
    exact .nil
  | cons item rest ih =>
    obtain ⟨one, each⟩ := List.forall_mem_cons.mp each
    obtain ⟨first, others, head, tail, rfl⟩ := mapM_cons_eq_ok.mp mapped
    exact .cons (one first head) (ih tail each)

theorem sources_of_mapM {dir : String} {markdown : List Found} {pages : List Page}
    (read : markdown.mapM (readPage dir) = .ok pages) :
    pages.map (·.source) = markdown.map Found.path := by
  have each := forall₂_of_mapM_ok read fun _ _ _ => source_of_readPage
  clear read
  induction each with
  | nil => rfl
  | cons same _ ih => rw [List.map_cons, List.map_cons, same, ih]

theorem sources_of_scanSet {fs : Files} {dir label path : String} {excludes : List String}
    {d : DocSet} (scanned : scanSet fs dir excludes label path = .ok d) :
    d.path = path ∧ ∃ node, fs.find? dir = some node ∧
      d.sources.Perm ((node.collect (isSkipped excludes) []).map Found.path) := by
  obtain ⟨node, pages, found, read, rfl⟩ := scanSet_eq_ok.mp scanned
  refine ⟨rfl, node, found, ?_⟩
  have sorted : ((Page.sort pages).map (·.source)).Perm (pages.map (·.source)) :=
    (List.mergeSort_perm _ _).map _
  have others (files : List Found) : (files.map asset).map (·.source) = files.map Found.path :=
    List.map_map ..
  rw [DocSet.sources, others]
  refine (sorted.append_right _).trans ?_
  rw [sources_of_mapM read, ← List.map_append]
  exact ((List.filter_append_perm _ _).trans (List.mergeSort_perm _ _)).map _

/-- A doc set with the files that a scan finds below a directory of the source. -/
structure ScannedAt (tree : Node) (excludes dir : List String) (d : DocSet) : Prop where
  found : ∃ node, tree.find? dir = some node ∧ (dir = [] ∨ node.isDir = true) ∧
    d.sources.Perm ((node.collect (isSkipped excludes) []).map Found.path)
  lies : names d.path = dir
  below : ∀ down, dir = [] ∨ down ≠ [] →
    d.path ++ "/".intercalate down = "/".intercalate (dir ++ down)

variable {fs : Files} {source : String} {tree : Node} {excludes dir place : List String}
  {d : DocSet} {content : ByteArray} {executable : Bool}

/-- How often a doc set has a file. -/
theorem ScannedAt.count (at' : ScannedAt tree excludes dir d) (sound : tree.sound = true)
    (file : tree.find? place = some (.file content executable)) :
    (d.sources.map (d.path ++ ·)).count ("/".intercalate place) =
      if dir.isPrefixOf place && Node.passes (isSkipped excludes) [] (place.drop dir.length)
      then 1 else 0 := by
  obtain ⟨node, found, deep, sources⟩ := at'.found
  have whole := (Node.sound_find? sound found).2
  have proper := (Node.sound_find? sound file).1
  rw [(sources.map _).count_eq, List.map_map, List.count_eq_countP, List.countP_map]
  -- a path has only one list of names
  have named : ∀ f ∈ node.collect (isSkipped excludes) [],
      (((· == "/".intercalate place) ∘ (d.path ++ ·) ∘ Found.path) f = true ↔
        (dir ++ f.names == place) = true) := by
    intro f member
    obtain ⟨down, mark, names, there⟩ := Node.file_of_collect _ [] node whole f member
    rw [List.nil_append] at names
    have lies : tree.find? (dir ++ down) = some (.file f.content mark) := by
      rw [Node.find?_append, found, Option.bind_some, there]
    have deeper : dir = [] ∨ down ≠ [] := by
      refine deep.imp_right fun isDir none => ?_
      rw [none] at there
      cases there
      cases isDir
    rw [Function.comp_apply, Function.comp_apply, Found.path, names, at'.below down deeper,
      beq_iff_eq, beq_iff_eq]
    constructor
    · intro same
      rw [← Files.Path.names_intercalate (Node.sound_find? sound lies).1, same,
        Files.Path.names_intercalate proper]
    · intro same
      rw [same]
  rw [List.countP_congr named]
  by_cases around : dir <+: place
  · obtain ⟨rest, rfl⟩ := around
    have there : node.find? rest = some (.file content executable) := by
      rwa [Node.find?_append, found, Option.bind_some] at file
    have once := Node.count_collect (isSkipped excludes) [] whole there
    rw [List.nil_append, List.count_eq_countP, List.countP_map] at once
    rw [List.drop_left, List.isPrefixOf_iff_prefix.mpr (List.prefix_append dir rest),
      Bool.true_and, ← once]
    apply List.countP_congr
    intro f _
    rw [Function.comp_apply, beq_iff_eq, beq_iff_eq, List.append_cancel_left_eq]
  · rw [Bool.eq_false_iff.mpr (mt List.isPrefixOf_iff_prefix.mp around), Bool.false_and]
    apply List.countP_eq_zero.mpr
    intro f _ same
    exact around ⟨f.names, beq_iff_eq.mp same⟩

/-! The doc sets of a scan -/

theorem reaches_of_find? {path : String} {node : Node} (found : fs.find? path = some node) :
    ∃ place, fs.Reaches path place ∧ fs.root.find? place = some node ∧ path ≠ "" := by
  obtain ⟨place, led, found⟩ := Option.bind_eq_some_iff.mp found
  obtain ⟨other, there, found⟩ := Option.bind_eq_some_iff.mp found
  rw [Files.place?] at led
  split at led
  · cases led
  · rename_i filled
    split at found
    · cases found
    · cases found
      exact ⟨place, Files.leads_of_follow led, there,
        fun empty => filled (String.isEmpty_iff.mpr empty)⟩

theorem find?_of_join {label : String} {node : Node} (plain : PlainPath label)
    (here : fs.find? source = some tree) (found : fs.find? (join source label) = some node) :
    tree.find? (names label) = some node := by
  obtain ⟨base, reached, root, -⟩ := reaches_of_find? here
  obtain ⟨place, deeper, there, -⟩ := reaches_of_find? found
  rw [reached.of_join plain.relative plain.straight deeper, Node.find?_append, root,
    Option.bind_some] at there
  exact there

theorem scannedAt_current {label : String} (here : fs.find? source = some tree)
    (scanned : scanSet fs source excludes label "" = .ok d) :
    ScannedAt tree excludes [] d := by
  obtain ⟨path, node, found, sources⟩ := sources_of_scanSet scanned
  cases here.symm.trans found
  refine ⟨⟨_, rfl, .inl rfl, sources⟩, ?_, fun down _ => ?_⟩
  · rw [path, Files.Path.names_empty]
  · rw [path, String.empty_append, List.nil_append]

theorem scannedAt_version {version : String}
    (plain : PlainPath (Files.Path.trimSlashes version)) (here : fs.find? source = some tree)
    (scanned : scanVersion fs source excludes version = .ok d) :
    ScannedAt tree excludes (names (Files.Path.trimSlashes version)) d := by
  rw [scanVersion] at scanned
  generalize Files.Path.trimSlashes version = label at plain scanned ⊢
  split at scanned
  · rename_i isDir
    obtain ⟨path, node, found, sources⟩ := sources_of_scanSet scanned
    rw [Files.isDir, found] at isDir
    refine ⟨⟨node, find?_of_join plain here found, .inr isDir, sources⟩, ?_, fun down filled => ?_⟩
    · rw [path, Files.Path.names_slash]
    · have deeper := filled.resolve_left plain.names_ne_nil
      rw [path, Files.Path.intercalate_append plain.names_ne_nil deeper, plain.names_eq,
        Files.Path.intercalate_segments]
  · cases scanned

/-- A scan has one doc set for the root of the source and one for each version. -/
theorem scan_sets {m : Manifest} (scanned : scan fs source = .ok m)
    (here : fs.find? source = some tree) :
    List.Forall₂ (ScannedAt tree m.config.scanExcludes) ([] :: m.config.versionNames) m.docSets := by
  obtain ⟨config, current, others, read, first, behind, rfl⟩ := scan_eq_ok.mp scanned
  refine .cons (scannedAt_current here first) (List.forall₂_map_left_iff.mpr ?_)
  exact forall₂_of_mapM_ok behind fun version listed _ =>
    scannedAt_version (plain_of_readConfig read version listed) here

/-- Whether the scan of a doc set comes upon a file. -/
def finds (m : Manifest) (place dir : List String) : Bool :=
  dir.isPrefixOf place &&
    Node.passes (isSkipped m.config.scanExcludes) [] (place.drop dir.length)

theorem count_files {m : Manifest} (scanned : scan fs source = .ok m)
    (here : fs.find? source = some tree) (sound : tree.sound = true)
    (file : tree.find? place = some (.file content executable)) :
    m.files.count ("/".intercalate place) =
      ([] :: m.config.versionNames).countP (m.finds place) := by
  have sets := scan_sets scanned here
  rw [files]
  generalize [] :: m.config.versionNames = dirs at sets ⊢
  generalize m.docSets = docSets at sets
  induction sets with
  | nil => rfl
  | cons at' _ ih =>
    rw [List.flatMap_cons, List.count_append, ih, at'.count sound file, List.countP_cons,
      Nat.add_comm]
    rfl

end Manifest

namespace Config

variable {c : Config} {place rest : List String}

/-- A file that a doc set is meant to have, by its place below the root of the doc set: it is not
hidden, is not the configuration, and neither a template directory nor an exclude covers it. -/
def Wanted (c : Config) (rest : List String) : Prop :=
  (∀ name ∈ rest, Manifest.isHidden name = false) ∧ rest ≠ [fileName] ∧
    ∀ entry ∈ (c.templates.chunkDirs ++ c.templates.snippetDirs).map asDir ++ c.exclude,
      Manifest.covers entry ("/".intercalate rest) = false

/-- No directory on the way has, from the same root, the path of the configuration or of a version
in the source. -/
def Free (c : Config) (rest : List String) : Prop :=
  ∀ dir ∈ [fileName] :: c.versionNames, dir <+: rest → dir = rest

instance (c : Config) (rest : List String) : Decidable (c.Wanted rest) :=
  inferInstanceAs (Decidable (_ ∧ _ ∧ _))

instance (c : Config) (rest : List String) : Decidable (c.Free rest) :=
  inferInstanceAs (Decidable (∀ dir ∈ _, _))

theorem passes_iff_wanted
    (plain : ∀ version ∈ c.versions, PlainPath (Files.Path.trimSlashes version))
    (filled : rest ≠ []) (proper : ∀ name ∈ rest, EntryName name) :
    Node.passes (Manifest.isSkipped c.scanExcludes) [] rest = true ↔
      c.Wanted rest ∧ c.Free rest := by
  have named : names fileName = [fileName] := by decide
  have own : Manifest.covers fileName ("/".intercalate rest) = false ↔ ¬ [fileName] <+: rest := by
    rw [← Bool.not_eq_true, Manifest.covers_plain filled proper (by decide), named]
  have others {version : String} (listed : version ∈ c.versions) :
      Manifest.covers (asDir version) ("/".intercalate rest) = false ↔
        (names (Files.Path.trimSlashes version) <+: rest →
          names (Files.Path.trimSlashes version) = rest) := by
    rw [← Bool.not_eq_true, asDir, Manifest.covers_below filled proper (plain version listed),
      not_and_not_right]
  rw [Manifest.passes_isSkipped filled proper]
  simp only [Manifest.mem_scanExcludes]
  constructor
  · rintro ⟨shown, free⟩
    have config := own.mp (free fileName (.inl rfl))
    refine ⟨⟨shown, ?_, ?_⟩, ?_⟩
    · intro same
      exact config (same ▸ List.prefix_rfl)
    · intro entry listed
      apply free
      rcases List.mem_append.mp listed with template | named
      · exact .inr (.inl (List.mem_map.mp template))
      · exact .inr (.inr (.inr named))
    · intro dir listed
      rcases List.mem_cons.mp listed with rfl | listed
      · intro inside
        exact absurd inside config
      · obtain ⟨version, given, rfl⟩ := List.mem_map.mp listed
        apply (others given).mp
        exact free _ (.inr (.inr (.inl ⟨version, given, rfl⟩)))
  · rintro ⟨⟨shown, other, clear⟩, free⟩
    obtain ⟨config, free⟩ := List.forall_mem_cons.mp free
    refine ⟨shown, ?_⟩
    rintro entry (rfl | template | ⟨version, given, rfl⟩ | named)
    · apply own.mpr
      intro inside
      exact other (config inside).symm
    · exact clear entry (List.mem_append_left _ (List.mem_map.mpr template))
    · exact (others given).mpr (free _ (List.mem_map_of_mem given))
    · exact clear entry (List.mem_append_right _ named)

end Config

namespace Manifest

theorem countP_eq_one_iff {α : Type} [BEq α] [LawfulBEq α] {p : α → Bool} {a : α} {l : List α}
    (member : a ∈ l) (holds : p a = true) :
    l.countP p = 1 ↔ l.count a ≤ 1 ∧ ∀ b ∈ l, b ≠ a → p b = false := by
  have parts : l.countP p = l.count a + l.countP fun b => p b && b != a := by
    clear member
    induction l with
    | nil => rfl
    | cons b l ih =>
      rw [List.countP_cons, List.count_cons, List.countP_cons, ih]
      by_cases same : b = a
      · simp [same, holds]
        omega
      · simp [same]
        omega
  have some_of : 0 < l.count a := List.count_pos_iff.mpr member
  have none : (l.countP fun b => p b && b != a) = 0 ↔ ∀ b ∈ l, b ≠ a → p b = false := by
    rw [List.countP_eq_zero]
    apply forall₂_congr
    intro b _
    rw [Bool.not_eq_true, Bool.and_eq_false_iff, bne_eq_false_iff_eq, or_comm, or_iff_not_imp_left]
  rw [parts, ← none]
  omega

theorem exists_of_forall₂ {α β : Type} {R : α → β → Prop} {l : List α} {l' : List β}
    (each : List.Forall₂ R l l') {a : α} (member : a ∈ l) : ∃ b ∈ l', R a b := by
  induction each with
  | nil => cases member
  | cons related _ ih =>
    rcases List.mem_cons.mp member with rfl | member
    · exact ⟨_, List.mem_cons_self .., related⟩
    · obtain ⟨b, listed, related⟩ := ih member
      exact ⟨b, List.mem_cons_of_mem _ listed, related⟩

theorem plain_of_scan {m : Manifest} (scanned : scan fs source = .ok m) :
    ∀ version ∈ m.config.versions, PlainPath (Files.Path.trimSlashes version) := by
  obtain ⟨config, current, others, read, -, -, rfl⟩ := scan_eq_ok.mp scanned
  exact plain_of_readConfig read

theorem versionNames_filled {m : Manifest} (scanned : scan fs source = .ok m) :
    [] ∉ m.config.versionNames := by
  intro listed
  obtain ⟨version, configured, none⟩ := List.mem_map.mp listed
  exact (plain_of_scan scanned version configured).names_ne_nil none

theorem count_home_le {m : Manifest} (scanned : scan fs source = .ok m) :
    ([] :: m.config.versionNames).count (m.config.home place) ≤ 1 ↔
      m.config.versionNames.count (m.config.home place) ≤ 1 := by
  by_cases root : m.config.home place = []
  · have none := List.count_eq_zero.mpr (versionNames_filled scanned)
    simp [root, none]
  · rw [List.count_cons_of_ne (Ne.symm root)]

section

variable {m : Manifest} (scanned : scan fs source = .ok m) (here : fs.find? source = some tree)
  (sound : tree.sound = true) (file : tree.find? place = some (.file content executable))
  (below : place ≠ [])

include scanned here sound file below

omit sound in
/-- A version is a directory, and so no file. -/
theorem rest_ne_nil (listed : dir ∈ [] :: m.config.versionNames) (around : dir <+: place) :
    place.drop dir.length ≠ [] := by
  obtain ⟨rest, rfl⟩ := around
  rw [List.drop_left]
  rintro rfl
  obtain ⟨d, -, at'⟩ := exists_of_forall₂ (scan_sets scanned here) listed
  obtain ⟨node, found, deep, -⟩ := at'.found
  rw [List.append_nil] at file below
  cases found.symm.trans file
  exact deep.elim below nofun

theorem finds_iff (listed : dir ∈ [] :: m.config.versionNames) : m.finds place dir = true ↔
    dir <+: place ∧ m.config.Wanted (place.drop dir.length) ∧
      m.config.Free (place.drop dir.length) := by
  rw [finds, Bool.and_eq_true, List.isPrefixOf_iff_prefix]
  apply and_congr_right
  intro around
  have proper := (Node.sound_find? sound file).1
  exact Config.passes_iff_wanted (plain_of_scan scanned)
    (rest_ne_nil scanned here file below listed around)
    fun name member => proper name (List.drop_subset _ _ member)

theorem mem_sources_iff (listed : dir ∈ [] :: m.config.versionNames) (around : dir <+: place) :
    (∃ d ∈ m.docSets, names d.path = dir ∧ "/".intercalate (place.drop dir.length) ∈ d.sources) ↔
      m.finds place dir = true := by
  have deeper := rest_ne_nil scanned here file below listed around
  obtain ⟨rest, rfl⟩ := around
  rw [List.drop_left] at deeper ⊢
  have sets := scan_sets scanned here
  have counted {d : DocSet} (at' : ScannedAt tree m.config.scanExcludes dir d) :
      "/".intercalate rest ∈ d.sources ↔ m.finds (dir ++ rest) dir = true := by
    have count := at'.count sound file
    rw [← at'.below rest (.inr deeper), List.count_map_of_injective, ← finds] at count
    · rw [← List.count_pos_iff, count]
      split <;> simp [*]
    · exact fun a b same => by simpa using same
  constructor
  · rintro ⟨d, member, lies, found⟩
    obtain ⟨other, -, at'⟩ := exists_of_forall₂ (List.Forall₂.flip sets) member
    obtain rfl : other = dir := at'.lies.symm.trans lies
    exact (counted at').mp found
  · intro finds
    obtain ⟨d, member, at'⟩ := exists_of_forall₂ sets listed
    exact ⟨d, member, at'.lies, (counted at').mpr finds⟩

/-- Of the roots that are not the innermost one only versions around it can have the file. -/
theorem others_miss_iff :
    (∀ dir ∈ [] :: m.config.versionNames, dir ≠ m.config.home place → m.finds place dir = false) ↔
      ∀ version ∈ m.config.versionNames, version <+: m.config.home place →
        version ≠ m.config.home place →
          ¬ (m.config.Wanted (place.drop version.length) ∧
            m.config.Free (place.drop version.length)) := by
  obtain ⟨listed, around, innermost⟩ := m.config.home_spec place
  have found {dir : List String} (root : dir ∈ [] :: m.config.versionNames) :=
    finds_iff scanned here sound file below root
  constructor
  · rintro missed version member outer other ⟨wanted, free⟩
    have member := List.mem_cons_of_mem [] member
    have none := missed version member other
    rw [(found member).mpr ⟨outer.trans around, wanted, free⟩] at none
    cases none
  · intro others dir root other
    apply Bool.eq_false_iff.mpr
    intro finds
    obtain ⟨outer, wanted, free⟩ := (found root).mp finds
    rcases List.mem_cons.mp root with rfl | member
    · -- seen from the root, the way to the file passes over the version around it
      have version := (List.mem_cons.mp listed).resolve_left (Ne.symm other)
      have whole := free _ (List.mem_cons_of_mem _ version) around
      apply rest_ne_nil scanned here file below listed around
      rw [whole]
      exact List.drop_length
    · exact others dir member (innermost dir member outer) other ⟨wanted, free⟩

end

/-- A file that its own doc set is meant to have is in this doc set and in no other one, and once,
just when nothing on the way to it is taken for the configuration or for a version, the version is
configured once, and no other version around it has the file. -/
theorem files_partitioned {m : Manifest} (scanned : scan fs source = .ok m)
    (here : fs.find? source = some tree) (sound : tree.sound = true)
    (file : tree.find? place = some (.file content executable)) (below : place ≠ [])
    (wanted : m.config.Wanted (place.drop (m.config.home place).length)) :
    (m.files.count ("/".intercalate place) = 1 ∧
      ∃ d ∈ m.docSets, names d.path = m.config.home place ∧
        "/".intercalate (place.drop (m.config.home place).length) ∈ d.sources) ↔
      m.config.Free (place.drop (m.config.home place).length) ∧
      m.config.versionNames.count (m.config.home place) ≤ 1 ∧
      ∀ version ∈ m.config.versionNames, version <+: m.config.home place →
        version ≠ m.config.home place →
          ¬ (m.config.Wanted (place.drop version.length) ∧
            m.config.Free (place.drop version.length)) := by
  obtain ⟨listed, around, -⟩ := m.config.home_spec place
  have home : m.finds place (m.config.home place) = true ↔
      m.config.Free (place.drop (m.config.home place).length) := by
    rw [finds_iff scanned here sound file below listed]
    constructor
    · rintro ⟨-, -, free⟩
      exact free
    · intro free
      exact ⟨around, wanted, free⟩
  rw [count_files scanned here sound file,
    mem_sources_iff scanned here sound file below listed around, ← home, and_comm]
  apply and_congr_right
  intro found
  rw [countP_eq_one_iff listed found, count_home_le scanned,
    others_miss_iff scanned here sound file below]

/-! Versions inside of versions -/

/-- The tree of a source with versions. -/
def shelves (versions : String) (entries : List (String × Node)) : Node :=
  .dir (("config.toml",
    .file ("version = \"2\"\nversions = " ++ versions).toUTF8 false) :: entries)

def library (versions : String) (entries : List (String × Node)) : Files where
  root := .dir [("site", shelves versions entries)]

def leaf : String × Node := ("a.md", .file "x".toUTF8 false)

/-- A version in a hidden directory of another one. -/
def attic : List (String × Node) := [("v1", .dir [(".old", .dir [("g", .dir [leaf])])])]

theorem attic_partitioned : ∃ m, scan (library "[\"v1\", \"v1/.old\"]" attic) "site" = .ok m ∧
    m.config.home ["v1", ".old", "g", "a.md"] = ["v1", ".old"] ∧
    m.files.count "v1/.old/g/a.md" = 1 ∧
    ∃ d ∈ m.docSets, names d.path = ["v1", ".old"] ∧ "g/a.md" ∈ d.sources := by
  have config : (scan (library "[\"v1\", \"v1/.old\"]" attic) "site").toOption.map (·.config) =
      some { version := "2", versions := ["v1", "v1/.old"] } := by decide +kernel
  cases scanned : scan (library "[\"v1\", \"v1/.old\"]" attic) "site" with
  | error e => rw [scanned] at config; cases config
  | ok m =>
    rw [scanned] at config
    have config : m.config = _ := Option.some.inj config
    have home : m.config.home ["v1", ".old", "g", "a.md"] = ["v1", ".old"] := by
      rw [config]
      decide
    have file : (shelves "[\"v1\", \"v1/.old\"]" attic).find? ["v1", ".old", "g", "a.md"] =
        some leaf.2 := rfl
    obtain ⟨count, d, listed, lies, found⟩ :=
      (files_partitioned scanned rfl (by decide +kernel) file (by decide)
        (by rw [config]; decide +kernel)).mpr (by rw [config]; decide +kernel)
    rw [home] at lies found
    exact ⟨m, rfl, home, count, d, listed, lies, found⟩

/-- A file in a directory that is called like another version is in no doc set, and a file in a
version inside of another one is in two. -/
theorem versions_mislay_files :
    (scan (library "[\"v1\", \"v2\"]" [("v1", .dir [("v2", .dir [leaf])]), ("v2", .dir [])])
        "site").toOption.map (fun m => (m.config.home ["v1", "v2", "a.md"],
          decide (m.config.Wanted ["v2", "a.md"]), m.files)) = some (["v1"], true, []) ∧
    (scan (library "[\"v1\", \"v1/old\"]" [("v1", .dir [("old", .dir [leaf])])])
        "site").toOption.map (fun m => (m.config.home ["v1", "old", "a.md"],
          decide (m.config.Wanted ["a.md"]), m.files)) =
      some (["v1", "old"], true, ["v1/old/a.md", "v1/old/a.md"]) := by
  decide +kernel

end Manifest
end DocSite.Site
