import DocSite.Proofs.OutputPath
import DocSite.Site.Manifest

/-! What a scan finds. Its doc sets lie in the root of the output or in plain directories below it,
since the configuration has been checked, and the output paths of its pages end in `.html`, since
Markdown files have names in `.md`. -/
namespace DocSite

open Files.Path (PlainPath names join segments)

namespace Files.Path

/-- An extension stands behind the last dot of a name. -/
theorem extension_suffix {name extension : String}
    (parted : (splitExtension name).2 = some extension) :
    '.' :: extension.toList <:+ name.toList := by
  dsimp only [splitExtension] at parted
  split at parted
  · cases parted
  · cases parted
  · rename_i dot stem other behind
    split at parted
    · cases parted
    · rw [← Option.some.inj parted, String.toList_ofList]
      have stop : dot = '.' := by
        have first := List.head?_dropWhile_not (· ≠ '.') name.toList.reverse
        rw [behind] at first
        simpa using first
      refine ⟨stem.reverse, ?_⟩
      have whole := congrArg List.reverse
        (List.takeWhile_append_dropWhile (p := (· ≠ '.')) (l := name.toList.reverse))
      rw [behind, List.reverse_append, List.reverse_cons, List.reverse_reverse, List.append_assoc,
        stop] at whole
      exact whole

end Files.Path

namespace Site.Manifest

theorem ok_of_bind {ε α β : Type} {first : Except ε α} {next : α → Except ε β} {b : β}
    (ended : first >>= next = .ok b) : ∃ a, first = .ok a ∧ next a = .ok b := by
  cases first with
  | error e => cases ended
  | ok a => exact ⟨a, rfl, ended⟩

theorem ok_of_toOption {ε α : Type} {answer : Except ε α} {a : α}
    (given : answer.toOption = some a) : answer = .ok a := by
  cases answer with
  | error => cases given
  | ok => exact congrArg Except.ok (Option.some.inj given)

theorem mapM_cons_eq_ok {ε α β : Type} {f : α → Except ε β} {item : α} {rest : List α}
    {found : List β} : (item :: rest).mapM f = .ok found ↔
      ∃ first others, f item = .ok first ∧ rest.mapM f = .ok others ∧ found = first :: others := by
  rw [List.mapM_cons]
  constructor
  · intro mapped
    obtain ⟨first, head, mapped⟩ := ok_of_bind mapped
    obtain ⟨others, tail, mapped⟩ := ok_of_bind mapped
    cases mapped
    exact ⟨first, others, head, tail, rfl⟩
  · rintro ⟨first, others, head, tail, rfl⟩
    rw [head, tail]
    rfl

theorem mem_of_mapM_ok {ε α β : Type} {f : α → Except ε β} {items : List α} {found : List β}
    (mapped : items.mapM f = .ok found) {b : β} (member : b ∈ found) :
    ∃ a ∈ items, f a = .ok b := by
  induction items generalizing found with
  | nil =>
    cases mapped
    cases member
  | cons item rest ih =>
    obtain ⟨first, others, head, tail, rfl⟩ := mapM_cons_eq_ok.mp mapped
    rcases List.mem_cons.mp member with rfl | member
    · exact ⟨item, List.mem_cons_self .., head⟩
    · obtain ⟨a, listed, same⟩ := ih tail member
      exact ⟨a, List.mem_cons_of_mem _ listed, same⟩

theorem plain_of_isPlainDir {dir : String} (plain : Config.isPlainDir dir = true) :
    PlainPath (Files.Path.trimSlashes dir) := by
  intro segment parted
  have fits := List.all_eq_true.mp plain _ (List.mem_map_of_mem parted)
  simp only [Bool.and_eq_true, bne_iff_ne] at fits
  obtain ⟨⟨filled, dot⟩, dots⟩ := fits
  exact ⟨fun same => filled (same ▸ rfl), fun same => dot (same ▸ rfl),
    fun same => dots (same ▸ rfl)⟩

theorem plain_of_check {c config : Config} (valid : c.check = .ok config) :
    ∀ version ∈ config.versions, PlainPath (Files.Path.trimSlashes version) := by
  rw [Config.check] at valid
  split at valid
  · cases valid
  · rename_i sound
    cases valid
    intro version listed
    refine plain_of_isPlainDir (Bool.of_not_eq_false fun bad => ?_)
    rw [Config.fault?] at sound
    split at sound
    · cases sound
    · split at sound
      · cases sound
      · split at sound
        · cases sound
        · rename_i none
          exact absurd bad (by simpa using List.find?_eq_none.mp none version listed)

theorem plain_of_read {text? : Option String} {config : Config}
    (read : Config.read text? = .ok config) :
    ∀ version ∈ config.versions, PlainPath (Files.Path.trimSlashes version) := by
  have resolved {overlay? : Option Toml.Value} (ended : Config.resolve overlay? = .ok config) :
      ∀ version ∈ config.versions, PlainPath (Files.Path.trimSlashes version) := by
    rw [Config.resolve, Config.ofValue] at ended
    split at ended
    · exact plain_of_check ended
    · cases ended
  unfold Config.read at read
  split at read
  · exact resolved read
  · split at read
    · exact resolved read
    · cases read

theorem read_of_readConfig {fs : Files} {source : String} {config : Config}
    (read : readConfig fs source = .ok config) : ∃ text?, Config.read text? = .ok config := by
  rw [readConfig] at read
  dsimp only at read
  split at read
  · split at read
    · obtain ⟨text?, -, read⟩ := ok_of_bind read
      split at read <;> cases read
      exact ⟨text?, ‹_›⟩
    · cases read
  · obtain ⟨text?, -, read⟩ := ok_of_bind read
    split at read <;> cases read
    exact ⟨text?, ‹_›⟩

/-- The directories of versions are plain paths. -/
theorem plain_of_readConfig {fs : Files} {source : String} {config : Config}
    (read : readConfig fs source = .ok config) :
    ∀ version ∈ config.versions, PlainPath (Files.Path.trimSlashes version) := by
  obtain ⟨_, valid⟩ := read_of_readConfig read
  exact plain_of_read valid

theorem output_of_readPage {dir : String} {f : Files.Found} {p : Page}
    (read : readPage dir f = .ok p) : p.output = Naming.pageOutputPath f.path := by
  unfold readPage at read
  split at read
  · cases read
  · split at read
    · cases read
    · cases read
      rfl

/-- What a scan of one directory comes to: pages in order, the other files, and their menu. -/
theorem scanSet_eq_ok {fs : Files} {dir label path : String} {excludes : List String}
    {d : DocSet} : scanSet fs dir excludes label path = .ok d ↔ ∃ node pages,
      fs.find? dir = some node ∧
      ((node.walk (isSkipped excludes)).filter (isMarkdown dir)).mapM (readPage dir) = .ok pages ∧
      d = ⟨label, path, Page.sort pages,
        ((node.walk (isSkipped excludes)).filter (not ∘ isMarkdown dir)).map asset,
        MenuItem.ofPages (Page.sort pages)⟩ := by
  rw [scanSet]
  constructor
  · intro scanned
    split at scanned
    · cases scanned
    · rename_i node found
      rw [List.partition_eq_filter_filter] at scanned
      obtain ⟨pages, read, scanned⟩ := ok_of_bind scanned
      cases scanned
      exact ⟨node, pages, found, read, rfl⟩
  · rintro ⟨node, pages, found, read, rfl⟩
    rw [found]
    dsimp only
    rw [List.partition_eq_filter_filter, read]
    rfl

/-- What a scan comes to: the configuration, the doc set of the root, and those of the versions. -/
theorem scan_eq_ok {fs : Files} {source : String} {m : Manifest} :
    scan fs source = .ok m ↔ ∃ config current others, readConfig fs source = .ok config ∧
      scanSet fs source config.scanExcludes config.version "" = .ok current ∧
      config.versions.mapM (scanVersion fs source config.scanExcludes) = .ok others ∧
      m = ⟨config, current :: others⟩ := by
  constructor
  · intro scanned
    obtain ⟨config, read, scanned⟩ := ok_of_bind scanned
    obtain ⟨current, first, scanned⟩ := ok_of_bind scanned
    obtain ⟨others, behind, scanned⟩ := ok_of_bind scanned
    cases scanned
    exact ⟨config, current, others, read, first, behind, rfl⟩
  · rintro ⟨config, current, others, read, first, behind, rfl⟩
    rw [scan, read]
    dsimp only [bind, Except.bind]
    rw [first, behind]
    rfl

/-- Each doc set of a scan was scanned by itself, for the root of the output or for a version. -/
theorem scanSet_of_scan {fs : Files} {source : String} {m : Manifest} {d : DocSet}
    (scanned : scan fs source = .ok m) (listed : d ∈ m.docSets) : ∃ dir label path,
      scanSet fs dir m.config.scanExcludes label path = .ok d ∧
      (path = "" ∨ ∃ version ∈ m.config.versions, path = Files.Path.trimSlashes version ++ "/") := by
  obtain ⟨config, current, others, -, first, behind, rfl⟩ := scan_eq_ok.mp scanned
  rcases List.mem_cons.mp listed with rfl | listed
  · exact ⟨_, _, _, first, .inl rfl⟩
  · obtain ⟨version, configured, same⟩ := mem_of_mapM_ok behind listed
    rw [scanVersion] at same
    split at same
    · exact ⟨_, _, _, same, .inr ⟨version, configured, rfl⟩⟩
    · cases same

theorem page_of_scanSet {fs : Files} {dir label path : String} {excludes : List String} {d : DocSet}
    (scanned : scanSet fs dir excludes label path = .ok d) : d.path = path ∧
      ∀ p ∈ d.pages, ∃ f, isMarkdown dir f = true ∧ p.output = Naming.pageOutputPath f.path := by
  obtain ⟨node, pages, -, read, rfl⟩ := scanSet_eq_ok.mp scanned
  refine ⟨rfl, fun p listed => ?_⟩
  obtain ⟨f, found, same⟩ := mem_of_mapM_ok read (List.mem_mergeSort.mp listed)
  exact ⟨f, (List.mem_filter.mp found).2, output_of_readPage same⟩

theorem fileName_of_last {dir : String} {f : Files.Found} {front : List (List Char)}
    {last : List Char} (parted : segments f.path = front ++ [last]) (filled : last ≠ []) :
    fileName dir f = String.ofList last := by
  have below : f.names.isEmpty = false := by
    refine Bool.eq_false_iff.mpr fun none => filled ?_
    rw [Files.Found.path, List.isEmpty_iff.mp none] at parted
    have parted : [] ++ [[]] = front ++ [last] := parted
    exact (List.singleton_inj.mp (List.append_inj' parted rfl).2).symm
  have ends : ∃ above, names f.path = above ++ [String.ofList last] := by
    refine ⟨(front.map String.ofList).filter (· ≠ ""), ?_⟩
    have other : String.ofList last ≠ "" := fun none => filled (by simpa using none)
    rw [names, Files.Path.splitOn, ← segments, parted, List.map_append, List.filter_append]
    simp [other]
  obtain ⟨above, ends⟩ := ends
  rw [fileName, pathIn, below, if_neg Bool.false_ne_true]
  by_cases absolute : Files.Path.isAbsolute f.path = true
  · rw [join, absolute, Bool.true_or, if_pos rfl, ends, List.getLastD_concat]
  · rw [Files.Path.names_join (Bool.not_eq_true _ ▸ absolute), ends, ← List.append_assoc,
      List.getLastD_concat]

/-- The last name of a path that a Markdown file is found at ends in `.md`, if there is one. -/
theorem suffix_of_isMarkdown {dir : String} {f : Files.Found} {front : List (List Char)}
    {last : List Char} (markdown : isMarkdown dir f = true)
    (parted : segments f.path = front ++ [last]) (filled : last ≠ []) :
    Naming.markdownSuffix <:+ last := by
  have ending : Naming.markdownSuffix <:+ (fileName dir f).toList :=
    Files.Path.extension_suffix (eq_of_beq markdown)
  rwa [fileName_of_last parted filled, String.toList_ofList] at ending

/-- A Markdown file whose output path is plain has a path that ends in `.md`. -/
theorem markdown_suffix {dir : String} {f : Files.Found} (markdown : isMarkdown dir f = true)
    (plain : PlainPath (Naming.pageOutputPath f.path)) :
    Naming.markdownSuffix <:+ f.path.toList := by
  obtain ⟨front, last, parted⟩ := Files.Path.segments_last f.path
  have filled : last ≠ [] :=
    Naming.filled_of_plainPath plain last (parted ▸ List.mem_concat_self)
  rw [← Files.Path.intercalate_splitOnChar '/' f.path.toList, ← segments, parted]
  exact (suffix_of_isMarkdown markdown parted filled).trans (Files.Path.last_suffix front last)

/-! Scans that come to something -/

/-- What a scan comes to that finds its files in order. -/
theorem scanSet_sorted {fs : Files} {dir label path : String} {excludes : List String}
    {node : Files.Node} {pages : List Page} {assets : List Asset} (here : fs.find? dir = some node)
    (files : (node.collect (isSkipped excludes) []).Pairwise (Files.Found.notAfter · ·))
    (read : (((node.collect (isSkipped excludes) []).filter
      (isMarkdown dir)).mapM (readPage dir)).toOption = some pages)
    (copied : ((node.collect (isSkipped excludes) []).filter
      (not ∘ isMarkdown dir)).map asset = assets)
    (order : pages.Pairwise fun p q =>
      ((PageKey.ofSource p.source).compare (PageKey.ofSource q.source) != .gt) = true) :
    scanSet fs dir excludes label path =
      .ok ⟨label, path, pages, assets, MenuItem.ofPages pages⟩ := by
  have sorted : Page.sort pages = pages := List.mergeSort_of_pairwise order
  have walked : node.walk (isSkipped excludes) =
      node.collect (isSkipped excludes) [] := List.mergeSort_of_pairwise files
  refine scanSet_eq_ok.mpr ⟨node, pages, here, ?_, ?_⟩
  · rw [walked]
    exact ok_of_toOption read
  · rw [walked, copied, sorted]

theorem scan_unversioned {fs : Files} {source : String} {c : Config} {d : DocSet}
    (read : readConfig fs source = .ok c)
    (single : c.versions = [])
    (found : scanSet fs source c.scanExcludes c.version "" = .ok d) :
    scan fs source = .ok ⟨c, [d]⟩ := by
  refine scan_eq_ok.mpr ⟨c, d, [], read, found, ?_, rfl⟩
  rw [single]
  rfl

end Site.Manifest

open Site (DocSet Manifest)

/-- Where a doc set lies in the output: in its root or in a directory below. -/
def Site.DocSet.Rooted (d : DocSet) : Prop :=
  d.path = "" ∨ ∃ dir, PlainPath dir ∧ d.path = dir ++ "/"

namespace Site.DocSet.Rooted

variable {d : DocSet} {out : String}

theorem plain (rooted : d.Rooted) (plain : PlainPath out) : PlainPath (d.path ++ out) := by
  obtain none | ⟨dir, below, same⟩ := rooted
  · rwa [none, String.empty_append]
  · rw [same, PlainPath, Files.Path.segments_sep]
    exact List.forall_mem_append.mpr ⟨below, plain⟩

theorem relative (rooted : d.Rooted) : Files.Path.isAbsolute d.path = false := by
  obtain none | ⟨dir, below, same⟩ := rooted
  · rw [none]
    rfl
  · rw [same, Files.Path.isAbsolute_append below.filled_path]
    exact below.relative

theorem names_append (rooted : d.Rooted) : names (d.path ++ out) = names d.path ++ names out := by
  obtain none | ⟨dir, -, same⟩ := rooted
  · rw [none, String.empty_append, Files.Path.names_empty, List.nil_append]
  · rw [same, Files.Path.names_sep, Files.Path.names_slash]

end Site.DocSet.Rooted

theorem Site.Manifest.scan_spec {fs : Files} {source : String} {m : Manifest}
    (scanned : Manifest.scan fs source = .ok m) : ∀ d ∈ m.docSets, d.Rooted ∧
      ∀ p ∈ d.pages, PlainPath p.output → Naming.htmlSuffix <:+ p.output.toList := by
  have pages {dir label path : String} {excludes : List String} {d : DocSet}
      (scanned : scanSet fs dir excludes label path = .ok d) :
      ∀ p ∈ d.pages, PlainPath p.output → Naming.htmlSuffix <:+ p.output.toList := by
    intro p listed plain
    obtain ⟨f, markdown, same⟩ := (page_of_scanSet scanned).2 p listed
    rw [same] at plain ⊢
    exact Naming.html_pageOutputPath (markdown_suffix markdown plain)
  intro d listed
  obtain ⟨dir, label, path, alone, lies⟩ := scanSet_of_scan scanned listed
  refine ⟨?_, pages alone⟩
  rw [Site.DocSet.Rooted, (page_of_scanSet alone).1]
  refine lies.imp_right fun ⟨version, configured, same⟩ => ?_
  obtain ⟨config, _, _, read, -, -, rfl⟩ := scan_eq_ok.mp scanned
  exact ⟨_, plain_of_readConfig read version configured, same⟩

end DocSite
