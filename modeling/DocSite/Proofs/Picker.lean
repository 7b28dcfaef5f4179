import DocSite.Proofs.Leading
import DocSite.Proofs.Roots

/-! The version picker. A page has one entry for each doc set that has the page, in the order of the
doc sets. Marked are the entries that have the label of the page's own doc set, so that one is
marked, and the right one, just when no other of these doc sets has this label. -/
namespace DocSite.Site

open Files (Found Node)
open Files.Path (EntryName segments splitOnChar trimSlashes)

/-! Entries and their HTML -/

structure PickerEntry where
  url : String
  label : String
  marked : Bool
deriving DecidableEq, Repr

namespace PickerEntry

def markText : String := " selected=\"selected\""

/-- An entry as it stands in a page. -/
def html (e : PickerEntry) : String :=
  "<option value=\"" ++ e.url ++ "\"" ++ (if e.marked then markText else "") ++ ">Version " ++
    e.label ++ "</option>"

/-- What a reader of the page takes a line for. -/
def read? (line : List Char) : Option PickerEntry := do
  let line ← line.dropPrefix? "<option value=\"".toList
  let url := line.takeWhile (· ≠ '"')
  let line := (line.dropWhile (· ≠ '"')).tail
  let behind? := line.dropPrefix? markText.toList
  let line ← (behind?.getD line).dropPrefix? ">Version ".toList
  let label := line.takeWhile (· ≠ '<')
  if line.dropWhile (· ≠ '<') = "</option>".toList then
    return ⟨String.ofList url, String.ofList label, behind?.isSome⟩
  else none

/-- The entries of a picker, which are lines. -/
def readAll? (picker : String) : Option (List PickerEntry) :=
  (splitOnChar '\n' picker.toList).mapM read?

/-- Whether neither the address nor the label ends where it stands in the HTML. -/
def Clean (e : PickerEntry) : Prop :=
  ('"' ∉ e.url.toList ∧ '\n' ∉ e.url.toList) ∧ '<' ∉ e.label.toList ∧ '\n' ∉ e.label.toList

instance (e : PickerEntry) : Decidable e.Clean := inferInstanceAs (Decidable ((_ ∧ _) ∧ _ ∧ _))

variable {e : PickerEntry} {entries : List PickerEntry}

theorem dropPrefix?_append (front rest : List Char) :
    (front ++ rest).dropPrefix? front = some rest :=
  List.dropPrefix?_append_of_beq rest (beq_self_eq_true front)

theorem parted_at {c : Char} {front rest : List Char} (apart : c ∉ front) :
    (front ++ c :: rest).takeWhile (· ≠ c) = front ∧
      (front ++ c :: rest).dropWhile (· ≠ c) = c :: rest := by
  have each : ∀ a ∈ front, decide (a ≠ c) = true := fun a member =>
    decide_eq_true fun same => apart (same ▸ member)
  rw [List.takeWhile_append_of_pos each, List.dropWhile_append_of_pos each]
  simp

theorem toList_html (e : PickerEntry) : e.html.toList = "<option value=\"".toList ++
    (e.url.toList ++ '"' :: ((if e.marked then markText.toList else []) ++ (">Version ".toList ++
      (e.label.toList ++ '<' :: "/option>".toList)))) := by
  have quote : "\"".toList = ['"'] := by decide
  have ending : "</option>".toList = '<' :: "/option>".toList := by decide
  have mark : (if e.marked then markText else "").toList =
      if e.marked then markText.toList else [] := by
    cases e.marked <;> rfl
  unfold html
  simp only [String.toList_append, quote, ending, mark, List.append_assoc, List.cons_append,
    List.nil_append]

theorem dropPrefix?_markText (rest : List Char) :
    (">Version ".toList ++ rest).dropPrefix? markText.toList = none := by
  have first : ">Version ".toList = '>' :: "Version ".toList := by decide
  have mark : markText.toList = ' ' :: "selected=\"selected\"".toList := by decide
  rw [first, mark]
  rfl

theorem read?_html (clean : e.Clean) : read? e.html.toList = some e := by
  obtain ⟨url, label, marked⟩ := e
  obtain ⟨⟨quote, -⟩, bracket, -⟩ := clean
  have ending : "</option>".toList = '<' :: "/option>".toList := by decide
  rw [toList_html, read?, dropPrefix?_append, Option.bind_eq_bind, Option.bind_some]
  dsimp only
  rw [(parted_at quote).1, (parted_at quote).2, List.tail_cons, String.ofList_toList, ending]
  cases marked with
  | false =>
    rw [if_neg Bool.false_ne_true, List.nil_append, dropPrefix?_markText, Option.getD_none,
      dropPrefix?_append, Option.bind_some, (parted_at bracket).1, (parted_at bracket).2,
      String.ofList_toList, if_pos rfl]
    rfl
  | true =>
    rw [if_pos rfl, dropPrefix?_append, Option.getD_some, dropPrefix?_append, Option.bind_some,
      (parted_at bracket).1, (parted_at bracket).2, String.ofList_toList, if_pos rfl]
    rfl

theorem newline_not_mem_html (clean : e.Clean) : '\n' ∉ e.html.toList := by
  obtain ⟨⟨-, address⟩, -, name⟩ := clean
  have mark : '\n' ∉ (if e.marked then markText.toList else []) := by
    cases e.marked <;> decide
  rw [toList_html]
  simp only [List.mem_append, List.mem_cons, address, name, mark]
  decide

theorem readAll?_html (filled : entries ≠ []) (clean : ∀ e ∈ entries, e.Clean) :
    readAll? ("\n".intercalate (entries.map html)) = some entries := by
  have lines : splitOnChar '\n' ("\n".intercalate (entries.map html)).toList =
      entries.map (·.html.toList) := by
    rw [String.toList_intercalate, List.map_map]
    refine Files.Path.splitOnChar_intercalate ?_ (mt List.map_eq_nil_iff.mp filled)
    exact List.forall_mem_map.mpr fun e member => newline_not_mem_html (clean e member)
  rw [readAll?, lines]
  clear lines filled
  induction entries with
  | nil => rfl
  | cons e rest ih =>
    obtain ⟨first, others⟩ := List.forall_mem_cons.mp clean
    rw [List.map_cons, List.mapM_cons, read?_html first, ih others]
    rfl

end PickerEntry

namespace DocSet

variable {d t : DocSet} {output : String}

/-- What the picker of a page says of a doc set. -/
def pickerEntry (current : DocSet) (output : String) (target : DocSet) : PickerEntry :=
  ⟨current.optionUrl output target, target.label, decide (target.label = current.label)⟩

theorem versionOption_eq_html (current : DocSet) (output : String) (target : DocSet) :
    current.versionOption output target = (current.pickerEntry output target).html := by
  unfold versionOption pickerEntry optionUrl PickerEntry.html PickerEntry.markText
  dsimp only [toString]
  simp only [decide_eq_true_eq, String.append_assoc]

/-- The doc sets that have a page, with their places among all. -/
def having (sets : List DocSet) (output : String) : List (DocSet × Nat) :=
  sets.zipIdx.filter fun t => t.1.hasPage output

theorem versionOptions_eq {sets : List DocSet} (versioned : 1 < sets.length) (current : DocSet)
    (output : String) : versionOptions sets current output =
      "\n".intercalate (((having sets output).map fun t => current.pickerEntry output t.1).map
        PickerEntry.html) := by
  have found : sets.filter (·.hasPage output) = (having sets output).map Prod.fst := by
    have places : sets.zipIdx.map Prod.fst = sets := List.zipIdx_map_fst 0 sets
    rw [having]
    conv_lhs => rw [← places, List.filter_map]
    rfl
  rw [versionOptions, if_neg (Nat.not_le.mpr versioned), found, List.map_map, List.map_map]
  refine congrArg _ (List.map_congr_left fun t _ => ?_)
  exact versionOption_eq_html current output t.1

/-- Marked is the entry at place `i` and no other just when the doc set there, and no other with the
page, has the label of the current one. -/
theorem marks_iff {sets : List DocSet} {current : DocSet} {i : Nat} (output : String) :
    ((having sets output).map fun t => (current.pickerEntry output t.1).marked) =
        (having sets output).map (fun t => decide (t.2 = i)) ↔
      ∀ t ∈ having sets output, t.1.label = current.label ↔ t.2 = i := by
  rw [List.map_inj_left]
  exact forall₂_congr fun t _ => decide_eq_decide

/-- A page with an output path that ends in a name is in a doc set, or the page of the directory of
this name. -/
theorem hasPage_iff (whole : trimSlashes output = output) : t.hasPage output = true ↔
    ∃ q ∈ t.pages, q.output = output ∨ q.output = output ++ "/index.html" := by
  simp only [hasPage, pageByOutput?, whole, Bool.or_eq_true, List.find?_isSome, beq_iff_eq,
    ← exists_or, ← and_or_left]

end DocSet

namespace Manifest

theorem trimSlashes_html {path : String} (ends : Naming.htmlSuffix <:+ path.toList) :
    trimSlashes path = path := by
  obtain ⟨front, same⟩ := ends
  have last : path.toList.reverse = 'l' :: ('m' :: 't' :: 'h' :: '.' :: front.reverse) := by
    rw [← same, List.reverse_append]
    rfl
  have stop : path.toList.reverse.dropWhile (· == '/') = path.toList.reverse := by
    rw [last]
    exact List.dropWhile_cons_of_neg (by decide)
  rw [trimSlashes, stop, List.reverse_reverse, String.ofList_toList]

/-- The output paths of pages have names at their ends. -/
theorem whole_of_scanSet {fs : Files} {dir label path : String} {excludes : List String}
    {d : DocSet} {p : Page} (sound : fs.root.sound = true)
    (scanned : scanSet fs dir excludes label path = .ok d) (listed : p ∈ d.pages) :
    trimSlashes p.output = p.output := by
  obtain ⟨node, pages, found, read, rfl⟩ := scanSet_eq_ok.mp scanned
  obtain ⟨f, member, same⟩ := mem_of_mapM_ok read (List.mem_mergeSort.mp listed)
  obtain ⟨walked, markdown⟩ := List.mem_filter.mp member
  obtain ⟨place, -, there, -⟩ := reaches_of_find? found
  have below := (Node.sound_find? sound there).2
  obtain ⟨down, mark, names, file⟩ :=
    Node.file_of_collect _ [] node below f (List.mem_mergeSort.mp walked)
  have proper := (Node.sound_find? below file).1
  obtain rfl : f.names = down := names
  rw [output_of_readPage same]
  by_cases here : f.names = []
  · rw [Found.path, here]
    decide +kernel
  · refine trimSlashes_html (Naming.html_pageOutputPath ?_)
    have parted := Files.Path.segments_intercalate here proper
    rw [← Found.path, ← List.dropLast_concat_getLast here, List.map_append,
      List.map_singleton] at parted
    have filled : (f.names.getLast here).toList ≠ [] := by
      intro none
      exact (proper _ (List.getLast_mem here)).1 (String.toList_injective none)
    rw [← Files.Path.intercalate_splitOnChar '/' f.path.toList, ← segments, parted]
    exact (suffix_of_isMarkdown markdown parted filled).trans (Files.Path.last_suffix _ _)

theorem labels_of_scan {fs : Files} {source : String} {m : Manifest}
    (scanned : scan fs source = .ok m) :
    m.docSets.map (·.label) = m.config.version :: m.config.versions.map trimSlashes := by
  obtain ⟨config, current, others, read, first, behind, rfl⟩ := scan_eq_ok.mp scanned
  have label {dir label path : String} {d : DocSet}
      (scanned : scanSet fs dir config.scanExcludes label path = .ok d) : d.label = label := by
    obtain ⟨_, _, -, -, rfl⟩ := scanSet_eq_ok.mp scanned
    rfl
  have each : List.Forall₂ (fun version d => trimSlashes version = d.label)
      config.versions others := by
    refine forall₂_of_mapM_ok behind fun version _ d same => ?_
    rw [scanVersion] at same
    split at same
    · exact (label same).symm
    · cases same
  rw [← List.forall₂_map_right_iff, ← List.forall₂_map_left_iff, List.forall₂_eq_eq_eq] at each
  rw [List.map_cons, label first, each]

/-- The picker of a page has an entry for each doc set with the page, in their order, and one of
them is the page's own. The mark is on this entry and on no other just when no other of these doc
sets has the same label. Labels come from the configuration. -/
theorem own_entry_marked_iff {fs : Files} {source : String} {m : Manifest} {d : DocSet} {i : Nat}
    {p : Page} (scanned : scan fs source = .ok m) (sound : fs.root.sound = true)
    (versioned : 1 < m.docSets.length) (own : m.docSets[i]? = some d) (listed : p ∈ d.pages) :
    let having := DocSet.having m.docSets p.output
    ∃ entries : List PickerEntry,
      DocSet.versionOptions m.docSets d p.output =
        "\n".intercalate (entries.map PickerEntry.html) ∧
      entries.map (·.url) = having.map (fun t => d.optionUrl p.output t.1) ∧
      entries.map (·.label) = having.map (fun t => t.1.label) ∧
      (d, i) ∈ having ∧
      (entries.map (·.marked) = having.map (fun t => decide (t.2 = i)) ↔
        ∀ t ∈ having, t.1.label = d.label → t.2 = i) ∧
      ((∀ e ∈ entries, e.Clean) →
        PickerEntry.readAll? (DocSet.versionOptions m.docSets d p.output) = some entries) ∧
      (∀ t ∈ m.docSets, t.hasPage p.output = true ↔
        ∃ q ∈ t.pages, q.output = p.output ∨ q.output = p.output ++ "/index.html") ∧
      m.docSets.map (·.label) = m.config.version :: m.config.versions.map trimSlashes := by
  dsimp only
  obtain ⟨_, _, _, alone, -⟩ := scanSet_of_scan scanned (List.mem_of_getElem? own)
  have whole := whole_of_scanSet sound alone listed
  have here : (d, i) ∈ DocSet.having m.docSets p.output :=
    List.mem_filter.mpr ⟨List.mk_mem_zipIdx_iff_getElem?.mpr own,
      (DocSet.hasPage_iff whole).mpr ⟨p, listed, .inl rfl⟩⟩
  have written := DocSet.versionOptions_eq versioned d p.output
  refine ⟨_, written, ?_, ?_, here, ?_, fun clean => ?_, fun t _ => DocSet.hasPage_iff whole,
    labels_of_scan scanned⟩
  · rw [List.map_map]
    rfl
  · rw [List.map_map]
    rfl
  · rw [List.map_map]
    refine (DocSet.marks_iff p.output).trans (forall₂_congr fun t member => ?_)
    refine ⟨Iff.mp, fun alike => ⟨alike, fun same => ?_⟩⟩
    obtain ⟨at', -⟩ := List.mem_filter.mp member
    have found := List.mem_zipIdx_iff_getElem?.mp at'
    rw [same, own] at found
    rw [Option.some.inj found]
  · rw [written]
    exact PickerEntry.readAll?_html (List.ne_nil_of_mem (List.mem_map_of_mem here)) clean

/-! A site with two versions -/
namespace Journal

/-- A source with one page and its older version `v1`. -/
def source (label : String) : Files where
  root := .dir [("site", .dir [
    ("a.md", .file "x".toUTF8 false),
    ("config.toml", .file ("version = \"" ++ label ++ "\"\nversions = [\"v1\"]\n").toUTF8 false),
    ("v1", .dir [("a.md", .file "y".toUTF8 false)])])]

def page (body : String) : Page := { source := "a.md", output := "a.html", title := "a", body }

def current : DocSet := ⟨"2", "", [page "x"], [], MenuItem.ofPages [page "x"]⟩

def older : DocSet := ⟨"v1", "v1/", [page "y"], [], MenuItem.ofPages [page "y"]⟩

def manifest : Manifest := ⟨{ version := "2", versions := ["v1"] }, [current, older]⟩

theorem scan_source : scan (source "2") "site" = .ok manifest := by
  refine scan_eq_ok.mpr ⟨_, current, [older], ok_of_toOption ?_, ?_, ?_, rfl⟩
  · decide +kernel
  · exact scanSet_sorted rfl (by decide +kernel) (by decide +kernel) (by decide +kernel)
      (by decide +kernel)
  · refine mapM_cons_eq_ok.mpr ⟨older, [], ?_, rfl, rfl⟩
    rw [scanVersion, if_pos (by decide +kernel)]
    exact scanSet_sorted rfl (by decide +kernel) (by decide +kernel) (by decide +kernel)
      (by decide +kernel)

end Journal

open Journal in
theorem older_entry_marked :
    scan (source "2") "site" = .ok manifest ∧ (source "2").root.sound = true ∧
    manifest.docSets[1]? = some older ∧ page "y" ∈ older.pages ∧
    ∃ entries : List PickerEntry,
      DocSet.versionOptions manifest.docSets older "a.html" =
        "\n".intercalate (entries.map PickerEntry.html) ∧
      entries.map (·.url) = ["../a.html", "../v1/a.html"] ∧
      entries.map (·.label) = ["2", "v1"] ∧ entries.map (·.marked) = [false, true] := by
  have sound : (source "2").root.sound = true := by decide +kernel
  have second : manifest.docSets[1]? = some older := rfl
  have listed : page "y" ∈ older.pages := List.mem_singleton_self _
  obtain ⟨entries, written, urls, labels, -, marks, -⟩ :=
    own_entry_marked_iff scan_source sound (by decide) second listed
  refine ⟨scan_source, sound, second, listed, entries, written, urls.trans (by decide +kernel),
    labels.trans (by decide +kernel), (marks.mpr (by decide +kernel)).trans (by decide +kernel)⟩

/-- The current version and the older one are both called `v1`, and both are marked. -/
theorem twin_entries_marked :
    (scan (Journal.source "v1") "site").toOption.map (fun m => m.docSets.map fun d =>
      d.pages.map fun p => (d.path, DocSet.versionOptions m.docSets d p.output)) =
    some [[("", "<option value=\"a.html\" selected=\"selected\">Version v1</option>\n" ++
        "<option value=\"v1/a.html\" selected=\"selected\">Version v1</option>")],
      [("v1/", "<option value=\"../a.html\" selected=\"selected\">Version v1</option>\n" ++
        "<option value=\"../v1/a.html\" selected=\"selected\">Version v1</option>")]] := by
  decide +kernel

end Manifest
end DocSite.Site
