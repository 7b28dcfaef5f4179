import DocSite.Proofs.Scanned
import DocSite.Proofs.Walk

/-! What a scan passes over, said about files only: a file is found if none of the names on the way
to it is hidden and no exclude entry covers its path. -/
namespace DocSite.Site.Manifest

open Files.Path (EntryName endsWithSlash segments names intercalate_segments)

/-- An entry covers its path and all paths below. One that ends in `/` covers only those. -/
def covers (entry path : String) : Bool :=
  if endsWithSlash entry then entry.toList.isPrefixOf path.toList
  else path == entry || (entry ++ "/").toList.isPrefixOf path.toList

variable {place : List String} {entry : String} {excludes : List String}

theorem path_prefix {front : List String} (filled : front ≠ []) (behind : List String) :
    (if !behind.isEmpty then "/".intercalate front ++ "/" else "/".intercalate front).toList <+:
      ("/".intercalate (front ++ behind)).toList := by
  cases behind with
  | nil =>
    rw [List.append_nil]
    exact List.prefix_rfl
  | cons next behind =>
    rw [Files.Path.intercalate_append filled (List.cons_ne_nil next behind), String.toList_append]
    exact List.prefix_append _ _

/-- A path that begins with another path and a slash has the names of that path in front. -/
theorem names_of_prefix (filled : place ≠ []) (proper : ∀ name ∈ place, EntryName name)
    (below : (entry ++ "/").toList <+: ("/".intercalate place).toList) :
    ∃ behind, behind ≠ [] ∧ place = (segments entry).map String.ofList ++ behind := by
  obtain ⟨rest, below⟩ := below
  have parted : segments entry ++ segments (String.ofList rest) = place.map String.toList := by
    rw [← Files.Path.segments_sep, ← Files.Path.segments_intercalate filled proper]
    refine congrArg segments (String.toList_injective ?_)
    rw [String.toList_append, String.toList_ofList, below]
  have names := congrArg (List.map String.ofList) parted
  rw [List.map_map, String.ofList_comp_toList, List.map_id, List.map_append] at names
  exact ⟨_, mt List.map_eq_nil_iff.mp (Files.Path.segments_ne_nil _), names.symm⟩

theorem excluded_of_covers (filled : place ≠ []) (proper : ∀ name ∈ place, EntryName name)
    (covered : covers entry ("/".intercalate place) = true) :
    ∃ front name behind, place = front ++ name :: behind ∧
      isExcludedBy ("/".intercalate (front ++ [name])) (!behind.isEmpty) entry = true := by
  have whole : ∃ front last, place = front ++ [last] :=
    ⟨_, _, (List.dropLast_concat_getLast filled).symm⟩
  rw [covers] at covered
  split at covered
  · rename_i slash
    obtain ⟨front, last, rfl⟩ := whole
    refine ⟨front, last, [], rfl, ?_⟩
    rw [isExcludedBy, if_pos slash]
    exact covered
  · rename_i slash
    rw [Bool.or_eq_true, beq_iff_eq, List.isPrefixOf_iff_prefix] at covered
    rcases covered with same | below
    · obtain ⟨front, last, rfl⟩ := whole
      refine ⟨front, last, [], rfl, ?_⟩
      rw [isExcludedBy, if_neg slash, same, beq_self_eq_true]
    · obtain ⟨behind, -, names⟩ := names_of_prefix filled proper below
      obtain ⟨front, name, ends⟩ := Files.Path.segments_last entry
      refine ⟨front.map String.ofList, String.ofList name, behind, ?_, ?_⟩
      · rw [names, ends, List.map_append, List.append_assoc]
        rfl
      · rw [isExcludedBy, if_neg slash, ← List.map_singleton, ← List.map_append, ← ends,
          intercalate_segments, beq_self_eq_true]

theorem covers_of_excluded {front behind : List String} {name : String}
    (excluded : isExcludedBy ("/".intercalate (front ++ [name])) (!behind.isEmpty) entry = true) :
    covers entry ("/".intercalate (front ++ name :: behind)) = true := by
  have below := path_prefix (List.append_ne_nil_of_right_ne_nil front (List.cons_ne_nil name []))
    behind
  rw [List.append_assoc, List.singleton_append] at below
  rw [isExcludedBy] at excluded
  rw [covers]
  split
  · rename_i slash
    rw [if_pos slash, List.isPrefixOf_iff_prefix] at excluded
    exact List.isPrefixOf_iff_prefix.mpr (excluded.trans below)
  · rename_i slash
    rw [if_neg slash, beq_iff_eq] at excluded
    rw [Bool.or_eq_true, beq_iff_eq, List.isPrefixOf_iff_prefix]
    cases behind with
    | nil => exact .inl excluded
    | cons next behind =>
      rw [excluded] at below
      exact .inr below

/-- What a scan passes over, for a file at a place below the directory that is scanned. -/
theorem passes_isSkipped (filled : place ≠ []) (proper : ∀ name ∈ place, EntryName name) :
    Files.Node.passes (isSkipped excludes) [] place = true ↔
      (∀ name ∈ place, isHidden name = false) ∧
        ∀ entry ∈ excludes, covers entry ("/".intercalate place) = false := by
  have skips (front : List String) (name : String) (isDir : Bool) :
      isSkipped excludes ([] ++ (front ++ [name])) isDir = false ↔ isHidden name = false ∧
        ∀ entry ∈ excludes,
          isExcludedBy ("/".intercalate (front ++ [name])) isDir entry = false := by
    rw [List.nil_append, isSkipped, List.getLastD_concat, Bool.or_eq_false_iff, isExcluded]
    simp only [List.any_eq_false, Bool.not_eq_true]
  rw [Files.Node.passes_iff]
  simp only [skips]
  constructor
  · intro every
    constructor
    · intro name listed
      obtain ⟨front, behind, same⟩ := List.append_of_mem listed
      exact (every front name behind same).1
    · intro entry listed
      apply Bool.eq_false_iff.mpr
      intro covered
      obtain ⟨front, name, behind, same, excluded⟩ := excluded_of_covers filled proper covered
      rw [(every front name behind same).2 entry listed] at excluded
      cases excluded
  · rintro ⟨shown, free⟩ front name behind rfl
    refine ⟨shown name (by simp), ?_⟩
    intro entry listed
    apply Bool.eq_false_iff.mpr
    intro excluded
    have covered := covers_of_excluded excluded
    rw [free entry listed] at covered
    cases covered

/-! Entries of a configuration -/

theorem covers_below (filled : place ≠ []) (proper : ∀ name ∈ place, EntryName name)
    {dir : String} (plain : Files.Path.PlainPath dir) :
    covers (dir ++ "/") ("/".intercalate place) = true ↔ names dir <+: place ∧ names dir ≠ place := by
  have slash : endsWithSlash (dir ++ "/") = true := by
    rw [Files.Path.endsWithSlash_append (by decide)]
    rfl
  rw [covers, if_pos slash, List.isPrefixOf_iff_prefix, plain.names_eq]
  constructor
  · intro below
    obtain ⟨behind, more, rfl⟩ := names_of_prefix filled proper below
    refine ⟨List.prefix_append _ _, ?_⟩
    intro whole
    exact more (List.self_eq_append_right.mp whole)
  · rintro ⟨⟨behind, rfl⟩, other⟩
    have more : behind ≠ [] := by
      rintro rfl
      exact other (List.append_nil _).symm
    have front : (segments dir).map String.ofList ≠ [] :=
      mt List.map_eq_nil_iff.mp (Files.Path.segments_ne_nil dir)
    rw [Files.Path.intercalate_append front more, intercalate_segments]
    simp only [String.toList_append]
    exact List.prefix_append _ _

theorem covers_plain (filled : place ≠ []) (proper : ∀ name ∈ place, EntryName name)
    {path : String} (plain : Files.Path.PlainPath path) :
    covers path ("/".intercalate place) = true ↔ names path <+: place := by
  have below := covers_below filled proper plain
  have slash : endsWithSlash (path ++ "/") = true := by
    rw [Files.Path.endsWithSlash_append (by decide)]
    rfl
  rw [covers, if_pos slash] at below
  rw [covers, if_neg (by rw [plain.noSlash]; decide), Bool.or_eq_true, beq_iff_eq, below]
  constructor
  · rintro (same | ⟨inside, -⟩)
    · have whole : names path = place := by
        rw [← same, Files.Path.names_intercalate proper]
      exact whole ▸ List.prefix_rfl
    · exact inside
  · intro inside
    by_cases whole : names path = place
    · refine .inl ?_
      rw [← whole, plain.names_eq, intercalate_segments]
    · exact .inr ⟨inside, whole⟩

theorem mem_foldl_addNew {dirs found : List String} :
    entry ∈ dirs.foldl Config.addNew found ↔ entry ∈ found ∨ entry ∈ dirs := by
  induction dirs generalizing found with
  | nil => simp
  | cons dir dirs ih =>
    rw [List.foldl_cons, ih, Config.addNew]
    split
    · rename_i listed
      have listed : dir ∈ found := by simpa using listed
      rw [List.mem_cons]
      constructor
      · rintro (old | new)
        · exact .inl old
        · exact .inr (.inr new)
      · rintro (old | rfl | new)
        · exact .inl old
        · exact .inl listed
        · exact .inr new
    · simp [or_assoc]

theorem mem_scanExcludes {c : Config} : entry ∈ c.scanExcludes ↔
    entry = Config.fileName ∨
      (∃ dir ∈ c.templates.chunkDirs ++ c.templates.snippetDirs, Config.asDir dir = entry) ∨
      (∃ version ∈ c.versions, Config.asDir version = entry) ∨ entry ∈ c.exclude := by
  rw [Config.scanExcludes, List.mem_append, List.mem_append, mem_foldl_addNew, List.mem_singleton,
    List.mem_map, List.mem_map, or_assoc, or_assoc]

end DocSite.Site.Manifest
