import DocSite.Files.Path

/-! Paths name by name. A path is plain if it has names only, no empty ones and no dots. Joined to
a directory, such a path goes straight down from it, and it is the only one with its names. -/
namespace DocSite.Files.Path

theorem splitOnChar_eq_splitOn (sep : Char) (cs : List Char) :
    splitOnChar sep cs = cs.splitOn sep := by
  unfold List.splitOn
  induction cs with
  | nil => rfl
  | cons c rest ih =>
    rw [splitOnChar, List.splitOnP_cons_eq_if_modifyHead, ← ih]
    by_cases same : c = sep
    · simp [same]
    · have filled := splitOnChar_ne_nil sep rest
      cases found : splitOnChar sep rest with
      | nil => exact absurd found filled
      | cons first more => simp [same]

theorem intercalate_splitOnChar (sep : Char) (cs : List Char) :
    [sep].intercalate (splitOnChar sep cs) = cs := by
  rw [splitOnChar_eq_splitOn, List.intercalate_splitOn]

theorem splitOnChar_intercalate {sep : Char} {parts : List (List Char)}
    (apart : ∀ part ∈ parts, sep ∉ part) (filled : parts ≠ []) :
    splitOnChar sep ([sep].intercalate parts) = parts := by
  rw [splitOnChar_eq_splitOn, List.splitOn_intercalate sep apart filled]

theorem splitOnChar_sep (sep : Char) (a b : List Char) :
    splitOnChar sep (a ++ sep :: b) = splitOnChar sep a ++ splitOnChar sep b := by
  induction a with
  | nil => simp [splitOnChar]
  | cons c rest ih =>
    rw [List.cons_append, splitOnChar, splitOnChar, ih]
    split
    · rfl
    · cases found : splitOnChar sep rest with
      | nil => exact absurd found (splitOnChar_ne_nil sep rest)
      | cons first more => rfl

theorem sep_not_mem {sep : Char} {cs part : List Char} (member : part ∈ splitOnChar sep cs) :
    sep ∉ part := by
  induction cs generalizing part with
  | nil =>
    rw [List.mem_singleton.mp member]
    exact List.not_mem_nil
  | cons c rest ih =>
    rw [splitOnChar] at member
    split at member
    · rcases List.mem_cons.mp member with rfl | member
      · exact List.not_mem_nil
      · exact ih member
    · rename_i other
      cases found : splitOnChar sep rest with
      | nil => exact absurd found (splitOnChar_ne_nil sep rest)
      | cons first more =>
        rw [found] at member ih
        rcases List.mem_cons.mp member with rfl | member
        · exact List.not_mem_cons_of_ne_of_not_mem (Ne.symm other) (ih (List.mem_cons_self ..))
        · exact ih (List.mem_cons_of_mem _ member)

theorem mem_iff_splitOnChar {sep c : Char} (other : c ≠ sep) {cs : List Char} :
    c ∈ cs ↔ ∃ part ∈ splitOnChar sep cs, c ∈ part := by
  induction cs with
  | nil => simp [splitOnChar]
  | cons d rest ih =>
    rw [List.mem_cons, ih, splitOnChar]
    split
    · rename_i same
      simp [same, other]
    · cases found : splitOnChar sep rest with
      | nil => exact absurd found (splitOnChar_ne_nil sep rest)
      | cons first more => simp [or_assoc]

theorem suffix_of_sep {sep : Char} {ending a b : List Char} (apart : sep ∉ ending)
    (ends : ending <:+ a ++ sep :: b) : ending <:+ b := by
  rcases List.suffix_or_suffix_of_suffix ends (List.suffix_append a (sep :: b)) with within | around
  · rcases List.suffix_cons_iff.mp within with rfl | within
    · exact absurd (List.mem_cons_self ..) apart
    · exact within
  · exact absurd (around.subset (List.mem_cons_self ..)) apart

theorem intercalate_cons (name : List Char) {parts : List (List Char)} (filled : parts ≠ []) :
    ['/'].intercalate (name :: parts) = name ++ '/' :: ['/'].intercalate parts := by
  rw [List.intercalate_cons_of_ne_nil filled, List.append_assoc, List.singleton_append]

theorem suffix_of_intercalate {ending last : List Char} {front : List (List Char)}
    (apart : '/' ∉ ending) (ends : ending <:+ ['/'].intercalate (front ++ [last])) :
    ending <:+ last := by
  induction front with
  | nil => simpa using ends
  | cons name front ih =>
    rw [List.cons_append, intercalate_cons name (by simp)] at ends
    exact ih (suffix_of_sep apart ends)

theorem intercalate_last (front : List (List Char)) (last ending : List Char) :
    ['/'].intercalate (front ++ [last ++ ending]) =
      ['/'].intercalate (front ++ [last]) ++ ending := by
  induction front with
  | nil => simp
  | cons name front ih =>
    rw [List.cons_append, List.cons_append, intercalate_cons name (by simp),
      intercalate_cons name (by simp), ih, List.append_assoc, List.cons_append]

theorem last_suffix (front : List (List Char)) (last : List Char) :
    last <:+ ['/'].intercalate (front ++ [last]) := by
  have whole := intercalate_last front [] last
  rw [List.nil_append] at whole
  rw [whole]
  exact List.suffix_append ..

/-- The texts between the slashes of a path. -/
def segments (path : String) : List (List Char) := splitOnChar '/' path.toList

theorem segments_ne_nil (path : String) : segments path ≠ [] := splitOnChar_ne_nil '/' path.toList

theorem segments_last (path : String) : ∃ front last, segments path = front ++ [last] :=
  ⟨_, _, (List.dropLast_concat_getLast (segments_ne_nil path)).symm⟩

theorem segments_first (path : String) :
    ∃ more, segments path = path.toList.takeWhile (· ≠ '/') :: more := by
  unfold segments
  induction path.toList with
  | nil => exact ⟨[], rfl⟩
  | cons c rest ih =>
    obtain ⟨more, ih⟩ := ih
    rw [splitOnChar, ih]
    split
    · rename_i same
      refine ⟨rest.takeWhile (· ≠ '/') :: more, ?_⟩
      simp [same]
    · rename_i other
      exact ⟨more, by simp [other]⟩

/-- A name for an entry of a directory, and not for the directory itself or the one above. -/
def Plain (segment : List Char) : Prop := segment ≠ [] ∧ segment ≠ ['.'] ∧ segment ≠ ['.', '.']

instance (segment : List Char) : Decidable (Plain segment) :=
  inferInstanceAs (Decidable (_ ∧ _))

/-- A path that leads straight down. -/
def PlainPath (path : String) : Prop := ∀ segment ∈ segments path, Plain segment

instance (path : String) : Decidable (PlainPath path) :=
  inferInstanceAs (Decidable (∀ segment ∈ segments path, Plain segment))

theorem plain_iff {segment : List Char} :
    Plain segment ↔ ∀ n < 3, segment ≠ List.replicate n '.' := by
  refine ⟨fun ⟨empty, dot, dots⟩ n small => ?_, fun other => ⟨other 0 (by decide),
    other 1 (by decide), other 2 (by decide)⟩⟩
  match n, small with
  | 0, _ => exact empty
  | 1, _ => exact dot
  | 2, _ => exact dots

theorem segments_ofList {parts : List (List Char)} (apart : ∀ part ∈ parts, '/' ∉ part)
    (filled : parts ≠ []) : segments (String.ofList (['/'].intercalate parts)) = parts := by
  rw [segments, String.toList_ofList, splitOnChar_intercalate apart filled]

theorem segments_sep (a b : String) : segments (a ++ "/" ++ b) = segments a ++ segments b := by
  have slash : "/".toList = ['/'] := rfl
  rw [segments, segments, segments, String.toList_append, String.toList_append, slash,
    List.append_assoc, List.singleton_append, splitOnChar_sep]

/-! Names -/

theorem names_sep (a b : String) : names (a ++ "/" ++ b) = names a ++ names b := by
  have slash : "/".toList = ['/'] := rfl
  rw [names, names, names, splitOn, splitOn, splitOn, String.toList_append, String.toList_append,
    slash, List.append_assoc, List.singleton_append, splitOnChar_sep, List.map_append,
    List.filter_append]

theorem names_empty : names "" = [] := by decide

theorem names_slash (front : String) : names (front ++ "/") = names front := by
  have ends := names_sep front ""
  rwa [String.append_empty, names_empty, List.append_nil] at ends

theorem exists_of_endsWithSlash {base : String} (slash : endsWithSlash base = true) :
    ∃ front, base = front ++ "/" := by
  obtain ⟨front, same⟩ := List.getLast?_eq_some_iff.mp (eq_of_beq slash)
  refine ⟨String.ofList front, String.toList_injective ?_⟩
  rw [same, String.toList_append, String.toList_ofList]
  rfl

theorem names_join {path : String} (relative : isAbsolute path = false) (base : String) :
    names (join base path) = names base ++ names path := by
  rw [join, relative, Bool.false_or]
  split
  · rename_i empty
    rw [String.isEmpty_iff.mp empty, names_empty, List.nil_append]
  · split
    · rename_i slash
      obtain ⟨front, rfl⟩ := exists_of_endsWithSlash slash
      rw [names_sep, names_slash]
    · exact names_sep base path

theorem isAbsolute_append {base : String} (filled : base ≠ "") (path : String) :
    isAbsolute (base ++ path) = isAbsolute base := by
  rw [isAbsolute, isAbsolute, String.toList_append]
  cases found : base.toList with
  | nil => exact absurd (String.toList_injective found) filled
  | cons c rest => rfl

theorem isAbsolute_join {path : String} (relative : isAbsolute path = false) (base : String) :
    isAbsolute (join base path) = isAbsolute base := by
  rw [join, relative, Bool.false_or]
  split
  · rename_i empty
    rw [String.isEmpty_iff.mp empty, relative]
    rfl
  · rename_i filled
    have filled : base ≠ "" := fun none => filled (String.isEmpty_iff.mpr none)
    split
    · exact isAbsolute_append filled path
    · rw [String.append_assoc]
      exact isAbsolute_append filled _

theorem PlainPath.filled {path : String} (plain : PlainPath path) :
    ∀ segment ∈ segments path, segment ≠ [] :=
  fun segment parted => (plain segment parted).1

theorem names_of_filled {path : String} (filled : ∀ segment ∈ segments path, segment ≠ []) :
    names path = (segments path).map String.ofList := by
  refine List.filter_eq_self.mpr fun name member => ?_
  obtain ⟨segment, parted, rfl⟩ := List.mem_map.mp member
  refine decide_eq_true fun none => filled segment parted ?_
  rw [← String.toList_ofList (l := segment), none]
  rfl

theorem relative_of_filled {path : String} (filled : ∀ segment ∈ segments path, segment ≠ []) :
    isAbsolute path = false := by
  refine Bool.eq_false_iff.mpr fun absolute => ?_
  obtain ⟨rest, same⟩ := List.head?_eq_some_iff.mp (eq_of_beq absolute)
  refine filled [] ?_ rfl
  rw [segments, same, splitOnChar, if_pos rfl]
  exact List.mem_cons_self ..

theorem PlainPath.names_eq {path : String} (plain : PlainPath path) :
    names path = (segments path).map String.ofList :=
  names_of_filled plain.filled

theorem PlainPath.straight {path : String} (plain : PlainPath path) :
    ∀ name ∈ names path, name ≠ "." ∧ name ≠ ".." := by
  rw [plain.names_eq]
  intro name member
  obtain ⟨segment, parted, rfl⟩ := List.mem_map.mp member
  obtain ⟨-, dot, dots⟩ := plain segment parted
  exact ⟨fun same => dot (String.ofList_injective same),
    fun same => dots (String.ofList_injective same)⟩

theorem PlainPath.names_ne_nil {path : String} (plain : PlainPath path) : names path ≠ [] := by
  rw [plain.names_eq]
  exact fun none => splitOnChar_ne_nil _ _ (List.map_eq_nil_iff.mp none)

theorem PlainPath.relative {path : String} (plain : PlainPath path) : isAbsolute path = false :=
  relative_of_filled plain.filled

theorem PlainPath.noSlash {path : String} (plain : PlainPath path) :
    endsWithSlash path = false := by
  refine Bool.eq_false_iff.mpr fun slash => ?_
  obtain ⟨front, rfl⟩ := exists_of_endsWithSlash slash
  refine (plain [] ?_).1 rfl
  have slash : "/".toList = ['/'] := rfl
  rw [segments, String.toList_append, slash, splitOnChar_sep]
  exact List.mem_append_right _ (List.mem_singleton_self _)

theorem PlainPath.eq_of_names {a b : String} (plain : PlainPath a) (other : PlainPath b)
    (same : names a = names b) : a = b := by
  rw [plain.names_eq, other.names_eq] at same
  have parts : segments a = segments b :=
    (List.map_inj_right fun _ _ => String.ofList_injective).mp same
  refine String.toList_injective ?_
  rw [← intercalate_splitOnChar '/' a.toList, ← segments, parts, segments, intercalate_splitOnChar]

theorem PlainPath.filled_path {path : String} (plain : PlainPath path) : path ≠ "" := by
  rintro rfl
  exact plain.names_ne_nil names_empty

theorem endsWithSlash_append {path : String} (filled : path ≠ "") (base : String) :
    endsWithSlash (base ++ path) = endsWithSlash path := by
  have last := List.getLast?_eq_some_getLast fun none => filled (String.toList_injective none)
  rw [endsWithSlash, endsWithSlash, String.toList_append, List.getLast?_append, last,
    Option.some_or]

theorem PlainPath.noSlash_join {path : String} (plain : PlainPath path) (base : String) :
    endsWithSlash (join base path) = false := by
  rw [join]
  split
  · exact plain.noSlash
  · split <;> rw [endsWithSlash_append plain.filled_path, plain.noSlash]

end DocSite.Files.Path
