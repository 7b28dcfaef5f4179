import DocSite.Files.Tree

/-! Places in a tree of files. What is at a place is nothing, a directory or a file; the entries of
a directory are places of their own. A node put into a tree changes what is at one place, so one
relation between trees, `Grows`, says what writing a file and making directories have in common,
and what a path leads to outlasts both. -/
namespace DocSite.Files

namespace Node

/-- What is at a place of a tree. -/
inductive Sight where
  | nothing
  | dir
  | file (content : ByteArray) (executable : Bool)

instance : DecidableEq Sight
  | .nothing, .nothing => isTrue rfl
  | .dir, .dir => isTrue rfl
  | .file ⟨content⟩ executable, .file ⟨other⟩ mark =>
    if same : content = other ∧ executable = mark then
      isTrue (same.1 ▸ same.2 ▸ rfl)
    else
      isFalse fun equal => same (by cases equal; exact ⟨rfl, rfl⟩)
  | .nothing, .dir | .nothing, .file .. | .dir, .nothing | .dir, .file .. | .file .., .nothing
  | .file .., .dir => isFalse nofun

def sight : Node → Sight
  | .dir _ => .dir
  | .file content executable => .file content executable

def look (root : Node) (place : List String) : Sight := (root.find? place).elim .nothing sight

def FileAt (root : Node) (place : List String) : Prop :=
  ∃ content executable, root.look place = .file content executable

theorem look_eq_nothing {root : Node} {place : List String} :
    root.look place = .nothing ↔ root.find? place = none := by
  unfold look
  rcases root.find? place with _ | _ | _ <;> simp [sight]

theorem look_eq_dir {root : Node} {place : List String} :
    root.look place = .dir ↔ ∃ entries, root.find? place = some (.dir entries) := by
  unfold look
  rcases root.find? place with _ | _ | _ <;> simp [sight]

theorem look_eq_file {root : Node} {place : List String} {content : ByteArray} {executable : Bool} :
    root.look place = .file content executable ↔
      root.find? place = some (.file content executable) := by
  unfold look
  rcases root.find? place with _ | _ | _ <;> simp [sight]

theorem find?_append (n : Node) (front behind : List String) :
    n.find? (front ++ behind) = (n.find? front).bind (·.find? behind) := by
  induction front generalizing n with
  | nil => rw [List.nil_append, find?, Option.bind_some]
  | cons name front ih =>
    rw [List.cons_append, find?, find?]
    cases n.entry? name with
    | none => rfl
    | some child => exact ih child

theorem find?_singleton (n : Node) (name : String) : n.find? [name] = n.entry? name := by
  rw [find?]
  cases n.entry? name <;> simp [find?]

theorem entry?_putEntry (name other : String) (node : Node) (entries : List (String × Node)) :
    Node.entry? other (.dir (putEntry name node entries)) =
      if other = name then some node else Node.entry? other (.dir entries) := by
  induction entries with
  | nil =>
    by_cases same : other = name
    · simp [putEntry, entry?, same]
    · simp [putEntry, entry?, same, Ne.symm same]
  | cons p rest ih =>
    obtain ⟨n, old⟩ := p
    simp only [Node.entry?] at ih
    by_cases here : n = name
    · by_cases same : other = name
      · simp [putEntry, entry?, here, same]
      · simp [putEntry, entry?, here, same, Ne.symm same]
    · by_cases same : n = other
      · simp [putEntry, entry?, same, same ▸ here]
      · simp [putEntry, entry?, here, same, ih]

/-- One step of an insertion, in the directory that the first name leads into. -/
theorem insert?_cons {node root grown : Node} {name : String} {rest : List String}
    (inserted : insert? node root (name :: rest) = some grown) :
    ∃ entries new, root = .dir entries ∧ grown = .dir (putEntry name new entries) ∧
      ((rest = [] ∧ new = node) ∨
        ∃ old, root.entry? name = some old ∧ insert? node old rest = some new) := by
  cases root with
  | file => cases inserted
  | dir entries =>
    rw [insert?] at inserted
    cases rest with
    | nil =>
      cases inserted
      exact ⟨entries, node, rfl, rfl, .inl ⟨rfl, rfl⟩⟩
    | cons next rest =>
      obtain ⟨old, found, more⟩ := Option.bind_eq_some_iff.mp inserted
      obtain ⟨new, deeper, same⟩ := Option.bind_eq_some_iff.mp more
      cases same
      exact ⟨entries, new, rfl, rfl, .inr ⟨old, found, deeper⟩⟩

theorem find?_insert? {node root grown : Node} {names : List String}
    (inserted : insert? node root names = some grown) : grown.find? names = some node := by
  induction names generalizing root grown with
  | nil =>
    rw [insert?] at inserted
    exact inserted ▸ rfl
  | cons name rest ih =>
    obtain ⟨entries, new, rfl, rfl, ⟨rfl, rfl⟩ | ⟨old, found, deeper⟩⟩ := insert?_cons inserted
    · rw [find?_singleton, entry?_putEntry, if_pos rfl]
    · rw [find?, entry?_putEntry, if_pos rfl]
      exact ih deeper

theorem look_insert?_self {node root grown : Node} {names : List String}
    (inserted : insert? node root names = some grown) : grown.look names = node.sight := by
  rw [look, find?_insert? inserted, Option.elim_some]

/-- What is neither at the place of an insertion nor below it remains, but a directory may have
more in it. -/
theorem look_insert?_of_apart {node root grown : Node} {names place : List String}
    (inserted : insert? node root names = some grown) (apart : ¬ names <+: place) :
    grown.look place = root.look place := by
  induction names generalizing root grown place with
  | nil => exact absurd List.nil_prefix apart
  | cons name rest ih =>
    obtain ⟨entries, new, rfl, rfl, step⟩ := insert?_cons inserted
    cases place with
    | nil => rfl
    | cons first place =>
      rw [look, look, find?, find?, entry?_putEntry]
      by_cases same : first = name
      · subst same
        have apart : ¬ rest <+: place :=
          fun deeper => apart (List.cons_prefix_cons.mpr ⟨rfl, deeper⟩)
        obtain ⟨rfl, -⟩ | ⟨old, entry, deeper⟩ := step
        · exact absurd List.nil_prefix apart
        · rw [if_pos rfl, entry]
          exact ih deeper apart
      · rw [if_neg same]

/-- A node that nothing is in, put where no directory was, changes one place. -/
theorem look_insert?_of_ne {node root grown : Node} {names place : List String}
    (inserted : insert? node root names = some grown) (bare : ∀ name, node.entry? name = none)
    (clear : root.look names ≠ .dir) (other : place ≠ names) :
    grown.look place = root.look place := by
  by_cases below : names <+: place
  · obtain ⟨_ | ⟨name, deeper⟩, rfl⟩ := below
    · exact absurd (List.append_nil names) other
    · -- below a file, or where nothing was, there is nothing before and after
      have now : grown.look (names ++ name :: deeper) = .nothing := by
        rw [look_eq_nothing, find?_append, find?_insert? inserted, Option.bind_some, find?, bare,
          Option.bind_none]
      have before : root.look (names ++ name :: deeper) = .nothing := by
        rw [look_eq_nothing, find?_append]
        rcases found : root.find? names with _ | _ | entries
        · rfl
        · rfl
        · exact absurd (look_eq_dir.mpr ⟨entries, found⟩) clear
      rw [now, before]
  · exact look_insert?_of_apart inserted below

theorem dir_of_insert? {node root grown : Node} {front : List String} {name : String}
    (inserted : insert? node root (front ++ [name]) = some grown) : root.look front = .dir := by
  induction front generalizing root grown with
  | nil =>
    obtain ⟨entries, new, rfl, -⟩ := insert?_cons inserted
    rfl
  | cons first front ih =>
    obtain ⟨entries, new, rfl, -, ⟨none, -⟩ | ⟨old, found, deeper⟩⟩ := insert?_cons inserted
    · cases front <;> cases none
    · rw [look, find?, found]
      exact ih deeper

theorem look_of_append {root : Node} {front behind : List String}
    (there : root.look (front ++ behind) ≠ .nothing) : root.look front ≠ .nothing := by
  intro none
  refine there (look_eq_nothing.mpr ?_)
  rw [find?_append, look_eq_nothing.mp none, Option.bind_none]

/-- Where there is something below, there is a directory. -/
theorem dir_of_look {root : Node} {place rest : List String} {name : String}
    (there : root.look (place ++ name :: rest) ≠ .nothing) : root.look place = .dir := by
  rcases found : root.find? place with _ | ⟨content, executable⟩ | entries
  · exact absurd (look_eq_nothing.mpr found) (look_of_append there)
  · refine absurd (look_eq_nothing.mpr ?_) there
    rw [find?_append, found]
    rfl
  · exact look_eq_dir.mpr ⟨entries, found⟩

/-- Directories stay directories and files stay files, and nothing is new but at the places that
`changes` tells. -/
structure Grows (changes : List String → Prop) (old new : Node) : Prop where
  dirs : ∀ place, old.look place = .dir → new.look place = .dir
  files : ∀ place, old.FileAt place → new.FileAt place
  same : ∀ place, ¬ changes place → new.look place = old.look place

namespace Grows

variable {changes more : List String → Prop} {a b c : Node}

theorem refl (a : Node) : Grows changes a a := ⟨fun _ => id, fun _ => id, fun _ _ => rfl⟩

theorem trans (first : Grows changes a b) (second : Grows changes b c) : Grows changes a c where
  dirs place here := second.dirs place (first.dirs place here)
  files place here := second.files place (first.files place here)
  same place kept := (second.same place kept).trans (first.same place kept)

theorem mono (grows : Grows changes a b) (wider : ∀ place, changes place → more place) :
    Grows more a b :=
  ⟨grows.dirs, grows.files, fun place kept => grows.same place (mt (wider place) kept)⟩

theorem nothing (grows : Grows changes a b) {place : List String} (now : b.look place = .nothing) :
    a.look place = .nothing := by
  rcases seen : a.look place with _ | _ | ⟨content, executable⟩
  · rfl
  · cases now.symm.trans (grows.dirs place seen)
  · obtain ⟨_, _, still⟩ := grows.files place ⟨content, executable, seen⟩
    cases now.symm.trans still

/-- A node that nothing is in, put where nothing was, or a file in place of a file. -/
theorem insert? {node root grown : Node} {names : List String}
    (inserted : Node.insert? node root names = some grown) (bare : ∀ name, node.entry? name = none)
    (clear : root.look names ≠ .dir) (fits : root.FileAt names → node.isFile = true) :
    Grows (· = names) root grown where
  dirs place dir := by
    by_cases here : place = names
    · exact absurd (here ▸ dir) clear
    · rw [look_insert?_of_ne inserted bare clear here, dir]
  files place file := by
    by_cases here : place = names
    · subst here
      cases node with
      | dir => cases fits file
      | file content executable => exact ⟨content, executable, look_insert?_self inserted⟩
    · rw [FileAt, look_insert?_of_ne inserted bare clear here]
      exact file
  same place other := look_insert?_of_ne inserted bare clear other

end Grows

end Node

open Node (Grows)

/-! What names lead to -/

/-- What names lead to from a directory, name by name. -/
inductive Leads (root : Node) : (at' names target : List String) → Prop where
  | here {at' : List String} : Leads root at' [] at'
  | stay {at' rest target : List String} : root.look at' = .dir →
    Leads root at' rest target → Leads root at' ("." :: rest) target
  | up {at' rest target : List String} : root.look at' = .dir →
    Leads root at'.dropLast rest target → Leads root at' (".." :: rest) target
  | down {at' rest target : List String} {name : String} : name ≠ "." → name ≠ ".." →
    root.look at' = .dir → root.look (at' ++ [name]) ≠ .nothing →
    Leads root (at' ++ [name]) rest target → Leads root at' (name :: rest) target

theorem any_entries (entries : List (String × Node)) (name : String) :
    entries.any (·.1 == name) = (Node.entry? name (.dir entries)).isSome := by
  rw [Node.entry?, Option.isSome_map, Bool.eq_iff_iff, List.any_eq_true, List.find?_isSome]

theorem follow_dir {root : Node} {at' : List String} {entries : List (String × Node)}
    (found : root.find? at' = some (.dir entries)) (name : String) (rest : List String) :
    follow root at' (name :: rest) =
      if name = "." then follow root at' rest
      else if name = ".." then follow root at'.dropLast rest
      else if (root.find? (at' ++ [name])).isSome then follow root (at' ++ [name]) rest
      else none := by
  rw [follow, found, Node.find?_append, found, Option.bind_some, Node.find?_singleton]
  simp only [any_entries]

theorem dir_of_follow {root : Node} {at' rest target : List String} {name : String}
    (followed : follow root at' (name :: rest) = some target) :
    ∃ entries, root.find? at' = some (.dir entries) := by
  rw [follow] at followed
  split at followed
  · rename_i entries found
    exact ⟨entries, found⟩
  · cases followed

theorem isSome_iff_look {root : Node} {place : List String} :
    (root.find? place).isSome = true ↔ root.look place ≠ .nothing := by
  rw [ne_eq, Node.look_eq_nothing, Option.isSome_iff_ne_none]

theorem leads_of_follow {root : Node} {at' names target : List String}
    (followed : follow root at' names = some target) : Leads root at' names target := by
  induction names generalizing at' with
  | nil =>
    cases followed
    exact .here
  | cons name rest ih =>
    obtain ⟨entries, found⟩ := dir_of_follow followed
    have dir := Node.look_eq_dir.mpr ⟨entries, found⟩
    rw [follow_dir found] at followed
    split at followed
    · rename_i dot
      exact dot ▸ .stay dir (ih followed)
    · rename_i here
      split at followed
      · rename_i dots
        exact dots ▸ .up dir (ih followed)
      · rename_i up
        split at followed
        · rename_i child
          exact .down here up dir (isSome_iff_look.mp child) (ih followed)
        · cases followed

theorem follow_of_leads {root : Node} {at' names target : List String}
    (leads : Leads root at' names target) : follow root at' names = some target := by
  induction leads with
  | here => rfl
  | stay dir _ ih =>
    obtain ⟨entries, found⟩ := Node.look_eq_dir.mp dir
    rw [follow_dir found, if_pos rfl, ih]
  | up dir _ ih =>
    obtain ⟨entries, found⟩ := Node.look_eq_dir.mp dir
    rw [follow_dir found, if_neg (by decide), if_pos rfl, ih]
  | down here up dir child _ ih =>
    obtain ⟨entries, found⟩ := Node.look_eq_dir.mp dir
    rw [follow_dir found, if_neg here, if_neg up, if_pos (isSome_iff_look.mpr child), ih]

namespace Leads

variable {root : Node} {at' target : List String}

theorem append {front behind place : List String} (first : Leads root at' front place)
    (second : Leads root place behind target) : Leads root at' (front ++ behind) target := by
  induction first with
  | here => exact second
  | stay dir _ ih => exact .stay dir (ih second)
  | up dir _ ih => exact .up dir (ih second)
  | down here up dir child _ ih => exact .down here up dir child (ih second)

theorem of_append {front behind : List String} (leads : Leads root at' (front ++ behind) target) :
    ∃ place, Leads root at' front place ∧ Leads root place behind target := by
  induction front generalizing at' with
  | nil => exact ⟨at', .here, leads⟩
  | cons name front ih =>
    cases leads with
    | stay dir rest =>
      obtain ⟨place, first, second⟩ := ih rest
      exact ⟨place, .stay dir first, second⟩
    | up dir rest =>
      obtain ⟨place, first, second⟩ := ih rest
      exact ⟨place, .up dir first, second⟩
    | down here up dir child rest =>
      obtain ⟨place, first, second⟩ := ih rest
      exact ⟨place, .down here up dir child first, second⟩

/-- What names lead to stays as a tree grows. -/
theorem keeps {changes : List String → Prop} {names : List String} {new : Node}
    (grows : Grows changes root new) (leads : Leads root at' names target) :
    Leads new at' names target := by
  induction leads with
  | here => exact .here
  | stay dir _ ih => exact .stay (grows.dirs _ dir) ih
  | up dir _ ih => exact .up (grows.dirs _ dir) ih
  | down here up dir child _ ih =>
    exact .down here up (grows.dirs _ dir) (mt grows.nothing child) ih

theorem unique {names target' : List String} (one : Leads root at' names target)
    (other : Leads root at' names target') : target = target' :=
  Option.some.inj ((follow_of_leads one).symm.trans (follow_of_leads other))

/-- Names that are no dots lead straight down. -/
theorem straight {names : List String} (plain : ∀ name ∈ names, name ≠ "." ∧ name ≠ "..")
    (leads : Leads root at' names target) : target = at' ++ names := by
  induction leads with
  | here => exact (List.append_nil _).symm
  | stay => exact absurd rfl (plain "." (List.mem_cons_self ..)).1
  | up => exact absurd rfl (plain ".." (List.mem_cons_self ..)).2
  | down _ _ _ _ _ ih =>
    rw [ih fun name member => plain name (List.mem_cons_of_mem _ member), List.append_assoc]
    rfl

theorem of_look {names : List String} (plain : ∀ name ∈ names, name ≠ "." ∧ name ≠ "..")
    (there : root.look (at' ++ names) ≠ .nothing) : Leads root at' names (at' ++ names) := by
  induction names generalizing at' with
  | nil =>
    rw [List.append_nil]
    exact .here
  | cons name rest ih =>
    obtain ⟨⟨here, up⟩, others⟩ := List.forall_mem_cons.mp plain
    have dir := Node.dir_of_look there
    rw [← List.singleton_append, ← List.append_assoc] at there ⊢
    exact .down here up dir (Node.look_of_append there) (ih others there)

end Leads

/-- A directory is made at `next` for the first name, or is there already. -/
theorem createFrom_cons {root grown : Node} {at' rest target : List String} {name : String}
    (made : createFrom root at' (name :: rest) = some (grown, target)) :
    ∃ fresh next,
      Grows (fun place => place = at' ++ [name] ∧ root.look place = .nothing) root fresh ∧
      Leads fresh at' [name] next ∧ createFrom fresh next rest = some (grown, target) := by
  rw [createFrom] at made
  split at made
  · rename_i next followed
    exact ⟨root, next, .refl root, leads_of_follow followed, made⟩
  · rename_i nowhere
    obtain ⟨fresh, inserted, made⟩ := Option.bind_eq_some_iff.mp made
    have inside := Node.dir_of_insert? inserted
    -- dots and names of entries lead on from a directory, so this name is neither
    have lost {place : List String} : ¬ Leads root at' [name] place := fun leads => by
      cases nowhere.symm.trans (follow_of_leads leads)
    have here : name ≠ "." := by
      rintro rfl
      exact lost (.stay inside .here)
    have up : name ≠ ".." := by
      rintro rfl
      exact lost (.up inside .here)
    have absent : root.look (at' ++ [name]) = .nothing :=
      Classical.byContradiction fun child => lost (.down here up inside child .here)
    have grows : Grows (· = at' ++ [name]) root fresh :=
      .insert? inserted (fun _ => rfl) (fun dir => by cases absent.symm.trans dir)
        fun ⟨_, _, file⟩ => by cases absent.symm.trans file
    refine ⟨fresh, _, grows.mono fun place same => ⟨same, same ▸ absent⟩, ?_, made⟩
    refine .down here up (grows.dirs _ inside) (fun gone => ?_) .here
    cases gone.symm.trans (Node.look_insert?_self inserted)

/-- The directories that names lead through are there, and nothing else has changed. -/
theorem createFrom_spec {root grown : Node} {at' names target : List String}
    (made : createFrom root at' names = some (grown, target)) :
    Grows (root.look · = .nothing) root grown ∧ Leads grown at' names target ∧
      grown.look target = .dir := by
  induction names generalizing root at' with
  | nil =>
    rw [createFrom] at made
    split at made
    · rename_i dir
      cases made
      obtain ⟨node, found, isDir⟩ := (Option.any_eq_true _ _).mp dir
      cases node with
      | file => cases isDir
      | dir entries => exact ⟨.refl _, .here, Node.look_eq_dir.mpr ⟨entries, found⟩⟩
    · cases made
  | cons name rest ih =>
    obtain ⟨fresh, next, first, leads, made⟩ := createFrom_cons made
    obtain ⟨others, behind, dir⟩ := ih made
    have first : Grows (root.look · = .nothing) root fresh := first.mono fun _ change => change.2
    have grows := first.trans (others.mono fun _ => first.nothing)
    exact ⟨grows, (leads.keeps others).append behind, dir⟩

end DocSite.Files
