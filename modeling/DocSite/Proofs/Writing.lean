import DocSite.Proofs.Places
import DocSite.Proofs.PlainPath

/-! Writing below a directory. A path that goes straight down from a directory is where a file is
written, and on the way to it directories are made where nothing was. Nothing else changes, and
nothing at all outside of that directory. -/
namespace DocSite.Files

open Node (Grows)
open DocSite.Files.Path (PlainPath names join)

/-- Strictly below a directory. -/
def Below (base place : List String) : Prop := base <+: place ∧ place ≠ base

instance (base place : List String) : Decidable (Below base place) :=
  inferInstanceAs (Decidable (_ ∧ _))

theorem below_append {base down : List String} (filled : down ≠ []) : Below base (base ++ down) :=
  ⟨List.prefix_append .., fun same => filled (List.append_right_eq_self.mp same)⟩

theorem Below.of_child {base place : List String} {name : String}
    (below : Below (base ++ [name]) place) : Below base place := by
  obtain ⟨⟨deeper, rfl⟩, -⟩ := below
  rw [List.append_assoc]
  exact below_append (by simp)

/-- What a path leads to, name by name. -/
def Reaches (path : String) (place : List String) (fs : Files) : Prop :=
  Leads fs.root (fs.start path) (names path) place

theorem Reaches.keeps {changes : List String → Prop} {path : String} {place : List String}
    {fs fs' : Files} (reached : fs.Reaches path place) (still : fs'.current = fs.current)
    (grows : Grows changes fs.root fs'.root) : fs'.Reaches path place := by
  rw [Reaches, start, still]
  exact Leads.keeps grows reached

theorem reaches_of_place? {fs : Files} {path : String} {place : List String}
    (led : fs.place? path = some place) : fs.Reaches path place := by
  rw [place?] at led
  split at led
  · cases led
  · exact leads_of_follow led

/-- A relative path without dots leads straight down from the directory that it is joined to. -/
theorem Reaches.of_join {fs : Files} {dir path : String} {base place : List String}
    (reached : fs.Reaches dir base) (relative : Path.isAbsolute path = false)
    (straight : ∀ name ∈ names path, name ≠ "." ∧ name ≠ "..")
    (deeper : fs.Reaches (join dir path) place) : place = base ++ names path := by
  rw [Reaches, start, Path.isAbsolute_join relative, Path.names_join relative] at deeper
  obtain ⟨middle, first, second⟩ := deeper.of_append
  obtain rfl := first.unique reached
  exact second.straight straight

/-! Directories -/

theorem createFrom_there {root : Node} {at' next : List String} {name : String}
    (followed : follow root at' [name] = some next) (rest : List String) :
    createFrom root at' (name :: rest) = createFrom root next rest := by
  rw [createFrom, followed]

theorem createFrom_append {root : Node} {at' front base : List String}
    (leads : Leads root at' front base) (behind : List String) :
    createFrom root at' (front ++ behind) = createFrom root base behind := by
  -- each of the names in front leads somewhere, and so nothing is made for it
  induction leads with
  | here => rfl
  | stay dir _ ih =>
    rw [List.cons_append, createFrom_there (follow_of_leads (.stay dir .here)), ih]
  | up dir _ ih =>
    rw [List.cons_append, createFrom_there (follow_of_leads (.up dir .here)), ih]
  | down here up dir child _ ih =>
    rw [List.cons_append, createFrom_there (follow_of_leads (.down here up dir child .here)), ih]

theorem createFrom_below {root grown : Node} {at' names target : List String}
    (straight : ∀ name ∈ names, name ≠ "." ∧ name ≠ "..")
    (made : createFrom root at' names = some (grown, target)) : Grows (Below at') root grown := by
  induction names generalizing root at' with
  | nil =>
    rw [createFrom] at made
    split at made
    · cases made
      exact .refl _
    · cases made
  | cons name rest ih =>
    obtain ⟨fresh, next, first, leads, made⟩ := createFrom_cons made
    obtain ⟨plain, others⟩ := List.forall_mem_cons.mp straight
    obtain rfl := leads.straight (List.forall_mem_singleton.mpr plain)
    refine .trans (first.mono fun place made => ?_) ((ih others made).mono fun _ => .of_child)
    exact made.1 ▸ below_append (List.cons_ne_nil name [])

theorem createDirs?_spec {fs fs' : Files} {path : String} (made : fs.createDirs? path = some fs') :
    fs'.current = fs.current ∧ Grows (fs.root.look · = .nothing) fs.root fs'.root ∧
      ∃ place, fs'.Reaches path place := by
  rw [createDirs?] at made
  split at made
  · rename_i empty
    cases made
    rw [String.isEmpty_iff.mp empty]
    exact ⟨rfl, .refl _, _, Leads.here⟩
  · obtain ⟨⟨grown, target⟩, created, rfl⟩ := Option.map_eq_some_iff.mp made
    obtain ⟨grows, leads, -⟩ := createFrom_spec created
    exact ⟨rfl, grows, target, leads⟩

/-! Files -/

/-- What it takes to put a file: a last name for it in a directory, and no directory there. -/
theorem put?_eq_some {fs fs' : Files} {path : String} {content : ByteArray}
    {executable : Option Bool → Bool} (put : fs.put? path content executable = some fs') :
    ∃ front name parent e grown, names path = front ++ [name] ∧ name ≠ "." ∧ name ≠ ".." ∧
      Leads fs.root (fs.start path) front parent ∧ fs.root.look (parent ++ [name]) ≠ .dir ∧
      Node.insert? (.file content e) fs.root (parent ++ [name]) = some grown ∧
      fs' = { fs with root := grown } := by
  rw [put?] at put
  split at put
  · cases put
  · obtain ⟨name, last, put⟩ := Option.bind_eq_some_iff.mp put
    dsimp only at put
    split at put
    · cases put
    · rename_i named
      simp only [Bool.or_eq_true, decide_eq_true_eq, not_or] at named
      obtain ⟨parent, followed, put⟩ := Option.bind_eq_some_iff.mp put
      obtain ⟨front, split⟩ := List.getLast?_eq_some_iff.mp last
      rw [split, List.dropLast_concat] at followed
      -- only a directory that is in the way stops a file here
      have fits : fs.root.look (parent ++ [name]) ≠ .dir ∧ ∃ e, (do
          let root ← Node.insert? (.file content e) fs.root (parent ++ [name])
          some { fs with root }) = some fs' := by
        split at put
        · cases put
        · rename_i found
          refine ⟨fun dir => ?_, _, put⟩
          cases (Node.look_eq_file.mpr found).symm.trans dir
        · rename_i absent
          refine ⟨fun dir => ?_, _, put⟩
          cases (Node.look_eq_nothing.mpr absent).symm.trans dir
      obtain ⟨clear, e, put⟩ := fits
      obtain ⟨grown, inserted, same⟩ := Option.bind_eq_some_iff.mp put
      have leads := leads_of_follow followed
      exact ⟨front, name, parent, e, grown, split, named.1, named.2, leads, clear, inserted,
        (Option.some.inj same).symm⟩

/-! Paths that lead straight down -/

/-- A path goes straight down from a directory by some names. -/
structure Aims (fs : Files) (path : String) (base down : List String) : Prop where
  leads : ∃ front, names path = front ++ down ∧ Leads fs.root (fs.start path) front base
  straight : ∀ name ∈ down, name ≠ "." ∧ name ≠ ".."
  filled : down ≠ []

theorem aims_join {fs : Files} {dir output : String} {base : List String}
    (reached : fs.Reaches dir base) (plain : PlainPath output) :
    fs.Aims (join dir output) base (names output) where
  leads := by
    refine ⟨names dir, Path.names_join plain.relative dir, ?_⟩
    rw [start, Path.isAbsolute_join plain.relative]
    exact reached
  straight := plain.straight
  filled := plain.names_ne_nil

namespace Aims

variable {fs fs' : Files} {path : String} {base down : List String}

theorem keeps {changes : List String → Prop} (aims : fs.Aims path base down)
    (still : fs'.current = fs.current) (grows : Grows changes fs.root fs'.root) :
    fs'.Aims path base down where
  leads := by
    obtain ⟨front, parted, leads⟩ := aims.leads
    rw [start, still]
    exact ⟨front, parted, leads.keeps grows⟩
  straight := aims.straight
  filled := aims.filled

/-- Directories are made strictly below the directory, where nothing was. -/
theorem createParents? (aims : fs.Aims path base down)
    (made : fs.createParents? path = some fs') : fs'.current = fs.current ∧
      Grows (fun place => Below base place ∧ fs.root.look place = .nothing) fs.root fs'.root := by
  obtain ⟨front, parted, leads⟩ := aims.leads
  obtain ⟨⟨grown, target⟩, created, rfl⟩ := Option.map_eq_some_iff.mp made
  rw [parted, List.dropLast_append_of_ne_nil aims.filled, createFrom_append leads] at created
  obtain ⟨fresh, -, -⟩ := createFrom_spec created
  have inside := createFrom_below (fun name member =>
    aims.straight name (List.dropLast_subset _ member)) created
  refine ⟨rfl, fresh.dirs, fresh.files, fun place other => ?_⟩
  by_cases below : Below base place
  · exact fresh.same place fun absent => other ⟨below, absent⟩
  · exact inside.same place below

/-- One file changes, and it is where the names lead. -/
theorem put? {content : ByteArray} {executable : Option Bool → Bool}
    (aims : fs.Aims path base down) (put : fs.put? path content executable = some fs') :
    fs'.current = fs.current ∧ Grows (· = base ++ down) fs.root fs'.root ∧
      ∃ e, fs'.root.look (base ++ down) = .file content e := by
  obtain ⟨above, parted, leads⟩ := aims.leads
  obtain ⟨front, name, parent, e, grown, last, -, -, inside, clear, inserted, rfl⟩ :=
    put?_eq_some put
  obtain ⟨init, final, rfl⟩ : ∃ init final, down = init ++ [final] :=
    ⟨_, _, (List.dropLast_concat_getLast aims.filled).symm⟩
  -- the last name is that of the file, and those in front of it lead to its directory
  obtain ⟨rfl, final⟩ := List.append_inj' (last.symm.trans (parted.trans
    (List.append_assoc ..).symm)) rfl
  cases final
  obtain ⟨place, first, second⟩ := inside.of_append
  obtain rfl := first.unique leads
  obtain rfl := second.straight fun name member =>
    aims.straight name (List.mem_append_left _ member)
  rw [List.append_assoc] at inserted clear
  exact ⟨rfl, .insert? inserted (fun _ => rfl) clear fun _ => rfl, e,
    Node.look_insert?_self inserted⟩

theorem place? (aims : fs.Aims path base down) (there : fs.root.look (base ++ down) ≠ .nothing) :
    fs.place? path = some (base ++ down) := by
  obtain ⟨front, parted, leads⟩ := aims.leads
  rw [Files.place?, parted, if_neg, follow_of_leads (leads.append (.of_look aims.straight there))]
  intro empty
  rw [String.isEmpty_iff.mp empty, Path.names_empty] at parted
  exact aims.filled (List.append_eq_nil_iff.mp parted.symm).2

theorem read {content : ByteArray} {executable : Bool} (aims : fs.Aims path base down)
    (noSlash : Path.endsWithSlash path = false)
    (file : fs.root.look (base ++ down) = .file content executable) :
    fs.read path = .ok content := by
  have place := aims.place? (by rw [file]; exact Node.Sight.noConfusion)
  have found : fs.find? path = some (.file content executable) := by
    rw [Files.find?, place, Option.bind_eq_bind, Option.bind_some, Node.look_eq_file.mp file]
    simp [noSlash]
  rw [Files.read, found]

end Aims

end DocSite.Files
