import Mathlib.Data.List.Count
import DocSite.Files.Walk
import DocSite.Proofs.Places
import DocSite.Proofs.PlainPath

/-! Walks. In a tree as file systems have them, a walk comes once upon each file that it passes over
neither itself nor on the way to it. -/
namespace DocSite.Files

namespace Path

/-- What an entry of a directory can be called. -/
def EntryName (name : String) : Prop := name ≠ "" ∧ '/' ∉ name.toList

instance (name : String) : Decidable (EntryName name) := inferInstanceAs (Decidable (_ ∧ _))

variable {front behind : List String}

theorem intercalate_append (first : front ≠ []) (second : behind ≠ []) :
    "/".intercalate (front ++ behind) =
      "/".intercalate front ++ "/" ++ "/".intercalate behind := by
  induction front with
  | nil => exact absurd rfl first
  | cons name front ih =>
    cases front with
    | nil =>
      obtain ⟨next, behind, rfl⟩ := List.exists_cons_of_ne_nil second
      exact String.intercalate_cons_cons
    | cons next front =>
      rw [List.cons_append, List.cons_append, String.intercalate_cons_cons, ← List.cons_append,
        ih (List.cons_ne_nil next front), String.intercalate_cons_cons]
      simp only [String.append_assoc]

theorem intercalate_segments (path : String) :
    "/".intercalate ((segments path).map String.ofList) = path := by
  refine String.toList_injective ?_
  rw [String.toList_intercalate, List.map_map, String.toList_comp_ofList, List.map_id]
  exact intercalate_splitOnChar '/' path.toList

theorem segments_intercalate (filled : front ≠ []) (proper : ∀ name ∈ front, EntryName name) :
    segments ("/".intercalate front) = front.map String.toList := by
  rw [segments, String.toList_intercalate]
  apply splitOnChar_intercalate _ (mt List.map_eq_nil_iff.mp filled)
  intro part member
  obtain ⟨name, listed, rfl⟩ := List.mem_map.mp member
  exact (proper name listed).2

theorem names_intercalate (proper : ∀ name ∈ front, EntryName name) :
    names ("/".intercalate front) = front := by
  by_cases empty : front = []
  · rw [empty]
    exact names_empty
  · have parted := segments_intercalate empty proper
    rw [names_of_filled, parted, List.map_map, String.ofList_comp_toList, List.map_id]
    rw [parted]
    intro segment member
    obtain ⟨name, listed, rfl⟩ := List.mem_map.mp member
    intro none
    exact (proper name listed).1 (String.toList_injective none)

end Path

namespace Node

/-! Trees -/

mutual

/-- Whether the entries of each directory have names, each its own. -/
def sound : Node → Bool
  | .file .. => true
  | .dir entries => soundIn entries

def soundIn : List (String × Node) → Bool
  | [] => true
  | (name, child) :: rest =>
    decide (Path.EntryName name) && rest.all (·.1 != name) && child.sound && soundIn rest

end

variable {skip : (names : List String) → (isDir : Bool) → Bool} {n child : Node}
  {entries : List (String × Node)} {name : String} {at' place rest : List String}

theorem entry?_cons (first : String) (node : Node) :
    Node.entry? name (.dir ((first, node) :: entries)) =
      if first = name then some node else Node.entry? name (.dir entries) := by
  by_cases same : first = name <;> simp [ entry?, same]

theorem sound_entry (sound : soundIn entries = true)
    (found : Node.entry? name (.dir entries) = some child) :
    Path.EntryName name ∧ child.sound = true := by
  induction entries with
  | nil => cases found
  | cons entry more ih =>
    obtain ⟨first, node⟩ := entry
    simp only [soundIn, Bool.and_eq_true, decide_eq_true_eq] at sound
    obtain ⟨⟨⟨proper, -⟩, whole⟩, others⟩ := sound
    rw [ entry?_cons] at found
    split at found
    · rename_i same
      cases found
      exact ⟨same ▸ proper, whole⟩
    · exact ih others found

theorem entry?_of_soundIn {first : String} {node : Node}
    (sound : soundIn ((first, node) :: entries) = true) :
    Node.entry? first (.dir entries) = none := by
  simp only [soundIn, Bool.and_eq_true, List.all_eq_true, bne_iff_ne] at sound
  rw [ entry?, Option.map_eq_none_iff, List.find?_eq_none]
  intro entry listed taken
  exact sound.1.1.2 entry listed (eq_of_beq taken)

theorem sound_find? (sound : n.sound = true) (found : n.find? place = some child) :
    (∀ name ∈ place, Path.EntryName name) ∧ child.sound = true := by
  induction place generalizing n with
  | nil =>
    cases found
    exact ⟨List.forall_mem_nil _, sound⟩
  | cons name rest ih =>
    obtain ⟨next, entry, deeper⟩ := Option.bind_eq_some_iff.mp found
    cases n with
    | file => cases entry
    | dir entries =>
      rw [Node.sound] at sound
      obtain ⟨proper, whole⟩ := sound_entry sound entry
      obtain ⟨others, last⟩ := ih whole deeper
      exact ⟨List.forall_mem_cons.mpr ⟨proper, others⟩, last⟩

/-! What a walk finds -/

mutual

theorem file_of_collect (skip : (names : List String) → (isDir : Bool) → Bool)
    (at' : List String) (n : Node) (sound : n.sound = true) :
    ∀ f ∈ n.collect skip at', ∃ down executable,
      f.names = at' ++ down ∧ n.find? down = some (.file f.content executable) := by
  intro f found
  cases n with
  | file content executable =>
    rw [collect, List.mem_singleton] at found
    rw [found]
    exact ⟨[], executable, (List.append_nil at').symm, rfl⟩
  | dir entries =>
    rw [Node.sound] at sound
    obtain ⟨name, down, executable, names, file⟩ :=
      file_of_collectIn skip at' entries sound f found
    exact ⟨name :: down, executable, names, file⟩

theorem file_of_collectIn (skip : (names : List String) → (isDir : Bool) → Bool)
    (at' : List String) (entries : List (String × Node)) (sound : soundIn entries = true) :
    ∀ f ∈ collectIn skip at' entries, ∃ name down executable, f.names = at' ++ name :: down ∧
      Node.find? (.dir entries) (name :: down) = some (.file f.content executable) := by
  intro f found
  cases entries with
  | nil => cases found
  | cons entry rest =>
    obtain ⟨first, child⟩ := entry
    have once := entry?_of_soundIn sound
    simp only [soundIn, Bool.and_eq_true] at sound
    rw [collectIn, List.mem_append] at found
    rcases found with found | found
    · split at found
      · cases found
      · obtain ⟨down, executable, names, file⟩ :=
          file_of_collect skip (at' ++ [first]) child sound.1.2 f found
        refine ⟨first, down, executable, ?_, ?_⟩
        · rwa [List.append_assoc, List.singleton_append] at names
        · rw [find?, entry?_cons, if_pos rfl, Option.bind_some, file]
    · obtain ⟨name, down, executable, names, file⟩ :=
        file_of_collectIn skip at' rest sound.2 f found
      refine ⟨name, down, executable, names, ?_⟩
      rw [find?] at file ⊢
      rw [ entry?_cons, if_neg, file]
      rintro rfl
      rw [once] at file
      cases file

end

/-- Whether a walk passes over neither a file nor a directory on the way to it. -/
def passes (skip : (names : List String) → (isDir : Bool) → Bool) (at' : List String) :
    List String → Bool
  | [] => true
  | name :: rest =>
    !skip (at' ++ [name]) (!rest.isEmpty) && passes skip (at' ++ [name]) rest

theorem passes_iff : passes skip at' rest = true ↔
    ∀ front name behind, rest = front ++ name :: behind →
      skip (at' ++ (front ++ [name])) (!behind.isEmpty) = false := by
  induction rest generalizing at' with
  | nil => simp [passes]
  | cons first rest ih =>
    rw [passes, Bool.and_eq_true, Bool.not_eq_true', ih]
    constructor
    · rintro ⟨here, below⟩ front name behind same
      cases front with
      | nil =>
        cases same
        exact here
      | cons other front =>
        cases same
        have deeper := below front name behind rfl
        rwa [List.append_assoc, List.singleton_append, ← List.cons_append] at deeper
    · intro every
      refine ⟨every [] first rest rfl, ?_⟩
      intro front name behind same
      have deeper := every (first :: front) name behind (congrArg (List.cons first) same)
      rwa [List.append_assoc, List.singleton_append, ← List.cons_append]

/-- Names that a walk finds below another entry are other names. -/
theorem count_collect_other {other : String} (sound : child.sound = true) (apart : other ≠ name) :
    ((child.collect skip (at' ++ [other])).map Found.names).count (at' ++ name :: rest) = 0 := by
  apply List.count_eq_zero.mpr
  intro member
  apply apart
  obtain ⟨f, found, same⟩ := List.mem_map.mp member
  obtain ⟨down, -, names, -⟩ := file_of_collect skip (at' ++ [other]) child sound f found
  rw [same, List.append_assoc] at names
  exact (List.cons.inj (List.append_cancel_left names)).1.symm

theorem count_collectIn (sound : soundIn entries = true) :
    ((collectIn skip at' entries).map Found.names).count (at' ++ name :: rest) =
      (Node.entry? name (.dir entries)).elim 0 fun child =>
        if skip (at' ++ [name]) child.isDir then 0
        else ((child.collect skip (at' ++ [name])).map Found.names).count (at' ++ name :: rest) := by
  induction entries with
  | nil => rfl
  | cons entry more ih =>
    obtain ⟨first, node⟩ := entry
    have once := entry?_of_soundIn sound
    simp only [soundIn, Bool.and_eq_true] at sound
    rw [collectIn, List.map_append, List.count_append, ih sound.2, entry?_cons]
    by_cases same : first = name
    · subst same
      rw [once, if_pos rfl, Option.elim_none, Option.elim_some, Nat.add_zero]
      split <;> simp
    · rw [if_neg same]
      split
      · simp
      · rw [count_collect_other sound.1.2 same, Nat.zero_add]

/-- A walk comes once upon a file that it does not pass over. -/
theorem count_collect (skip : (names : List String) → (isDir : Bool) → Bool) (at' : List String)
    {content : ByteArray} {executable : Bool} (sound : n.sound = true)
    (file : n.find? rest = some (.file content executable)) :
    ((n.collect skip at').map Found.names).count (at' ++ rest) =
      if passes skip at' rest then 1 else 0 := by
  induction rest generalizing n at' with
  | nil =>
    cases file
    simp [collect, passes]
  | cons name rest ih =>
    obtain ⟨child, entry, deeper⟩ := Option.bind_eq_some_iff.mp file
    cases n with
    | file => cases entry
    | dir entries =>
      rw [Node.sound] at sound
      have isDir : child.isDir = !rest.isEmpty := by
        cases rest with
        | nil =>
          cases deeper
          rfl
        | cons next rest =>
          cases child with
          | file => cases deeper
          | dir => rfl
      rw [collect, count_collectIn sound, entry, Option.elim_some, isDir, passes]
      have below : ((child.collect skip (at' ++ [name])).map Found.names).count
          (at' ++ [name] ++ rest) = _ := ih (at' ++ [name]) (sound_entry sound entry).2 deeper
      rw [List.append_assoc, List.singleton_append] at below
      rw [below]
      cases skip (at' ++ [name]) (!rest.isEmpty) <;> simp

end Node
end DocSite.Files
