import DocSite.Proofs.Merge

/-! One table laid over another, seen along paths of keys. A value of the overlay hides what the base
has at its path and below, unless both have a table there, and a second time it changes nothing. -/
namespace DocSite.Toml.Value

/-- What a path of keys leads to. -/
def at? (v : Value) : List String → Option Value
  | [] => some v
  | key :: path =>
    match v with
    | .table entries => (entries.lookup key).bind (at? · path)
    | _ => none

/-- The path leads to a table. -/
def TableAt (v : Value) (path : List String) : Prop :=
  ∃ entries, v.at? path = some (.table entries)

/-- What the overlay has on the way along a path are tables, and the base has tables there, too. -/
def ShowsThrough (base overlay : Value) (path : List String) : Prop :=
  ∀ front, front ≠ [] → front <+: path → front ≠ path → (overlay.at? front).isSome →
    base.TableAt front ∧ overlay.TableAt front

/-- What is found at a path where one table is laid over another. -/
inductive Layered (base overlay : Value) (path : List String) : Option Value → Prop where
  | joined {below above entries : List (String × Value)} :
    base.at? path = some (.table below) → overlay.at? path = some (.table above) →
    (∀ key, key ∈ entries.map Prod.fst ↔ key ∈ below.map Prod.fst ∨ key ∈ above.map Prod.fst) →
    Layered base overlay path (some (.table entries))
  | covering {v : Value} : ¬ (base.TableAt path ∧ overlay.TableAt path) → overlay.at? path = some v →
    Layered base overlay path (some v)
  | under : overlay.at? path = none → ShowsThrough base overlay path →
    Layered base overlay path (base.at? path)
  | hidden : overlay.at? path = none → ¬ ShowsThrough base overlay path →
    Layered base overlay path none

variable {base overlay entries : List (String × Value)} {key : String} {path : List String}

/-! Paths -/

theorem at?_of_lookup {v : Value} (found : entries.lookup key = some v) (path : List String) :
    (table entries).at? (key :: path) = v.at? path := by
  rw [at?, found, Option.bind_some]

theorem at?_of_absent (absent : entries.lookup key = none) (path : List String) :
    (table entries).at? (key :: path) = none := by
  rw [at?, absent, Option.bind_none]

theorem table_of_at? {v w : Value} (reached : v.at? (key :: path) = some w) :
    ∃ entries, v = .table entries := by
  cases v with
  | table entries => exact ⟨entries, rfl⟩
  | _ => cases reached

theorem tableAt_key : (table entries).TableAt [key] ↔
    ∃ inner, entries.lookup key = some (.table inner) := by
  simp [TableAt, at?]

/-- The way to a table leads through tables. -/
theorem TableAt.first {v : Value} (there : v.TableAt (key :: path)) : v.TableAt [key] := by
  obtain ⟨last, reached⟩ := there
  obtain ⟨entries, rfl⟩ := table_of_at? reached
  obtain ⟨next, found, reached⟩ := Option.bind_eq_some_iff.mp reached
  obtain ⟨inner, rfl⟩ : ∃ inner, next = .table inner := by
    cases path with
    | nil => exact ⟨last, Option.some.inj reached⟩
    | cons => exact table_of_at? reached
  exact ⟨inner, at?_of_lookup found []⟩

/-- On the way along a path with a further key in front. -/
theorem ShowsThrough.cons_iff {b o : Value} : ShowsThrough b o (key :: path) ↔
    ∀ front, front <+: path → front ≠ path → (o.at? (key :: front)).isSome →
      b.TableAt (key :: front) ∧ o.TableAt (key :: front) := by
  constructor
  · intro shows front before proper
    exact shows (key :: front) (List.cons_ne_nil key front)
      ((List.prefix_cons_inj key).mpr before) fun same => proper (List.cons.inj same).2
  · rintro shows (_ | ⟨first, front⟩) filled before proper
    · exact absurd rfl filled
    · obtain ⟨rfl, inner⟩ := List.cons_prefix_cons.mp before
      exact shows front inner fun same => proper (congrArg _ same)

theorem layered_of_absent (absent : overlay.lookup key = none) :
    Layered (.table base) (.table overlay) (key :: path) ((table base).at? (key :: path)) := by
  refine .under (at?_of_absent absent path) (ShowsThrough.cons_iff.mpr fun front _ _ there => ?_)
  rw [at?_of_absent absent] at there
  cases there

/-- A value of the overlay hides the base from its key on, if not both have a table there. -/
theorem layered_of_covered {v : Value} (found : overlay.lookup key = some v)
    (covers : ¬ ((table base).TableAt [key] ∧ (table overlay).TableAt [key])) :
    Layered (.table base) (.table overlay) (key :: path) (v.at? path) := by
  have there := at?_of_lookup found path
  rw [← there]
  cases reached : (table overlay).at? (key :: path) with
  | some w => exact .covering (fun both => covers ⟨both.1.first, both.2.first⟩) reached
  | none =>
    refine .hidden reached fun shows => covers ?_
    have longer : [] ≠ path := by
      rintro rfl
      rw [there] at reached
      cases reached
    refine ShowsThrough.cons_iff.mp shows [] List.nil_prefix longer ?_
    rw [at?_of_lookup found]
    rfl

/-- Tables under one key are laid over each other from there on. -/
theorem layered_of_tables {below above : List (String × Value)} {found : Option Value}
    (under : base.lookup key = some (.table below)) (atop : overlay.lookup key = some (.table above))
    (layered : Layered (.table below) (.table above) path found) :
    Layered (.table base) (.table overlay) (key :: path) found := by
  have lower := at?_of_lookup under
  have upper := at?_of_lookup atop
  have shows : ShowsThrough (.table base) (.table overlay) (key :: path) ↔
      ShowsThrough (.table below) (.table above) path := by
    rw [ShowsThrough.cons_iff]
    simp only [TableAt, lower, upper]
    constructor
    · exact fun shows front _ before => shows front before
    · intro shows front before proper
      by_cases filled : front = []
      · subst filled
        exact fun _ => ⟨⟨below, rfl⟩, ⟨above, rfl⟩⟩
      · exact shows front filled before proper
  cases layered with
  | joined here there keys => exact .joined ((lower path).trans here) ((upper path).trans there) keys
  | covering covers there =>
    refine .covering ?_ ((upper path).trans there)
    simpa only [TableAt, lower, upper] using covers
  | under none through =>
    rw [← lower]
    exact .under ((upper path).trans none) (shows.mpr through)
  | hidden none stops => exact .hidden ((upper path).trans none) fun through => stops (shows.mp through)

theorem layered_merge (distinct : (table overlay).Distinct) (base : List (String × Value))
    (path : List String) :
    Layered (.table base) (.table overlay) path (((table base).merge (.table overlay)).at? path) := by
  induction path generalizing base overlay with
  | nil =>
    rw [merge]
    exact .joined rfl rfl fun _ => mem_keys_mergeEntries
  | cons key path ih =>
    cases distinct with
    | table nodup values =>
      rw [merge, at?, lookup_mergeEntries nodup]
      cases atop : overlay.lookup key with
      | none => exact layered_of_absent atop
      | some v =>
        dsimp only
        rw [Option.bind_some]
        by_cases both : (table base).TableAt [key] ∧ (table overlay).TableAt [key]
        · obtain ⟨below, under⟩ := tableAt_key.mp both.1
          obtain ⟨above, covered⟩ := tableAt_key.mp both.2
          cases atop.symm.trans covered
          rw [under]
          exact layered_of_tables under atop (ih (values _ (mem_of_lookup atop)) below)
        · have replaced : (base.lookup key).elim v (Value.merge · v) = v := by
            cases under : base.lookup key with
            | none => rfl
            | some w =>
              apply merge_of_apart
              rintro ⟨below, above, rfl, rfl⟩
              exact both ⟨tableAt_key.mpr ⟨below, under⟩, tableAt_key.mpr ⟨above, atop⟩⟩
          rw [replaced]
          exact layered_of_covered atop both

/-- At each path, one table laid over another has what the overlay has there, tables of both joined;
where the overlay has nothing, the base shows through unless something else than a table is on the way.
All its keys are distinct again. An empty table changes nothing, nor does the same table once more. -/
theorem merge_layers (lower : (table base).Distinct) (upper : (table overlay).Distinct) :
    let merged := (table base).merge (.table overlay)
    (∀ path, Layered (.table base) (.table overlay) path (merged.at? path)) ∧ merged.Distinct ∧
      (table base).merge (.table []) = .table base ∧ merged.merge (.table overlay) = merged := by
  refine ⟨layered_merge upper base, lower.merge upper, ?_, merge_again upper _⟩
  rw [merge, mergeEntries]

/-! A table over a number and a number over a table -/

def house : List (String × Value) :=
  [("roof", .table [("slates", .integer 80), ("tower", .table [("clock", .bool true)])]),
    ("door", .string "oak")]

def coat : List (String × Value) :=
  [("roof", .table [("tower", .integer 2), ("vane", .table [])]),
    ("door", .table [("bolts", .integer 4)])]

theorem house_distinct : (table house).Distinct := by
  have tower : (table [("clock", .bool true)]).Distinct :=
    .table (by decide) (List.forall_mem_singleton.mpr (.bool true))
  have roof : (table [("slates", .integer 80), ("tower", .table [("clock", .bool true)])]).Distinct :=
    .table (by decide) (List.forall_mem_cons.mpr ⟨.integer _, List.forall_mem_singleton.mpr tower⟩)
  exact .table (by decide)
    (List.forall_mem_cons.mpr ⟨roof, List.forall_mem_singleton.mpr (.string _)⟩)

theorem coat_distinct : (table coat).Distinct := by
  have roof : (table [("tower", .integer 2), ("vane", .table [])]).Distinct :=
    .table (by decide) (List.forall_mem_cons.mpr
      ⟨.integer _, List.forall_mem_singleton.mpr (.table .nil nofun)⟩)
  have door : (table [("bolts", .integer 4)]).Distinct :=
    .table (by decide) (List.forall_mem_singleton.mpr (.integer _))
  exact .table (by decide) (List.forall_mem_cons.mpr ⟨roof, List.forall_mem_singleton.mpr door⟩)

theorem coated_house_layers : (table house).Distinct ∧ (table coat).Distinct ∧
    let merged := (table house).merge (.table coat)
    Layered (.table house) (.table coat) ["roof"] (merged.at? ["roof"]) ∧
    Layered (.table house) (.table coat) ["roof", "slates"] (some (.integer 80)) ∧
    Layered (.table house) (.table coat) ["roof", "tower"] (some (.integer 2)) ∧
    Layered (.table house) (.table coat) ["roof", "tower", "clock"] none ∧
    Layered (.table house) (.table coat) ["door", "bolts"] (some (.integer 4)) ∧
    merged.merge (.table coat) = merged := by
  obtain ⟨layers, -, -, again⟩ := merge_layers house_distinct coat_distinct
  exact ⟨house_distinct, coat_distinct, layers ["roof"], layers ["roof", "slates"],
    layers ["roof", "tower"], layers ["roof", "tower", "clock"], layers ["door", "bolts"], again⟩

end DocSite.Toml.Value
