import DocSite.Template.Bindings

/-! Names bound one after another: they keep the order in which they first occur, and each has the
value that was given last. -/
namespace DocSite.Template

/-- Parameters come in the order in which their names first occur, each with its last value. -/
structure Latest (occurrences : List (String × String)) (params : Params) : Prop where
  order : params.entries.map Prod.fst = (occurrences.map Prod.fst).eraseDups
  values : ∀ name, params.get? name = Bindings.find? name occurrences.reverse

namespace Bindings

theorem names_put (name value : String) (entries : List (String × String)) :
    (put name value entries).map Prod.fst =
      if name ∈ entries.map Prod.fst then entries.map Prod.fst else entries.map Prod.fst ++ [name] := by
  induction entries with
  | nil => rfl
  | cons p rest ih =>
    obtain ⟨n, v⟩ := p
    by_cases same : n = name
    · simp [put, same]
    · rw [put, if_neg same, List.map_cons, ih]
      by_cases member : name ∈ rest.map Prod.fst <;> simp [member, Ne.symm same]

/-- What the binding of one more name does to the order and to the last values. -/
theorem latest_insert {occurrences : List (String × String)} {b : Bindings}
    (latest : Latest occurrences b) (p : String × String) :
    Latest (occurrences ++ [p]) (b.insert p.1 p.2) where
  order := by
    have added : (put p.1 p.2 b.entries).map Prod.fst = _ := names_put p.1 p.2 b.entries
    change (put p.1 p.2 b.entries).map Prod.fst = _
    rw [added, latest.order, List.map_append, List.eraseDups_append]
    by_cases member : p.1 ∈ occurrences.map Prod.fst
    · simp [member, List.removeAll]
    · simp [member, List.removeAll, List.eraseDups_cons]
  values name := by
    rw [get?_insert, latest.values, List.reverse_append]
    simp [find?, eq_comm]

theorem latest_extend {occurrences : List (String × String)} {b : Bindings}
    (latest : Latest occurrences b) (more : List (String × String)) :
    Latest (occurrences ++ more) (b.extend more) := by
  induction more generalizing occurrences b with
  | nil => rw [List.append_nil]; exact latest
  | cons p more ih =>
    have later := ih (latest_insert latest p)
    rw [List.append_assoc] at later
    exact later

theorem latest_ofList (occurrences : List (String × String)) :
    Latest occurrences (ofList occurrences) := by
  have none : Latest [] empty := ⟨rfl, fun _ => rfl⟩
  exact latest_extend none occurrences

/-- Every name is bound once. -/
def Distinct (b : Bindings) : Prop := (b.entries.map Prod.fst).Nodup

instance (b : Bindings) : Decidable b.Distinct :=
  inferInstanceAs (Decidable (b.entries.map Prod.fst).Nodup)

theorem distinct_insert {b : Bindings} (distinct : b.Distinct) (name value : String) :
    (b.insert name value).Distinct := by
  have added : (put name value b.entries).map Prod.fst = _ := names_put name value b.entries
  change ((put name value b.entries).map Prod.fst).Nodup
  rw [added]
  split
  · exact distinct
  · rename_i other
    refine List.nodup_append.mpr ⟨distinct, List.pairwise_singleton _ name, ?_⟩
    rintro n member _ last rfl
    rw [List.mem_singleton.mp last] at member
    exact other member

theorem distinct_extend {b : Bindings} (distinct : b.Distinct) (more : List (String × String)) :
    (b.extend more).Distinct := by
  induction more generalizing b with
  | nil => exact distinct
  | cons p more ih => exact ih (distinct_insert distinct p.1 p.2)

theorem find?_of_not_mem {name : String} {entries : List (String × String)}
    (other : name ∉ entries.map Prod.fst) : find? name entries = none := by
  induction entries with
  | nil => rfl
  | cons p rest ih =>
    obtain ⟨different, later⟩ := not_or.mp (mt List.mem_cons.mpr other)
    rw [find?, if_neg (Ne.symm different), ih later]

/-- Entries whose names are distinct are known by their names in order and their values. -/
theorem entries_ext {a b : List (String × String)} (distinct : (a.map Prod.fst).Nodup)
    (names : a.map Prod.fst = b.map Prod.fst) (values : ∀ name, find? name a = find? name b) :
    a = b := by
  induction a generalizing b with
  | nil => exact (List.map_eq_nil_iff.mp names.symm).symm
  | cons p rest ih =>
    obtain ⟨n, v⟩ := p
    cases b with
    | nil => cases names
    | cons q other =>
      obtain ⟨m, w⟩ := q
      obtain ⟨same, later⟩ := List.cons.inj names
      dsimp only at same
      subst same
      obtain ⟨fresh, distinct⟩ := List.nodup_cons.mp distinct
      have first := values n
      simp only [find?, if_true, Option.some.injEq] at first
      subst first
      refine congrArg (List.cons (n, v)) (ih distinct later fun name => ?_)
      by_cases here : n = name
      · subst here
        rw [find?_of_not_mem fresh, find?_of_not_mem (later ▸ fresh)]
      · have value := values name
        simpa only [find?, if_neg here] using value

/-- The order and the last values determine the bindings. -/
theorem eq_ofList_of_latest {occurrences : List (String × String)} {b : Bindings}
    (latest : Latest occurrences b) : b = ofList occurrences := by
  have other := latest_ofList occurrences
  have none : empty.Distinct := List.nodup_nil
  have distinct : (ofList occurrences).Distinct := distinct_extend none occurrences
  have same : (ofList occurrences).entries = b.entries :=
    entries_ext distinct (other.order.trans latest.order.symm)
      fun name => (other.values name).trans (latest.values name).symm
  cases b
  exact congrArg Bindings.mk same.symm

theorem put_of_not_mem {name value : String} {entries : List (String × String)}
    (other : name ∉ entries.map Prod.fst) : put name value entries = entries ++ [(name, value)] := by
  induction entries with
  | nil => rfl
  | cons p rest ih =>
    obtain ⟨different, later⟩ := not_or.mp (mt List.mem_cons.mpr other)
    rw [put, if_neg (Ne.symm different), ih later]
    rfl

theorem extend_distinct {before more : List (String × String)}
    (distinct : ((before ++ more).map Prod.fst).Nodup) : extend ⟨before⟩ more = ⟨before ++ more⟩ := by
  induction more generalizing before with
  | nil => rw [List.append_nil]; rfl
  | cons p more ih =>
    have other : p.1 ∉ before.map Prod.fst := by
      rw [List.map_append] at distinct
      intro member
      exact (List.nodup_append.mp distinct).2.2 _ member _ (List.mem_cons_self ..) rfl
    have added : insert ⟨before⟩ p.1 p.2 = ⟨before ++ [p]⟩ := congrArg mk (put_of_not_mem other)
    rw [List.append_cons] at distinct ⊢
    rw [← ih distinct, ← added]
    rfl

/-- Names that are bound one after another, each once, make the bindings as they stand. -/
theorem ofList_entries {b : Bindings} (distinct : b.Distinct) : ofList b.entries = b :=
  @extend_distinct [] b.entries distinct

end Bindings
end DocSite.Template
