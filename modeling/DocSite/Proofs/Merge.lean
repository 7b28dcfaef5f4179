import DocSite.Toml.Value

/-! What is under a key once one table is laid over another. -/
namespace DocSite.Toml.Value

/-- The keys of each of its tables are distinct. -/
inductive Distinct : Value → Prop where
  | string (s : String) : Distinct (.string s)
  | integer (n : Int) : Distinct (.integer n)
  | float (x : Number.Binary64.Numeral) : Distinct (.float x)
  | bool (b : Bool) : Distinct (.bool b)
  | dateTime (d : DateTime) : Distinct (.dateTime d)
  | array {items : List Value} : (∀ item ∈ items, Distinct item) → Distinct (.array items)
  | table {entries : List (String × Value)} : (entries.map Prod.fst).Nodup →
    (∀ entry ∈ entries, Distinct entry.2) → Distinct (.table entries)

theorem mem_of_lookup {α : Type} {key : String} {value : α} {entries : List (String × α)}
    (found : entries.lookup key = some value) : (key, value) ∈ entries := by
  obtain ⟨before, after, rfl, -⟩ := List.lookup_eq_some_iff.mp found
  simp

theorem lookup_of_absent {key : String} {entries : List (String × Value)}
    (absent : key ∉ entries.map Prod.fst) : entries.lookup key = none := by
  rw [List.lookup_eq_none_iff]
  intro entry member
  have different : entry.1 ≠ key := fun same => absent (same ▸ List.mem_map_of_mem member)
  simpa using different.symm

/-- Only a table shows through what is laid over it. -/
theorem merge_of_not_table {below : Value} (plain : ∀ entries, below ≠ .table entries) (v : Value) :
    below.merge v = v := by
  cases v with
  | table =>
    rw [merge]
    exact plain
  | _ =>
    rw [merge]
    exact nofun

/-- What both tables have under a key is merged. What only one of them has is kept. -/
theorem lookup_mergeEntries {overlay : List (String × Value)}
    (distinct : (overlay.map Prod.fst).Nodup) (base : List (String × Value)) (key : String) :
    (mergeEntries base overlay).lookup key = match overlay.lookup key with
      | none => base.lookup key
      | some value => some ((base.lookup key).elim value (merge · value)) := by
  induction overlay generalizing base with
  | nil => rw [mergeEntries, List.lookup_nil]
  | cons entry rest ih =>
    obtain ⟨k, value⟩ := entry
    obtain ⟨fresh, distinct⟩ := List.nodup_cons.mp distinct
    rw [mergeEntries, ih distinct]
    by_cases here : key = k
    · subst here
      rw [lookup_of_absent fresh, List.lookup_cons_self]
      dsimp only
      rw [lookup_put_self]
      cases base.lookup key <;> rfl
    · have elsewhere : (key == k) = false := by simpa using here
      rw [lookup_put_of_ne here, List.lookup_cons, elsewhere]

/-! The keys of merged tables -/

section Keys

variable {base overlay entries : List (String × Value)} {key : String}

theorem lookup_of_mem {value : Value} (distinct : (entries.map Prod.fst).Nodup)
    (member : (key, value) ∈ entries) : entries.lookup key = some value := by
  obtain ⟨before, behind, rfl⟩ := List.append_of_mem member
  rw [List.map_append, List.map_cons] at distinct
  refine List.lookup_eq_some_iff.mpr ⟨before, behind, rfl, fun entry earlier => ?_⟩
  have apart := (List.nodup_append.mp distinct).2.2 entry.1 (List.mem_map_of_mem earlier) key
    (List.mem_cons_self ..)
  simpa using apart.symm

theorem keys_put (entries : List (String × Value)) (key : String) (value : Value) :
    (put entries key value).map Prod.fst = if key ∈ entries.map Prod.fst then entries.map Prod.fst
      else entries.map Prod.fst ++ [key] := by
  induction entries with
  | nil => rfl
  | cons entry rest ih =>
    obtain ⟨k, v⟩ := entry
    rw [put]
    by_cases same : k = key
    · simp [same]
    · simp only [same, if_false, List.map_cons, ih, List.mem_cons, Ne.symm same, false_or]
      split <;> rfl

theorem mem_keys_put {other : String} {value : Value} :
    other ∈ (put entries key value).map Prod.fst ↔ other ∈ entries.map Prod.fst ∨ other = key := by
  rw [keys_put]
  split
  · rename_i there
    exact ⟨.inl, fun member => member.elim id fun same => same ▸ there⟩
  · rw [List.mem_append, List.mem_singleton]

/-- A merged table has the keys of both tables. -/
theorem mem_keys_mergeEntries : key ∈ (mergeEntries base overlay).map Prod.fst ↔
    key ∈ base.map Prod.fst ∨ key ∈ overlay.map Prod.fst := by
  induction overlay generalizing base with
  | nil => simp [mergeEntries]
  | cons entry rest ih =>
    rw [mergeEntries, ih, mem_keys_put, List.map_cons, List.mem_cons, or_assoc]

theorem nodup_mergeEntries (distinct : (base.map Prod.fst).Nodup)
    (overlay : List (String × Value)) : ((mergeEntries base overlay).map Prod.fst).Nodup := by
  induction overlay generalizing base with
  | nil => rwa [mergeEntries]
  | cons entry rest ih =>
    rw [mergeEntries]
    refine ih ?_
    rw [keys_put]
    split
    · exact distinct
    · rename_i fresh
      exact List.nodup_append.mpr ⟨distinct, List.pairwise_singleton _ _, fun key member other here =>
        fun same => fresh (List.mem_singleton.mp here ▸ same ▸ member)⟩

theorem all_mergeEntries (p : String → Bool) (base overlay : List (String × Value)) :
    (mergeEntries base overlay).all (p ·.1) = (base.all (p ·.1) && overlay.all (p ·.1)) := by
  have all (entries : List (String × Value)) :
      entries.all (p ·.1) = true ↔ ∀ key ∈ entries.map Prod.fst, p key = true := by simp
  rw [Bool.eq_iff_iff, Bool.and_eq_true, all, all, all]
  simp only [mem_keys_mergeEntries, or_imp, forall_and]

theorem merge_plain {o : Value} (plain : ∀ entries, o ≠ .table entries) (b : Value) :
    b.merge o = o := by
  cases o with
  | table entries => exact absurd rfl (plain entries)
  | _ =>
    rw [merge]
    exact nofun

theorem merge_of_apart {b o : Value}
    (apart : ¬ ∃ below above, b = .table below ∧ o = .table above) : b.merge o = o := by
  cases o with
  | table above => exact merge_of_not_table (fun below same => apart ⟨below, above, same, rfl⟩) _
  | _ => exact merge_plain (by exact nofun) b

/-- Merging keeps the keys of each table distinct. -/
theorem Distinct.merge {b o : Value} (lower : b.Distinct) (upper : o.Distinct) :
    (b.merge o).Distinct := by
  induction upper generalizing b with
  | @table above nodup values ih =>
    by_cases both : ∃ below, b = .table below
    · obtain ⟨below, rfl⟩ := both
      cases lower with
      | table nodup' values' =>
        rw [Value.merge]
        refine .table (nodup_mergeEntries nodup' above) fun (key, value) member => ?_
        have found := lookup_of_mem (nodup_mergeEntries nodup' above) member
        rw [lookup_mergeEntries nodup] at found
        cases laid : above.lookup key with
        | none =>
          rw [laid] at found
          exact values' _ (mem_of_lookup found)
        | some v =>
          have covered := mem_of_lookup laid
          rw [laid] at found
          cases under : below.lookup key with
          | none =>
            rw [under] at found
            cases found
            exact values _ covered
          | some w =>
            rw [under] at found
            cases found
            exact ih _ covered (values' _ (mem_of_lookup under))
    · rw [merge_of_not_table fun entries same => both ⟨entries, same⟩]
      exact .table nodup values
  | array items =>
    rw [merge_plain]
    · exact .array items
    · exact nofun
  | string | integer | float | bool | dateTime =>
    rw [merge_plain]
    · constructor
    · exact nofun

/-! Merging again -/

theorem put_of_lookup {value : Value} (found : entries.lookup key = some value) :
    put entries key value = entries := by
  induction entries with
  | nil => cases found
  | cons entry rest ih =>
    obtain ⟨k, v⟩ := entry
    rw [put]
    by_cases same : k = key
    · subst same
      rw [List.lookup_cons_self] at found
      cases found
      rw [if_pos rfl]
    · have other : (key == k) = false := by simpa using Ne.symm same
      rw [List.lookup_cons, other] at found
      rw [if_neg same, ih found]

/-- An overlay changes nothing if each of its values is there already. -/
theorem mergeEntries_of_there (there : ∀ entry ∈ overlay, ∃ below,
    base.lookup entry.1 = some below ∧ below.merge entry.2 = below) :
    mergeEntries base overlay = base := by
  induction overlay with
  | nil => rw [mergeEntries]
  | cons entry rest ih =>
    obtain ⟨⟨below, found, same⟩, others⟩ := List.forall_mem_cons.mp there
    rw [mergeEntries, found]
    dsimp only
    rw [same, put_of_lookup found, ih others]

theorem merge_again {o : Value} (distinct : o.Distinct) (b : Value) :
    (b.merge o).merge o = b.merge o := by
  induction distinct generalizing b with
  | @table above nodup values ih =>
    have self : ∀ entry ∈ above, entry.2.merge entry.2 = entry.2 := fun entry member => by
      have alone : (bool true).merge entry.2 = entry.2 := by
        rw [merge_of_not_table]
        exact nofun
      have again := ih entry member (.bool true)
      rwa [alone] at again
    by_cases both : ∃ below, b = .table below
    · obtain ⟨below, rfl⟩ := both
      rw [merge, merge, mergeEntries_of_there]
      intro entry member
      rw [lookup_mergeEntries nodup, lookup_of_mem nodup member]
      refine ⟨_, rfl, ?_⟩
      cases below.lookup entry.1 with
      | none => exact self entry member
      | some w => exact ih entry member w
    · rw [merge_of_not_table fun entries same => both ⟨entries, same⟩, merge, mergeEntries_of_there]
      exact fun entry member => ⟨_, lookup_of_mem nodup member, self entry member⟩
  | _ => refine (merge_plain ?_ _).trans (merge_plain ?_ b).symm <;> exact nofun

end Keys

end DocSite.Toml.Value
