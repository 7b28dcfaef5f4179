import DocSite.Proofs.Merge
import DocSite.Toml.Document

/-! A TOML document never gives a key twice: whatever is read has distinct keys in each of its
tables. -/
namespace DocSite.Toml

mutual

inductive Slot.Distinct : Slot → Prop where
  | value {v : Value} : v.Distinct → Slot.Distinct (.value v)
  | table {t : Table} : Table.Distinct t → Slot.Distinct (.table t)
  | tables {latest : Table} {earlier : List Table} : Table.Distinct latest →
    (∀ t ∈ earlier, Table.Distinct t) → Slot.Distinct (.tables latest earlier)

/-- The keys of the table, and those of all tables in it, are distinct. -/
inductive Table.Distinct : Table → Prop where
  | mk (origin : Origin) {entries : List (String × Slot)} : (entries.map Prod.fst).Nodup →
    (∀ entry ∈ entries, Slot.Distinct entry.2) → Table.Distinct (.mk origin entries)

end

namespace Table

variable {t : Table}

theorem distinct_nil (origin : Origin) : (mk origin []).Distinct := .mk origin .nil nofun

theorem mem_putIn {key : String} {slot : Slot} {entries : List (String × Slot)}
    {entry : String × Slot} (member : entry ∈ putIn entries key slot) :
    entry = (key, slot) ∨ entry ∈ entries := by
  induction entries with
  | nil => exact .inl (List.mem_singleton.mp member)
  | cons head rest ih =>
    obtain ⟨k, s⟩ := head
    rw [putIn] at member
    split at member
    · rename_i same
      rcases List.mem_cons.mp member with rfl | member
      · exact .inl (by rw [same])
      · exact .inr (List.mem_cons_of_mem _ member)
    · rcases List.mem_cons.mp member with rfl | member
      · exact .inr (List.mem_cons_self ..)
      · exact (ih member).imp_right (List.mem_cons_of_mem _)

theorem nodup_putIn (key : String) (slot : Slot) {entries : List (String × Slot)}
    (distinct : (entries.map Prod.fst).Nodup) :
    ((putIn entries key slot).map Prod.fst).Nodup := by
  induction entries with
  | nil => simp [putIn]
  | cons head rest ih =>
    obtain ⟨k, s⟩ := head
    obtain ⟨fresh, distinct⟩ := List.nodup_cons.mp distinct
    rw [putIn]
    split
    · exact List.nodup_cons.mpr ⟨fresh, distinct⟩
    · rename_i different
      refine List.nodup_cons.mpr ⟨fun member => ?_, ih distinct⟩
      obtain ⟨entry, member, same⟩ := List.mem_map.mp member
      rcases mem_putIn member with rfl | member
      · exact different same.symm
      · exact fresh (List.mem_map.mpr ⟨entry, member, same⟩)

namespace Distinct

theorem put (distinct : t.Distinct) (key : String) {slot : Slot} (inside : slot.Distinct) :
    (t.put key slot).Distinct := by
  obtain ⟨origin, nodup, slots⟩ := distinct
  refine .mk origin (nodup_putIn key slot nodup) fun entry member => ?_
  rcases mem_putIn member with rfl | member
  · exact inside
  · exact slots entry member

theorem slot (distinct : t.Distinct) {key : String} {slot : Slot} (found : t.slot? key = some slot) :
    slot.Distinct := by
  obtain ⟨origin, nodup, slots⟩ := distinct
  exact slots (key, slot) (Value.mem_of_lookup found)

/-- A change deep inside keeps keys distinct if it does so where it is made. -/
theorem update {dotted : Bool} {change : Table → Option Table}
    (keeps : ∀ {inner after : Table}, inner.Distinct → change inner = some after → after.Distinct)
    {path : List String} {after : Table} (distinct : t.Distinct)
    (changed : t.update dotted change path = some after) : after.Distinct := by
  induction path generalizing t after with
  | nil => exact keeps distinct changed
  | cons key path ih =>
    rw [Table.update] at changed
    cases found : t.slot? key with
    | none =>
      simp only [found] at changed
      obtain ⟨inner, begun, ⟨⟩⟩ := Option.bind_eq_some_iff.mp changed
      exact distinct.put key (.table (ih (distinct_nil _) begun))
    | some slot =>
      have inside := distinct.slot found
      cases inside with
      | value => simp [found] at changed
      | table inside =>
        simp only [found] at changed
        split at changed
        · cases changed
        · obtain ⟨inner, entered, ⟨⟩⟩ := Option.bind_eq_some_iff.mp changed
          exact distinct.put key (.table (ih inside entered))
      | tables latest earlier =>
        simp only [found] at changed
        obtain ⟨inner, entered, ⟨⟩⟩ := Option.bind_eq_some_iff.mp changed
        exact distinct.put key (.tables (ih latest entered) earlier)

theorem define {path : List String} {key : String} {value : Value} {after : Table}
    (distinct : t.Distinct) (plain : value.Distinct) (changed : t.define? path key value = some after) :
    after.Distinct := by
  refine distinct.update (fun {inner _} inside defined => ?_) changed
  split at defined
  · cases defined
  · cases defined
    exact inside.put key (.value plain)

theorem begin {path : List String} {key : String} {after : Table} (distinct : t.Distinct)
    (changed : t.begin? path key = some after) : after.Distinct := by
  refine distinct.update (fun {inner _} inside begun => ?_) changed
  split at begun
  · cases begun
    exact inside.put key (.table (distinct_nil _))
  · rename_i entries found
    cases begun
    cases inside.slot found with
    | table implied =>
      obtain ⟨-, nodup, slots⟩ := implied
      exact inside.put key (.table (.mk _ nodup slots))
  · cases begun

theorem beginNext {path : List String} {key : String} {after : Table} (distinct : t.Distinct)
    (changed : t.beginNext? path key = some after) : after.Distinct := by
  refine distinct.update (fun {inner _} inside begun => ?_) changed
  split at begun
  · cases begun
    exact inside.put key (.tables (distinct_nil _) nofun)
  · rename_i latest earlier found
    cases begun
    cases inside.slot found with
    | tables old older => exact inside.put key (.tables (distinct_nil _) (List.forall_mem_cons.mpr ⟨old, older⟩))
  · cases begun

end Distinct

theorem keys_entriesOf (entries : List (String × Slot)) :
    (entriesOf entries).map Prod.fst = entries.map Prod.fst := by
  induction entries with
  | nil => rw [entriesOf]; rfl
  | cons entry rest ih =>
    obtain ⟨key, slot⟩ := entry
    rw [entriesOf, List.map_cons, ih, List.map_cons]

mutual

theorem distinct_slotValue : ∀ {slot : Slot}, slot.Distinct → (Slot.toValue slot).Distinct
  | .value _, .value plain => by
    rw [Slot.toValue]
    exact plain
  | .table _, .table inside => by
    rw [Slot.toValue]
    exact distinct_toValue inside
  | .tables _ _, .tables latest earlier => by
    rw [Slot.toValue]
    refine .array fun item member => ?_
    rcases List.mem_cons.mp (List.mem_reverse.mp member) with rfl | member
    · exact distinct_toValue latest
    · exact distinct_valuesOf earlier item member

theorem distinct_toValue : ∀ {t : Table}, t.Distinct → t.toValue.Distinct
  | .mk _ entries, .mk _ nodup slots => by
    rw [toValue]
    exact .table (keys_entriesOf entries ▸ nodup) (distinct_entriesOf slots)

theorem distinct_valuesOf : ∀ {tables : List Table}, (∀ t ∈ tables, t.Distinct) →
    ∀ value ∈ valuesOf tables, value.Distinct
  | [], _, _, member => by simp [valuesOf] at member
  | _ :: _, inside, value, member => by
    rw [valuesOf] at member
    rcases List.mem_cons.mp member with rfl | member
    · exact distinct_toValue (inside _ (List.mem_cons_self ..))
    · exact distinct_valuesOf (fun t here => inside t (List.mem_cons_of_mem _ here)) value member

theorem distinct_entriesOf : ∀ {entries : List (String × Slot)},
    (∀ entry ∈ entries, entry.2.Distinct) → ∀ entry ∈ entriesOf entries, entry.2.Distinct
  | [], _, _, member => by simp [entriesOf] at member
  | (_, _) :: _, slots, entry, member => by
    rw [entriesOf] at member
    rcases List.mem_cons.mp member with rfl | member
    · exact distinct_slotValue (slots _ (List.mem_cons_self ..))
    · exact distinct_entriesOf (fun e here => slots e (List.mem_cons_of_mem _ here)) entry member

end

end Table

/-! Reading -/

section Values

variable {s rest : List Char} {value : Value}

theorem readBool_distinct (read : readBool? s = some (value, rest)) : value.Distinct := by
  unfold readBool? at read
  split at read
  · cases read
    exact .bool _
  · split at read
    · cases read
      exact .bool _
    · cases read

theorem readNumber_distinct (read : readNumber? s = some (value, rest)) : value.Distinct := by
  unfold readNumber? at read
  split at read
  · obtain ⟨_, -, ⟨⟩⟩ := Option.map_eq_some_iff.mp read
    exact .dateTime _
  · split at read
    · obtain ⟨_, -, ⟨⟩⟩ := Option.map_eq_some_iff.mp read
      exact .float _
    · split at read
      · cases read
        exact .float _
      · obtain ⟨_, -, ⟨⟩⟩ := Option.map_eq_some_iff.mp read
        exact .integer _

mutual

theorem readValue_distinct : ∀ {fuel depth : Nat} {s rest : List Char} {value : Value},
    readValue? fuel depth s = some (value, rest) → value.Distinct
  | 0, _, _, _, _, read => by simp [readValue?] at read
  | _ + 1, _, [], _, _, read => by simp [readValue?] at read
  | fuel + 1, depth, c :: rest, _, _, read => by
    rw [readValue?] at read
    split at read
    · obtain ⟨_, -, ⟨⟩⟩ := Option.map_eq_some_iff.mp read
      exact .string _
    split at read
    · split at read
      · cases read
      · obtain ⟨⟨items, after⟩, items_read, ⟨⟩⟩ := Option.map_eq_some_iff.mp read
        exact .array (readItems_distinct items_read)
    split at read
    · split at read
      · cases read
      · split at read
        · cases read
          exact .table .nil nofun
        · obtain ⟨⟨t, after⟩, pairs_read, ⟨⟩⟩ := Option.map_eq_some_iff.mp read
          exact Table.distinct_toValue (readPairs_distinct (Table.distinct_nil _) pairs_read)
    · rcases Option.or_eq_some_iff.mp read with read | ⟨-, read⟩
      · exact readBool_distinct read
      · exact readNumber_distinct read

theorem readItems_distinct : ∀ {fuel depth : Nat} {s rest : List Char} {items : List Value},
    readItems? fuel depth s = some (items, rest) → ∀ item ∈ items, item.Distinct
  | 0, _, _, _, _, read => by simp [readItems?] at read
  | fuel + 1, depth, s, _, _, read => by
    rw [readItems?] at read
    split at read
    · cases read
      exact nofun
    · obtain ⟨⟨item, after⟩, item_read, read⟩ := Option.bind_eq_some_iff.mp read
      have first := readValue_distinct item_read
      dsimp only at read
      split at read
      · cases read
        exact List.forall_mem_singleton.mpr first
      · obtain ⟨⟨items, behind⟩, items_read, ⟨⟩⟩ := Option.bind_eq_some_iff.mp read
        exact List.forall_mem_cons.mpr ⟨first, readItems_distinct items_read⟩
      · cases read

theorem readPairs_distinct : ∀ {fuel depth : Nat} {t after : Table} {s rest : List Char},
    t.Distinct → readPairs? fuel depth t s = some (after, rest) → after.Distinct
  | 0, _, _, _, _, _, _, read => by simp [readPairs?] at read
  | fuel + 1, depth, t, _, s, _, distinct, read => by
    rw [readPairs?] at read
    obtain ⟨⟨key, behind⟩, -, read⟩ := Option.bind_eq_some_iff.mp read
    dsimp only at read
    split at read
    · obtain ⟨⟨value, behind⟩, value_read, read⟩ := Option.bind_eq_some_iff.mp read
      obtain ⟨grown, defined, read⟩ := Option.bind_eq_some_iff.mp read
      have more := distinct.define (readValue_distinct value_read) defined
      dsimp only at read
      split at read
      · cases read
        exact more
      · exact readPairs_distinct more read
      · cases read
    · cases read

end

end Values

namespace Reading

variable {r next : Reading} {s rest : List Char}

theorem header_distinct (distinct : r.root.Distinct) (read : r.header? s = some (next, rest)) :
    next.root.Distinct := by
  unfold header? at read
  split at read
  · obtain ⟨⟨key, behind⟩, -, read⟩ := Option.bind_eq_some_iff.mp read
    dsimp only at read
    split at read
    · obtain ⟨root, begun, read⟩ := Option.bind_eq_some_iff.mp read
      obtain ⟨_, -, ⟨⟩⟩ := Option.bind_eq_some_iff.mp read
      exact distinct.beginNext begun
    · cases read
  · obtain ⟨⟨key, behind⟩, -, read⟩ := Option.bind_eq_some_iff.mp read
    dsimp only at read
    split at read
    · obtain ⟨root, begun, read⟩ := Option.bind_eq_some_iff.mp read
      obtain ⟨_, -, ⟨⟩⟩ := Option.bind_eq_some_iff.mp read
      exact distinct.begin begun
    · cases read

theorem pair_distinct (distinct : r.root.Distinct) (read : r.pair? s = some (next, rest)) :
    next.root.Distinct := by
  obtain ⟨⟨key, behind⟩, -, read⟩ := Option.bind_eq_some_iff.mp read
  dsimp only at read
  split at read
  · obtain ⟨⟨value, behind⟩, value_read, read⟩ := Option.bind_eq_some_iff.mp read
    obtain ⟨root, defined, read⟩ := Option.bind_eq_some_iff.mp read
    obtain ⟨_, -, ⟨⟩⟩ := Option.bind_eq_some_iff.mp read
    exact distinct.update (fun inside defined => inside.define (readValue_distinct value_read) defined)
      defined
  · cases read

theorem lines_distinct (distinct : r.root.Distinct) (read : r.lines? s = some next) :
    next.root.Distinct := by
  fun_induction lines? r s with
  | case1 =>
    cases read
    exact distinct
  | case2 r s c rest spaced read? line after found shorter ih =>
    refine ih ?_ read
    dsimp only [read?] at found
    split at found
    · obtain ⟨_, -, ⟨⟩⟩ := Option.map_eq_some_iff.mp found
      exact distinct
    split at found
    · obtain ⟨_, -, ⟨⟩⟩ := Option.map_eq_some_iff.mp found
      exact distinct
    split at found
    · exact header_distinct distinct found
    · exact pair_distinct distinct found
  | case3 => cases read
  | case4 => cases read

end Reading

theorem Value.distinct_read {text : String} {value : Value} (read : Value.read? text = some value) :
    value.Distinct := by
  obtain ⟨reading, lines, rfl⟩ := Option.map_eq_some_iff.mp read
  exact Table.distinct_toValue (Reading.lines_distinct (Table.distinct_nil _) lines)

end DocSite.Toml
