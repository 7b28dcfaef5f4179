import DocSite.Proofs.DistinctKeys
import DocSite.Site.Config

/-! What a site changes and the defaults for the rest. A value laid over the defaults stands for what
it stands for alone, because each default is the one that its field has anyway. -/
namespace DocSite.Site.Config

open Toml (Value)

variable {α : Type} {read? : Value → Option α} {default : α}

/-- The value stands for the default, and nothing of it is seen in a value that is laid over it. -/
structure Stock (read? : Value → Option α) (default : α) (below : Value) : Prop where
  read : read? below = some default
  covered {v : Value} : v.Distinct → read? (below.merge v) = read? v

theorem Stock.of_not_table {below : Value} (read : read? below = some default)
    (plain : ∀ entries, below ≠ .table entries) : Stock read? default below :=
  ⟨read, fun _ => congrArg read? (Value.merge_of_not_table plain _)⟩

section Fields

variable {base overlay : List (String × Value)} {key : String}

theorem field?_of_absent (distinct : (Value.table overlay).Distinct)
    (absent : base.lookup key = none) :
    field? read? default (Value.mergeEntries base overlay) key = field? read? default overlay key := by
  cases distinct with
  | table nodup values =>
    unfold field?
    rw [Value.lookup_mergeEntries nodup, absent]
    cases overlay.lookup key <;> rfl

theorem Stock.field? {below : Value} (stock : Stock read? default below)
    (distinct : (Value.table overlay).Distinct) (found : base.lookup key = some below) :
    field? read? default (Value.mergeEntries base overlay) key = field? read? default overlay key := by
  cases distinct with
  | table nodup values =>
    unfold Config.field?
    rw [Value.lookup_mergeEntries nodup, found]
    cases laid : overlay.lookup key with
    | none => exact stock.read
    | some v => exact stock.covered (values _ (Value.mem_of_lookup laid))

theorem members?_merge {keys : List String} (known : base.all fun (key, _) => keys.contains key) :
    members? keys (.table (Value.mergeEntries base overlay)) =
      (members? keys (.table overlay)).map (Value.mergeEntries base) := by
  have all := Value.all_mergeEntries keys.contains base overlay
  rw [known, Bool.true_and] at all
  simp only [members?, all]
  split <;> rfl

/-- A table of defaults is stock for a record if its fields do not see them. -/
theorem Stock.of_table {keys : List String} {build : List (String × Value) → Option α}
    (reads : ∀ v, read? v = (members? keys v).bind build) (read : read? (.table base) = some default)
    (known : base.all fun (key, _) => keys.contains key)
    (fields : ∀ overlay, (Value.table overlay).Distinct →
      build (Value.mergeEntries base overlay) = build overlay) :
    Stock read? default (.table base) := by
  refine ⟨read, fun {v} distinct => ?_⟩
  cases v with
  | table overlay =>
    rw [Value.merge, reads, members?_merge known, reads, members?]
    split
    · exact fields overlay distinct
    · rfl
  | _ => rfl

end Fields

theorem stock_text {s : String} : Stock text? s (.string s) := .of_not_table rfl nofun

theorem stock_templates :
    Stock Templates.ofValue? {} (.table [("chunk_dirs", ofTexts ["layouts"]),
      ("snippet_dirs", ofTexts ["layouts"])]) := by
  refine .of_table (fun _ => rfl) rfl rfl fun overlay distinct => ?_
  have texts : Stock texts? ["layouts"] (ofTexts ["layouts"]) := .of_not_table rfl nofun
  rw [texts.field? distinct rfl, texts.field? distinct rfl]

theorem stock_processing : Stock Processing.ofValue? {} (.table []) := by
  refine .of_table (fun _ => rfl) rfl rfl fun overlay distinct => ?_
  rw [field?_of_absent distinct rfl]

theorem stock_defaults : Stock ofValue? {} defaults := by
  refine .of_table (fun _ => rfl) rfl rfl fun overlay distinct => ?_
  have texts : Stock texts? [] (ofTexts []) := .of_not_table rfl nofun
  dsimp only
  rw [stock_text.field? distinct rfl, stock_text.field? distinct rfl,
    stock_text.field? distinct rfl, stock_text.field? distinct rfl, texts.field? distinct rfl,
    stock_text.field? distinct rfl, texts.field? distinct rfl,
    stock_templates.field? distinct rfl, stock_processing.field? distinct rfl]

theorem resolve_none : resolve none = .ok {} := by
  change ofValue defaults = _
  rw [ofValue, stock_defaults.read]
  rfl

theorem resolve_some {overlay : Value} (distinct : overlay.Distinct) :
    resolve (some overlay) = ofValue overlay := by
  change ofValue (defaults.merge overlay) = _
  rw [ofValue, stock_defaults.covered distinct, ofValue]

/-- Laid over the defaults, a table comes to the same configuration or the same error as when it is
read alone, where each missing key has the default of its field. Whatever is read is such a table. -/
theorem overlay_resolves_alone :
    (∀ overlay : Value, overlay.Distinct → resolve (some overlay) = ofValue overlay) ∧
      resolve none = .ok {} ∧
      ∀ text, read (some text) = (Value.read? text).elim (.error .toml) ofValue := by
  refine ⟨fun overlay distinct => resolve_some distinct, resolve_none, fun text => ?_⟩
  rw [read]
  cases found : Value.read? text with
  | none => rfl
  | some overlay => exact resolve_some (Value.distinct_read found)

/-- An overlay with a few keys of its own, also in a table that has defaults for the others. -/
def sample : Value := .table [
  ("templates", .table [("snippet_dirs", ofTexts ["bin", "layouts"])]), ("site_name", .string "Notes"),
  ("processing", .table [("max_processes", .integer 4)])]

theorem sample_distinct : sample.Distinct := by
  have dirs : (ofTexts ["bin", "layouts"]).Distinct :=
    .array (List.forall_mem_cons.mpr ⟨.string _, List.forall_mem_singleton.mpr (.string _)⟩)
  have templates : (Value.table [("snippet_dirs", ofTexts ["bin", "layouts"])]).Distinct :=
    .table (by decide) (List.forall_mem_singleton.mpr dirs)
  have processing : (Value.table [("max_processes", .integer 4)]).Distinct :=
    .table (by decide) (List.forall_mem_singleton.mpr (.integer 4))
  exact .table (by decide) (List.forall_mem_cons.mpr ⟨templates,
    List.forall_mem_cons.mpr ⟨.string _, List.forall_mem_singleton.mpr processing⟩⟩)

theorem sample_resolves_alone :
    sample.Distinct ∧ resolve (some sample) = ofValue sample ∧ ofValue sample = .ok {
      siteName := "Notes", templates.snippetDirs := ["bin", "layouts"], processing.maxProcesses := some 4 } :=
  ⟨sample_distinct, overlay_resolves_alone.1 sample sample_distinct, rfl⟩

end DocSite.Site.Config
