import DocSite.Template.Engine

/-! What a name leads to. Bindings hold nothing but what was put into them. The answers of a
world for its chunks and snippets stay the same through all lookups; only registering under a
name changes what the name leads to. -/
namespace DocSite.Template

namespace Bindings

theorem mem_of_find? {name value : String} {entries : List (String × String)}
    (found : find? name entries = some value) : (name, value) ∈ entries := by
  induction entries with
  | nil => cases found
  | cons p rest ih =>
    obtain ⟨n, v⟩ := p
    rw [find?] at found
    split at found
    · rename_i same
      cases found
      rw [same]
      exact List.mem_cons_self ..
    · exact List.mem_cons_of_mem _ (ih found)

theorem mem_of_mem_put {name value : String} {p : String × String}
    {entries : List (String × String)} (member : p ∈ put name value entries) :
    p = (name, value) ∨ p ∈ entries := by
  induction entries with
  | nil => exact .inl (List.mem_singleton.mp member)
  | cons q rest ih =>
    obtain ⟨n, v⟩ := q
    rw [put] at member
    split at member
    · rename_i same
      rcases List.mem_cons.mp member with rfl | member
      · exact .inl (by rw [same])
      · exact .inr (List.mem_cons_of_mem _ member)
    · rcases List.mem_cons.mp member with rfl | member
      · exact .inr (List.mem_cons_self ..)
      · exact (ih member).imp_right (List.mem_cons_of_mem _)

theorem mem_of_mem_extend {p : String × String} {more : List (String × String)} {b : Bindings}
    (member : p ∈ (b.extend more).entries) : p ∈ b.entries ∨ p ∈ more := by
  induction more generalizing b with
  | nil => exact .inl member
  | cons q more ih =>
    rcases ih member with old | new
    · rcases mem_of_mem_put old with rfl | older
      · exact .inr (List.mem_cons_self ..)
      · exact .inl older
    · exact .inr (List.mem_cons_of_mem _ new)

theorem getD_cases (b : Bindings) (name : String) :
    b.getD name "" = "" ∨ (name, b.getD name "") ∈ b.entries := by
  unfold getD get?
  cases found : find? name b.entries with
  | none => exact .inl rfl
  | some value => exact .inr (mem_of_find? found)

/-- Both bind the same names to the same values. -/
def Alike (a b : Bindings) : Prop := ∀ name, a.get? name = b.get? name

namespace Alike

variable {a b : Bindings}

theorem refl (b : Bindings) : b.Alike b := fun _ => rfl

theorem of_eq (same : a = b) : a.Alike b := same ▸ refl a

theorem of_agree (agree : a.agree b = true) : a.Alike b := by
  obtain ⟨first, second⟩ := Bool.and_eq_true_iff.mp agree
  intro name
  cases here : a.get? name with
  | some value =>
    rw [← here]
    exact eq_of_beq (List.all_eq_true.mp first _ (mem_of_find? here))
  | none =>
    cases there : b.get? name with
    | none => rfl
    | some value =>
      rw [← here, ← there]
      exact eq_of_beq (List.all_eq_true.mp second _ (mem_of_find? there))

theorem contains (same : a.Alike b) (name : String) : a.contains name = b.contains name :=
  congrArg Option.isSome (same name)

theorem getD (same : a.Alike b) (name default : String) :
    a.getD name default = b.getD name default :=
  congrArg (Option.getD · default) (same name)

theorem insert (name value : String) (same : a.Alike b) :
    (a.insert name value).Alike (b.insert name value) := by
  intro n
  rw [get?_insert, get?_insert, same n]

theorem erase (name : String) (same : a.Alike b) : (a.erase name).Alike (b.erase name) := by
  intro n
  rw [get?_erase, get?_erase, same n]

theorem extend (more : List (String × String)) (same : a.Alike b) :
    (a.extend more).Alike (b.extend more) := by
  induction more generalizing a b with
  | nil => exact same
  | cons p more ih => exact ih (same.insert p.1 p.2)

end Alike
end Bindings

namespace Cache

variable {α : Type}

theorem answer_of_known {c : Cache α} {name : String} {answer : Option α}
    (known : c.known? name = some answer) (probe : String → String → Probe α) :
    (c.get probe name).answer = answer := by
  simp [get, known]

theorem answer_of_unknown {c : Cache α} {name : String} (unknown : c.known? name = none)
    (probe : String → String → Probe α) :
    (c.get probe name).answer = (search (probe · name) c.searchPaths).1 := by
  simp [get, unknown]

theorem searchPaths_get (c : Cache α) (probe : String → String → Probe α) (name : String) :
    (c.get probe name).cache.searchPaths = c.searchPaths := by
  unfold get
  split <;> rfl

theorem known?_get_of_ne (c : Cache α) (probe : String → String → Probe α) {a b : String}
    (different : b ≠ a) : (c.get probe a).cache.known? b = c.known? b := by
  unfold get
  split
  · rfl
  · simp [known?, find?_put, different]

/-- A lookup does not change the answer for any name. -/
theorem answer_get (c : Cache α) (probe : String → String → Probe α) (a b : String) :
    ((c.get probe a).cache.get probe b).answer = (c.get probe b).answer := by
  by_cases same : b = a
  · subst same
    exact answer_of_known (known?_get c probe b) probe
  · have kept := known?_get_of_ne c probe same
    cases known : c.known? b with
    | some answer => rw [answer_of_known (kept.trans known), answer_of_known known]
    | none =>
      rw [answer_of_unknown (kept.trans known), answer_of_unknown known, searchPaths_get]

theorem answer_register (c : Cache α) (probe : String → String → Probe α) (a b : String)
    (resource : α) : ((c.register a resource).get probe b).answer =
      if b = a then some resource else (c.get probe b).answer := by
  have known := known?_register c a b resource
  by_cases same : b = a
  · rw [if_pos same] at known ⊢
    exact answer_of_known known probe
  · rw [if_neg same] at known ⊢
    cases before : c.known? b with
    | some answer => rw [answer_of_known (known.trans before), answer_of_known before]
    | none =>
      rw [answer_of_unknown (known.trans before), answer_of_unknown before]
      rfl

end Cache

namespace World

/-- The text that a chunk name leads to. -/
def chunk? (w : World) (name : String) : Option String := (w.chunk name).1

/-- The snippet that a name leads to. -/
def snippet? (w : World) (name : String) : Option Snippet := (w.snippet name).1

@[simp] theorem chunk?_chunk (w : World) (a b : String) : (w.chunk a).2.chunk? b = w.chunk? b :=
  Cache.answer_get w.chunks w.probeChunk a b

@[simp] theorem snippet?_chunk (w : World) (a b : String) :
    (w.chunk a).2.snippet? b = w.snippet? b := (rfl)

@[simp] theorem chunk?_snippet (w : World) (a b : String) :
    (w.snippet a).2.chunk? b = w.chunk? b := (rfl)

@[simp] theorem snippet?_snippet (w : World) (a b : String) :
    (w.snippet a).2.snippet? b = w.snippet? b :=
  Cache.answer_get w.snippets w.probeSnippet a b

@[simp] theorem chunk?_registerChunk (w : World) (a b text : String) :
    (w.registerChunk a text).chunk? b = if b = a then some text else w.chunk? b :=
  Cache.answer_register w.chunks w.probeChunk a b text

@[simp] theorem snippet?_registerSnippet (w : World) (a b : String) (s : Snippet) :
    (w.registerSnippet a s).snippet? b = if b = a then some s else w.snippet? b :=
  Cache.answer_register w.snippets w.probeSnippet a b s

end World
end DocSite.Template
