import DocSite.Proofs.Law
import DocSite.Proofs.Memory

/-! The caches of chunks and snippets as one store that serves one demand after the other. Whatever a
run does with its world, it only makes demands; and directories are asked for a name only once. -/
namespace DocSite.Template

/-- Directories have been asked for a resource. -/
structure Load where
  kind : ResourceKind
  name : String
  asked : List String

namespace Load

/-- What is recorded of a load, the newest event first. -/
def events (load : Load) : List Event := (load.asked.map (Event.probed load.kind · load.name)).reverse

def resource (load : Load) : ResourceKind × String := (load.kind, load.name)

end Load

namespace Cache

variable {α : Type}

/-- What a request makes a cache load. -/
def loads (kind : ResourceKind) (c : Cache α) : Request α → List Load
  | .get probe name => if (c.known? name).isSome then [] else [⟨kind, name, (c.get probe name).asked⟩]
  | .addSearchPath _ | .register .. => []

theorem events_loads (kind : ResourceKind) (c : Cache α) (probe : (dir name : String) → Probe α)
    (name : String) : (c.loads kind (.get probe name)).flatMap Load.events =
      ((c.get probe name).asked.map (Event.probed kind · name)).reverse := by
  rw [loads]
  cases known : c.known? name with
  | some answer =>
    rw [asked_of_known known]
    rfl
  | none => exact List.append_nil _

/-- Only a name without an answer is loaded, and then there is one. -/
theorem loads_cases (kind : ResourceKind) (c : Cache α) (r : Request α) : c.loads kind r = [] ∨
    ∃ name asked, c.loads kind r = [⟨kind, name, asked⟩] ∧ c.known? name = none ∧
      ((c.step r).known? name).isSome := by
  cases r with
  | addSearchPath | register => exact .inl rfl
  | get probe name =>
    cases known : c.known? name with
    | some answer => exact .inl (by rw [loads, known]; rfl)
    | none =>
      refine .inr ⟨name, (c.get probe name).asked, by rw [loads, known]; rfl, known, ?_⟩
      exact Option.isSome_of_eq_some (known?_get c probe name)

/-- For a name there will always be an answer once there is one, though not always the same one. -/
theorem known?_step_isSome {c : Cache α} {name : String} (known : (c.known? name).isSome)
    (r : Request α) : ((c.step r).known? name).isSome := by
  cases r with
  | addSearchPath path => exact known
  | register n resource =>
    rw [step, known?_register]
    split
    · rfl
    · exact known
  | get probe n =>
    obtain ⟨answer, before⟩ := Option.isSome_iff_exists.mp known
    exact Option.isSome_of_eq_some (known?_step_of_known (r := .get probe n) before id)

end Cache

/-- What is demanded of the store. -/
inductive Demand where
  | chunk (request : Cache.Request String)
  | snippet (request : Cache.Request Snippet)

structure Store where
  chunks : Cache String := {}
  snippets : Cache Snippet := {}
  /-- The newest load comes first. -/
  loads : List Load := []

namespace Store

def serve (s : Store) : Demand → Store
  | .chunk request => { s with
      chunks := s.chunks.step request
      loads := s.chunks.loads .chunk request ++ s.loads }
  | .snippet request => { s with
      snippets := s.snippets.step request
      loads := s.snippets.loads .snippet request ++ s.loads }

/-- A store that was new before these demands. -/
def after (demands : List Demand) : Store := demands.foldl serve {}

/-- There is an answer for the name. -/
def Knows (s : Store) : ResourceKind × String → Prop
  | (.chunk, name) => (s.chunks.known? name).isSome
  | (.snippet, name) => (s.snippets.known? name).isSome

/-- No resource has been loaded twice, and for each that has been loaded there is an answer. -/
structure Thrifty (s : Store) : Prop where
  once : (s.loads.map Load.resource).Nodup
  known : ∀ load ∈ s.loads, s.Knows load.resource

theorem knows_serve {s : Store} {resource : ResourceKind × String} (known : s.Knows resource)
    (demand : Demand) : (s.serve demand).Knows resource := by
  obtain ⟨kind, name⟩ := resource
  cases demand with
  | chunk request =>
    cases kind with
    | chunk => exact Cache.known?_step_isSome known request
    | snippet => exact known
  | snippet request =>
    cases kind with
    | chunk => exact known
    | snippet => exact Cache.known?_step_isSome known request

theorem Thrifty.grow {s t : Store} (thrifty : s.Thrifty)
    (keeps : ∀ resource, s.Knows resource → t.Knows resource)
    (grown : t.loads = s.loads ∨ ∃ load : Load, t.loads = load :: s.loads ∧
      ¬ s.Knows load.resource ∧ t.Knows load.resource) : t.Thrifty := by
  have known : ∀ load ∈ s.loads, t.Knows load.resource :=
    fun load member => keeps _ (thrifty.known load member)
  rcases grown with same | ⟨load, added, fresh, learnt⟩
  · exact ⟨same ▸ thrifty.once, same ▸ known⟩
  · refine ⟨?_, added ▸ List.forall_mem_cons.mpr ⟨learnt, known⟩⟩
    rw [added, List.map_cons, List.nodup_cons]
    refine ⟨fun member => ?_, thrifty.once⟩
    obtain ⟨old, member, same⟩ := List.mem_map.mp member
    exact fresh (same ▸ thrifty.known old member)

theorem Thrifty.serve {s : Store} (thrifty : s.Thrifty) (demand : Demand) :
    (s.serve demand).Thrifty := by
  refine thrifty.grow (fun _ known => knows_serve known demand) ?_
  cases demand with
  | chunk request =>
    refine (s.chunks.loads_cases .chunk request).imp (congrArg (· ++ s.loads)) ?_
    rintro ⟨name, asked, loaded, unknown, learnt⟩
    have fresh : ¬ s.Knows (.chunk, name) := by simp [Knows, unknown]
    exact ⟨⟨.chunk, name, asked⟩, congrArg (· ++ s.loads) loaded, fresh, learnt⟩
  | snippet request =>
    refine (s.snippets.loads_cases .snippet request).imp (congrArg (· ++ s.loads)) ?_
    rintro ⟨name, asked, loaded, unknown, learnt⟩
    have fresh : ¬ s.Knows (.snippet, name) := by simp [Knows, unknown]
    exact ⟨⟨.snippet, name, asked⟩, congrArg (· ++ s.loads) loaded, fresh, learnt⟩

theorem thrifty_after (demands : List Demand) : (after demands).Thrifty := by
  have kept (s : Store) (thrifty : s.Thrifty) : (demands.foldl Store.serve s).Thrifty := by
    induction demands generalizing s with
    | nil => exact thrifty
    | cons demand rest ih => exact ih (s.serve demand) (thrifty.serve demand)
  exact kept {} ⟨.nil, nofun⟩

end Store

namespace World

/-- The events that tell of directories that were asked, the newest one first. -/
def probes (w : World) : List Event := w.journal.filter Event.isProbe

/-- The caches are those of the store, and what was loaded has been recorded. -/
structure Shows (w : World) (s : Store) : Prop where
  chunks : w.chunks = s.chunks
  snippets : w.snippets = s.snippets
  probes : w.probes = s.loads.flatMap Load.events

/-- The demand may be made while the files are as in this world, other than from outside. -/
def Permits (w : World) : Demand → Prop
  | .chunk (.get probe _) => probe = w.probeChunk
  | .snippet (.get probe _) => probe = w.probeSnippet
  | .chunk (.register ..) => True
  | .snippet (.register _ snippet) => ∃ start, snippet = .program start
  | .chunk (.addSearchPath _) | .snippet (.addSearchPath _) => False

variable {w : World} {s : Store}

theorem Permits.congr {v : World} {demand : Demand} (permitted : v.Permits demand)
    (chunks : v.probeChunk = w.probeChunk) (snippets : v.probeSnippet = w.probeSnippet) :
    w.Permits demand := by
  cases demand with
  | chunk request =>
    cases request with
    | addSearchPath path => exact permitted
    | register name text => trivial
    | get probe name => exact Eq.trans permitted chunks
  | snippet request =>
    cases request with
    | addSearchPath path => exact permitted
    | register name snippet => exact permitted
    | get probe name => exact Eq.trans permitted snippets

theorem filter_probed (kind : ResourceKind) (name : String) (asked : List String)
    (journal : List Event) :
    ((asked.map (Event.probed kind · name)).reverse ++ journal).filter Event.isProbe =
      (asked.map (Event.probed kind · name)).reverse ++ journal.filter Event.isProbe := by
  rw [List.filter_append, List.filter_eq_self.mpr]
  intro event member
  obtain ⟨dir, -, rfl⟩ := List.mem_map.mp (List.mem_reverse.mp member)
  rfl

theorem Shows.chunk (shows : w.Shows s) (name : String) :
    (w.chunk name).2.Shows (s.serve (.chunk (.get w.probeChunk name))) where
  chunks := congrArg (fun c : Cache String => (c.get w.probeChunk name).cache) shows.chunks
  snippets := shows.snippets
  probes := by
    refine (filter_probed .chunk name _ w.journal).trans ?_
    rw [Store.serve, List.flatMap_append, Cache.events_loads, ← shows.chunks, ← shows.probes]
    rfl

theorem Shows.snippet (shows : w.Shows s) (name : String) :
    (w.snippet name).2.Shows (s.serve (.snippet (.get w.probeSnippet name))) where
  chunks := shows.chunks
  snippets := congrArg (fun c : Cache Snippet => (c.get w.probeSnippet name).cache) shows.snippets
  probes := by
    refine (filter_probed .snippet name _ w.journal).trans ?_
    rw [Store.serve, List.flatMap_append, Cache.events_loads, ← shows.snippets, ← shows.probes]
    rfl

/-- Whatever a run does with its world, it makes demands only. -/
theorem Move.demands {α : Type} {f : World → α × World} {may : Snippet → Prop} (move : Move may f)
    (shows : w.Shows s) :
    ∃ demands : List Demand, (∀ demand ∈ demands, w.Permits demand) ∧
      (f w).2.Shows (demands.foldl Store.serve s) := by
  have none : ∀ demand ∈ ([] : List Demand), w.Permits demand := nofun
  cases move with
  | record event known =>
    have probes : (event :: w.journal).filter Event.isProbe = w.probes :=
      List.filter_cons_of_neg (by simp [known])
    exact ⟨[], none, { shows with probes := probes.trans shows.probes }⟩
  | note | count => exact ⟨[], none, { shows with }⟩
  | chunk name =>
    have permitted : w.Permits (.chunk (.get w.probeChunk name)) := rfl
    exact ⟨[_], List.forall_mem_singleton.mpr permitted, shows.chunk name⟩
  | snippet name =>
    have permitted : w.Permits (.snippet (.get w.probeSnippet name)) := rfl
    exact ⟨[_], List.forall_mem_singleton.mpr permitted, shows.snippet name⟩
  | registerChunk name text =>
    exact ⟨[.chunk (.register name text)], List.forall_mem_singleton.mpr trivial, { shows with
      chunks := congrArg (Cache.register · name text) shows.chunks }⟩
  | registerSnippet name start =>
    exact ⟨[.snippet (.register name (.program start))], List.forall_mem_singleton.mpr ⟨start, rfl⟩,
      { shows with
        snippets := congrArg (fun c : Cache Snippet => c.register name (.program start))
          shows.snippets }⟩

end World

/-- What a run does to the store of its world it does by demands. -/
def Law.demanding : Law where
  Holds s _ t := (∀ store, s.world.Shows store → ∃ demands : List Demand,
      (∀ demand ∈ demands, s.world.Permits demand) ∧
        t.world.Shows (demands.foldl Store.serve store)) ∧
    t.world.probeChunk = s.world.probeChunk ∧ t.world.probeSnippet = s.world.probeSnippet
  refl s := ⟨fun _ shows => ⟨[], nofun, shows⟩, rfl, rfl⟩
  trans := by
    rintro s t u stop ⟨first, chunks, snippets⟩ ⟨second, chunks', snippets'⟩
    refine ⟨fun store shows => ?_, chunks'.trans chunks, snippets'.trans snippets⟩
    obtain ⟨demands, permitted, shows⟩ := first store shows
    obtain ⟨more, permitted', shows⟩ := second _ shows
    refine ⟨demands ++ more, ?_, by rwa [List.foldl_append]⟩
    exact List.forall_mem_append.mpr ⟨permitted, fun demand member =>
      (permitted' demand member).congr chunks snippets⟩

theorem Demanding.universal : Law.demanding.Universal where
  ends held := held
  placeholders _ s := Law.demanding.refl s
  stats _ _ s := Law.demanding.refl s
  world move s := by
    refine ⟨fun store shows => move.demands shows, ?_, ?_⟩
    · cases move <;> rfl
    · cases move <;> rfl
  refuse s kind name := ⟨fun store shows => ⟨[], nofun, { shows with }⟩, rfl, rfl⟩
  within params kept s := by
    obtain ⟨inside, chunks, snippets⟩ := kept (s.enter params)
    refine ⟨fun store shows => ?_, chunks, snippets⟩
    obtain ⟨demands, permitted, shows⟩ := inside store { shows with }
    exact ⟨demands, fun demand member => (permitted demand member).congr rfl rfl, { shows with }⟩

end DocSite.Template
