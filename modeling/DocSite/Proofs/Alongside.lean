import DocSite.Proofs.Coupling
import DocSite.Proofs.Scope
import DocSite.Proofs.Settled

/-! Two runs that do the same, one of them deeper in renders than the other. They part only where the
deeper one comes to a limit. -/
namespace DocSite.Template

/-- From `s₀` to `s` and from `t₀` to `t` the same has happened, the second time `lift` renders
deeper. -/
structure Alongside (lift : Nat) (s₀ t₀ s t : Session) : Prop where
  placeholders : t.engine.placeholders = s.engine.placeholders
  opened : 0 < s.engine.depth
  depth : t.engine.depth = s.engine.depth + lift
  nested : t.engine.nested = s.engine.nested + lift
  limited : t.engine.limited = s.engine.limited
  stats : s.engine.stats + t₀.engine.stats = t.engine.stats + s₀.engine.stats
  world : t.world.plain = s.world.plain
  journal : ∃ events, s.world.journal = events ++ s₀.world.journal ∧
    t.world.journal = events ++ t₀.world.journal
  blind : s.world.Blind

theorem Stats.add_eq_iff (a b c d : Stats) : a + b = c + d ↔
    a.renders + b.renders = c.renders + d.renders ∧ a.passes + b.passes = c.passes + d.passes ∧
      a.budgetExhausted + b.budgetExhausted = c.budgetExhausted + d.budgetExhausted ∧
      a.depthLimited + b.depthLimited = c.depthLimited + d.depthLimited := by
  change add a b = add c d ↔ _
  rw [add, add, mk.injEq]

@[simp] theorem Engine.noteLimit_limited (e : Engine) : e.noteLimit.limited = true := by
  unfold noteLimit
  split
  · assumption
  · rfl

namespace Alongside

variable {lift : Nat} {s₀ t₀ s t : Session}

theorem move {α : Type} {f : World → α × World} (move : World.Move Snippet.Blind f)
    (here : Alongside lift s₀ t₀ s t) : (f s.world).1 = (f t.world).1 ∧
      Alongside lift s₀ t₀ { s with world := (f s.world).2 } { t with world := (f t.world).2 } := by
  obtain ⟨same, plain, events, first, second⟩ := move.same here.world
  obtain ⟨older, journal, journal'⟩ := here.journal
  refine ⟨same.symm, { here with world := plain, blind := move.blind here.blind, journal := ?_ }⟩
  refine ⟨events ++ older, ?_, ?_⟩
  · rw [second, journal, List.append_assoc]
  · rw [first, journal', List.append_assoc]

/-- Deeper in, a limit may leave a tag alone that it does not leave alone further out. -/
theorem descend (here : Alongside lift s₀ t₀ s t) (free : t.engine.mayDescend = true) :
    s.engine.mayDescend = true := by
  obtain ⟨shallow, few⟩ := (Engine.mayDescend_iff t.engine).mp free
  rw [here.depth] at shallow
  rw [here.nested] at few
  exact (Engine.mayDescend_iff s.engine).mpr ⟨by omega, by omega⟩

theorem refuse (here : Alongside 0 s₀ t₀ s t) (kind : TagKind) (name : String) :
    Alongside 0 s₀ t₀ (s.refuse kind name) (t.refuse kind name) where
  placeholders := by simpa [Session.refuse] using here.placeholders
  opened := by simpa [Session.refuse] using here.opened
  depth := by simpa [Session.refuse] using here.depth
  nested := by simpa [Session.refuse] using here.nested
  limited := by simp [Session.refuse]
  stats := by
    have stats := here.stats
    rw [Stats.add_eq_iff] at stats ⊢
    simp only [Session.refuse, Engine.noteLimit, here.limited]
    cases s.engine.limited <;> simp <;> omega
  world := here.world
  journal := by
    obtain ⟨events, journal, journal'⟩ := here.journal
    have nested : t.engine.nested = s.engine.nested := here.nested
    refine ⟨.refused kind name s.engine.nested :: events, congrArg _ journal, ?_⟩
    rw [← nested]
    exact congrArg _ journal'
  blind := here.blind

theorem enter (params : Params) (here : Alongside lift s₀ t₀ s t) :
    Alongside lift s₀ t₀ (s.enter params) (t.enter params) where
  placeholders := congrArg (Bindings.extend · params.entries) here.placeholders
  opened := Nat.succ_pos _
  depth := by
    change t.engine.depth + 1 = s.engine.depth + 1 + lift
    rw [here.depth, Nat.add_right_comm]
  nested := by
    have opened := here.opened
    have depth := here.depth
    have nested := here.nested
    change (if t.engine.depth = 0 then 0 else t.engine.nested + 1) =
      (if s.engine.depth = 0 then 0 else s.engine.nested + 1) + lift
    rw [if_neg (by omega), if_neg (by omega), nested, Nat.add_right_comm]
  limited := by
    have opened := here.opened
    have depth := here.depth
    change (if t.engine.depth = 0 then false else t.engine.limited) =
      if s.engine.depth = 0 then false else s.engine.limited
    rw [if_neg (by omega), if_neg (by omega), here.limited]
  stats := by
    have stats := here.stats
    rw [Stats.add_eq_iff] at stats ⊢
    simp only [Session.enter, Engine.enter]
    omega
  world := here.world
  journal := here.journal
  blind := here.blind

theorem leave {u v : Session} (here : Alongside lift s₀ t₀ s t)
    (depth : v.engine.depth = t.engine.depth + 1) (there : Alongside lift s₀ t₀ u v) :
    Alongside lift s₀ t₀ (s.leave u) (t.leave v) where
  placeholders := here.placeholders
  opened := by
    have opened := here.opened
    have outer := here.depth
    have inner := there.depth
    change 0 < u.engine.depth - 1
    omega
  depth := by
    have opened := there.opened
    have inner := there.depth
    change v.engine.depth - 1 = u.engine.depth - 1 + lift
    omega
  nested := there.nested
  limited := there.limited
  stats := there.stats
  world := there.world
  journal := there.journal
  blind := there.blind

end Alongside

/-- The second run is excused once it has come to a limit that the first one need not come to. -/
def Coupling.alongside (lift : Nat) (s₀ t₀ : Session) : Coupling where
  Holds := Alongside lift s₀ t₀
  aware := False
  Runs _ := True
  Excuses stop t := 0 < lift ∧ (stop = some .unfinished ∨ t₀.refusals < t.refusals)
  law := Law.nesting.both Law.refusals

theorem Alongside.universal (lift : Nat) (s₀ t₀ : Session) :
    (Coupling.alongside lift s₀ t₀).Universal where
  law := Nesting.universal.both Refusals.universal
  lasts := by
    rintro s t stop ⟨deeper, excuse⟩ ⟨-, grown⟩
    refine ⟨deeper, .inr (Nat.lt_of_lt_of_le ?_ grown)⟩
    exact excuse.resolve_left nofun
  caught := by
    rintro t e ⟨deeper, excuse⟩
    exact ⟨deeper, .inr (excuse.resolve_left nofun)⟩
  scope here := .of_eq here.placeholders.symm
  stats aware := aware.elim
  script {s t path} _ here := by
    have files : t.world.plain.files = s.world.plain.files := congrArg World.files here.world
    exact congrArg (Script.run · path) files
  fits {s t name snippet} here found := by
    have blind := here.blind name snippet found
    cases snippet with
    | program start => exact .inr (.inr blind)
    | script path => exact .inr trivial
  placeholders {s t f} _ here := { here with placeholders := congrArg f here.placeholders }
  move move here := .inr (here.move (move.mono fun snippet fits => by
    cases snippet with
    | program start => exact fits.resolve_left id
    | script path => trivial))
  countPass here := { here with
    stats := by
      have stats := here.stats
      rw [Stats.add_eq_iff] at stats ⊢
      simp only [Engine.countPass]
      omega }
  countExhausted here := { here with
    stats := by
      have stats := here.stats
      rw [Stats.add_eq_iff] at stats ⊢
      simp only [Engine.countExhausted]
      omega }
  descend here free := here.descend free
  refuse {s t} kind name here refused := by
    rcases Nat.eq_zero_or_pos lift with rfl | deeper
    · right
      refine ⟨?_, here.refuse kind name⟩
      rw [← refused, Engine.mayDescend, Engine.mayDescend, here.depth, here.nested]
      rfl
    · left
      obtain ⟨events, -, journal⟩ := here.journal
      refine ⟨deeper, .inr ?_⟩
      rw [Session.refuse, Session.refusals_refused]
      exact Nat.lt_succ_of_le (Session.refusals_le_of_journal journal)
  enter params here := here.enter params
  leave here kept there := here.leave kept.1.1 there
  left excuse := excuse

end DocSite.Template
