import DocSite.Proofs.Literal
import DocSite.Proofs.Provenance

/-! Text into which values were woven. Where no value holds a `[`, every `[` of a text still
belongs to the beginning of a tag that was written, whatever became of the rest of the tag. -/
namespace DocSite.Template

/-- Text that is cut at a character which its first part lacks is cut in the second part. -/
theorem split_apart {front rest a b : List Char} {c : Char} (apart : c ∉ front)
    (eq : front ++ rest = a ++ c :: b) : ∃ more, a = front ++ more ∧ rest = more ++ c :: b := by
  rcases List.append_eq_append_iff.mp eq with ⟨more, whole, after⟩ | ⟨more, before, after⟩
  · exact ⟨more, whole, after⟩
  · cases more with
    | nil => exact ⟨[], by rw [before, List.append_nil, List.append_nil], after.symm⟩
    | cons d more =>
      obtain ⟨rfl, -⟩ := List.cons.inj after
      exact absurd (before ▸ List.mem_append_right a (List.mem_cons_self ..)) apart

/-- Every `[` is one of the two that begin a tag that may stand there, up to the character that
ends its name. -/
inductive Woven (allowed : TagKind → String → Prop) : List Char → Prop where
  | nil : Woven allowed []
  | plain {c : Char} {rest : List Char} : c ≠ '[' → Woven allowed rest → Woven allowed (c :: rest)
  | opens {h : Head} {stop : Char} {rest : List Char} : h.WellFormed →
    allowed h.kind (String.ofList h.name) → Span.endsName stop = true →
    Woven allowed (stop :: rest) → Woven allowed ('[' :: '[' :: (h.chars ++ stop :: rest))

namespace Head

variable {h : Head}

theorem mem_chars {c : Char} (member : c ∈ h.chars) :
    c = '!' ∨ c ∈ ['+', '*', '$'] ∨ c ∈ h.name := by
  rcases List.mem_append.mp member with before | named
  · rcases List.mem_append.mp before with mark | sigil
    · split at mark
      · exact .inl (List.mem_singleton.mp mark)
      · cases mark
    · refine .inr (.inl ?_)
      cases kind : h.kind <;> rw [kind] at sigil <;> simp_all [TagKind.sigil]
  · exact .inr (.inr named)

/-- None of the characters that matter to what follows a name stands in front of it. -/
theorem chars_apart (formed : h.WellFormed) {c : Char} (member : c ∈ h.chars) :
    c ≠ '[' ∧ c ≠ '\x60' ∧ Span.endsName c = false := by
  have ofSigil : ∀ c ∈ ['+', '*', '$'], c ≠ '[' ∧ c ≠ '\x60' ∧ Span.endsName c = false := by decide
  rcases mem_chars member with rfl | sigil | named
  · decide
  · exact ofSigil c sigil
  · have named := formed.chars c named
    refine ⟨?_, ?_, ?_⟩
    · rintro rfl
      exact absurd named (by decide)
    · rintro rfl
      exact absurd named (by decide)
    · cases stops : Span.endsName c with
      | false => rfl
      | true =>
        rw [isNameChar_of_endsName stops] at named
        cases named

end Head

namespace Woven

variable {allowed : TagKind → String → Prop} {a b : List Char} {c : Char}

theorem append (first : Woven allowed a) (second : Woven allowed b) : Woven allowed (a ++ b) := by
  induction first with
  | nil => exact second
  | plain other _ ih => exact .plain other ih
  | opens formed begins stops _ ih =>
    rw [List.cons_append, List.cons_append, List.append_assoc]
    exact .opens formed begins stops ih

theorem of_free (free : BracketFree a) : Woven allowed a := by
  induction a with
  | nil => exact .nil
  | cons c a ih =>
    have later := ih fun d member => free d (List.mem_cons_of_mem _ member)
    exact .plain (free c (List.mem_cons_self ..)) later

theorem tail (woven : Woven allowed (c :: a)) (plain : c ≠ '[') : Woven allowed a := by
  cases woven with
  | plain _ rest => exact rest
  | opens => exact absurd rfl plain

theorem of_free_append (free : BracketFree a) (woven : Woven allowed (a ++ b)) : Woven allowed b := by
  induction a with
  | nil => exact woven
  | cons c a ih =>
    refine ih (fun d member => free d (List.mem_cons_of_mem _ member)) ?_
    exact woven.tail (free c (List.mem_cons_self ..))

/-- Text may be cut before a character that is in no head, unless it parts the two brackets.
What follows the cut may be anything that ends a name if the character did. -/
theorem cut (woven : Woven allowed (a ++ c :: b))
    (apart : ∀ h : Head, h.WellFormed → c ∉ h.chars) (whole : c = '[' → b.head? = some '[') :
    Woven allowed (c :: b) ∧ ∀ tail, Woven allowed tail →
      (Span.endsName c = true → tail.head?.any Span.endsName = true) → Woven allowed (a ++ tail) := by
  generalize eq : a ++ c :: b = s at woven
  induction woven generalizing a with
  | nil => cases a <;> cases eq
  | @plain d rest other woven ih =>
    cases a with
    | nil =>
      obtain ⟨rfl, rfl⟩ := List.cons.inj eq
      exact ⟨.plain other woven, fun tail after _ => after⟩
    | cons e a =>
      obtain ⟨rfl, inside⟩ := List.cons.inj eq
      obtain ⟨here, before⟩ := ih inside
      exact ⟨here, fun tail after stops => .plain other (before tail after stops)⟩
  | @opens h stop rest formed begins stops woven ih =>
    match a, eq with
    | [], eq =>
      obtain ⟨rfl, rfl⟩ := List.cons.inj eq
      exact ⟨.opens formed begins stops woven, fun tail after _ => after⟩
    -- Between two brackets, where the second would have to begin a head.
    | [_], eq =>
      obtain ⟨rfl, inside⟩ := List.cons.inj eq
      obtain ⟨rfl, rfl⟩ := List.cons.inj inside
      have first := whole rfl
      obtain ⟨d, more, chars⟩ : ∃ d more, h.chars = d :: more := by
        cases chars : h.chars with
        | nil =>
          have none : h.name = [] := (List.append_eq_nil_iff.mp chars).2
          exact absurd none formed.named
        | cons d more => exact ⟨d, more, rfl⟩
      rw [chars] at first
      have bracket : d = '[' := Option.some.inj first
      have member : d ∈ h.chars := chars ▸ List.mem_cons_self ..
      exact absurd bracket (Head.chars_apart formed member).1
    -- Behind the head, since none of its characters is the one that is cut at.
    | _ :: _ :: a, eq =>
      simp only [List.cons_append, List.cons.injEq] at eq
      obtain ⟨rfl, rfl, inside⟩ := eq
      obtain ⟨more, rfl, after⟩ := split_apart (apart h formed) inside.symm
      obtain ⟨here, before⟩ := ih after.symm
      refine ⟨here, fun tail woven' stops' => ?_⟩
      rw [List.cons_append, List.cons_append, List.append_assoc]
      have joined := before tail woven' stops'
      cases more with
      | cons d more =>
        obtain ⟨rfl, -⟩ := List.cons.inj after
        exact .opens formed begins stops joined
      | nil =>
        obtain ⟨rfl, -⟩ := List.cons.inj after
        cases tail with
        | nil => cases stops' stops
        | cons d tail => exact .opens formed begins (stops' stops) joined

theorem cut_brackets (woven : Woven allowed (a ++ '[' :: '[' :: b)) :
    Woven allowed a ∧ Woven allowed ('[' :: '[' :: b) := by
  have apart : ∀ h : Head, h.WellFormed → '[' ∉ h.chars :=
    fun h formed member => (Head.chars_apart formed member).1 rfl
  obtain ⟨here, before⟩ := woven.cut apart fun _ => rfl
  have ended := before [] .nil fun stops => absurd stops (by decide)
  rw [List.append_nil] at ended
  exact ⟨ended, here⟩

theorem cut_backtick (woven : Woven allowed (a ++ '\x60' :: b)) :
    Woven allowed a ∧ Woven allowed b := by
  have apart : ∀ h : Head, h.WellFormed → '\x60' ∉ h.chars :=
    fun h formed member => (Head.chars_apart formed member).2.1 rfl
  obtain ⟨here, before⟩ := woven.cut apart fun same => absurd same (by decide)
  have ended := before [] .nil fun stops => absurd stops (by decide)
  rw [List.append_nil] at ended
  exact ⟨ended, here.tail (by decide)⟩

/-- A character that ends a name may be exchanged for another. -/
theorem cut_stop (stops : Span.endsName c = true) (woven : Woven allowed (a ++ c :: b)) :
    Woven allowed b ∧ ∀ d, Span.endsName d = true → Woven allowed (a ++ [d]) := by
  have other : ∀ d, Span.endsName d = true → d ≠ '[' := by
    rintro d stops rfl
    exact absurd stops (by decide)
  have apart : ∀ h : Head, h.WellFormed → c ∉ h.chars := by
    intro h formed member
    rw [(Head.chars_apart formed member).2.2] at stops
    cases stops
  obtain ⟨here, before⟩ := woven.cut apart fun bracket => absurd bracket (other c stops)
  refine ⟨here.tail (other c stops), fun d stops' => before [d] (.plain (other d stops') .nil) ?_⟩
  exact fun _ => stops'

theorem head_of_brackets (woven : Woven allowed ('[' :: '[' :: a)) :
    ∃ (h : Head) (stop : Char) (rest : List Char), a = h.chars ++ stop :: rest ∧ h.WellFormed ∧
      allowed h.kind (String.ofList h.name) ∧ Span.endsName stop = true ∧
      Woven allowed (stop :: rest) := by
  generalize eq : '[' :: '[' :: a = s at woven
  cases woven with
  | nil => cases eq
  | plain other _ =>
    obtain ⟨rfl, -⟩ := List.cons.inj eq
    exact absurd rfl other
  | @opens h stop rest formed begins stops more =>
    simp only [List.cons.injEq, true_and] at eq
    exact ⟨h, stop, rest, eq, formed, begins, stops, more⟩

end Woven

theorem free_of_params {name : List Char} (chars : ∀ c ∈ name, isParamChar c = true) :
    BracketFree name := by
  rintro c member rfl
  exact absurd (chars _ member) (by decide)

section Sources

variable {allowed : TagKind → String → Prop}

mutual

theorem mark_woven : ∀ mark : Mark, mark.WellFormed →
    (∀ head ∈ mark.heads, allowed head.kind (String.ofList head.name)) → Woven allowed mark.source
  | .mk head tail, formed, heads => by
    obtain ⟨stop, rest, first, stops⟩ := Span.source_endsName tail formed.2
    have inside := tail_woven tail head.kind formed.2
      fun h member => heads h (List.mem_cons_of_mem _ member)
    rw [Mark.source]
    rw [first] at inside ⊢
    exact .opens formed.1 (heads head (List.mem_cons_self ..)) stops inside

theorem tail_woven : ∀ (tail : Tail) (kind : TagKind), tail.WellFormed kind →
    (∀ head ∈ tail.heads, allowed head.kind (String.ofList head.name)) → Woven allowed tail.source
  | .close, _, _, _ => .plain (by decide) (.plain (by decide) .nil)
  | .ignored chars, _, formed, _ =>
    .plain (by decide) (.append (.of_free formed.2.free) (.of_free (by decide)))
  | .blank c rest, kind, formed, heads => by
    refine .plain ?_ (tail_woven rest kind formed.2 heads)
    rintro rfl
    exact absurd formed.1 (by decide)
  | .nonBreaking rest, kind, formed, heads =>
    .append (.of_free (by decide)) (tail_woven rest kind formed heads)
  | .param entity name value rest, kind, ⟨_, named, valueFormed, restFormed⟩, heads => by
    have lead : BracketFree (paramLead entity) := by cases entity <;> decide
    have inside := markup_woven value true valueFormed
      fun h member => heads h (List.mem_append_left _ member)
    have after := tail_woven rest kind restFormed
      fun h member => heads h (List.mem_append_right _ member)
    rw [Tail.source]
    refine .append (.append (.append (.of_free lead) (.of_free (free_of_params named.2))) ?_) ?_
    · exact .plain (by decide) (.plain (by decide) inside)
    · exact .plain (by decide) after

theorem markup_woven : ∀ (text : Markup) (inValue : Bool), text.WellFormed inValue →
    (∀ head ∈ text.heads, allowed head.kind (String.ofList head.name)) → Woven allowed text.source
  | .text chars, _, formed, _ => .of_free fun c member => (formed c member).1
  | .tag chars mark rest, inValue, ⟨literal, here, later⟩, heads => by
    have first := mark_woven mark here fun h member => heads h (List.mem_append_left _ member)
    have after := markup_woven rest inValue later
      fun h member => heads h (List.mem_append_right _ member)
    exact .append (.append (.of_free fun c member => (literal c member).1) first) after

end

end Sources
end DocSite.Template
