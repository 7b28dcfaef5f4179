import Mathlib.Data.List.TakeWhile
import DocSite.Site.FrontMatter

/-! The parts of a document. It is cut at two of its lines, the first one and the next one that is a
delimiter, and nothing of it is lost. -/
namespace DocSite.Site.FrontMatter

/-- The lines of a text. Each goes up to its line feed, which only the last one may lack. -/
inductive LinesOf : List Char → List (List Char) → Prop where
  | none : LinesOf [] []
  | last {line : List Char} : line ≠ [] → '\n' ∉ line → LinesOf line [line]
  | ended {line rest : List Char} {lines : List (List Char)} : '\n' ∉ line → LinesOf rest lines →
    LinesOf (line ++ '\n' :: rest) ((line ++ ['\n']) :: lines)

/-- Three hyphens with nothing but blanks behind them. -/
def Delimits (line : List Char) : Prop :=
  ∃ blanks, (∀ c ∈ blanks, Text.isBlank c = true) ∧ line = delimiter ++ blanks

/-- How a text falls into parts by its lines. -/
inductive Divided (text : List Char) : Parts → Prop where
  | unbroken : '\n' ∉ text → Divided text .body
  | plain {first : List Char} {later : List (List Char)} : LinesOf text (first :: later) →
    ¬ Delimits first → Divided text .body
  | unterminated {first : List Char} {later : List (List Char)} : '\n' ∈ text →
    LinesOf text (first :: later) → Delimits first → (∀ line ∈ later, ¬ Delimits line) →
    Divided text .unterminated
  | matter {first closing : List Char} {inner behind : List (List Char)} :
    LinesOf text (first :: (inner ++ closing :: behind)) → Delimits first →
    (∀ line ∈ inner, ¬ Delimits line) → Delimits closing →
    Divided text (.matter inner.flatten behind.flatten)

/-! Delimiters -/

theorem isDelimiter_iff {line : List Char} : isDelimiter line = true ↔ Delimits line := by
  rw [isDelimiter, beq_iff_eq]
  constructor
  · intro trimmed
    have whole := congrArg List.reverse
      (List.takeWhile_append_dropWhile (p := Text.isBlank) (l := line.reverse))
    rw [List.reverse_append, List.reverse_reverse] at whole
    refine ⟨(line.reverse.takeWhile Text.isBlank).reverse, fun c member => ?_, ?_⟩
    · exact List.mem_takeWhile_imp (List.mem_reverse.mp member)
    · rw [← trimmed]
      exact whole.symm
  · rintro ⟨blanks, blank, rfl⟩
    rw [Text.trimEnd, List.reverse_append, List.dropWhile_append_of_pos]
    · rfl
    · exact fun c member => blank c (List.mem_reverse.mp member)

instance : DecidablePred Delimits := fun _ => decidable_of_iff _ isDelimiter_iff

theorem isDelimiter_eq_false {line : List Char} (other : ¬ Delimits line) :
    isDelimiter line = false :=
  Bool.eq_false_iff.mpr fun same => other (isDelimiter_iff.mp same)

/-! Lines -/

theorem splitLines_nil : splitLines [] = [] := by rw [splitLines]

theorem takeWhile_unbroken {line : List Char} (free : '\n' ∉ line) :
    line.takeWhile (· != '\n') = line := by
  rw [List.takeWhile_eq_self_iff]
  exact fun c member => bne_iff_ne.mpr fun same => free (same ▸ member)

theorem splitLines_unbroken {line : List Char} (filled : line ≠ []) (free : '\n' ∉ line) :
    splitLines line = [line] := by
  cases line with
  | nil => contradiction
  | cons c rest =>
    rw [splitLines, takeWhile_unbroken free, List.take_of_length_le (Nat.le_succ _),
      List.length_cons, Nat.add_sub_cancel, List.drop_length, splitLines_nil]

theorem splitLines_ended {line : List Char} (free : '\n' ∉ line) (rest : List Char) :
    splitLines (line ++ '\n' :: rest) = (line ++ ['\n']) :: splitLines rest := by
  have first : (line ++ '\n' :: rest).takeWhile (· != '\n') = line := by
    rw [List.takeWhile_append_of_pos, List.takeWhile_cons_of_neg, List.append_nil]
    · simp
    · exact fun c member => bne_iff_ne.mpr fun same => free (same ▸ member)
  cases line with
  | nil =>
    rw [List.nil_append] at first ⊢
    rw [splitLines, first]
    rfl
  | cons c line =>
    rw [List.cons_append] at first ⊢
    rw [splitLines, first]
    simp [List.take_length_add_append]

namespace LinesOf

variable {text first line : List Char} {lines later : List (List Char)}

theorem flatten (cut : LinesOf text lines) : lines.flatten = text := by
  induction cut with
  | none => rfl
  | last => exact List.append_nil _
  | ended _ _ ih => rw [List.flatten_cons, ih, List.append_assoc, List.singleton_append]

/-- The first line has a line feed if the text has one. -/
theorem mem_first (cut : LinesOf text (first :: later)) : '\n' ∈ first ↔ '\n' ∈ text := by
  cases cut with
  | last => exact Iff.rfl
  | ended => simp

theorem mem_of_more (cut : LinesOf text (first :: (lines ++ line :: later))) : '\n' ∈ first := by
  generalize behind : lines ++ line :: later = more at cut
  cases cut with
  | last => simp at behind
  | ended => simp

/-- A text has lines in one way only. -/
theorem unique (cut : LinesOf text lines) : splitLines text = lines := by
  induction cut with
  | none => exact splitLines_nil
  | last filled free => exact splitLines_unbroken filled free
  | ended free _ ih => rw [splitLines_ended free, ih]

end LinesOf

theorem linesOf_splitLines (text : List Char) : LinesOf text (splitLines text) := by
  induction shorter : text.length using Nat.strongRecOn generalizing text with
  | ind n ih =>
    subst shorter
    by_cases broken : '\n' ∈ text
    · obtain ⟨line, rest, rfl, free⟩ := List.eq_append_cons_of_mem broken
      rw [splitLines_ended free]
      exact .ended free (ih _ (by simp; omega) rest rfl)
    · cases text with
      | nil => exact splitLines_nil ▸ .none
      | cons c rest =>
        rw [splitLines_unbroken (List.cons_ne_nil c rest) broken]
        exact .last (List.cons_ne_nil c rest) broken

/-! Parts -/

theorem Divided.exists (text : List Char) : ∃ parts, Divided text parts := by
  by_cases broken : '\n' ∈ text
  · cases lines : splitLines text with
    | nil =>
      have empty := (linesOf_splitLines text).flatten
      rw [lines] at empty
      exact ⟨_, .unbroken (empty ▸ List.not_mem_nil)⟩
    | cons first later =>
      have cut := lines ▸ linesOf_splitLines text
      by_cases opens : Delimits first
      · cases found : later.find? isDelimiter with
        | none =>
          refine ⟨_, .unterminated broken cut opens fun line member delimits => ?_⟩
          exact List.find?_eq_none.mp found line member (isDelimiter_iff.mpr delimits)
        | some closing =>
          obtain ⟨closes, inner, behind, rfl, before⟩ := List.find?_eq_some_iff_append.mp found
          refine ⟨_, .matter cut opens (fun line member delimits => ?_) (isDelimiter_iff.mp closes)⟩
          have other := before line member
          rw [isDelimiter_iff.mpr delimits] at other
          cases other
      · exact ⟨_, .plain cut opens⟩
  · exact ⟨_, .unbroken broken⟩

variable {document first : List Char} {later : List (List Char)} {parts : Parts}

theorem split_of_opens (cut : LinesOf (withoutMark document) (first :: later))
    (broken : '\n' ∈ first) (opens : Delimits first) : split document =
      match later.dropWhile (!isDelimiter ·) with
      | [] => .unterminated
      | _ :: body => .matter (later.takeWhile (!isDelimiter ·)).flatten body.flatten := by
  have here : (first.contains '\n' && isDelimiter first) = true := by
    rw [isDelimiter_iff.mpr opens, Bool.and_true]
    exact List.contains_iff_mem.mpr broken
  simp only [split, cut.unique]
  exact if_pos here

theorem split_of_closed (cut : LinesOf (withoutMark document) (first :: later))
    (closed : (first.contains '\n' && isDelimiter first) = false) : split document = .body := by
  simp only [split, cut.unique, closed, Bool.false_eq_true, if_false]

theorem Divided.split (divided : Divided (withoutMark document) parts) :
    FrontMatter.split document = parts := by
  cases divided with
  | unbroken free =>
    cases lines : splitLines (withoutMark document) with
    | nil => simp only [FrontMatter.split, lines]
    | cons first later =>
      have cut := lines ▸ linesOf_splitLines (withoutMark document)
      refine split_of_closed cut ?_
      have free : first.contains '\n' = false := by
        simpa [cut.mem_first] using free
      rw [free, Bool.false_and]
  | plain cut other =>
    exact split_of_closed cut (by rw [isDelimiter_eq_false other, Bool.and_false])
  | @unterminated first later broken cut opens never =>
    have none : later.dropWhile (!isDelimiter ·) = [] :=
      List.dropWhile_eq_nil_iff.mpr fun line member => by
        rw [isDelimiter_eq_false (never line member), Bool.not_false]
    rw [split_of_opens cut (cut.mem_first.mpr broken) opens, none]
  | @matter first closing inner behind cut opens before closes =>
    have pass : ∀ line ∈ inner, (!isDelimiter line) = true := fun line member => by
      rw [isDelimiter_eq_false (before line member), Bool.not_false]
    have stop : ¬ (!isDelimiter closing) = true := by
      rw [isDelimiter_iff.mpr closes]
      exact Bool.false_ne_true
    have left : (inner ++ closing :: behind).dropWhile (!isDelimiter ·) = closing :: behind :=
      (List.dropWhile_append_of_pos pass).trans (List.dropWhile_cons_of_neg stop)
    have taken : (inner ++ closing :: behind).takeWhile (!isDelimiter ·) = inner := by
      rw [List.takeWhile_append_of_pos pass]
      exact (congrArg (inner ++ ·) (List.takeWhile_cons_of_neg stop)).trans (List.append_nil _)
    rw [split_of_opens cut cut.mem_of_more opens, left, taken]

theorem split_iff : split document = parts ↔ Divided (withoutMark document) parts := by
  refine ⟨?_, Divided.split⟩
  rintro rfl
  obtain ⟨parts, divided⟩ := Divided.exists (withoutMark document)
  rwa [divided.split]

/-- A document falls into parts at the lines that are delimiters, and in no other way. Without front
matter all of it is the body, a byte order mark in front included. With front matter the first line,
the YAML, the line that closes it and the body make up what stands behind the mark. -/
theorem document_divided (document : String) :
    let text := withoutMark document.toList
    (∀ parts, split document.toList = parts ↔ Divided text parts) ∧
    (Divided text .body → parse document = .ok ({}, document)) ∧
    (Divided text .unterminated → parse document = .error .unterminated) ∧
    ∀ yaml body, Divided text (.matter yaml body) →
      (∃ first closing, Delimits first ∧ Delimits closing ∧
        text = first ++ yaml ++ closing ++ body) ∧
      parse document =
        (ofYaml? yaml).elim (.error .yaml) fun matter => .ok (matter, String.ofList body) := by
  refine ⟨fun _ => split_iff, fun divided => ?_, fun divided => ?_, fun yaml body divided => ⟨?_, ?_⟩⟩
  · rw [parse, divided.split]
  · rw [parse, divided.split]
  · generalize same : Parts.matter yaml body = parts at divided
    cases divided with
    | matter cut opens before closes =>
      cases same
      refine ⟨_, _, opens, closes, ?_⟩
      rw [← cut.flatten]
      simp
    | _ => cases same
  · rw [parse, divided.split]
    dsimp only
    cases ofYaml? yaml <;> rfl

/-- Front matter behind a byte order mark, with blanks behind the hyphens, line feeds after carriage
returns, and hyphens in the YAML and in the body. -/
def striped : String := "\uFEFF---\r\ntitle: a ---\r\n--- \r\n---\r\nb\n---"

theorem striped_divided :
    let parts := Parts.matter "title: a ---\r\n".toList "---\r\nb\n---".toList
    Divided (withoutMark striped.toList) parts ∧
    (parse striped).toOption = some ({ title := some "a ---" }, "---\r\nb\n---") := by
  have divided := ((document_divided striped).1 _).mp (by decide +kernel : split striped.toList =
    .matter "title: a ---\r\n".toList "---\r\nb\n---".toList)
  refine ⟨divided, ?_⟩
  rw [((document_divided striped).2.2.2 _ _ divided).2]
  decide +kernel

end DocSite.Site.FrontMatter
