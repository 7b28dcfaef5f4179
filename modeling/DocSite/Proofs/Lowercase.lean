import DocSite.Text.Lowercase

/-! Lowercase paths. Letters give way to letters, so the slashes and dots of a path stay where they
are, and the names between slashes become lowercase each by itself. -/
namespace DocSite.Text

/-- The characters in front of the letters. Those that give a path its shape are among them. -/
def isMark (c : Char) : Bool := 0 < c.toNat && c.toNat < 0x41

/-- Some text that takes the place of one character. It has a mark just when that is the mark. -/
structure Image (c : Char) (image : List Char) : Prop where
  filled : image ≠ []
  marks : ∀ x, isMark x = true → (x ∈ image ↔ x = c)

theorem Image.refl (c : Char) : Image c [c] where
  filled := List.cons_ne_nil c []
  marks _ _ := List.mem_singleton

theorem Image.unmarked {c : Char} {image : List Char} (filled : image ≠ [])
    (letter : isMark c = false) (letters : ∀ d ∈ image, isMark d = false) : Image c image := by
  refine ⟨filled, fun x mark => iff_of_false (fun member => ?_) ?_⟩
  · rw [letters x member] at mark
    cases mark
  · rintro rfl
    rw [letter] at mark
    cases mark

theorem toLower_image {c : Char} (ascii : c.toNat < 0x80) : Image c [c.toLower] := by
  have all : ∀ n < 0x80, (Char.ofNat n).toLower = Char.ofNat n ∨
      isMark (Char.ofNat n) = false ∧ isMark (Char.ofNat n).toLower = false := by decide
  have one := all c.toNat ascii
  rw [Char.ofNat_toNat] at one
  rcases one with same | ⟨letter, lower⟩
  · rw [same]
    exact .refl c
  · exact .unmarked (List.cons_ne_nil _ _) letter (by simpa using lower)

theorem isMark_large {c : Char} (large : 0x40 < c.toNat) : isMark c = false := by
  simp only [isMark, Bool.and_eq_false_iff, decide_eq_false_iff_not]
  omega

theorem isMark_ofNat {n : Nat} (above : 0x40 < n) : isMark (Char.ofNat n) = false := by
  by_cases valid : n.isValidChar
  · refine isMark_large ?_
    rw [Char.ofNat, dif_pos valid]
    exact above
  · rw [Char.ofNat, dif_neg valid]
    rfl

/-- No character of the table has a mark for its lowercase form. -/
theorem lowercase_above_marks : ∀ r ∈ CaseData.lowercase, 0x40 < (r.first : Int) + r.offset := by
  decide +kernel

theorem lowerChar_image (c : Char) : Image c (lowerChar c) := by
  unfold lowerChar
  split
  · rename_i ascii
    exact toLower_image ascii
  · rename_i large
    have letter : isMark c = false := isMark_large (by omega)
    split
    · exact .unmarked (List.cons_ne_nil _ _) letter (by decide)
    · split
      · rename_i r found
        have inside := List.find?_some found
        have above := lowercase_above_marks r (List.mem_of_find?_eq_some found)
        simp only [Bool.and_eq_true, decide_eq_true_eq] at inside
        refine .unmarked (List.cons_ne_nil _ _) letter fun d member => ?_
        rw [List.mem_singleton.mp member]
        exact isMark_ofNat (by omega)
      · exact .refl c

theorem lowerFrom_cons (before : List Char) (c : Char) (rest : List Char) :
    ∃ image, Image c image ∧
      lowerFrom before (c :: rest) = image ++ lowerFrom (c :: before) rest := by
  rw [lowerFrom]
  split
  · rename_i sigma
    refine ⟨[_], .unmarked (List.cons_ne_nil _ _) (by rw [sigma]; decide) fun d member => ?_, rfl⟩
    rw [List.mem_singleton.mp member]
    split <;> decide
  · exact ⟨_, lowerChar_image c, rfl⟩

theorem lowerFrom_mark {x : Char} (mark : isMark x = true) (before rest : List Char) :
    lowerFrom before (x :: rest) = x :: lowerFrom (x :: before) rest := by
  have all : ∀ n < 0x41, Char.ofNat n ≠ capitalSigma ∧
      lowerChar (Char.ofNat n) = [Char.ofNat n] := by decide
  simp only [isMark, Bool.and_eq_true, decide_eq_true_eq] at mark
  have one := all x.toNat mark.2
  rw [Char.ofNat_toNat] at one
  rw [lowerFrom, if_neg one.1, one.2, List.singleton_append]

theorem lowerFrom_append (before a b : List Char) :
    ∃ image, lowerFrom before (a ++ b) = image ++ lowerFrom (a.reverse ++ before) b := by
  induction a generalizing before with
  | nil => exact ⟨[], rfl⟩
  | cons c rest ih =>
    obtain ⟨first, -, head⟩ := lowerFrom_cons before c (rest ++ b)
    obtain ⟨behind, tail⟩ := ih (c :: before)
    refine ⟨first ++ behind, ?_⟩
    rw [List.cons_append, head, tail, List.append_assoc, List.reverse_cons, List.append_assoc,
      List.singleton_append]

/-- Lowercase text has the marks that the text has. -/
theorem mark_mem_lower {x : Char} (mark : isMark x = true) (cs : List Char) :
    x ∈ lower cs ↔ x ∈ cs := by
  unfold lower
  generalize ([] : List Char) = before
  induction cs generalizing before with
  | nil => rfl
  | cons c rest ih =>
    obtain ⟨image, is, same⟩ := lowerFrom_cons before c rest
    rw [same, List.mem_append, is.marks x mark, ih, List.mem_cons]

/-- What text in lowercase is but dots is just these dots. -/
theorem lower_eq_dots {cs : List Char} {n : Nat} :
    lower cs = List.replicate n '.' ↔ cs = List.replicate n '.' := by
  unfold lower
  generalize ([] : List Char) = before
  induction cs generalizing before n with
  | nil => rfl
  | cons c rest ih =>
    by_cases dot : c = '.'
    · rw [dot, lowerFrom_mark (by decide)]
      cases n with
      | zero => exact iff_of_false (List.cons_ne_nil _ _) (List.cons_ne_nil _ _)
      | succ n => simp only [List.replicate_succ, List.cons.injEq, true_and, ih]
    · obtain ⟨image, is, same⟩ := lowerFrom_cons before c rest
      obtain ⟨d, more, rfl⟩ := List.exists_cons_of_ne_nil is.filled
      have dots {x : Char} {l : List Char} (all : x :: l = List.replicate n '.') : x = '.' :=
        List.eq_of_mem_replicate (all ▸ List.mem_cons_self ..)
      refine iff_of_false (fun all => dot ?_) fun all => dot (dots all)
      have first : d = '.' := dots (same.symm.trans all)
      exact ((is.marks '.' (by decide)).mp (by simp [first])).symm

/-! Text without sigmas -/

theorem lowerFrom_of_free {before cs : List Char} (free : capitalSigma ∉ cs) :
    lowerFrom before cs = cs.flatMap lowerChar := by
  induction cs generalizing before with
  | nil => rfl
  | cons c rest ih =>
    obtain ⟨other, free⟩ := List.ne_and_not_mem_of_not_mem_cons free
    rw [lowerFrom, if_neg other.symm, ih free, List.flatMap_cons]

/-- A capital sigma comes to one of the small ones. -/
theorem sigma_of_lower {cs : List Char} (member : capitalSigma ∈ cs) :
    smallSigma ∈ lower cs ∨ finalSigma ∈ lower cs := by
  obtain ⟨front, behind, rfl⟩ := List.append_of_mem member
  obtain ⟨image, same⟩ := lowerFrom_append [] front (capitalSigma :: behind)
  rw [lower, same, lowerFrom, if_pos rfl]
  split <;> simp

/-- Text in lowercase without sigmas comes character by character, so nothing behind it matters. -/
theorem lower_append_eq_iff {cs word ending : List Char}
    (free : smallSigma ∉ word ++ ending ∧ finalSigma ∉ word ++ ending)
    (small : ending.flatMap lowerChar = ending) (apart : capitalSigma ∉ ending) :
    lower (cs ++ ending) = word ++ ending ↔ lower cs = word := by
  have plain {text image : List Char} (same : lower text = image)
      (free : smallSigma ∉ image ∧ finalSigma ∉ image) : capitalSigma ∉ text := by
    intro member
    rcases sigma_of_lower member with small | final
    · exact free.1 (same ▸ small)
    · exact free.2 (same ▸ final)
  have whole (none : capitalSigma ∉ cs) : lower (cs ++ ending) = lower cs ++ ending := by
    have both : capitalSigma ∉ cs ++ ending := by simp [none, apart]
    rw [lower, lower, lowerFrom_of_free both, lowerFrom_of_free none, List.flatMap_append, small]
  constructor
  · intro same
    have none : capitalSigma ∉ cs := fun member => plain same free (List.mem_append_left _ member)
    rw [whole none] at same
    exact List.append_cancel_right same
  · intro same
    have within : smallSigma ∉ word ∧ finalSigma ∉ word :=
      ⟨fun member => free.1 (List.mem_append_left _ member),
        fun member => free.2 (List.mem_append_left _ member)⟩
    rw [whole (plain same within), same]

/-! Names between slashes -/

theorem leadsToCased_slash (front behind : List Char) :
    leadsToCased (front ++ '/' :: behind) = leadsToCased front := by
  have slash : isCaseIgnorable '/' = false ∧ isCased '/' = false := by decide +kernel
  unfold leadsToCased
  induction front with
  | nil => simp [slash]
  | cons c front ih =>
    rw [List.cons_append, List.dropWhile_cons, List.dropWhile_cons]
    split
    · exact ih
    · rfl

/-- What stands before a slash does not matter for what follows it. -/
theorem lowerFrom_behind (front behind cs : List Char) :
    lowerFrom (front ++ '/' :: behind) cs = lowerFrom front cs := by
  induction cs generalizing front with
  | nil => rfl
  | cons c rest ih =>
    have rest := ih (c :: front)
    rw [List.cons_append] at rest
    rw [lowerFrom, lowerFrom, leadsToCased_slash, rest]

theorem lowerFrom_slash (before a b : List Char) :
    lowerFrom before (a ++ '/' :: b) = lowerFrom before a ++ '/' :: lower b := by
  induction a generalizing before with
  | nil =>
    rw [List.nil_append, lowerFrom_mark (by decide)]
    exact congrArg (List.cons '/') (lowerFrom_behind [] before b)
  | cons c rest ih =>
    rw [List.cons_append, lowerFrom, lowerFrom, leadsToCased_slash, ih]
    split <;> simp

theorem lower_slash (a b : List Char) : lower (a ++ '/' :: b) = lower a ++ '/' :: lower b :=
  lowerFrom_slash [] a b

/-- The names of a path become lowercase each by itself. -/
theorem lower_intercalate (names : List (List Char)) :
    lower (['/'].intercalate names) = ['/'].intercalate (names.map lower) := by
  induction names with
  | nil => rfl
  | cons name rest ih =>
    cases rest with
    | nil => simp
    | cons next rest =>
      rw [List.map_cons, List.map_cons, List.intercalate_cons_cons, List.intercalate_cons_cons,
        List.append_assoc, List.append_assoc, List.singleton_append, List.singleton_append,
        lower_slash, ih, List.map_cons]

end DocSite.Text
