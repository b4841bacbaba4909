import Mathlib.Data.List.DropRight
import Retrace.Text.Blank

/-!
# Words with blanks between them

A text of words is any text in which blanks stand between the words (`Spaced`). Its words are the ones it was made of,
whatever the blanks are, and blanks at the two ends of a text are trimmed away.
-/

namespace Retrace.Text

variable {separator : Char → Bool} {text lead trail word : List Char} {words : List (List Char)}

def Blank (text : List Char) : Prop := ∀ character ∈ text, isBlank character = true

def Solid (word : List Char) : Prop := word ≠ [] ∧ ∀ character ∈ word, isBlank character = false

instance (text : List Char) : Decidable (Blank text) :=
  decidable_of_iff (text.all isBlank = true) List.all_eq_true

instance (word : List Char) : Decidable (Solid word) :=
  decidable_of_iff (word ≠ [] ∧ word.all (fun character => !isBlank character) = true) (by simp [Solid])

inductive Spaced : List (List Char) → List Char → Prop
  | last (word : List Char) : Spaced [word] word
  | cons {words : List (List Char)} {text gap : List Char} (word : List Char) (hsome : gap ≠ []) (hgap : Blank gap)
      (hrest : Spaced words text) : Spaced (word :: words) (word ++ gap ++ text)

/-! ### The pieces of a text -/

/-- A separator ends a piece: what stands before it and what stands after it have nothing to do with each other. -/
theorem wordsBy_append_cons {character : Char} (hseparator : separator character = true) (before after : List Char) :
    wordsBy separator (before ++ character :: after) = wordsBy separator before ++ wordsBy separator after := by
  rw [wordsBy, List.splitOnP_append_cons before after hseparator, List.filter_append]
  rfl

theorem wordsBy_eq_singleton (hsome : word ≠ []) (hwhole : ∀ character ∈ word, separator character = false) :
    wordsBy separator word = [word] := by
  rw [wordsBy, List.splitOnP_eq_singleton hwhole]
  simp [hsome]

private theorem separator_of_mem_splitOnP : ∀ piece ∈ text.splitOnP separator, ∀ character ∈ piece,
    separator character = false := by
  induction text with
  | nil => simp
  | cons first rest ih =>
    obtain ⟨head, tail, hsplit⟩ := List.exists_cons_of_ne_nil (List.splitOnP_ne_nil separator rest)
    rw [hsplit, List.forall_mem_cons] at ih
    rw [List.splitOnP_cons_eq_if_modifyHead, hsplit]
    split_ifs with hfirst
    · exact List.forall_mem_cons.mpr ⟨List.forall_mem_nil _, List.forall_mem_cons.mpr ih⟩
    · rw [List.modifyHead_cons, List.forall_mem_cons, List.forall_mem_cons]
      exact ⟨⟨Bool.eq_false_iff.mpr hfirst, ih.1⟩, ih.2⟩

theorem separator_of_mem_wordsBy (hmem : word ∈ wordsBy separator text) :
    ∀ character ∈ word, separator character = false :=
  separator_of_mem_splitOnP word (mem_wordsBy.mp hmem).1

/-! ### The words of a text -/

theorem words_append_cons {blank : Char} (hblank : isBlank blank = true) (before after : List Char) :
    Text.words (before ++ blank :: after) = Text.words before ++ Text.words after :=
  wordsBy_append_cons hblank before after

private theorem words_of_solid (hword : Solid word) : Text.words word = [word] := wordsBy_eq_singleton hword.1 hword.2

theorem words_blank_append (hlead : Blank lead) (text : List Char) : Text.words (lead ++ text) = Text.words text := by
  induction lead with
  | nil => rfl
  | cons first rest ih =>
    obtain ⟨hfirst, hrest⟩ := List.forall_mem_cons.mp hlead
    exact (words_append_cons hfirst [] (rest ++ text)).trans (ih hrest)

theorem words_append_gap {gap : List Char} (hsome : gap ≠ []) (hgap : Blank gap) (before after : List Char) :
    Text.words (before ++ gap ++ after) = Text.words before ++ Text.words after := by
  obtain ⟨first, rest, rfl⟩ := List.exists_cons_of_ne_nil hsome
  obtain ⟨hfirst, hrest⟩ := List.forall_mem_cons.mp hgap
  rw [List.append_assoc, List.cons_append, words_append_cons hfirst, words_blank_append hrest]

namespace Spaced

theorem words_eq (h : Spaced words text) (hsolid : ∀ word ∈ words, Solid word) : Text.words text = words := by
  induction h with
  | last word => exact words_of_solid (hsolid word List.mem_cons_self)
  | cons word hsome hgap _ ih =>
    obtain ⟨hword, hrest⟩ := List.forall_mem_cons.mp hsolid
    rw [words_append_gap hsome hgap, words_of_solid hword, ih hrest]
    rfl

theorem words_ne_nil (h : Spaced words text) : words ≠ [] := by
  cases h <;> exact List.cons_ne_nil _ _

theorem forall_mem {fits : Char → Prop} (h : Spaced words text)
    (hblank : ∀ blank, isBlank blank = true → fits blank)
    (hwords : ∀ word ∈ words, ∀ character ∈ word, fits character) : ∀ character ∈ text, fits character := by
  induction h with
  | last word => exact hwords word List.mem_cons_self
  | cons word _ hgap _ ih =>
    obtain ⟨hword, hrest⟩ := List.forall_mem_cons.mp hwords
    intro character hmem
    rcases List.mem_append.mp hmem with hmem | hmem
    · rcases List.mem_append.mp hmem with hmem | hmem
      · exact hword character hmem
      · exact hblank character (hgap character hmem)
    · exact ih hrest character hmem

theorem mem_of_mem {character : Char} (h : Spaced words text) (hword : word ∈ words) (hmem : character ∈ word) :
    character ∈ text := by
  induction h with
  | last only => rwa [← List.mem_singleton.mp hword]
  | cons first _ _ _ ih =>
    rcases List.mem_cons.mp hword with rfl | hlater
    · exact List.mem_append_left _ (List.mem_append_left _ hmem)
    · exact List.mem_append_right _ (ih hlater)

theorem head?_eq (h : Spaced words text) (hsolid : ∀ word ∈ words, Solid word) :
    ∃ first ∈ words, text.head? = first.head? := by
  cases h with
  | last => exact ⟨text, List.mem_cons_self, rfl⟩
  | cons word hsome hgap hrest =>
    refine ⟨word, List.mem_cons_self, ?_⟩
    rw [List.append_assoc, List.head?_append_of_ne_nil _ (hsolid word List.mem_cons_self).1]

theorem getLast?_eq (h : Spaced words text) (hsolid : ∀ word ∈ words, Solid word) :
    ∃ last ∈ words.getLast?, text.getLast? = last.getLast? := by
  induction h with
  | last word => exact ⟨word, rfl, rfl⟩
  | cons word hsome hgap hrest ih =>
    obtain ⟨last, hlast, heq⟩ := ih (List.forall_mem_cons.mp hsolid).2
    refine ⟨last, ?_, ?_⟩
    · rwa [List.getLast?_cons_of_ne_nil hrest.words_ne_nil]
    · have hnonempty : last ≠ [] := (hsolid last (List.mem_cons_of_mem _ (List.mem_of_getLast? hlast))).1
      rw [List.getLast?_append, heq, List.getLast?_eq_some_getLast hnonempty]
      rfl

theorem ne_nil (h : Spaced words text) (hsolid : ∀ word ∈ words, Solid word) : text ≠ [] := by
  rintro rfl
  exact h.words_ne_nil (h.words_eq hsolid).symm

theorem isBlank_head (h : Spaced words text) (hsolid : ∀ word ∈ words, Solid word) :
    ∀ character ∈ text.head?, isBlank character = false := by
  obtain ⟨first, hfirst, heq⟩ := h.head?_eq hsolid
  rw [heq]
  exact fun character hmem => (hsolid first hfirst).2 character (List.mem_of_mem_head? hmem)

theorem isBlank_last (h : Spaced words text) (hsolid : ∀ word ∈ words, Solid word) :
    ∀ character ∈ text.getLast?, isBlank character = false := by
  obtain ⟨last, hlast, heq⟩ := h.getLast?_eq hsolid
  rw [heq]
  exact fun character hmem => (hsolid last (List.mem_of_getLast? hlast)).2 character (List.mem_of_getLast? hmem)

theorem intercalate {blank : Char} (hblank : isBlank blank = true) (hsome : words ≠ []) :
    Spaced words ([blank].intercalate words) := by
  induction words with
  | nil => exact absurd rfl hsome
  | cons word rest ih =>
    by_cases hrest : rest = []
    · rw [hrest, List.intercalate_singleton]
      exact .last word
    · rw [List.intercalate_cons_of_ne_nil hrest]
      exact .cons word (List.cons_ne_nil _ _) (List.forall_mem_singleton.mpr hblank) (ih hrest)

end Spaced

/-! ### How a text falls apart -/

/-- A text starts with a run of characters of a kind, and what comes after it starts with another. -/
theorem exists_run (fits : Char → Bool) (text : List Char) : ∃ run rest, text = run ++ rest ∧
    (∀ character ∈ run, fits character = true) ∧ ∀ next ∈ rest.head?, fits next = false := by
  refine ⟨text.takeWhile fits, text.dropWhile fits, List.takeWhile_append_dropWhile.symm, ?_, ?_⟩
  · exact fun _ => List.mem_takeWhile_imp
  · intro next hnext
    have hstop := List.head?_dropWhile_not fits text
    rw [hnext] at hstop
    simpa using hstop

/-- The run is not empty if the text starts with a character of that kind. -/
theorem run_ne_nil {fits : Char → Bool} {run rest : List Char} (hsome : run ++ rest ≠ [])
    (hhead : ∀ first ∈ (run ++ rest).head?, fits first = true) (hrest : ∀ next ∈ rest.head?, fits next = false) :
    run ≠ [] := by
  rintro rfl
  obtain ⟨first, others, rfl⟩ := List.exists_cons_of_ne_nil hsome
  exact absurd (hhead first rfl) (by rw [hrest first rfl]; decide)

theorem exists_spaced (hsome : text ≠ []) (hhead : ∀ first ∈ text.head?, isBlank first = false)
    (hlast : ∀ last ∈ text.getLast?, isBlank last = false) :
    ∃ words, Spaced words text ∧ ∀ word ∈ words, Solid word := by
  -- by induction on the length: the first word, the gap after it, and a shorter text
  induction hlength : text.length using Nat.strong_induction_on generalizing text with
  | _ length ih =>
    obtain ⟨word, others, rfl, hword, hothers⟩ := exists_run (fun character => !isBlank character) text
    have hstart : word ≠ [] := run_ne_nil hsome (by simpa using hhead) hothers
    have hsolid : Solid word := ⟨hstart, by simpa using hword⟩
    by_cases hend : others = []
    · rw [hend, List.append_nil]
      exact ⟨[word], .last word, List.forall_mem_singleton.mpr hsolid⟩
    · obtain ⟨gap, rest, rfl, hgap, hrest⟩ := exists_run isBlank others
      have hsep : gap ≠ [] := run_ne_nil hend (by simpa using hothers) hrest
      have hmore : rest ≠ [] := by
        rintro rfl
        rw [List.append_nil, List.getLast?_append_of_ne_nil _ hsep] at hlast
        have hblank := hgap (gap.getLast hsep) (List.getLast_mem hsep)
        rw [hlast _ (List.getLast?_eq_some_getLast hsep)] at hblank
        cases hblank
      rw [← List.append_assoc] at hlength hlast ⊢
      rw [List.getLast?_append_of_ne_nil _ hmore] at hlast
      have hless : rest.length < length := by
        have hpositive := List.length_pos_of_ne_nil hstart
        rw [← hlength, List.length_append, List.length_append]
        omega
      obtain ⟨words, hspaced, hwords⟩ := ih rest.length hless hmore hrest hlast rfl
      exact ⟨word :: words, .cons word hsep hgap hspaced, List.forall_mem_cons.mpr ⟨hsolid, hwords⟩⟩

/-! ### The ends of a text -/

theorem trimEnd_append_blank (htrail : Blank trail) (text : List Char) : trimEnd (text ++ trail) = trimEnd text := by
  rw [trimEnd, List.reverse_append, List.dropWhile_append_of_pos fun _ hmem => htrail _ (List.mem_reverse.mp hmem)]
  rfl

theorem trim_blank_append (hlead : Blank lead) (text : List Char) : trim (lead ++ text) = trim text := by
  rw [trim, trim, trimStart, List.dropWhile_append_of_pos hlead]
  rfl

theorem trim_append_blank (htrail : Blank trail) (text : List Char) : trim (text ++ trail) = trim text := by
  rw [trim, trim, trimStart, trimStart, List.dropWhile_append]
  split_ifs with hempty
  · rw [List.isEmpty_iff.mp hempty, List.dropWhile_eq_nil_iff.mpr htrail]
  · exact trimEnd_append_blank htrail _

theorem trim_of_blank (hblank : Blank text) : trim text = [] := trim_append_blank hblank []

theorem trimStart_of_head? (hhead : ∀ first ∈ text.head?, isBlank first = false) : trimStart text = text := by
  cases text with
  | nil => rfl
  | cons first rest => exact List.dropWhile_cons_of_neg (by simp [hhead first rfl])

theorem trimEnd_of_getLast? (hlast : ∀ last ∈ text.getLast?, isBlank last = false) : trimEnd text = text := by
  rw [← List.head?_reverse] at hlast
  exact (congrArg List.reverse (trimStart_of_head? hlast)).trans text.reverse_reverse

theorem trim_of_ends (hhead : ∀ first ∈ text.head?, isBlank first = false)
    (hlast : ∀ last ∈ text.getLast?, isBlank last = false) : trim text = text := by
  rw [trim, trimStart_of_head? hhead, trimEnd_of_getLast? hlast]

theorem exists_trimEnd (text : List Char) : ∃ trail, Blank trail ∧ text = trimEnd text ++ trail ∧
    ∀ last ∈ (trimEnd text).getLast?, isBlank last = false := by
  refine ⟨(text.reverse.takeWhile isBlank).reverse, ?_, ?_, ?_⟩
  · intro character hmem
    exact List.mem_takeWhile_imp (List.mem_reverse.mp hmem)
  · rw [trimEnd, ← List.reverse_append, List.takeWhile_append_dropWhile, List.reverse_reverse]
  · intro last hlast
    rw [trimEnd, List.getLast?_reverse] at hlast
    have hstop := List.head?_dropWhile_not isBlank text.reverse
    rw [hlast] at hstop
    simpa using hstop

/-- What is trimmed away is blank, and what is left has no blanks at its ends. -/
theorem exists_trim (text : List Char) : ∃ lead trail, Blank lead ∧ Blank trail ∧ text = lead ++ trim text ++ trail ∧
    (∀ first ∈ (trim text).head?, isBlank first = false) ∧ ∀ last ∈ (trim text).getLast?, isBlank last = false := by
  obtain ⟨trail, htrail, hsplit, hlast⟩ := exists_trimEnd (trimStart text)
  refine ⟨text.takeWhile isBlank, trail, fun _ => List.mem_takeWhile_imp, htrail, ?_, ?_, hlast⟩
  · rw [trim, List.append_assoc, ← hsplit, trimStart, List.takeWhile_append_dropWhile]
  · intro first hfirst
    have hstart : (trimStart text).head? = some first := by
      rw [hsplit, List.head?_append, show (trimEnd (trimStart text)).head? = some first from hfirst]
      rfl
    have hstop := List.head?_dropWhile_not isBlank text
    rw [← trimStart, hstart] at hstop
    simpa using hstop

end Retrace.Text
