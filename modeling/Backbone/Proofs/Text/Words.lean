import Backbone.Proofs.Text.Lines

/-!
# Words of a text

A text that is written as words with blanks between them is cut into just these words, however many
blanks there are, of whatever kind, and also behind the last word.

* `IsWord` — a text that is one word;
* `Spaced` — words with blanks in front of each;
* `words_append_blank` — a text is cut at any blank;
* `words_append_of_spaced` — what is written as words comes back word by word;
* `spaced_iff` — all texts that are cut into given words, if they start with a blank.
-/

namespace Backbone.Text

variable {text : List Char}

/-- The text is not empty and holds no blank. -/
structure IsWord (word : List Char) : Prop where
  nonempty : word ≠ []
  clear : ∀ c ∈ word, isBlank c = false

/-- The text is the words in their order, with one blank or more in front of each; there may be
blanks after the last one. -/
inductive Spaced : List Char → List (List Char) → Prop
  | blanks {after : List Char} : AllBlank after → Spaced after []
  | word {before word rest : List Char} {others : List (List Char)} : before ≠ [] →
      AllBlank before → IsWord word → Spaced rest others →
      Spaced (before ++ word ++ rest) (word :: others)

/-- To cut a text at a blank is to cut what stands before it and what stands after it. -/
theorem words_append_blank {c : Char} (blank : isBlank c = true) (before after : List Char) :
    words (before ++ c :: after) = words before ++ words after := by
  rw [words, List.splitOnP_append_cons before after blank, List.filter_append]
  rfl

theorem words_append_of_allBlank {before : List Char} (blank : AllBlank before)
    (text : List Char) : words (before ++ text) = words text := by
  induction before with
  | nil => rfl
  | cons c before ih =>
    obtain ⟨first, later⟩ := List.forall_mem_cons.1 blank
    have cut := words_append_blank first [] (before ++ text)
    rw [List.nil_append, ih later] at cut
    exact cut

theorem words_of_isWord {word : List Char} (isWord : IsWord word) : words word = [word] := by
  have nonempty : word.isEmpty = false := by simpa using isWord.nonempty
  rw [words, List.splitOnP_eq_singleton isWord.clear, List.filter_cons, nonempty]
  rfl

theorem words_append_of_spaced {ws : List (List Char)} (spaced : Spaced text ws)
    (front : List Char) : words (front ++ text) = words front ++ ws := by
  induction spaced generalizing front with
  | @blanks after blank =>
    cases after with
    | nil => rw [List.append_nil, List.append_nil]
    | cons c after =>
      obtain ⟨first, later⟩ := List.forall_mem_cons.1 blank
      have none : words after = [] := by
        rw [← List.append_nil after, words_append_of_allBlank later]
        rfl
      rw [words_append_blank first, none]
  | @word before word rest others some_ blank isWord _ ih =>
    obtain ⟨c, before, rfl⟩ := List.exists_cons_of_ne_nil some_
    obtain ⟨first, later⟩ := List.forall_mem_cons.1 blank
    have single : words (before ++ word) = [word] :=
      (words_append_of_allBlank later word).trans (words_of_isWord isWord)
    rw [List.cons_append, List.cons_append, words_append_blank first, ih, single]
    rfl

/-- Blanks and the beginning of a word, which may go on in the text. -/
theorem spaced_words_append (text : List Char) {before word : List Char} (some_ : before ≠ [])
    (blank : AllBlank before) (clear : ∀ c ∈ word, isBlank c = false) :
    Spaced (before ++ word ++ text) (words (word ++ text)) := by
  induction text generalizing before word with
  | nil =>
    rw [List.append_nil, List.append_nil]
    by_cases empty : word = []
    · rw [empty, List.append_nil]
      exact .blanks blank
    · have isWord : IsWord word := ⟨empty, clear⟩
      have alone := Spaced.word some_ blank isWord (.blanks (List.forall_mem_nil _))
      rwa [List.append_nil, ← words_of_isWord isWord] at alone
  | cons c text ih =>
    by_cases first : isBlank c = true
    · by_cases empty : word = []
      · -- the blanks in front of the word go on
        have longer : AllBlank (before ++ [c]) :=
          List.forall_mem_append.2 ⟨blank, List.forall_mem_singleton.2 first⟩
        have rest := @ih (before ++ [c]) [] (by simp) longer (List.forall_mem_nil _)
        rw [List.append_nil, List.append_assoc] at rest
        rw [empty, List.append_nil, words_append_blank first]
        exact rest
      · have isWord : IsWord word := ⟨empty, clear⟩
        have rest := @ih [c] [] (List.cons_ne_nil c []) (List.forall_mem_singleton.2 first)
          (List.forall_mem_nil _)
        rw [words_append_blank first, words_of_isWord isWord]
        exact .word some_ blank isWord rest
    · have longer : ∀ d ∈ word ++ [c], isBlank d = false :=
        List.forall_mem_append.2 ⟨clear, List.forall_mem_singleton.2 (eq_false_of_ne_true first)⟩
      have cut : word ++ c :: text = word ++ [c] ++ text := List.append_cons word c text
      rw [List.append_assoc, cut, ← List.append_assoc]
      exact ih some_ blank longer

/-- A text that starts with a blank, if with anything, is written as its words. -/
theorem spaced_iff {ws : List (List Char)} :
    Spaced text ws ↔ words text = ws ∧ ∀ c ∈ text.head?, isBlank c = true := by
  constructor
  · intro spaced
    refine ⟨words_append_of_spaced spaced [], fun c first => ?_⟩
    cases spaced with
    | blanks blank => exact blank c (List.mem_of_mem_head? first)
    | @word before word rest others some_ blank _ _ =>
      obtain ⟨d, before, rfl⟩ := List.exists_cons_of_ne_nil some_
      cases first
      exact blank c List.mem_cons_self
  · rintro ⟨rfl, starts⟩
    cases text with
    | nil => exact .blanks (List.forall_mem_nil _)
    | cons c text =>
      have first : AllBlank [c] := List.forall_mem_singleton.2 (starts c rfl)
      have cut := words_append_of_allBlank first text
      rw [List.singleton_append] at cut
      rw [cut]
      exact spaced_words_append text (List.cons_ne_nil c []) first (List.forall_mem_nil _)

end Backbone.Text
