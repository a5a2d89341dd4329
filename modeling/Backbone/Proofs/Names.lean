import Mathlib.Data.List.Induction
import Backbone.Names

/-!
# What is left of a sequence of namings

A table of names is built by naming variables one after the other.  One naming can take two older
pairs away, the one of its variable and the one of its name, and each of them may have replaced
others before.  What is left in the end is nevertheless said by a single look at the sequence: a
pair is in the table if and only if the last naming that concerns it, by its variable or by its
name, is the pair itself.

* `lastConcerning` — the last naming of a variable or with a name;
* `mem_insert_iff_concerns` — what one naming does to a pair;
* `mem_ofList_iff` — what is left after all of them;
* `ofList_lastConcerning` — the two look-ups and the list of entries, after any namings.
-/

namespace Backbone.Names

variable {names : Names} {namings : List (Nat × String)} {naming pair : Nat × String}

/-- The naming is of the variable of the pair, or with its name. -/
def concerns (pair naming : Nat × String) : Bool := naming.1 == pair.1 || naming.2 == pair.2

/-- The last of the namings that are of the variable of the pair or with its name. -/
def lastConcerning (namings : List (Nat × String)) (pair : Nat × String) : Option (Nat × String) :=
  (namings.filter (concerns pair)).getLast?

theorem lastConcerning_concat (namings : List (Nat × String)) (naming pair : Nat × String) :
    lastConcerning (namings ++ [naming]) pair =
      if concerns pair naming then some naming else lastConcerning namings pair := by
  rw [lastConcerning, List.filter_append]
  split
  · rename_i touched
    rw [List.filter_cons_of_pos touched, List.filter_nil, List.getLast?_concat]
  · rename_i apart
    rw [List.filter_cons_of_neg apart, List.filter_nil, List.append_nil, lastConcerning]

theorem mem_of_lastConcerning (last : lastConcerning namings pair = some naming) :
    naming ∈ namings :=
  (List.mem_filter.1 (List.mem_of_getLast? last)).1

/-! ### One naming -/

theorem mem_insert_iff_concerns :
    pair ∈ (names.insert naming.1 naming.2).entries ↔
      if concerns pair naming then naming = pair else pair ∈ names.entries := by
  rw [mem_insert]
  by_cases touched : concerns pair naming = true
  · rw [if_pos touched]
    simp only [concerns, Bool.or_eq_true, beq_iff_eq] at touched
    constructor
    · rintro (same | ⟨-, otherIndex, otherName⟩)
      · exact same.symm
      · rcases touched with index | name
        · exact absurd index.symm otherIndex
        · exact absurd name.symm otherName
    · exact fun same => .inl same.symm
  · rw [if_neg touched]
    simp only [concerns, Bool.or_eq_true, beq_iff_eq, not_or] at touched
    constructor
    · rintro (same | ⟨old, -, -⟩)
      · exact absurd (congrArg Prod.fst same).symm touched.1
      · exact old
    · exact fun old => .inr ⟨old, Ne.symm touched.1, Ne.symm touched.2⟩

/-! ### All namings -/

theorem ofList_concat (namings : List (Nat × String)) (naming : Nat × String) :
    ofList (namings ++ [naming]) = (ofList namings).insert naming.1 naming.2 := by
  rw [ofList, List.foldl_append]
  rfl

/-- A pair is left if and only if no later naming concerns it. -/
theorem mem_ofList_iff :
    pair ∈ (ofList namings).entries ↔ lastConcerning namings pair = some pair := by
  -- the namings are taken from the end, where they are added to the table
  induction namings using List.reverseRecOn with
  | nil => simp [ofList, empty, lastConcerning]
  | append_singleton namings naming ih =>
    rw [ofList_concat, mem_insert_iff_concerns, lastConcerning_concat]
    split
    · exact Option.some_inj.symm
    · exact ih

theorem mem_of_mem_ofList (member : pair ∈ (ofList namings).entries) : pair ∈ namings :=
  mem_of_lastConcerning (mem_ofList_iff.1 member)

/-- After any namings, the two look-ups say the same; they find a pair if and only if the last
naming that concerns it is the pair; and the entries are just these pairs, each variable once and
in ascending order. -/
theorem ofList_lastConcerning (namings : List (Nat × String)) :
    (∀ index name, (ofList namings).name? index = some name ↔
      (ofList namings).index? name = some index) ∧
    (∀ index name, (ofList namings).name? index = some name ↔
      lastConcerning namings (index, name) = some (index, name)) ∧
    (∀ index name, (index, name) ∈ (ofList namings).entries ↔
      (ofList namings).name? index = some name) ∧
    (ofList namings).entries.Pairwise fun first second => first.1 < second.1 := by
  refine ⟨fun index name => ?_, fun index name => ?_, fun index name => ?_, ?_⟩
  · rw [name?_eq_some_iff, index?_eq_some_iff]
  · rw [name?_eq_some_iff, mem_ofList_iff]
  · exact name?_eq_some_iff.symm
  · exact (ofList namings).ascending

/-- A chain of swaps, in which one naming takes away two pairs: `2 ↦ c` those of `2` and of `c`. -/
example : (ofList [(1, "a"), (2, "b"), (3, "c"), (2, "c"), (1, "b")]).entries =
    [(1, "b"), (2, "c")] := by decide

end Backbone.Names
