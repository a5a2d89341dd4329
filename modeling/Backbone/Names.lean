import Backbone.Literal

/-!
# Names of variables

A table that pairs variables with names, in both directions one to one.  Naming a variable drops
its earlier name and takes the name away from any other variable that had it.

* `Names.insert`, `Names.name?`, `Names.index?` — change and look up;
* `Names.entries` — the pairs, ascending by variable;
* `Names.label`, `Names.literalLabel` — a variable or literal as shown to a reader: by name if it
  has one, else by number;
* `Names.resolve?` — the variable that a word denotes: by name, else by number;
* `mem_insert` — what is in the table after naming a variable;
* `name?_eq_some_iff`, `index?_eq_some_iff` — both look-ups find just the pairs of the table.
-/

namespace Backbone

/-- Pairs of a variable and its name, ascending by variable, no name twice. -/
structure Names where
  /-- The pairs. -/
  entries : List (Nat × String)
  /-- Each variable occurs once, in ascending order. -/
  ascending : entries.Pairwise fun a b => a.1 < b.1
  /-- No two variables share a name. -/
  distinct : entries.Pairwise fun a b => a.2 ≠ b.2
deriving DecidableEq

namespace Names

/-- Two different members of a list are in a symmetric relation that holds pairwise. -/
theorem related_of_pairwise {α : Type} {R : α → α → Prop} (symmetric : ∀ {a b}, R a b → R b a)
    {members : List α} (h : members.Pairwise R) {a b : α} (ha : a ∈ members) (hb : b ∈ members)
    (differ : a ≠ b) : R a b := by
  induction h with
  | nil => simp at ha
  | cons head _ ih =>
    rcases List.mem_cons.1 ha with first | later
    · rcases List.mem_cons.1 hb with second | after
      · exact absurd (first.trans second.symm) differ
      · exact first ▸ head b after
    · rcases List.mem_cons.1 hb with second | after
      · exact second ▸ symmetric (head a later)
      · exact ih later after

/-! ### Building a table -/

/-- The table without names. -/
def empty : Names := ⟨[], .nil, .nil⟩

instance : Inhabited Names := ⟨empty⟩

/-- The pairs that may stand beside `variable ↦ name`. -/
def others (names : Names) (index : Nat) (name : String) : List (Nat × String) :=
  names.entries.filter fun entry => entry.1 != index && entry.2 != name

/-- The table in which `index` has the given name and nothing else of either remains. -/
def insert (names : Names) (index : Nat) (name : String) : Names where
  entries :=
    (names.others index name).filter (fun entry => entry.1 < index) ++
      (index, name) :: (names.others index name).filter fun entry => index < entry.1
  ascending := by
    have sorted := (names.ascending.filter fun entry => entry.1 != index && entry.2 != name)
    refine List.pairwise_append.2 ⟨sorted.filter _, List.pairwise_cons.2 ⟨?_, sorted.filter _⟩, ?_⟩
    · intro entry member
      simpa using (List.mem_filter.1 member).2
    · intro low lowMember high highMember
      have below : low.1 < index := by simpa using (List.mem_filter.1 lowMember).2
      rcases List.mem_cons.1 highMember with rfl | highMember
      · exact below
      · have above : index < high.1 := by simpa using (List.mem_filter.1 highMember).2
        exact Nat.lt_trans below above
  distinct := by
    have apart := names.distinct.filter fun entry => entry.1 != index && entry.2 != name
    have other : ∀ entry ∈ names.others index name, entry.2 ≠ name := by
      intro entry member
      have := (List.mem_filter.1 member).2
      simp only [Bool.and_eq_true, bne_iff_ne] at this
      exact this.2
    refine List.pairwise_append.2 ⟨apart.filter _, List.pairwise_cons.2 ⟨?_, apart.filter _⟩, ?_⟩
    · intro entry member
      exact (other entry (List.mem_filter.1 member).1).symm
    · intro low lowMember high highMember
      rcases List.mem_cons.1 highMember with rfl | highMember
      · exact other low (List.mem_filter.1 lowMember).1
      · have lowOld := (List.mem_filter.1 (List.mem_filter.1 lowMember).1).1
        have highOld := (List.mem_filter.1 (List.mem_filter.1 highMember).1).1
        have below : low.1 < index := by simpa using (List.mem_filter.1 lowMember).2
        have above : index < high.1 := by simpa using (List.mem_filter.1 highMember).2
        intro same
        have differ : low ≠ high := by
          intro equal
          subst equal
          exact absurd (Nat.lt_trans below above) (Nat.lt_irrefl _)
        exact related_of_pairwise Ne.symm names.distinct lowOld highOld differ same

/-- The table of a list of pairs, each inserted in turn. -/
def ofList (pairs : List (Nat × String)) : Names :=
  pairs.foldl (fun names pair => names.insert pair.1 pair.2) empty

theorem mem_insert {names : Names} {index : Nat} {name : String} {entry : Nat × String} :
    entry ∈ (names.insert index name).entries ↔
      entry = (index, name) ∨ (entry ∈ names.entries ∧ entry.1 ≠ index ∧ entry.2 ≠ name) := by
  simp only [insert, others, List.mem_append, List.mem_cons, List.mem_filter, Bool.and_eq_true,
    bne_iff_ne, decide_eq_true_eq]
  constructor
  · rintro (⟨⟨old, apart⟩, _⟩ | same | ⟨⟨old, apart⟩, _⟩)
    · exact .inr ⟨old, apart⟩
    · exact .inl same
    · exact .inr ⟨old, apart⟩
  · rintro (same | ⟨old, notIndex, notName⟩)
    · exact .inr (.inl same)
    · rcases Nat.lt_or_gt_of_ne notIndex with below | above
      · exact .inl ⟨⟨old, notIndex, notName⟩, below⟩
      · exact .inr (.inr ⟨⟨old, notIndex, notName⟩, above⟩)

/-! ### Looking up -/

/-- Whether no variable has a name. -/
def isEmpty (names : Names) : Bool := names.entries.isEmpty

/-- The name of a variable. -/
def name? (names : Names) (index : Nat) : Option String :=
  (names.entries.find? fun entry => entry.1 == index).map Prod.snd

/-- The variable of a name. -/
def index? (names : Names) (name : String) : Option Nat :=
  (names.entries.find? fun entry => entry.2 == name).map Prod.fst

/-- In a list whose members differ in their keys, the key of a member finds that member. -/
theorem find?_of_pairwise {α β : Type} [BEq β] [LawfulBEq β] {key : α → β} {members : List α}
    (differ : members.Pairwise fun a b => key a ≠ key b) {a : α} (member : a ∈ members) :
    members.find? (fun b => key b == key a) = some a := by
  induction differ with
  | nil => cases member
  | @cons head tail first _ ih =>
    rcases List.mem_cons.1 member with rfl | later
    · exact List.find?_cons_of_pos (beq_self_eq_true _)
    · rw [List.find?_cons_of_neg (by simpa using first a later), ih later]

theorem name?_eq_some_iff {names : Names} {index : Nat} {name : String} :
    names.name? index = some name ↔ (index, name) ∈ names.entries := by
  rw [name?, Option.map_eq_some_iff]
  constructor
  · rintro ⟨entry, found, rfl⟩
    have same : entry.1 = index := by simpa using List.find?_some found
    exact same ▸ List.mem_of_find?_eq_some found
  · intro member
    have differ := names.ascending.imp fun below => Nat.ne_of_lt below
    exact ⟨(index, name), find?_of_pairwise differ member, rfl⟩

theorem index?_eq_some_iff {names : Names} {index : Nat} {name : String} :
    names.index? name = some index ↔ (index, name) ∈ names.entries := by
  rw [index?, Option.map_eq_some_iff]
  constructor
  · rintro ⟨entry, found, rfl⟩
    have same : entry.2 = name := by simpa using List.find?_some found
    exact same ▸ List.mem_of_find?_eq_some found
  · intro member
    exact ⟨(index, name), find?_of_pairwise names.distinct member, rfl⟩

/-! ### Showing and resolving -/

/-- The name of a variable, or its number if it has none. -/
def label (names : Names) (index : Nat) : String :=
  (names.name? index).getD (String.ofList (Text.natNumeral index))

/-- The label of the variable, after a minus sign if the literal is negative. -/
def literalLabel (names : Names) (literal : Literal) : String :=
  if literal < 0 then "-" ++ names.label literal.var else names.label literal.var

theorem label_of_name {names : Names} {index : Nat} {name : String}
    (named : names.name? index = some name) : names.label index = name := by
  rw [label, named, Option.getD_some]

theorem label_of_none {names : Names} {index : Nat} (unnamed : names.name? index = none) :
    names.label index = String.ofList (Text.natNumeral index) := by
  rw [label, unnamed, Option.getD_none]

theorem literalLabel_of_pos {names : Names} {literal : Literal} (positive : 0 < literal) :
    names.literalLabel literal = names.label literal.var :=
  if_neg (Int.not_lt.2 (Int.le_of_lt positive))

theorem literalLabel_of_neg {names : Names} {literal : Literal} (negative : literal < 0) :
    names.literalLabel literal = "-" ++ names.label literal.var :=
  if_pos negative

/-- The labels of the literals with a space between them. -/
def literalsLabel (names : Names) (literals : List Literal) : String :=
  " ".intercalate (literals.map names.literalLabel)

/-- The variable that a word denotes, as a name first and as a number otherwise. -/
def resolve? (names : Names) (word : String) : Option Nat :=
  (names.index? word).or (Text.readUnsigned? word.toList)

end Names

end Backbone
