import Mathlib
import Backbone.LiteralSets
import Backbone.Proofs.Text.Csv

/-!
# Sets of literals from their table

The table of some sets has a row for each set and a column for each variable.  Its written form is
read back row by row, whatever the names of the variables are, and each cell tells the sign of the
last literal on its variable.  If no set has two literals on one variable, the table holds all there
is to know about them but the order of the literals within a set.

* `Shows` — what a cell shows of a set;
* `IsRecord` — a record shows a set at its position;
* `Tidy` — the sets lose nothing in a table;
* `literalsOf`, `setsOf` — the sets that a written table tells of;
* `shows_cell`, `isRecord_setRow` — the cells and the records;
* `literalsOf_setRow` — the literals of a tidy set, up to order;
* `read_csv` — the whole table.
-/

namespace Backbone.LiteralSets

open Text

variable {sets : LiteralSets} {set : List Literal} {position index : Nat} {literal : Literal}

/-! ### What a table says -/

/-- The cell of a variable: the sign of the last literal on it, or nothing. -/
inductive Shows (set : List Literal) (index : Nat) : List Char → Prop
  | absent : (∀ literal ∈ set, literal.var ≠ index) → Shows set index []
  | positive {before after : List Literal} {literal : Literal} :
      set = before ++ literal :: after → literal.var = index →
      (∀ later ∈ after, later.var ≠ index) → 0 < literal → Shows set index ['+']
  | negative {before after : List Literal} {literal : Literal} :
      set = before ++ literal :: after → literal.var = index →
      (∀ later ∈ after, later.var ≠ index) → literal < 0 → Shows set index ['-']

/-- The record of a set: its position, then a cell for each variable. -/
structure IsRecord (numVariables position : Nat) (set : List Literal) (record : List (List Char)) :
    Prop where
  length : record.length = numVariables + 1
  position : record[0]? = some (natNumeral position)
  cells : ∀ index, 1 ≤ index → index ≤ numVariables →
    ∃ shown, record[index]? = some shown ∧ Shows set index shown

/-- No set has two literals on one variable, nor any on a variable without a column. -/
def Tidy (sets : LiteralSets) : Prop :=
  ∀ set ∈ sets.sets, (Literals.vars set).Nodup ∧
    ∀ literal ∈ set, 1 ≤ literal.var ∧ literal.var ≤ sets.numVariables

instance (sets : LiteralSets) : Decidable sets.Tidy :=
  inferInstanceAs (Decidable (∀ set ∈ sets.sets, _ ∧ ∀ literal ∈ set, _))

/-- The literal that the cell of a variable tells of. -/
def literalOf? (index : Nat) (shown : List Char) : Option Literal :=
  if shown = ['+'] then some index else if shown = ['-'] then some (-index) else none

/-- The literals that a record tells of, whose first field is no cell. -/
def literalsOf (record : List (List Char)) : List Literal :=
  ((record.drop 1).zipIdx 1).filterMap fun (shown, index) => literalOf? index shown

/-- The sets that a written table tells of, whose first record is the header. -/
def setsOf (csv : String) : List (List Literal) :=
  ((Csv.read csv.toList).drop 1).map literalsOf

/-! ### Cells -/

theorem shows_cell (nonzero : ∀ literal ∈ set, literal ≠ 0) (index : Nat) :
    Shows set index (cell set [] index) := by
  rw [cell]
  split
  · rename_i literal found
    obtain ⟨same, after, before, cut, apart⟩ := List.find?_eq_some_iff_append.1 found
    have whole : set = before.reverse ++ literal :: after.reverse := by
      rw [← List.reverse_reverse set, cut, List.reverse_append, List.reverse_cons,
        List.append_assoc, List.singleton_append]
    have var : literal.var = index := by simpa using same
    have later : ∀ later ∈ after.reverse, later.var ≠ index := by
      intro later member
      simpa using apart later (List.mem_reverse.1 member)
    rw [signCell]
    split
    · rename_i positive
      exact .positive whole var later positive
    · rename_i notPositive
      have member : literal ∈ set := by
        rw [whole]
        exact List.mem_append_right _ List.mem_cons_self
      exact .negative whole var later
        (Int.lt_iff_le_and_ne.2 ⟨Int.not_lt.1 notPositive, nonzero literal member⟩)
  · rename_i missing
    refine .absent fun literal member => ?_
    simpa using List.find?_eq_none.1 missing literal (List.mem_reverse.2 member)

/-- No literal is on the column of the positions. -/
theorem cell_zero (nonzero : ∀ literal ∈ set, literal ≠ 0) (otherwise : List Char) :
    cell set otherwise 0 = otherwise := by
  have missing : set.reverse.find? (fun literal => literal.var == 0) = none := by
    refine List.find?_eq_none.2 fun literal member => ?_
    simpa [Literal.var] using nonzero literal (List.mem_reverse.1 member)
  rw [cell, missing]

theorem literalOf?_eq_some {shown : List Char} (told : literalOf? index shown = some literal) :
    literal.var = index := by
  rw [literalOf?] at told
  split at told
  · cases told
    exact Int.natAbs_natCast index
  · split at told
    · cases told
      exact (Int.natAbs_neg _).trans (Int.natAbs_natCast index)
    · cases told

/-- Of a set without two literals on one variable, a cell tells the literal on its variable. -/
theorem literalOf?_eq_some_iff {shown : List Char} (nodup : (Literals.vars set).Nodup)
    (shows : Shows set index shown) :
    literalOf? index shown = some literal ↔ literal ∈ set ∧ literal.var = index := by
  have single {other : Literal} (member : other ∈ set) (var : other.var = index)
      (told : literalOf? index shown = some other) :
      literalOf? index shown = some literal ↔ literal ∈ set ∧ literal.var = index := by
    constructor
    · intro same
      cases told.symm.trans same
      exact ⟨member, var⟩
    · rintro ⟨inside, sameVar⟩
      rw [told, List.inj_on_of_nodup_map nodup inside member (sameVar.trans var.symm)]
  cases shows with
  | absent none =>
    constructor
    · intro told
      cases told
    · rintro ⟨member, var⟩
      exact absurd var (none literal member)
  | @positive before after other whole var _ positive =>
    refine single (whole ▸ List.mem_append_right _ List.mem_cons_self) var ?_
    rw [← var]
    exact congrArg some (Int.natAbs_of_nonneg (Int.le_of_lt positive))
  | @negative before after other whole var _ negative =>
    refine single (whole ▸ List.mem_append_right _ List.mem_cons_self) var ?_
    rw [← var]
    show some (-(other.natAbs : Int)) = some other
    rw [Int.ofNat_natAbs_of_nonpos (Int.le_of_lt negative), Int.neg_neg]

/-! ### Records -/

theorem length_setRow (set : List Literal) (position : Nat) :
    (sets.setRow set position).length = sets.numVariables + 1 := by
  rw [setRow, List.length_cons, List.length_map, List.length_range']

theorem isRecord_setRow (nonzero : ∀ literal ∈ set, literal ≠ 0) (position : Nat) :
    IsRecord sets.numVariables position set (sets.setRow set position) where
  length := length_setRow set position
  position := congrArg some (cell_zero nonzero _)
  cells index above within := by
    obtain ⟨column, rfl⟩ := Nat.exists_eq_add_of_le above
    refine ⟨cell set [] (1 + column), ?_, shows_cell nonzero _⟩
    rw [setRow, Nat.add_comm 1 column, List.getElem?_cons_succ, List.getElem?_map,
      List.getElem?_range' (by omega), Nat.one_mul, Nat.add_comm column 1]
    rfl

theorem literalsOf_setRow_eq (set : List Literal) (position : Nat) :
    literalsOf (sets.setRow set position) =
      (List.range' 1 sets.numVariables).filterMap fun index =>
        literalOf? index (cell set [] index) := by
  have columns := List.zip_map' (f := cell set []) (g := id)
    (l := List.range' 1 sets.numVariables)
  rw [List.map_id] at columns
  rw [literalsOf, setRow, List.drop_one, List.tail_cons, List.zipIdx_eq_zip_range', List.length_map,
    List.length_range', columns, List.filterMap_map]
  rfl

/-- The record of a tidy set tells its literals, in the order of their variables. -/
theorem literalsOf_setRow (nodup : (Literals.vars set).Nodup)
    (within : ∀ literal ∈ set, 1 ≤ literal.var ∧ literal.var ≤ sets.numVariables)
    (position : Nat) : (literalsOf (sets.setRow set position)).Perm set := by
  have nonzero : ∀ literal ∈ set, literal ≠ 0 := by
    rintro literal member rfl
    exact absurd (within 0 member).1 (by decide)
  rw [literalsOf_setRow_eq]
  refine (List.perm_ext_iff_of_nodup ?_ (List.Nodup.of_map _ nodup)).2 fun literal => ?_
  · refine (List.nodup_range').filterMap fun first second literal told told' => ?_
    exact (literalOf?_eq_some told).symm.trans (literalOf?_eq_some told')
  · rw [List.mem_filterMap]
    constructor
    · rintro ⟨index, -, told⟩
      exact ((literalOf?_eq_some_iff nodup (shows_cell nonzero index)).1 told).1
    · intro member
      obtain ⟨above, below⟩ := within literal member
      refine ⟨literal.var, List.mem_range'_1.2 ⟨above, by omega⟩, ?_⟩
      exact (literalOf?_eq_some_iff nodup (shows_cell nonzero _)).2 ⟨member, rfl⟩

/-! ### Tables -/

theorem read_csv_eq_rows (sets : LiteralSets) : Csv.read sets.csv.toList = sets.rows := by
  rw [csv, String.toList_ofList]
  refine Csv.read_table fun record member => ?_
  rw [rows, List.mem_cons, List.mem_map] at member
  rcases member with rfl | ⟨_, -, rfl⟩
  · exact List.cons_ne_nil _ _
  · exact List.cons_ne_nil _ _

theorem setsOf_csv (tidy : sets.Tidy) : List.Forall₂ List.Perm (setsOf sets.csv) sets.sets := by
  have told : setsOf sets.csv = sets.sets.zipIdx.map fun entry =>
      literalsOf (sets.setRow entry.1 entry.2) := by
    rw [setsOf, read_csv_eq_rows, rows, List.drop_one, List.tail_cons, List.map_map]
    rfl
  have same : List.Forall₂ List.Perm (setsOf sets.csv) (sets.sets.zipIdx.map Prod.fst) := by
    rw [told, List.forall₂_map_left_iff, List.forall₂_map_right_iff, List.forall₂_same]
    rintro ⟨set, position⟩ member
    obtain ⟨nodup, within⟩ := tidy set (List.fst_mem_of_mem_zipIdx member)
    exact literalsOf_setRow nodup within position
  rwa [List.zipIdx_map_fst] at same

/-- The written table of sets of literals is read back as a header, with the label of each variable
after the title, and a record for each set in order.  All have a field for each variable and one
more.  If the sets are tidy, the written table tells them, each up to the order of its literals. -/
theorem read_csv (sets : LiteralSets)
    (nonzero : ∀ set ∈ sets.sets, ∀ literal ∈ set, literal ≠ 0) :
    (∃ records,
      Csv.read sets.csv.toList =
        ("Set".toList :: (List.range' 1 sets.numVariables).map fun index =>
          (sets.names.label index).toList) :: records ∧
      records.length = sets.sets.length ∧
      ∀ position set, sets.sets[position]? = some set →
        ∃ record, records[position]? = some record ∧
          IsRecord sets.numVariables position set record) ∧
    (∀ record ∈ Csv.read sets.csv.toList, record.length = sets.numVariables + 1) ∧
    (sets.Tidy → List.Forall₂ List.Perm (setsOf sets.csv) sets.sets) := by
  rw [read_csv_eq_rows]
  refine ⟨⟨_, rfl, ?_, ?_⟩, ?_, setsOf_csv⟩
  · rw [List.length_map, List.length_zipIdx]
  · intro position set found
    refine ⟨sets.setRow set position, ?_, isRecord_setRow ?_ position⟩
    · rw [List.getElem?_map, List.getElem?_zipIdx, found, Nat.zero_add]
      rfl
    · exact nonzero set (List.mem_of_getElem? found)
  · intro record member
    rw [rows, List.mem_cons, List.mem_map] at member
    rcases member with rfl | ⟨_, -, rfl⟩
    · rw [headerRow, List.length_cons, List.length_map, List.length_range']
    · exact length_setRow _ _

/-- Two variables have names, of which one has to be quoted and the other is empty. -/
def quotedSets : LiteralSets := ⟨[[-3, 1], [2]], 3, .ofList [(1, "a;\"b\"\r\n"), (2, "")]⟩

theorem read_csv_quotedSets :
    quotedSets.csv = "Set;\"a;\"\"b\"\"\r\n\";;3\n0;+;;-\n1;;+;\n" ∧
    (Csv.read quotedSets.csv.toList).head? =
      some ["Set".toList, "a;\"b\"\r\n".toList, [], ['3']] ∧
    List.Forall₂ List.Perm (setsOf quotedSets.csv) [[-3, 1], [2]] := by
  obtain ⟨⟨records, header, -, -⟩, -, told⟩ := read_csv quotedSets (by decide)
  refine ⟨by cbv, ?_, told (by decide)⟩
  rw [header, List.head?_cons]
  decide

end Backbone.LiteralSets
