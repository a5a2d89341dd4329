import Backbone.Proofs.CommandLine.Assumptions
import Backbone.Proofs.Names
import Backbone.Proofs.Text.Numeral

/-!
# Literals that are shown and given back

A literal is shown by the name of its variable, or by its number if it has none, with a minus sign
in front if it is negative.  As a word of a command line the same text is taken for a name as a
whole first, then as the negation of the rest, and for a number last.  The two orders of precedence
agree unless some name gets in between: the number of a variable without a name may be the name of
another one, and the negation of a label may be a name as a whole.

* `Unmistakable` — neither of the two is the case for a literal;
* `designates_label_iff` — when the label of a variable denotes it;
* `literal_of_denotes` — a word is resolved to nothing but what it denotes;
* `resolveLiteral_shown` — an unmistakable literal is resolved to itself, whatever variables have
  names;
* `resolveLiteral_literalLabel_iff` — a literal as shown, and any list of literals as shown, is
  resolved to itself if and only if it is unmistakable.
-/

namespace Backbone.CommandLine

open Text

variable {names : Names} {word : String} {index : Nat} {literal : Literal}

/-- What the literal is shown as denotes nothing else. -/
structure Unmistakable (names : Names) (literal : Literal) : Prop where
  /-- The variable has a name, or its number is not the name of another variable. -/
  label : (∃ name, names.name? literal.var = some name) ∨
    ∀ other, other ≠ literal.var → names.name? other ≠ some (names.label literal.var)
  /-- The literal is positive, or the label after a minus sign is not a name. -/
  minus : 0 < literal ∨ ∀ other, names.name? other ≠ some ("-" ++ names.label literal.var)

/-! ### Labels -/

theorem isNumeral_natNumeral (small : index < unsignedBound) :
    IsNumeral (natNumeral index) index :=
  ⟨natNumeral index, .inl rfl, isDigits_natNumeral index, digitsValue_natNumeral index, small⟩

theorem not_minus_natNumeral (index : Nat) (rest : List Char) : natNumeral index ≠ '-' :: rest := by
  obtain ⟨digit, digits, numeral, isDigit⟩ := natNumeral_eq_cons index
  rw [numeral]
  intro same
  cases same
  exact absurd isDigit (by decide)

/-- The label of a variable denotes it, unless it is a number that another variable has as its
name. -/
theorem designates_label_iff (small : index < unsignedBound) :
    Designates names (names.label index) index ↔
      (∃ name, names.name? index = some name) ∨
        ∀ other, other ≠ index → names.name? other ≠ some (names.label index) := by
  constructor
  · rintro (named | ⟨noName, -⟩)
    · exact .inl ⟨_, named⟩
    · exact .inr fun other _ => noName other
  · intro clear
    cases called : names.name? index with
    | some name => exact .inl (called.trans (congrArg some (Names.label_of_name called).symm))
    | none =>
      have others := clear.resolve_left fun ⟨name, named⟩ => by
        rw [called] at named
        cases named
      refine .inr ⟨fun other => ?_, ?_⟩
      · by_cases same : other = index
        · rw [same, called]
          rintro ⟨⟩
        · exact others other same
      · rw [Names.label_of_none called, String.toList_ofList]
        exact isNumeral_natNumeral small

/-- The label of a variable begins with a minus sign only if it is a name. -/
theorem name?_of_label_minus {rest : List Char} (minus : (names.label index).toList = '-' :: rest) :
    names.name? index = some (names.label index) := by
  cases called : names.name? index with
  | some name => rw [Names.label_of_name called]
  | none =>
    rw [Names.label_of_none called, String.toList_ofList] at minus
    exact absurd minus (not_minus_natNumeral index rest)

/-! ### Shown literals -/

/-- A word is resolved to nothing but what it denotes. -/
theorem literal_of_denotes {negative : Bool}
    (resolved : resolveLiteral names word = .ok literal)
    (denotes : Denotes names word negative index) :
    literal = wrapped negative index := by
  obtain ⟨negative', index', denotes', rfl⟩ := resolveLiteral_eq_ok_iff.1 resolved
  obtain ⟨rfl, rfl⟩ := denotes.unique denotes'
  rfl

theorem lt_unsignedBound (small : index < signedBound) : index < unsignedBound :=
  Nat.lt_trans small (by decide)

section Bounded

/-! The variables of the table and of the literal are in the signed range. -/

variable (namesSmall : ∀ index name, names.name? index = some name → index < signedBound)
  (small : literal.var < signedBound)

include small in
theorem resolveLiteral_of_denotes (negative : Bool)
    (denotes : Denotes names word negative literal.var)
    (same : signed negative (literal.var : Literal) = literal) :
    resolveLiteral names word = .ok literal := by
  refine resolveLiteral_eq_ok_iff.2 ⟨negative, literal.var, denotes, ?_⟩
  rw [wrapped_of_lt negative small, same]

include small in
theorem resolveLiteral_label (positive : 0 < literal) (unmistakable : Unmistakable names literal) :
    resolveLiteral names (names.label literal.var) = .ok literal := by
  have magnitude : (literal.var : Literal) = literal := Int.natAbs_of_nonneg (Int.le_of_lt positive)
  refine resolveLiteral_of_denotes small false ?_ magnitude
  rcases (designates_label_iff (lt_unsignedBound small)).2 unmistakable.label with
    named | ⟨noName, numeral⟩
  · exact .name named
  · refine .plain noName (fun rest minus => ?_) (.inr ⟨noName, numeral⟩)
    exact noName _ (name?_of_label_minus minus)

/-- What follows the minus sign of a label that is negated is the label. -/
theorem toList_minus_label (names : Names) (index : Nat) :
    ("-" ++ names.label index).toList = '-' :: (names.label index).toList :=
  String.toList_append

include small in
theorem resolveLiteral_minus_label (negative : literal < 0)
    (unmistakable : Unmistakable names literal) :
    resolveLiteral names ("-" ++ names.label literal.var) = .ok literal := by
  have magnitude : (literal.var : Literal) = -literal :=
    Int.ofNat_natAbs_of_nonpos (Int.le_of_lt negative)
  have noName := unmistakable.minus.resolve_left (Int.not_lt.2 (Int.le_of_lt negative))
  have designates := (designates_label_iff (lt_unsignedBound small)).2 unmistakable.label
  rw [← String.ofList_toList (s := names.label literal.var)] at designates
  refine resolveLiteral_of_denotes small true
    (.negated noName (toList_minus_label names literal.var) designates) ?_
  rw [signed_true, magnitude, Int.neg_neg]

include small in
/-- An unmistakable literal is resolved to itself as it is shown. -/
theorem resolveLiteral_shown (nonzero : literal ≠ 0) (unmistakable : Unmistakable names literal) :
    resolveLiteral names (names.literalLabel literal) = .ok literal := by
  rcases Int.lt_or_gt_of_ne nonzero with negative | positive
  · rw [Names.literalLabel_of_neg negative]
    exact resolveLiteral_minus_label small negative unmistakable
  · rw [Names.literalLabel_of_pos positive]
    exact resolveLiteral_label small positive unmistakable

include namesSmall in
/-- A word that is a name as a whole is resolved to the variable of that name. -/
theorem eq_of_name (resolved : resolveLiteral names word = .ok literal)
    (named : names.name? index = some word) : literal = index := by
  rw [literal_of_denotes resolved (.name named), wrapped_of_lt false (namesSmall index word named),
    signed_false]

include namesSmall small

theorem resolveLiteral_label_iff (positive : 0 < literal) :
    resolveLiteral names (names.label literal.var) = .ok literal ↔ Unmistakable names literal := by
  constructor
  · intro resolved
    refine ⟨.inr fun other different named => different ?_, .inl positive⟩
    rw [eq_of_name namesSmall resolved named]
    exact (Int.natAbs_natCast other).symm
  · exact resolveLiteral_label small positive

theorem resolveLiteral_minus_label_iff (negative : literal < 0) :
    resolveLiteral names ("-" ++ names.label literal.var) = .ok literal ↔
      Unmistakable names literal := by
  constructor
  · intro resolved
    have noName : ∀ other, names.name? other ≠ some ("-" ++ names.label literal.var) := by
      intro other named
      rw [eq_of_name namesSmall resolved named] at negative
      exact absurd negative (Int.not_lt.2 (Int.natCast_nonneg other))
    refine ⟨.inr fun other different named => different ?_, .inr noName⟩
    have designates : Designates names (String.ofList (names.label literal.var).toList) other := by
      rw [String.ofList_toList]
      exact .inl named
    have denotes : Denotes names ("-" ++ names.label literal.var) true other :=
      .negated noName (toList_minus_label names literal.var) designates
    rw [literal_of_denotes resolved denotes, var_wrapped,
      Literal.var_ofIndex_of_lt (namesSmall other _ named)]
  · exact resolveLiteral_minus_label small negative

theorem resolveLiteral_shown_iff (nonzero : literal ≠ 0) :
    resolveLiteral names (names.literalLabel literal) = .ok literal ↔
      Unmistakable names literal := by
  rcases Int.lt_or_gt_of_ne nonzero with negative | positive
  · rw [Names.literalLabel_of_neg negative]
    exact resolveLiteral_minus_label_iff namesSmall small negative
  · rw [Names.literalLabel_of_pos positive]
    exact resolveLiteral_label_iff namesSmall small positive

end Bounded

/-- After any namings of variables in the signed range, a literal as shown is resolved to itself
if and only if it is unmistakable; and the words of a list of literals as shown are resolved to
that list if and only if all of them are. -/
theorem resolveLiteral_literalLabel_iff {namings : List (Nat × String)}
    (bounded : ∀ naming ∈ namings, naming.1 < signedBound) :
    (∀ literal : Literal, literal ≠ 0 → literal.natAbs < signedBound →
      (resolveLiteral (.ofList namings) ((Names.ofList namings).literalLabel literal) =
          .ok literal ↔
        Unmistakable (.ofList namings) literal)) ∧
    ∀ literals : List Literal,
      (∀ literal ∈ literals, literal ≠ 0 ∧ literal.natAbs < signedBound) →
      ((literals.map (Names.ofList namings).literalLabel).mapM
          (resolveLiteral (.ofList namings)) = .ok literals ↔
        ∀ literal ∈ literals, Unmistakable (.ofList namings) literal) := by
  have namesSmall : ∀ index name, (Names.ofList namings).name? index = some name →
      index < signedBound := fun index name named =>
    bounded _ (Names.mem_of_mem_ofList (Names.name?_eq_some_iff.1 named))
  constructor
  · intro literal nonzero small
    exact resolveLiteral_shown_iff namesSmall small nonzero
  · intro literals fine
    rw [mapM_eq_ok_iff, List.forall₂_map_left_iff, List.forall₂_same]
    refine forall₂_congr fun literal member => ?_
    exact resolveLiteral_shown_iff namesSmall (fine literal member).2 (fine literal member).1

/-- Names that get in between: the number of `2` is a name, and so is the negation of `4`. -/
def crossedNamings : List (Nat × String) := [(1, "2"), (3, "-4"), (5, "x")]

theorem resolveLiteral_literalLabel_iff_crossedNamings :
    ["-x", "2", "4"].mapM (resolveLiteral (.ofList crossedNamings)) = .ok [-5, 1, 4] ∧
    resolveLiteral (.ofList crossedNamings) "2" ≠ .ok 2 ∧
    resolveLiteral (.ofList crossedNamings) "-4" ≠ .ok (-4) := by
  have bounded : ∀ naming ∈ crossedNamings, naming.1 < signedBound := by decide
  obtain ⟨single, all⟩ := resolveLiteral_literalLabel_iff bounded
  refine ⟨?_, fun resolved => ?_, fun resolved => ?_⟩
  · have negated : Unmistakable (.ofList crossedNamings) (-5) :=
      ⟨.inl ⟨"x", by decide⟩, .inr (index?_eq_none_iff.1 (by decide))⟩
    have named : Unmistakable (.ofList crossedNamings) 1 :=
      ⟨.inl ⟨"2", by decide⟩, .inl (by decide)⟩
    have numbered : Unmistakable (.ofList crossedNamings) 4 :=
      ⟨.inr fun other _ => index?_eq_none_iff.1 (by cbv) other, .inl (by decide)⟩
    have given := (all [-5, 1, 4] (by decide)).2 <| List.forall_mem_cons.2 ⟨negated,
      List.forall_mem_cons.2 ⟨named, List.forall_mem_singleton.2 numbered⟩⟩
    have shown : [-5, 1, 4].map (Names.ofList crossedNamings).literalLabel = ["-x", "2", "4"] := by
      cbv
    rwa [shown] at given
  · have unmistakable := (single 2 (by decide) (by decide)).1 resolved
    rcases unmistakable.label with ⟨name, named⟩ | others
    · cases named
    · exact others 1 (by decide) (by decide)
  · have shown : (Names.ofList crossedNamings).literalLabel (-4) = "-4" := by cbv
    have unmistakable := (single (-4) (by decide) (by decide)).1 (shown ▸ resolved)
    exact unmistakable.minus.elim (by decide) fun noName => noName 3 (by cbv)

end Backbone.CommandLine
