import Crosslink.Proofs.Text.Pieces

namespace Crosslink
namespace Text

/-!
What is left of a text when its first pieces are left out.  As long as the pieces that are left out
end within the first part of a text, the second part is kept as it is; as soon as they do not, less
is left than the second part.
-/

variable {separator : Char} {first second piece : Text}

/-- A character adds a piece of its own or goes on with the first piece. -/
theorem drop_splitOn_cons (separator c : Char) (rest : Text) (count : Nat) :
    (splitOn separator (c :: rest)).drop (count + 1) =
      (splitOn separator rest).drop (if c = separator then count else count + 1) := by
  by_cases same : c = separator
  · rw [if_pos same, same, splitOn_cons_self, List.drop_succ_cons]
  · rcases splitOn_cons_of_ne same rest with ⟨piece, pieces, cut, longer⟩
    rw [if_neg same, longer, cut, List.drop_succ_cons, List.drop_succ_cons]

theorem length_join_drop_le (separator : Char) (text : Text) (count : Nat) :
    (join [separator] ((splitOn separator text).drop count)).length ≤ text.length := by
  induction text generalizing count with
  | nil =>
      cases count with
      | zero => exact Nat.le_refl 0
      | succ count =>
          rw [splitOn, List.drop_succ_cons, List.drop_nil, join_nil]
  | cons c rest inductionHypothesis =>
      cases count with
      | zero => rw [List.drop_zero, join_splitOn]
      | succ count =>
          rw [drop_splitOn_cons]
          exact (inductionHypothesis _).trans (Nat.le_succ _)

/-- Something is left out with the first piece, if it is no more than its separator. -/
theorem length_join_drop_lt (separator : Char) {text : Text} (nonempty : text ≠ []) (count : Nat) :
    (join [separator] ((splitOn separator text).drop (count + 1))).length < text.length := by
  cases text with
  | nil => exact absurd rfl nonempty
  | cons c rest =>
      rw [drop_splitOn_cons]
      exact Nat.lt_succ_of_le (length_join_drop_le separator rest _)

/-- Pieces that end within the first part are left out of it alone. -/
theorem join_drop_splitOn_append {count : Nat} (within : count ≤ first.count separator)
    (second : Text) :
    join [separator] ((splitOn separator (first ++ second)).drop count) =
      join [separator] ((splitOn separator first).drop count) ++ second := by
  induction first generalizing count with
  | nil =>
      rw [List.count_nil, Nat.le_zero] at within
      rw [within, List.drop_zero, List.drop_zero, join_splitOn, join_splitOn]
  | cons c rest inductionHypothesis =>
      cases count with
      | zero => rw [List.drop_zero, List.drop_zero, join_splitOn, join_splitOn]
      | succ count =>
          rw [List.cons_append, drop_splitOn_cons, drop_splitOn_cons]
          apply inductionHypothesis
          rw [List.count_cons] at within
          by_cases same : c = separator
          · rw [if_pos (beq_iff_eq.mpr same)] at within
            rw [if_pos same]
            exact Nat.le_of_succ_le_succ within
          · rw [if_neg (fun equal => same (beq_iff_eq.mp equal))] at within
            rw [if_neg same]
            exact within

/-- Pieces that go on behind the first part leave nothing of it. -/
theorem drop_splitOn_append (first second : Text) (count : Nat) :
    (splitOn separator (first ++ second)).drop (first.count separator + (count + 1)) =
      (splitOn separator second).drop (count + 1) := by
  induction first with
  | nil => rw [List.nil_append, List.count_nil, Nat.zero_add]
  | cons c rest inductionHypothesis =>
      rw [List.cons_append, ← inductionHypothesis, List.count_cons]
      by_cases same : c = separator
      · rw [if_pos (beq_iff_eq.mpr same), Nat.add_right_comm, drop_splitOn_cons, if_pos same]
      · rw [if_neg (fun equal => same (beq_iff_eq.mp equal)), Nat.add_zero, ← Nat.add_assoc,
          drop_splitOn_cons, if_neg same, Nat.add_assoc]

/-- The piece in which the second part begins ends with the first piece of that part. -/
theorem exists_getElem?_splitOn_append (separator : Char) (first second : Text) :
    ∃ ahead, (splitOn separator (first ++ second))[first.count separator]? =
      some (ahead ++ before separator second) := by
  induction first with
  | nil =>
      rcases splitOn_eq_before_cons separator second with ⟨more, pieces, _⟩
      exact ⟨[], by rw [List.nil_append, pieces]; rfl⟩
  | cons c rest inductionHypothesis =>
      rcases inductionHypothesis with ⟨ahead, held⟩
      rw [List.cons_append, List.count_cons]
      by_cases same : c = separator
      · rw [if_pos (beq_iff_eq.mpr same), same, splitOn_cons_self, List.getElem?_cons_succ]
        exact ⟨ahead, held⟩
      · rcases splitOn_cons_of_ne same (rest ++ second) with ⟨head, pieces, cut, longer⟩
        rw [cut] at held
        rw [if_neg (fun equal => same (beq_iff_eq.mp equal)), Nat.add_zero, longer]
        cases counted : rest.count separator with
        | zero =>
            rw [counted] at held
            exact ⟨c :: ahead, congrArg (fun text => some (c :: text)) (Option.some.inj held)⟩
        | succ earlier =>
            rw [counted] at held
            exact ⟨ahead, held⟩

/-- A piece that is not the one in which the second part begins stands among those that end within
the first part or among those behind. -/
theorem count_splitOn_append_le (first : Text)
    (other : ∀ ahead, piece ≠ ahead ++ before separator second) :
    (splitOn separator (first ++ second)).count piece ≤
      first.count separator + ((splitOn separator second).drop 1).count piece := by
  rcases exists_getElem?_splitOn_append separator first second with ⟨ahead, held⟩
  rcases List.getElem?_eq_some_iff.mp held with ⟨inside, between⟩
  have parts := List.take_append_drop (first.count separator) (splitOn separator (first ++ second))
  rw [List.drop_eq_getElem_cons inside, between,
    drop_splitOn_append first second 0] at parts
  have short : ((splitOn separator (first ++ second)).take (first.count separator)).count piece ≤
      first.count separator :=
    List.count_le_length.trans (List.length_take_le _ _)
  rw [← parts, List.count_append, List.count_cons_of_ne (other ahead).symm]
  exact Nat.add_le_add_right short _

end Text
end Crosslink
