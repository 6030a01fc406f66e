import Crosslink.Markup.Document
import Crosslink.Proofs.Link.Location

namespace Crosslink

/-!
Line breaks with and without a carriage return.  The reader of blocks sees the same text with both,
and a text with the wide ones has the same lines, each with a carriage return at its end.
-/

namespace Text

/-- The text with a carriage return before each line feed. -/
def widened : Text → Text
  | [] => []
  | c :: rest => if c = '\n' then '\r' :: '\n' :: widened rest else c :: widened rest

@[simp] theorem widened_break (rest : Text) : widened ('\n' :: rest) = '\r' :: '\n' :: widened rest := by
  rw [widened, if_pos rfl]

theorem widened_cons_of_ne {c : Char} (notBreak : c ≠ '\n') (rest : Text) :
    widened (c :: rest) = c :: widened rest := by
  rw [widened, if_neg notBreak]

/-- What stands behind a place stands behind it when the text is widened, too, as many characters
further on as there are line breaks before. -/
theorem drop_widened (text : Text) (place : Nat) :
    (widened text).drop (place + (text.take place).count '\n') = widened (text.drop place) := by
  induction text generalizing place with
  | nil => simp [widened]
  | cons c rest inductionHypothesis =>
      cases place with
      | zero => rfl
      | succ place =>
          rw [List.take_succ_cons, List.drop_succ_cons, ← inductionHypothesis place]
          by_cases isBreak : c = '\n'
          · rw [isBreak, widened_break, List.count_cons_self,
              show ∀ count, place + 1 + (count + 1) = place + count + 1 + 1 by omega]
            rfl
          · rw [widened_cons_of_ne isBreak, List.count_cons_of_ne isBreak,
              Nat.add_right_comm, List.drop_succ_cons]

theorem startsWith_widened {word : Text} (notBroken : '\n' ∉ word) (notReturned : '\r' ∉ word)
    (text : Text) :
    startsWith (widened text) word = startsWith text word ∧
      (startsWith text word = true →
        (widened text).drop word.length = widened (text.drop word.length)) := by
  induction word generalizing text with
  | nil => exact ⟨rfl, fun _ => rfl⟩
  | cons d word inductionHypothesis =>
      rw [List.mem_cons, not_or] at notBroken notReturned
      cases text with
      | nil => exact ⟨rfl, fun begins => absurd begins (by simp [startsWith])⟩
      | cons c rest =>
          have further := inductionHypothesis notBroken.2 notReturned.2 rest
          by_cases isBreak : c = '\n'
          · have other : (d == '\n') = false := beq_false_of_ne (Ne.symm notBroken.1)
            have otherReturn : (d == '\r') = false := beq_false_of_ne (Ne.symm notReturned.1)
            have own : startsWith ('\n' :: rest) (d :: word) = false := by
              rw [startsWith, List.isPrefixOf_cons_cons, other, Bool.false_and]
            have ownWidened : startsWith ('\r' :: '\n' :: widened rest) (d :: word) = false := by
              rw [startsWith, List.isPrefixOf_cons_cons, otherReturn, Bool.false_and]
            rw [isBreak, widened_break, own, ownWidened]
            exact ⟨rfl, fun begins => Bool.noConfusion begins⟩
          · have step (text : Text) :
                startsWith (c :: text) (d :: word) = (d == c && startsWith text word) :=
              List.isPrefixOf_cons_cons
            rw [widened_cons_of_ne isBreak, step, step, further.1]
            refine ⟨rfl, fun begins => ?_⟩
            rw [Bool.and_eq_true] at begins
            exact further.2 begins.2

/-- Each line feed of a widened text stands behind a carriage return. -/
theorem return_before_break {text front back : Text}
    (cut : widened text = front ++ '\n' :: back) : ∃ more, front = more ++ ['\r'] := by
  induction text generalizing front with
  | nil => exact absurd cut (by simp [widened])
  | cons c rest inductionHypothesis =>
      by_cases isBreak : c = '\n'
      · rw [isBreak, widened_break] at cut
        match front with
        | [] => exact absurd (List.cons.inj cut).1 (by decide)
        | [d] => exact ⟨[], by rw [← (List.cons.inj cut).1]; rfl⟩
        | d :: e :: front =>
            rcases inductionHypothesis (List.cons.inj (List.cons.inj cut).2).2 with ⟨more, rfl⟩
            exact ⟨d :: e :: more, rfl⟩
      · rw [widened_cons_of_ne isBreak] at cut
        match front with
        | [] => exact absurd (List.cons.inj cut).1 isBreak
        | d :: front =>
            rcases inductionHypothesis (List.cons.inj cut).2 with ⟨more, rfl⟩
            exact ⟨d :: more, rfl⟩

/-- Each carriage return of a widened text stands before a line feed, if the text had none. -/
theorem break_behind_return {text front back : Text} (absent : '\r' ∉ text)
    (cut : widened text = front ++ '\r' :: back) : ∃ more, back = '\n' :: more := by
  induction text generalizing front with
  | nil => exact absurd cut (by simp [widened])
  | cons c rest inductionHypothesis =>
      rw [List.mem_cons, not_or] at absent
      by_cases isBreak : c = '\n'
      · rw [isBreak, widened_break] at cut
        match front with
        | [] => exact ⟨_, (List.cons.inj cut).2.symm⟩
        | [d] => exact absurd (List.cons.inj (List.cons.inj cut).2).1 (by decide)
        | d :: e :: front =>
            exact inductionHypothesis absent.2 (List.cons.inj (List.cons.inj cut).2).2
      · rw [widened_cons_of_ne isBreak] at cut
        match front with
        | [] => exact absurd (List.cons.inj cut).1.symm absent.1
        | d :: front => exact inductionHypothesis absent.2 (List.cons.inj cut).2

/-! ## Lines -/

def returned : List Text → List Text
  | [] => []
  | [last] => [last]
  | line :: next :: more => (line ++ ['\r']) :: returned (next :: more)

theorem splitOn_widened (text : Text) :
    (widened text).splitOn '\n' = returned (text.splitOn '\n') := by
  induction text with
  | nil => rfl
  | cons c rest inductionHypothesis =>
      by_cases isBreak : c = '\n'
      · rcases splitOn_cons_of_ne (by decide : '\r' ≠ '\n') ('\n' :: widened rest) with
          ⟨piece, pieces, cut, whole⟩
        rw [splitOn_cons_self, inductionHypothesis] at cut
        cases cut
        rw [isBreak, widened_break, whole, splitOn_cons_self]
        cases lines : splitOn '\n' rest with
        | nil => exact absurd lines (splitOn_ne_nil '\n' rest)
        | cons line more => rfl
      · rcases splitOn_cons_of_ne isBreak rest with ⟨line, lines, cut, whole⟩
        rcases splitOn_cons_of_ne isBreak (widened rest) with ⟨piece, pieces, cut', whole'⟩
        rw [widened_cons_of_ne isBreak, whole, whole']
        rw [cut', cut] at inductionHypothesis
        cases lines with
        | nil =>
            cases inductionHypothesis
            rfl
        | cons next more =>
            cases inductionHypothesis
            rfl

@[simp] theorem length_returned (lines : List Text) : (returned lines).length = lines.length := by
  fun_induction returned lines with
  | case1 => rfl
  | case2 => rfl
  | case3 line next more inductionHypothesis =>
      rw [List.length_cons, inductionHypothesis]
      rfl

theorem exists_returned {lines : List Text} {number : Nat} {line : Text}
    (held : lines[number]? = some line) :
    ∃ ending, (returned lines)[number]? = some (line ++ ending) ∧ (ending = [] ∨ ending = ['\r']) := by
  fun_induction returned lines generalizing number with
  | case1 => cases held
  | case2 last =>
      cases number with
      | zero =>
          cases held
          exact ⟨[], by rw [List.append_nil]; rfl, .inl rfl⟩
      | succ number => cases held
  | case3 first next more inductionHypothesis =>
      cases number with
      | zero =>
          cases held
          exact ⟨['\r'], rfl, .inr rfl⟩
      | succ number => exact inductionHypothesis held

open Location in
/-- Each line begins as many characters further on as there are lines before it. -/
theorem lineStart_returned {lines : List Text} {number : Nat} (listed : number < lines.length) :
    lineStart (returned lines) number = lineStart lines number + number := by
  fun_induction returned lines generalizing number with
  | case1 => exact absurd listed (Nat.not_lt_zero number)
  | case2 last =>
      cases Nat.lt_one_iff.mp listed
      rfl
  | case3 first next more inductionHypothesis =>
      cases number with
      | zero => rfl
      | succ number =>
          rw [lineStart_cons, lineStart_cons, inductionHypothesis (Nat.lt_of_succ_lt_succ listed),
            List.length_append, List.length_singleton]
          omega

end Text

namespace Markup

theorem plainBreaks_cons {c : Char} (other : c ≠ '\r') (rest : Text) :
    plainBreaks (c :: rest) = (if c = '\x00' then '\uFFFD' else c) :: plainBreaks rest := by
  rw [plainBreaks]
  exact fun same => other same

/-- The reader of blocks does not see carriage returns that stand before line feeds. -/
theorem plainBreaks_widened {text : Text} (absent : '\r' ∉ text) :
    plainBreaks text.widened = plainBreaks text := by
  induction text with
  | nil => rfl
  | cons c rest inductionHypothesis =>
      rw [List.mem_cons, not_or] at absent
      have further := inductionHypothesis absent.2
      by_cases isBreak : c = '\n'
      · rw [isBreak, Text.widened_break, plainBreaks.eq_2, plainBreaks_cons (by decide), further,
          plainBreaks_cons (by decide)]
      · rw [Text.widened_cons_of_ne isBreak, plainBreaks_cons (Ne.symm absent.1), further,
          plainBreaks_cons (Ne.symm absent.1)]

theorem return_not_mem_plainBreaks (text : Text) : '\r' ∉ plainBreaks text := by
  fun_induction plainBreaks text with
  | case1 => exact List.not_mem_nil
  | case2 more inductionHypothesis => exact inductionHypothesis
  | case3 rest notWide inductionHypothesis =>
      rw [List.mem_cons, not_or]
      exact ⟨by decide, inductionHypothesis⟩
  | case4 c rest other inductionHypothesis =>
      rw [List.mem_cons, not_or]
      refine ⟨?_, inductionHypothesis⟩
      split
      · decide
      · exact fun same => other same.symm

end Markup
end Crosslink
