import Crosslink.Proofs.Text.Occurrence
import Crosslink.Proofs.Text.Pieces
import Crosslink.Text.Lines

namespace Crosslink
namespace Text

/-!
Lines and the breaks between them.  Where all breaks are of one kind the lines give the text back.
Lines that are joined are found again if none of them holds a line feed and, before narrow breaks,
none ends in a carriage return; the lines of a text are of that kind.  There are as many of them as
line feeds and one more, so a stretch without a line feed can be put in the place of another and
only the line that it stands on is a different one.
-/

def breaks : Text → List Text
  | [] => []
  | '\r' :: '\n' :: rest => ['\r', '\n'] :: breaks rest
  | '\n' :: rest => ['\n'] :: breaks rest
  | _ :: rest => breaks rest

/-- All line breaks begin with a carriage return, or none does. -/
def BreaksAlike (text : Text) : Prop :=
  (∀ ending ∈ text.breaks, ending = ['\r', '\n']) ∨ ['\r', '\n'] ∉ text.breaks

instance (text : Text) : Decidable text.BreaksAlike :=
  inferInstanceAs (Decidable (_ ∨ _))

variable {text line : Text} {lines : List Text} {separator : Text} {number : Nat}

theorem splitLines_cons {c : Char} {rest : Text} (notBreak : c ≠ '\n')
    (notWide : c = '\r' → ∀ more, rest ≠ '\n' :: more) :
    splitLines (c :: rest) = consLine c (splitLines rest) :=
  splitLines.eq_4 c rest (fun more isReturn begins => notWide isReturn more begins) notBreak

theorem exists_splitLines (text : Text) : ∃ line lines, splitLines text = line :: lines := by
  fun_induction splitLines text with
  | case1 => exact ⟨_, _, rfl⟩
  | case2 => exact ⟨_, _, rfl⟩
  | case3 => exact ⟨_, _, rfl⟩
  | case4 c rest _ _ inductionHypothesis =>
      rcases inductionHypothesis with ⟨line, lines, cut⟩
      exact ⟨c :: line, lines, by rw [cut]; rfl⟩

theorem splitLines_ne_nil (text : Text) : splitLines text ≠ [] := by
  rcases exists_splitLines text with ⟨line, lines, cut⟩
  rw [cut]
  exact List.cons_ne_nil line lines

theorem not_mem_of_mem_splitLines (member : line ∈ splitLines text) : '\n' ∉ line := by
  fun_induction splitLines text generalizing line with
  | case1 =>
      rw [List.mem_singleton.mp member]
      exact List.not_mem_nil
  | case2 rest inductionHypothesis =>
      rcases List.mem_cons.mp member with rfl | later
      · exact List.not_mem_nil
      · exact inductionHypothesis later
  | case3 rest inductionHypothesis =>
      rcases List.mem_cons.mp member with rfl | later
      · exact List.not_mem_nil
      · exact inductionHypothesis later
  | case4 c rest _ notBreak inductionHypothesis =>
      rcases exists_splitLines rest with ⟨first, more, cut⟩
      rw [cut] at member inductionHypothesis
      rcases List.mem_cons.mp member with rfl | later
      · rw [List.mem_cons, not_or]
        exact ⟨fun same => notBreak same.symm, inductionHypothesis List.mem_cons_self⟩
      · exact inductionHypothesis (List.mem_cons_of_mem first later)

/-! ## Breaks -/

theorem eq_of_mem_breaks {ending : Text} (member : ending ∈ breaks text) :
    ending = ['\r', '\n'] ∨ ending = ['\n'] := by
  fun_induction breaks text with
  | case1 => exact absurd member List.not_mem_nil
  | case2 rest inductionHypothesis =>
      exact (List.mem_cons.mp member).elim Or.inl inductionHypothesis
  | case3 rest inductionHypothesis =>
      exact (List.mem_cons.mp member).elim Or.inr inductionHypothesis
  | case4 c rest _ _ inductionHypothesis => exact inductionHypothesis member

theorem hasWideBreak_iff : hasWideBreak text = true ↔ ['\r', '\n'] ∈ breaks text := by
  rw [hasWideBreak, Option.isSome_iff_ne_none, ne_eq, find?_eq_none_iff, not_not]
  fun_induction breaks text with
  | case1 => decide
  | case2 rest _ =>
      exact iff_of_true ⟨[], rest, rfl⟩ List.mem_cons_self
  | case3 rest inductionHypothesis =>
      rw [List.infix_cons_iff, inductionHypothesis, List.mem_cons, List.cons_prefix_cons]
      exact or_congr (iff_of_false (fun begins => absurd begins.1 (by decide)) (by decide)) Iff.rfl
  | case4 c rest notWide _ inductionHypothesis =>
      rw [List.infix_cons_iff, inductionHypothesis]
      refine or_iff_right ?_
      rintro ⟨more, begins⟩
      have ends := List.cons.inj begins
      exact notWide more ends.1.symm ends.2.symm

theorem lineBreak_of_mem (wide : ['\r', '\n'] ∈ breaks text) : lineBreak text = ['\r', '\n'] :=
  if_pos (hasWideBreak_iff.mpr wide)

theorem lineBreak_of_not_mem (narrow : ['\r', '\n'] ∉ breaks text) : lineBreak text = ['\n'] :=
  if_neg (hasWideBreak_iff.not.mpr narrow)

/-! ## Joining the lines of a text -/

theorem join_cons_of_ne_nil (separator line : Text) (nonempty : lines ≠ []) :
    join separator (line :: lines) = line ++ (separator ++ join separator lines) := by
  cases lines with
  | nil => exact absurd rfl nonempty
  | cons next more => rw [join_cons_cons, List.append_assoc]

theorem join_splitLines (same : ∀ ending ∈ breaks text, ending = separator) :
    join separator (splitLines text) = text := by
  fun_induction splitLines text with
  | case1 => rfl
  | case2 rest inductionHypothesis =>
      rw [breaks, List.forall_mem_cons] at same
      rw [join_cons_of_ne_nil _ _ (splitLines_ne_nil rest), inductionHypothesis same.2, ← same.1]
      rfl
  | case3 rest inductionHypothesis =>
      rw [breaks, List.forall_mem_cons] at same
      rw [join_cons_of_ne_nil _ _ (splitLines_ne_nil rest), inductionHypothesis same.2, ← same.1]
      rfl
  | case4 c rest notWide notBreak inductionHypothesis =>
      rw [breaks.eq_4 c rest notWide notBreak] at same
      have joined := inductionHypothesis same
      rcases exists_splitLines rest with ⟨line, lines, cut⟩
      rw [cut] at joined
      rw [cut, consLine]
      cases lines with
      | nil =>
          rw [join_singleton] at joined ⊢
          rw [joined]
      | cons next more =>
          rw [join_cons_cons] at joined ⊢
          exact congrArg (List.cons c) joined

theorem join_lineBreak (alike : text.BreaksAlike) :
    join text.lineBreak text.splitLines = text := by
  refine join_splitLines fun ending member => ?_
  rcases alike with wide | narrow
  · have same := wide ending member
    rw [lineBreak_of_mem (same ▸ member), same]
  · rw [lineBreak_of_not_mem narrow]
    exact (eq_of_mem_breaks member).resolve_left fun same => narrow (same ▸ member)

/-! ## The lines of a join -/

/-- Lines that are found again when they are joined with a line break. -/
structure Separable (separator : Text) (lines : List Text) : Prop where
  /-- No line holds a line feed. -/
  whole : ∀ line ∈ lines, '\n' ∉ line
  /-- Before a narrow break no line ends in a carriage return. -/
  apart : separator = ['\r', '\n'] ∨ separator = ['\n'] ∧ ∀ number line,
    number + 1 < lines.length → lines[number]? = some line → line.getLast? ≠ some '\r'

theorem splitLines_of_not_mem (whole : '\n' ∉ line) : splitLines line = [line] := by
  induction line with
  | nil => rfl
  | cons c rest inductionHypothesis =>
      rw [List.mem_cons, not_or] at whole
      rw [splitLines_cons (Ne.symm whole.1), inductionHypothesis whole.2]
      · rfl
      · rintro _ more rfl
        exact whole.2 List.mem_cons_self

theorem splitLines_append_break {ending : Text} (whole : '\n' ∉ line)
    (apart : ending = ['\r', '\n'] ∨ ending = ['\n'] ∧ line.getLast? ≠ some '\r') (rest : Text) :
    splitLines (line ++ (ending ++ rest)) = line :: splitLines rest := by
  induction line with
  | nil =>
      rcases apart with rfl | ⟨rfl, _⟩
      · rfl
      · rfl
  | cons c line inductionHypothesis =>
      rw [List.mem_cons, not_or] at whole
      have further : ending = ['\r', '\n'] ∨ ending = ['\n'] ∧ line.getLast? ≠ some '\r' := by
        refine apart.imp_right fun narrow => ⟨narrow.1, fun returned => narrow.2 ?_⟩
        rw [List.getLast?_cons, returned]
        rfl
      rw [List.cons_append, splitLines_cons (Ne.symm whole.1), inductionHypothesis whole.2 further]
      · rfl
      · rintro isReturn more begins
        cases line with
        | nil =>
            rcases apart with rfl | ⟨rfl, clean⟩
            · exact absurd (List.cons.inj begins).1 (by decide)
            · exact clean (congrArg some isReturn)
        | cons d line => exact whole.2 ((List.cons.inj begins).1 ▸ List.mem_cons_self)

theorem Separable.tail (separable : Separable separator (line :: lines)) :
    Separable separator lines where
  whole other member := separable.whole other (List.mem_cons_of_mem line member)
  apart := separable.apart.imp_right fun narrow => ⟨narrow.1, fun number other further held =>
    narrow.2 (number + 1) other (Nat.succ_lt_succ further) held⟩

theorem splitLines_join (separable : Separable separator lines) (nonempty : lines ≠ []) :
    splitLines (join separator lines) = lines := by
  induction lines with
  | nil => exact absurd rfl nonempty
  | cons line rest inductionHypothesis =>
      have whole := separable.whole line List.mem_cons_self
      cases rest with
      | nil => rw [join_singleton, splitLines_of_not_mem whole]
      | cons next more =>
          rw [join_cons_of_ne_nil _ _ (List.cons_ne_nil next more),
            splitLines_append_break whole ?_,
            inductionHypothesis separable.tail (List.cons_ne_nil next more)]
          exact separable.apart.imp_right fun narrow =>
            ⟨narrow.1, narrow.2 0 line (by simp) rfl⟩

/-- A line may be exchanged for another of its kind. -/
theorem Separable.set (separable : Separable separator lines) {revised : Text}
    (held : lines[number]? = some line) (whole : '\n' ∉ revised)
    (clean : revised.getLast? = some '\r' → line.getLast? = some '\r') :
    Separable separator (lines.set number revised) where
  whole other member := by
    rcases List.mem_or_eq_of_mem_set member with kept | same
    · exact separable.whole other kept
    · exact same ▸ whole
  apart := separable.apart.imp_right fun narrow => ⟨narrow.1, fun place other further found => by
    rw [List.length_set] at further
    rw [List.getElem?_set] at found
    split at found
    · next same =>
        rw [if_pos (List.getElem?_eq_some_iff.mp held).1] at found
        cases found
        exact fun returned => narrow.2 number line (same ▸ further) held (clean returned)
    · exact narrow.2 place other further found⟩

/-- What stands before a line is as many lines, each with a break behind it. -/
theorem Separable.before (separable : Separable separator lines) (listed : number < lines.length) :
    Separable separator (lines.take number ++ [[]]) where
  whole other member := by
    rcases List.mem_append.mp member with ahead | last
    · exact separable.whole other (List.mem_of_mem_take ahead)
    · rw [List.mem_singleton.mp last]
      exact List.not_mem_nil
  apart := separable.apart.imp_right fun narrow => ⟨narrow.1, fun place other further found => by
    rw [List.length_append, List.length_take_of_le (Nat.le_of_lt listed), List.length_singleton]
      at further
    rw [List.getElem?_append_left
      (by rw [List.length_take_of_le (Nat.le_of_lt listed)]; omega), List.getElem?_take_of_lt
      (by omega)] at found
    exact narrow.2 place other (by omega) found⟩

/-- A line that is exchanged leaves the joined text before it and behind it as it is. -/
theorem exists_join_set (separator : Text) (held : lines[number]? = some line) :
    ∃ back, ∀ revised, join separator (lines.set number revised) =
      join separator (lines.take number ++ [[]]) ++ (revised ++ back) := by
  induction lines generalizing number with
  | nil => cases held
  | cons first rest inductionHypothesis =>
      cases number with
      | zero =>
          cases rest with
          | nil => exact ⟨[], fun revised => by rw [List.append_nil]; exact join_singleton _ _⟩
          | cons next more =>
              exact ⟨separator ++ join separator (next :: more), fun revised =>
                join_cons_of_ne_nil separator revised (List.cons_ne_nil next more)⟩
      | succ number =>
          rcases inductionHypothesis held with ⟨back, joined⟩
          refine ⟨back, fun revised => ?_⟩
          have nonempty : rest.set number revised ≠ [] := by
            refine List.length_pos_iff.mp ?_
            rw [List.length_set]
            exact Nat.zero_lt_of_lt
              (Nat.lt_of_succ_lt_succ (List.getElem?_eq_some_iff.mp held).1)
          rw [List.set_cons_succ, join_cons_of_ne_nil _ _ nonempty, joined revised,
            List.take_succ_cons, List.cons_append,
            join_cons_of_ne_nil _ _ (List.append_ne_nil_of_right_ne_nil _ (List.cons_ne_nil _ _))]
          simp only [List.append_assoc]

/-! ## The lines of a text -/

theorem exists_break_of_empty (cut : splitLines text = [] :: lines) (several : lines ≠ []) :
    (∃ rest, text = '\n' :: rest) ∨ ['\r', '\n'] ∈ breaks text := by
  unfold splitLines at cut
  split at cut
  · exact absurd (List.cons.inj cut).2.symm several
  · exact Or.inr List.mem_cons_self
  · exact Or.inl ⟨_, rfl⟩
  · next c rest _ _ =>
      rcases exists_splitLines rest with ⟨line, more, first⟩
      rw [first, consLine] at cut
      exact absurd (List.cons.inj cut).1 (List.cons_ne_nil c line)

/-- Before a narrow break no line of a text ends in a carriage return. -/
theorem getLast?_of_narrow (narrow : ['\r', '\n'] ∉ breaks text)
    (further : number + 1 < (splitLines text).length)
    (held : (splitLines text)[number]? = some line) : line.getLast? ≠ some '\r' := by
  fun_induction splitLines text generalizing number line with
  | case1 => exact absurd further (by simp)
  | case2 rest _ => exact absurd List.mem_cons_self narrow
  | case3 rest inductionHypothesis =>
      cases number with
      | zero =>
          cases held
          nofun
      | succ number =>
          rw [breaks, List.mem_cons, not_or] at narrow
          exact inductionHypothesis narrow.2 (Nat.lt_of_succ_lt_succ further) held
  | case4 c rest notWide notBreak inductionHypothesis =>
      rw [breaks.eq_4 c rest notWide notBreak] at narrow
      rcases exists_splitLines rest with ⟨first, more, cut⟩
      rw [cut] at inductionHypothesis
      rw [cut, consLine] at further held
      cases number with
      | succ number => exact inductionHypothesis narrow further held
      | zero =>
          have same := Option.some.inj held
          rw [← same]
          cases first with
          | cons d first =>
              rw [List.getLast?_cons_cons]
              exact @inductionHypothesis (d :: first) 0 narrow further rfl
          | nil =>
              intro returned
              have isReturn := Option.some.inj returned
              have several : more ≠ [] := List.length_pos_iff.mp (Nat.lt_of_succ_lt_succ further)
              rcases exists_break_of_empty cut several with ⟨tail, begins⟩ | wide
              · exact notWide tail isReturn begins
              · exact narrow wide

theorem separable_splitLines (text : Text) : Separable text.lineBreak text.splitLines where
  whole _ member := not_mem_of_mem_splitLines member
  apart := by
    by_cases wide : ['\r', '\n'] ∈ breaks text
    · exact Or.inl (lineBreak_of_mem wide)
    · exact Or.inr ⟨lineBreak_of_not_mem wide, fun _ _ => getLast?_of_narrow wide⟩

/-! ## Lines of a text with another stretch in it -/

@[simp] theorem length_splitLines (text : Text) : text.splitLines.length = text.count '\n' + 1 := by
  fun_induction splitLines text with
  | case1 => rfl
  | case2 rest inductionHypothesis =>
      rw [List.length_cons, inductionHypothesis, List.count_cons_of_ne (by decide),
        List.count_cons_self]
  | case3 rest inductionHypothesis =>
      rw [List.length_cons, inductionHypothesis, List.count_cons_self]
  | case4 c rest _ notBreak inductionHypothesis =>
      rcases exists_splitLines rest with ⟨line, lines, cut⟩
      rw [cut] at inductionHypothesis
      rw [cut, List.count_cons_of_ne notBreak]
      exact inductionHypothesis

/-- A stretch without a line feed goes into the first line of what follows. -/
theorem exists_splitLines_append {middle : Text} (whole : '\n' ∉ middle) (back : Text) :
    ∃ line, splitLines (middle ++ back) = line :: (splitLines back).tail := by
  induction middle with
  | nil =>
      rcases exists_splitLines back with ⟨line, lines, cut⟩
      exact ⟨line, by rw [List.nil_append, cut, List.tail_cons]⟩
  | cons c middle inductionHypothesis =>
      rw [List.mem_cons, not_or] at whole
      rcases inductionHypothesis whole.2 with ⟨line, cut⟩
      by_cases wide : c = '\r' ∧ ∃ more, middle ++ back = '\n' :: more
      · rcases wide with ⟨rfl, more, begins⟩
        -- The stretch ends here: its last character belongs to the break behind it.
        have ends : middle = [] := by
          cases middle with
          | nil => rfl
          | cons d middle => exact absurd ((List.cons.inj begins).1 ▸ List.mem_cons_self) whole.2
        rw [ends, List.nil_append] at begins
        rw [ends, begins]
        exact ⟨[], rfl⟩
      · refine ⟨c :: line, ?_⟩
        rw [List.cons_append, splitLines_cons (Ne.symm whole.1)
          fun isReturn more begins => wide ⟨isReturn, more, begins⟩, cut]
        rfl

/-- A character in front of some lines changes the first of them only. -/
theorem exists_consLine_set (c : Char) (lines : List Text) (number : Nat) (line : Text) :
    ∃ revised, consLine c (lines.set number line) = (consLine c lines).set number revised := by
  cases lines with
  | nil => exact ⟨[c], by cases number <;> rfl⟩
  | cons first rest =>
      cases number with
      | zero => exact ⟨c :: line, rfl⟩
      | succ number => exact ⟨line, rfl⟩

/-- Of two texts that differ in a stretch without a line feed, one has the lines of the other but
for the line that the stretch stands on. -/
theorem exists_splitLines_exchange (front : Text) {old new : Text} (oldWhole : '\n' ∉ old)
    (newWhole : '\n' ∉ new) (back : Text) :
    ∃ line, splitLines (front ++ (new ++ back)) =
      (splitLines (front ++ (old ++ back))).set (front.count '\n') line := by
  fun_induction splitLines front with
  | case1 =>
      rcases exists_splitLines_append oldWhole back with ⟨shown, before⟩
      rcases exists_splitLines_append newWhole back with ⟨line, after⟩
      exact ⟨line, by rw [List.nil_append, List.nil_append, before, after]; rfl⟩
  | case2 rest inductionHypothesis =>
      rcases inductionHypothesis with ⟨line, cut⟩
      refine ⟨line, ?_⟩
      rw [List.count_cons_of_ne (by decide), List.count_cons_self]
      exact congrArg (List.cons []) cut
  | case3 rest inductionHypothesis =>
      rcases inductionHypothesis with ⟨line, cut⟩
      refine ⟨line, ?_⟩
      rw [List.count_cons_self]
      exact congrArg (List.cons []) cut
  | case4 c rest notWide notBreak inductionHypothesis =>
      rw [List.count_cons_of_ne notBreak]
      cases rest with
      | nil =>
          -- The stretch goes on with the line of the character, which may be a carriage return.
          have joined : ∀ middle : Text, '\n' ∉ middle → '\n' ∉ c :: middle :=
            fun middle whole => List.not_mem_cons_of_ne_of_not_mem (Ne.symm notBreak) whole
          rcases exists_splitLines_append (joined old oldWhole) back with ⟨shown, before⟩
          rcases exists_splitLines_append (joined new newWhole) back with ⟨line, after⟩
          exact ⟨line, after.trans (congrArg (fun lines : List Text => lines.set 0 line) before).symm⟩
      | cons d more =>
          rcases inductionHypothesis with ⟨line, cut⟩
          have apart : ∀ tail : Text, splitLines (c :: d :: more ++ tail) =
              consLine c (splitLines (d :: more ++ tail)) := fun tail =>
            splitLines_cons notBreak fun isReturn rest begins =>
              notWide more isReturn (congrArg (· :: more) (List.cons.inj begins).1)
          rcases exists_consLine_set c (splitLines (d :: more ++ (old ++ back)))
            ((d :: more).count '\n') line with ⟨revised, set⟩
          exact ⟨revised, by rw [apart, apart, cut, set]⟩

/-- Two texts have as many lines, and under all but some numbers the same ones. -/
structure SameLinesBut (numbers : List Nat) (before after : Text) : Prop where
  /-- There are as many lines. -/
  length : after.splitLines.length = before.splitLines.length
  /-- Every other number stands for the line that it stood for. -/
  same : ∀ number ∉ numbers, after.splitLines[number]? = before.splitLines[number]?

namespace SameLinesBut

variable {numbers more : List Nat} {first second third : Text}

theorem refl (numbers : List Nat) (text : Text) : SameLinesBut numbers text text :=
  ⟨rfl, fun _ _ => rfl⟩

theorem trans (before : SameLinesBut numbers first second)
    (after : SameLinesBut more second third) : SameLinesBut (numbers ++ more) first third where
  length := after.length.trans before.length
  same number outside := by
    rw [List.mem_append, not_or] at outside
    exact (after.same number outside.2).trans (before.same number outside.1)

theorem of_set {number : Nat} {line : Text}
    (set : second.splitLines = first.splitLines.set number line) :
    SameLinesBut [number] first second where
  length := by rw [set, List.length_set]
  same other outside := by
    rw [set, List.getElem?_set_ne (Ne.symm (List.ne_of_not_mem_cons outside))]

/-- As many lines are as many line feeds. -/
theorem count (same : SameLinesBut numbers first second) : second.count '\n' = first.count '\n' :=
  Nat.succ.inj ((length_splitLines second).symm.trans
    (same.length.trans (length_splitLines first)))

end SameLinesBut

end Text
end Crosslink
