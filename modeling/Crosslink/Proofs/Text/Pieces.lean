import Crosslink.Text.Basic
import Mathlib.Data.List.DropRight

namespace Crosslink
namespace Text

/-!
Cutting a text at a separator and joining pieces with it.  The cut is the one of the
list library, so its laws are taken from there; what is added is how prefixes, the text
before a character and the text from it on go together with joining.
-/

/-- Cutting at a separator is what the list library calls splitting. -/
theorem splitOn_eq (separator : Char) (text : Text) :
    splitOn separator text = List.splitOn separator text := by
  induction text with
  | nil => rfl
  | cons c rest inductionHypothesis =>
      rw [splitOn, inductionHypothesis, List.splitOn_cons_eq_if_modifyHead]
      by_cases same : c = separator
      · rw [if_pos same, if_pos (beq_iff_eq.mpr same)]
      · rw [if_neg same, if_neg (fun equal => same (beq_iff_eq.mp equal))]
        have nonempty := List.splitOn_ne_nil separator rest
        cases pieces : List.splitOn separator rest with
        | nil => exact absurd pieces nonempty
        | cons piece more => rfl

theorem splitOn_ne_nil (separator : Char) (text : Text) : splitOn separator text ≠ [] := by
  rw [splitOn_eq]
  exact List.splitOn_ne_nil separator text

theorem splitOn_append_cons (separator : Char) (first second : Text) :
    splitOn separator (first ++ separator :: second) =
      splitOn separator first ++ splitOn separator second := by
  rw [splitOn_eq, splitOn_eq, splitOn_eq]
  exact List.splitOn_append_cons_self first second

theorem splitOn_of_not_mem {separator : Char} {text : Text} (absent : separator ∉ text) :
    splitOn separator text = [text] := by
  rw [splitOn_eq]
  exact List.splitOn_eq_singleton absent

@[simp] theorem splitOn_cons_self (separator : Char) (rest : Text) :
    splitOn separator (separator :: rest) = [] :: splitOn separator rest := by
  rw [splitOn, if_pos rfl]

theorem splitOn_cons_of_ne {separator c : Char} (other : c ≠ separator) (rest : Text) :
    ∃ piece pieces, splitOn separator rest = piece :: pieces ∧
      splitOn separator (c :: rest) = (c :: piece) :: pieces := by
  have nonempty := splitOn_ne_nil separator rest
  cases cut : splitOn separator rest with
  | nil => exact absurd cut nonempty
  | cons piece pieces =>
      refine ⟨piece, pieces, rfl, ?_⟩
      rw [splitOn, if_neg other, cut]

/-- Pieces without the separator are found again in their join. -/
theorem splitOn_join {separator : Char} {pieces : List Text} (nonempty : pieces ≠ [])
    (absent : ∀ piece ∈ pieces, separator ∉ piece) :
    splitOn separator (join [separator] pieces) = pieces := by
  rw [splitOn_eq]
  exact List.splitOn_intercalate separator absent nonempty

theorem not_mem_of_mem_splitOn {separator : Char} {text piece : Text}
    (member : piece ∈ splitOn separator text) : separator ∉ piece := by
  induction text generalizing piece with
  | nil =>
      rw [splitOn, List.mem_singleton] at member
      rw [member]
      exact List.not_mem_nil
  | cons c rest inductionHypothesis =>
      rw [splitOn] at member
      by_cases same : c = separator
      · rw [if_pos same] at member
        rcases List.mem_cons.mp member with empty | later
        · rw [empty]
          exact List.not_mem_nil
        · exact inductionHypothesis later
      · rw [if_neg same] at member
        cases pieces : splitOn separator rest with
        | nil =>
            rw [pieces] at member
            rw [List.mem_singleton.mp member]
            exact fun held => same (List.mem_singleton.mp held).symm
        | cons first more =>
            rw [pieces] at member
            rcases List.mem_cons.mp member with longer | later
            · rw [longer]
              intro held
              rcases List.mem_cons.mp held with equal | inFirst
              · exact same equal.symm
              · exact inductionHypothesis (pieces ▸ List.mem_cons_self) inFirst
            · exact inductionHypothesis (pieces ▸ List.mem_cons_of_mem first later)

/-! ## Joining -/

@[simp] theorem join_nil (separator : Text) : join separator [] = [] := rfl

@[simp] theorem join_singleton (separator piece : Text) : join separator [piece] = piece :=
  List.intercalate_singleton

theorem join_cons_cons (separator first second : Text) (rest : List Text) :
    join separator (first :: second :: rest) =
      first ++ separator ++ join separator (second :: rest) :=
  List.intercalate_cons_cons

theorem join_append (separator : Char) {pieces more : List Text} (nonempty : pieces ≠ [])
    (further : more ≠ []) :
    join [separator] (pieces ++ more) =
      join [separator] pieces ++ separator :: join [separator] more := by
  induction pieces with
  | nil => exact absurd rfl nonempty
  | cons first rest inductionHypothesis =>
      cases rest with
      | nil =>
          cases more with
          | nil => exact absurd rfl further
          | cons second later =>
              rw [List.singleton_append, join_cons_cons, join_singleton, List.append_assoc,
                List.singleton_append]
      | cons second later =>
          have behind := inductionHypothesis (List.cons_ne_nil second later)
          calc join [separator] (first :: second :: later ++ more)
              = first ++ [separator] ++ join [separator] (second :: later ++ more) :=
                join_cons_cons ..
            _ = first ++ [separator] ++ (join [separator] (second :: later)
                  ++ separator :: join [separator] more) := by rw [behind]
            _ = join [separator] (first :: second :: later)
                  ++ separator :: join [separator] more := by
                rw [join_cons_cons, List.append_assoc _ (join _ _)]

/-- One more piece is put behind a separator. -/
theorem join_concat (separator : Char) {pieces : List Text} (nonempty : pieces ≠ []) (last : Text) :
    join [separator] (pieces ++ [last]) = join [separator] pieces ++ separator :: last := by
  rw [join_append separator nonempty (List.cons_ne_nil last []), join_singleton]

theorem join_eq_nil_iff {separator : Text} {pieces : List Text}
    (nonempty : ∀ piece ∈ pieces, piece ≠ []) : join separator pieces = [] ↔ pieces = [] := by
  constructor
  · intro empty
    cases pieces with
    | nil => rfl
    | cons first rest =>
        have firstNonempty := nonempty first List.mem_cons_self
        cases rest with
        | nil =>
            rw [join_singleton] at empty
            exact absurd empty firstNonempty
        | cons second more =>
            rw [join_cons_cons, List.append_eq_nil_iff, List.append_eq_nil_iff] at empty
            exact absurd empty.1.1 firstNonempty
  · intro empty
    rw [empty, join_nil]

theorem mem_join_of_mem {separator piece : Text} {pieces : List Text} {c : Char}
    (member : piece ∈ pieces) (held : c ∈ piece) : c ∈ join separator pieces := by
  induction pieces with
  | nil => exact absurd member List.not_mem_nil
  | cons first rest inductionHypothesis =>
      cases rest with
      | nil =>
          rw [join_singleton, ← List.mem_singleton.mp member]
          exact held
      | cons second more =>
          rw [join_cons_cons, List.mem_append, List.mem_append]
          rcases List.mem_cons.mp member with same | later
          · exact Or.inl (Or.inl (same ▸ held))
          · exact Or.inr (inductionHypothesis later)

theorem mem_join {separator : Text} {pieces : List Text} {c : Char}
    (held : c ∈ join separator pieces) : c ∈ separator ∨ ∃ piece ∈ pieces, c ∈ piece := by
  induction pieces with
  | nil => exact absurd held List.not_mem_nil
  | cons first rest inductionHypothesis =>
      cases rest with
      | nil =>
          rw [join_singleton] at held
          exact Or.inr ⟨first, List.mem_cons_self, held⟩
      | cons second more =>
          rw [join_cons_cons, List.mem_append, List.mem_append] at held
          rcases held with (inFirst | inSeparator) | inRest
          · exact Or.inr ⟨first, List.mem_cons_self, inFirst⟩
          · exact Or.inl inSeparator
          · rcases inductionHypothesis inRest with inSeparator | ⟨piece, member, inPiece⟩
            · exact Or.inl inSeparator
            · exact Or.inr ⟨piece, List.mem_cons_of_mem first member, inPiece⟩

@[simp] theorem join_splitOn (separator : Char) (text : Text) :
    join [separator] (splitOn separator text) = text := by
  rw [splitOn_eq, join, List.intercalate_splitOn]

theorem mem_of_mem_splitOn {separator : Char} {text piece : Text} {c : Char}
    (member : piece ∈ splitOn separator text) (held : c ∈ piece) : c ∈ text := by
  have joined : c ∈ join [separator] (splitOn separator text) := mem_join_of_mem member held
  rw [join_splitOn] at joined
  exact joined

/-! ## The text before a character and the text from it on -/

@[simp] theorem before_append_fromFirst (stop : Char) (text : Text) :
    before stop text ++ fromFirst stop text = text :=
  List.takeWhile_append_dropWhile

theorem not_mem_before (stop : Char) (text : Text) : stop ∉ before stop text := by
  intro held
  have passed := List.all_eq_true.mp List.all_takeWhile stop held
  rw [bne_self_eq_false] at passed
  exact Bool.false_ne_true passed

theorem mem_of_mem_before {stop c : Char} {text : Text} (held : c ∈ before stop text) :
    c ∈ text :=
  (List.takeWhile_sublist _).mem held

private theorem forall_bne_of_not_mem {stop : Char} {text : Text} (absent : stop ∉ text) :
    ∀ c ∈ text, (c != stop) = true :=
  fun _ held => bne_iff_ne.mpr fun equal => absent (equal ▸ held)

theorem before_append {stop : Char} {first : Text} (second : Text) (absent : stop ∉ first) :
    before stop (first ++ second) = first ++ before stop second :=
  List.takeWhile_append_of_pos (forall_bne_of_not_mem absent)

theorem fromFirst_append {stop : Char} {first : Text} (second : Text) (absent : stop ∉ first) :
    fromFirst stop (first ++ second) = fromFirst stop second :=
  List.dropWhile_append_of_pos (forall_bne_of_not_mem absent)

/-- Behind its first occurrence a character is looked for no further. -/
theorem before_append_of_mem {stop : Char} {first : Text} (second : Text) (held : stop ∈ first) :
    before stop (first ++ second) = before stop first := by
  induction first with
  | nil => exact absurd held List.not_mem_nil
  | cons c rest inductionHypothesis =>
      rw [List.cons_append, before, before]
      by_cases same : c = stop
      · rw [same, List.takeWhile_cons_of_neg (by simp), List.takeWhile_cons_of_neg (by simp)]
      · have later : stop ∈ rest := by
          rcases List.mem_cons.mp held with equal | later
          · exact absurd equal.symm same
          · exact later
        have passes : (c != stop) = true := bne_iff_ne.mpr same
        simp only [List.takeWhile_cons, passes, if_true]
        exact congrArg (List.cons c) (inductionHypothesis later)

@[simp] theorem before_cons_self (stop : Char) (rest : Text) : before stop (stop :: rest) = [] :=
  List.takeWhile_cons_of_neg (by rw [bne_self_eq_false]; exact Bool.false_ne_true)

theorem before_cons_of_ne {stop c : Char} (other : c ≠ stop) (rest : Text) :
    before stop (c :: rest) = c :: before stop rest :=
  List.takeWhile_cons_of_pos (bne_iff_ne.mpr other)

@[simp] theorem fromFirst_cons_self (start : Char) (rest : Text) :
    fromFirst start (start :: rest) = start :: rest :=
  List.dropWhile_cons_of_neg (by rw [bne_self_eq_false]; exact Bool.false_ne_true)

theorem before_of_not_mem {stop : Char} {text : Text} (absent : stop ∉ text) :
    before stop text = text := by
  have split : before stop (text ++ []) = text ++ before stop [] := before_append [] absent
  rw [List.append_nil] at split
  exact split.trans (List.append_nil text)

theorem fromFirst_of_not_mem {start : Char} {text : Text} (absent : start ∉ text) :
    fromFirst start text = [] := by
  have split : fromFirst start (text ++ []) = fromFirst start [] := fromFirst_append [] absent
  rw [List.append_nil] at split
  exact split

theorem before_append_mark {stop : Char} (text mark : Text)
    (marked : mark = [] ∨ ∃ rest, mark = stop :: rest) :
    before stop (text ++ mark) = before stop text := by
  by_cases held : stop ∈ text
  · exact before_append_of_mem mark held
  · rw [before_append mark held, before_of_not_mem held]
    rcases marked with empty | ⟨rest, begins⟩
    · rw [empty]
      exact List.append_nil text
    · rw [begins, before_cons_self, List.append_nil]

/-- What begins with the first occurrence of a character begins with that character. -/
theorem fromFirst_eq_nil_or_cons (start : Char) (text : Text) :
    fromFirst start text = [] ∨ ∃ rest, fromFirst start text = start :: rest := by
  induction text with
  | nil => exact Or.inl rfl
  | cons c rest inductionHypothesis =>
      by_cases same : c = start
      · rw [same, fromFirst_cons_self]
        exact Or.inr ⟨rest, rfl⟩
      · have skipped : fromFirst start (c :: rest) = fromFirst start rest :=
          List.dropWhile_cons_of_pos (bne_iff_ne.mpr same)
        rw [skipped]
        exact inductionHypothesis

theorem before_join {stop : Char} {first : Text} (rest : List Text) (absent : stop ∉ first) :
    before stop (join [stop] (first :: rest)) = first := by
  cases rest with
  | nil => rw [join_singleton, before_of_not_mem absent]
  | cons second more =>
      rw [join_cons_cons, List.append_assoc, List.singleton_append, before_append _ absent,
        before_cons_self, List.append_nil]

/-- The first piece of a text that is cut, and whether there are more. -/
theorem splitOn_eq_before_cons (separator : Char) (text : Text) :
    ∃ more, splitOn separator text = before separator text :: more ∧
      (text.contains separator = true ↔ more ≠ []) := by
  by_cases held : separator ∈ text
  · rcases fromFirst_eq_nil_or_cons separator text with ends | ⟨rest, begins⟩
    · have joined := before_append_fromFirst separator text
      rw [ends, List.append_nil] at joined
      rw [← joined] at held
      exact absurd held (not_mem_before separator text)
    · have cut := splitOn_append_cons separator (before separator text) rest
      rw [← begins, before_append_fromFirst, splitOn_of_not_mem (not_mem_before separator text)]
        at cut
      exact ⟨splitOn separator rest, cut, fun _ => splitOn_ne_nil separator rest,
        fun _ => List.contains_iff_mem.mpr held⟩
  · refine ⟨[], ?_, ?_⟩
    · rw [splitOn_of_not_mem held, before_of_not_mem held]
    · rw [List.contains_iff_mem]
      exact ⟨fun found => absurd found held, fun impossible => absurd rfl impossible⟩

/-! ## Exchanging a character -/

theorem replaceChar_of_not_mem {old : Char} (new : Char) {text : Text} (absent : old ∉ text) :
    replaceChar old new text = text := by
  have kept : text.map (fun c => if c = old then new else c) = text.map id := by
    refine List.map_congr_left ?_
    intro c held
    by_cases same : c = old
    · exact absurd (same ▸ held) absent
    · exact if_neg same
  exact kept.trans (List.map_id text)

theorem mem_replaceChar {old new : Char} {text : Text} (held : old ∈ text) :
    new ∈ replaceChar old new text :=
  List.mem_map.mpr ⟨old, held, if_pos rfl⟩

theorem not_mem_replaceChar {old new : Char} (different : new ≠ old) (text : Text) :
    old ∉ replaceChar old new text := by
  intro held
  rcases List.mem_map.mp held with ⟨c, _, exchanged⟩
  by_cases same : c = old
  · rw [if_pos same] at exchanged
    exact different exchanged
  · rw [if_neg same] at exchanged
    exact same exchanged

/-! ## Dropping at the end -/

theorem exists_dropEndWhile_cons {test : Char → Bool} (c : Char) (rest : Text)
    (stops : ∃ d ∈ c :: rest, test d = false) :
    ∃ kept, dropEndWhile test (c :: rest) = c :: kept := by
  have ahead : dropEndWhile test (c :: rest) <+: c :: rest :=
    List.rdropWhile_prefix test (c :: rest)
  have nonempty : dropEndWhile test (c :: rest) ≠ [] := by
    intro empty
    rcases stops with ⟨d, member, fails⟩
    have all := List.rdropWhile_eq_nil_iff.mp empty d member
    rw [fails] at all
    exact Bool.false_ne_true all
  rcases ahead with ⟨behind, joined⟩
  cases kept : dropEndWhile test (c :: rest) with
  | nil => exact absurd kept nonempty
  | cons d more =>
      rw [kept, List.cons_append] at joined
      exact ⟨more, by rw [(List.cons.inj joined).1]⟩

/-! ## Prefixes -/

theorem startsWith_iff {text start : Text} : startsWith text start = true ↔ start <+: text :=
  List.isPrefixOf_iff_prefix

end Text
end Crosslink
