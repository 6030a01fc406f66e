import Crosslink.Markup.Inline.Span
import Crosslink.Proofs.Markup.Stencil.Target
import Crosslink.Proofs.Text.Pieces

namespace Crosslink
namespace Markup

/-!
Constructs of a filled text that hold no label: line breaks, escapes, character references and runs
of emphasis marks.  Words hold none of the marks that these are made of, and a parenthesis stands in
front of each word, so no construct of this kind reaches into one.
-/

/-! ## References end before a parenthesis -/

section Parenthesis

variable {test : Char → Bool} {stop mark : Char}

theorem before_eq_takeWhile_append (closed : test stop = false) (text : Text) :
    text.before stop = text.takeWhile test ++ Text.before stop (text.dropWhile test) := by
  have absent : stop ∉ text.takeWhile test := fun held =>
    Bool.false_ne_true (closed.symm.trans (List.mem_takeWhile_imp held))
  conv_lhs => rw [← List.takeWhile_append_dropWhile (p := test) (l := text)]
  exact Text.before_append _ absent

theorem takeWhile_before (closed : test stop = false) (text : Text) :
    (text.before stop).takeWhile test = text.takeWhile test := by
  induction text with
  | nil => rfl
  | cons c rest inductionHypothesis =>
      by_cases same : c = stop
      · subst same
        rw [Text.before_cons_self, List.takeWhile_cons_of_neg (by simp [closed])]
        rfl
      · rw [Text.before_cons_of_ne same, List.takeWhile_cons, List.takeWhile_cons,
          inductionHypothesis]

/-- What stands behind the characters that pass a test is the same before a parenthesis. -/
theorem startsWith_drop_before (closed : test stop = false) (other : mark ≠ stop) (text : Text) :
    Text.startsWith ((text.before stop).drop (text.takeWhile test).length) [mark] =
      Text.startsWith (text.drop (text.takeWhile test).length) [mark] := by
  have behind : text.drop (text.takeWhile test).length = text.dropWhile test :=
    (congrArg (List.drop _) List.takeWhile_append_dropWhile.symm).trans List.drop_left
  rw [before_eq_takeWhile_append closed, List.drop_left, behind]
  cases text.dropWhile test with
  | nil => rfl
  | cons c rest =>
      by_cases same : c = stop
      · subst same
        have differ : (mark == c) = false := beq_eq_false_iff_ne.mpr other
        rw [Text.before_cons_self, Text.startsWith, Text.startsWith, List.isPrefixOf_cons_cons,
          differ]
        rfl
      · rw [Text.before_cons_of_ne same, Text.startsWith, Text.startsWith,
          List.isPrefixOf_cons_cons, List.isPrefixOf_cons_cons, List.isPrefixOf_nil_left,
          List.isPrefixOf_nil_left]

end Parenthesis

theorem digitsUpTo?_before {isDigit : Char → Bool} (closed : isDigit '(' = false) (most : Nat)
    (text : Text) : digitsUpTo? isDigit most (text.before '(') = digitsUpTo? isDigit most text := by
  unfold digitsUpTo?
  rw [takeWhile_before closed]
  simp only [startsWith_drop_before closed (by decide : ';' ≠ '(')]

theorem numericCode?_before (mostDecimal mostHex : Nat) (text : Text) :
    numericCode? mostDecimal mostHex (text.before '(') = numericCode? mostDecimal mostHex text := by
  cases text with
  | nil => rfl
  | cons c rest =>
      by_cases same : c = '('
      · subst same
        rw [Text.before_cons_self]
        unfold numericCode? digitsUpTo?
        rfl
      · have decimal : digitsUpTo? isAsciiDigit mostDecimal (Text.before '(' (c :: rest)) =
            digitsUpTo? isAsciiDigit mostDecimal (c :: rest) := digitsUpTo?_before (by decide) _ _
        rw [Text.before_cons_of_ne same] at decimal ⊢
        unfold numericCode?
        dsimp only
        rw [decimal, digitsUpTo?_before (by decide)]

theorem named?_before (text : Text) : named? (text.before '(') = named? text := by
  let test : Char → Bool := fun c => isLatin c || isAsciiDigit c
  have closed : test '(' = false := by decide
  have name : (text.before '(').takeWhile test = text.takeWhile test := takeWhile_before closed text
  have ends : Text.startsWith ((text.before '(').drop (text.takeWhile test).length) [';'] =
      Text.startsWith (text.drop (text.takeWhile test).length) [';'] :=
    startsWith_drop_before closed (by decide) text
  unfold named?
  dsimp only
  rw [name, ends]

namespace Stencil

variable {words : Nat → Text} {stencil : Stencil} {position stop : Nat}

/-! ## Up to the next parenthesis -/

theorem before_take (c : Char) (count : Nat) (text : Text) :
    Text.before c (text.take count) = (Text.before c text).take count := by
  induction text generalizing count with
  | nil => rw [List.take_nil, Text.before, List.takeWhile_nil, List.take_nil]
  | cons first rest inductionHypothesis =>
      cases count with
      | zero => rw [List.take_zero, List.take_zero, Text.before, List.takeWhile_nil]
      | succ count =>
          by_cases same : first = c
          · subst same
            rw [List.take_succ_cons, Text.before_cons_self, Text.before_cons_self, List.take_nil]
          · rw [List.take_succ_cons, Text.before_cons_of_ne same, Text.before_cons_of_ne same,
              List.take_succ_cons, inductionHypothesis]

/-- The filled text and the outline are the same up to the first parenthesis, if each slot stands
behind one. -/
theorem before_text (behind : ∀ position, stencil.IsSlot position → ∃ earlier < position,
      stencil[earlier]? = some (.letter '(')) :
    Text.before '(' (text words stencil) = Text.before '(' stencil.outline := by
  induction stencil with
  | nil => rfl
  | cons cell rest inductionHypothesis =>
      cases cell with
      | slot number =>
          rcases behind 0 ⟨number, rfl⟩ with ⟨earlier, before, _⟩
          exact absurd before (Nat.not_lt_zero earlier)
      | letter c =>
          change Text.before '(' (c :: text words rest) = Text.before '(' (c :: outline rest)
          by_cases same : c = '('
          · subst same
            rw [Text.before_cons_self, Text.before_cons_self]
          · rw [Text.before_cons_of_ne same, Text.before_cons_of_ne same, inductionHypothesis]
            intro position slot
            rcases behind (position + 1) slot with ⟨earlier, before, held⟩
            cases earlier with
            | zero => cases held; exact absurd rfl same
            | succ earlier => exact ⟨earlier, Nat.lt_of_succ_lt_succ before, held⟩

/-- What is seen from a place up to the first parenthesis is what is seen in the outline. -/
theorem Proper.before_between (proper : stencil.Proper) (bare : ¬ stencil.IsSlot position)
    (count : Nat) :
    Text.before '(' ((filled words stencil).between (place words stencil position)
        (place words stencil position + count)) =
      Text.before '(' (stencil.drawn.between position (position + count)) := by
  have seen (source : Source) (position : Nat) :
      Text.before '(' (source.between position (position + count)) =
        (Text.before '(' (source.toList.drop position)).take count := by
    rw [Source.between_eq, List.drop_take, Nat.add_sub_cancel_left, before_take]
  rw [seen, seen]
  congr 1
  rcases Nat.le_total position stencil.length with within | beyond
  · rw [filled, drawn, drop_place within, outline, ← List.map_drop]
    refine before_text fun step slot => ?_
    rcases slot with ⟨number, held⟩
    rw [List.getElem?_drop] at held
    rcases proper.before _ number held with ⟨label, same, _, parenthesis⟩
    have further : step ≠ 0 := by
      rintro rfl
      exact bare ⟨number, held⟩
    refine ⟨label + 1 - position, by omega, ?_⟩
    rw [List.getElem?_drop, ← parenthesis]
    congr 1
    omega
  · rw [filled, drawn, List.drop_of_length_le, List.drop_of_length_le]
    · rw [length_outline]
      exact beyond
    · rw [place_of_length_le beyond]
      exact Nat.le_add_right _ _

/-! ## Line breaks and escapes -/

theorem behindBreak_scene (inert : Inert words) (bare : ¬ stencil.IsSlot position) (stop : Nat) :
    (scene words stencil stop).behindBreak (place words stencil position) =
      place words stencil ((stencil.sketch stop).behindBreak position) := by
  unfold Scene.behindBreak
  rw [← place_succ_of_not_isSlot bare]
  exact pass_filled_of_even inert even_isSpace stop (position + 1)

theorem escape?_scene (proper : stencil.Proper) (inert : Inert words)
    (held : stencil[position]? = some (.letter '\\')) (stop : Nat) :
    (scene words stencil stop).escape? (place words stencil position) =
      ((stencil.sketch stop).escape? position).map fun escape =>
        (escape.1, place words stencil escape.2) := by
  have mono : StrictMono (place words stencil) := place_strictMono inert
  have bare : ¬ stencil.IsSlot (position + 1) := proper.not_isSlot_succ held (by decide)
  unfold Scene.escape?
  have further : place words stencil (position + 2) = place words stencil position + 2 :=
    (place_succ_of_not_isSlot bare).trans (congrArg (· + 1) (place_succ_of_letter held))
  rw [← further, ← place_succ_of_letter held]
  simp only [mono.le_iff_le, getElem?_filled bare, behindBreak_scene inert bare]
  split
  · rfl
  · split
    · rfl
    · split <;> rfl

/-! ## References -/

/-- Where no parenthesis stands, no slot stands, nor right behind. -/
theorem Proper.bare_of_no_parenthesis (proper : stencil.Proper) {start : Nat}
    (bare : ¬ stencil.IsSlot start)
    (absent : ∀ place, start ≤ place → place < stop → stencil.drawn[place]? ≠ some '(') :
    stencil.BareBetween start (stop + 1) := by
  rintro position ahead before ⟨number, held⟩
  rcases proper.before position number held with ⟨label, rfl, _, parenthesis⟩
  rcases Nat.eq_or_lt_of_le ahead with same | later
  · exact bare ⟨number, same ▸ held⟩
  · exact absent (label + 1) (Nat.le_of_lt_succ later) (by omega) (drawn_of_letter parenthesis)

/-- No slot stands in a reference that begins behind a position and is made of what stands before
the next parenthesis, nor right behind it. -/
theorem Proper.bare_of_referring (proper : stencil.Proper) (bare : ¬ stencil.IsSlot position)
    {count length : Nat}
    (referring : Referring
      (Text.before '(' (stencil.drawn.between position (position + count))) length) :
    stencil.BareBetween position (position + (length - 1) + 1) := by
  have short := referring.length_le
  refine proper.bare_of_no_parenthesis bare fun spot later earlier parenthesis => ?_
  have inside : spot - position <
      (Text.before '(' (stencil.drawn.between position (position + count))).length := by omega
  have shown : (stencil.drawn.between position (position + count))[spot - position]? =
      (Text.before '(' (stencil.drawn.between position (position + count)))[spot - position]? := by
    conv_lhs => rw [← Text.before_append_fromFirst '(' (stencil.drawn.between position _)]
    exact List.getElem?_append_left inside
  have within : spot - position < (stencil.drawn.between position (position + count)).length :=
    Nat.lt_of_lt_of_le inside (List.takeWhile_sublist _).length_le
  have held : (stencil.drawn.between position (position + count))[spot - position]? = some '(' := by
    rw [Source.between_eq, List.length_drop, List.length_take] at within
    rw [Source.between_eq, List.getElem?_drop, List.getElem?_take,
      Nat.add_sub_cancel' later, if_pos (by omega), Array.getElem?_toList, parenthesis]
  exact Text.not_mem_before '(' _ (List.mem_of_getElem? (shown.symm.trans held))

theorem letter_of_bare {c : Char} (bare : ¬ stencil.IsSlot position)
    (shown : stencil.drawn[position]? = some c) : stencil[position]? = some (.letter c) := by
  cases held : stencil[position]? with
  | none => cases (drawn_of_none held).symm.trans shown
  | some cell =>
      cases cell with
      | letter own =>
          cases (drawn_of_letter held).symm.trans shown
          rfl
      | slot number => exact absurd ⟨number, held⟩ bare

theorem has_filled_of_bare (bare : ¬ stencil.IsSlot position) (mark : Char) :
    (filled words stencil).has (place words stencil position) mark =
      stencil.drawn.has position mark := by
  rw [Source.has, Source.has, getElem?_filled bare]

theorem numericCode?_scene (proper : stencil.Proper) (bare : ¬ stencil.IsSlot position)
    (mostDecimal mostHex count : Nat) :
    numericCode? mostDecimal mostHex ((filled words stencil).between (place words stencil position)
        (place words stencil position + count)) =
      numericCode? mostDecimal mostHex (stencil.drawn.between position (position + count)) := by
  rw [← numericCode?_before, proper.before_between bare, numericCode?_before]

theorem named?_scene (proper : stencil.Proper) (bare : ¬ stencil.IsSlot position) (count : Nat) :
    named? ((filled words stencil).between (place words stencil position)
        (place words stencil position + count)) =
      named? (stencil.drawn.between position (position + count)) := by
  rw [← named?_before, proper.before_between bare, named?_before]

/-- Behind a reference and at its last character stands no slot. -/
def EndsBare (stencil : Stencil) (position next : Nat) : Prop :=
  ∃ last, next = last + 1 ∧ position ≤ last ∧ ¬ stencil.IsSlot last ∧ ¬ stencil.IsSlot next

/-- A reference reads as in the outline. -/
theorem entity?_scene (proper : stencil.Proper) (inert : Inert words)
    (held : stencil[position]? = some (.letter '&')) (stop : Nat) :
    ((scene words stencil stop).entity? (place words stencil position) =
        ((stencil.sketch stop).entity? position).map fun reference =>
          (reference.1, place words stencil reference.2)) ∧
      ∀ reference, (stencil.sketch stop).entity? position = some reference →
        stencil.EndsBare position reference.2 := by
  have mono : StrictMono (place words stencil) := place_strictMono inert
  have bare : ¬ stencil.IsSlot (position + 1) := proper.not_isSlot_succ held (by decide)
  have next : place words stencil (position + 1) = place words stencil position + 1 :=
    place_succ_of_letter held
  unfold Scene.entity?
  dsimp only
  rw [← next]
  simp only [mono.le_iff_le, has_filled_of_bare bare]
  by_cases beyond : stop ≤ position + 1
  · rw [if_pos beyond, if_pos beyond]
    exact ⟨rfl, fun _ found => nomatch found⟩
  rw [if_neg beyond, if_neg beyond]
  by_cases numeric : stencil.drawn.has (position + 1) '#' = true
  · have mark : stencil[position + 1]? = some (.letter '#') :=
      letter_of_bare bare (Source.has_iff.mp numeric)
    have bareBehind : ¬ stencil.IsSlot (position + 2) := proper.not_isSlot_succ mark (by decide)
    have further : place words stencil (position + 2) = place words stencil position + 2 :=
      (place_succ_of_letter mark).trans (congrArg (· + 1) next)
    have window : place words stencil position + 11 = place words stencil (position + 2) + 9 := by
      omega
    rw [if_pos numeric, if_pos numeric, window, ← further, numericCode?_scene proper bareBehind]
    cases found : numericCode? 7 6 (stencil.drawn.between (position + 2) (position + 2 + 9)) with
    | none => exact ⟨rfl, fun _ found => nomatch found⟩
    | some result =>
        rcases result with ⟨code, length⟩
        rw [← numericCode?_before] at found
        rcases numericCode?_eq_some found with ⟨shorter, rfl, referring⟩
        have clear := proper.bare_of_referring bareBehind referring
        have nonempty : 2 ≤ shorter := by
          rcases referring.closed with ⟨body, _, _, same, _⟩
          omega
        have there : position + 2 + (shorter - 1) = position + (shorter + 1) := by omega
        have placed : place words stencil (position + 2 + (shorter - 1)) =
            place words stencil (position + 2) + (shorter - 1) :=
          BareBetween.place_add fun spot later before => clear spot later (Nat.lt_succ_of_lt before)
        rw [there] at placed clear
        refine ⟨?_, ?_⟩
        · simp only [Option.map_some, placed]
          congr 2
          omega
        · rintro reference ⟨⟩
          dsimp only
          exact ⟨position + shorter, rfl, by omega, clear _ (by omega) (by omega),
            clear _ (by omega) (by omega)⟩
  · have window : place words stencil position + 34 = place words stencil (position + 1) + 33 := by
      omega
    rw [if_neg numeric, if_neg numeric, window, named?_scene proper bare]
    cases found : named? (stencil.drawn.between (position + 1) (position + 1 + 33)) with
    | none => exact ⟨rfl, fun _ found => nomatch found⟩
    | some result =>
        rcases result with ⟨value, length⟩
        rw [← named?_before] at found
        have referring := (named?_eq_some found).2.2
        have nonempty := (named?_eq_some found).2.1
        have clear := proper.bare_of_referring bare referring
        have there : position + 1 + (length - 1) = position + length := by omega
        have placed : place words stencil (position + 1 + (length - 1)) =
            place words stencil (position + 1) + (length - 1) :=
          BareBetween.place_add fun spot later before => clear spot later (Nat.lt_succ_of_lt before)
        rw [there] at placed clear
        refine ⟨?_, ?_⟩
        · simp only [Option.map_some, placed]
          congr 2
          omega
        · rintro reference ⟨⟩
          dsimp only
          exact ⟨position + (length - 1), by omega, by omega, clear _ (by omega) (by omega),
            clear _ (by omega) (by omega)⟩

/-! ## Marks -/

theorem Proper.not_isSlot_of_mark (proper : stencil.Proper) {c : Char}
    (held : stencil[position + 1]? = some (.letter c)) (open_ : closesSlot c = false) :
    ¬ stencil.IsSlot position := by
  rintro ⟨number, slot⟩
  rcases proper.behind position number _ slot held with ⟨own, same, closes⟩
  cases same
  cases open_.symm.trans closes

/-- Emphasis marks may open and close what they may in the outline. -/
theorem run_scene (proper : stencil.Proper) (inert : Inert words) {c : Char}
    (held : stencil[position]? = some (.letter c)) (mark : c = '*' ∨ c = '_') (stop : Nat) :
    (scene words stencil stop).run (place words stencil position) c =
      (stencil.sketch stop).run position c := by
  have mono : StrictMono (place words stencil) := place_strictMono inert
  have bare : ¬ stencil.IsSlot position := not_isSlot_of_letter held
  have closed : ('(' == c) = false := by
    rcases mark with rfl | rfl <;> decide
  have passed : (filled words stencil).pass (· == c) (place words stencil stop)
        (place words stencil position) =
      place words stencil (stencil.drawn.pass (· == c) stop position) :=
    proper.pass_filled inert closed bare stop
  have length : place words stencil (stencil.drawn.pass (· == c) stop position) =
      place words stencil position + (stencil.drawn.pass (· == c) stop position - position) :=
    proper.place_pass closed bare stop
  have ahead : position ≤ stencil.drawn.pass (· == c) stop position := Source.le_pass stop position
  have clear : stencil.BareBetween position (stencil.drawn.pass (· == c) stop position + 1) :=
    proper.bare_of_closed closed bare
  have unslotted : ¬ stencil.IsSlot (stencil.drawn.pass (· == c) stop position) :=
    clear _ ahead (Nat.lt_succ_self _)
  have run : place words stencil (stencil.drawn.pass (· == c) stop position) -
      place words stencil position = stencil.drawn.pass (· == c) stop position - position := by
    omega
  have front : (if place words stencil position = 0 then ' '
        else ((filled words stencil)[place words stencil position - 1]?).getD ' ') =
      if position = 0 then ' ' else (stencil.drawn[position - 1]?).getD ' ' := by
    cases position with
    | zero => rw [place_zero, if_pos rfl, if_pos rfl]
    | succ position =>
        have earlier : ¬ stencil.IsSlot position :=
          proper.not_isSlot_of_mark held (by rcases mark with rfl | rfl <;> decide)
        rw [place_succ_of_not_isSlot earlier, if_neg (Nat.succ_ne_zero _),
          if_neg (Nat.succ_ne_zero _), Nat.add_sub_cancel, Nat.add_sub_cancel,
          getElem?_filled earlier]
  unfold Scene.run
  dsimp only
  rw [passed, front, run, getElem?_filled unslotted]
  simp only [mono.lt_iff_lt]

/-! ## Backticks -/

/-- The runs of backticks that are remembered of the filled text are those of the outline. -/
structure SameTicks (words : Nat → Text) (stencil : Stencil) (memory memory' : Memory) : Prop where
  ticks : memory'.ticks = memory.ticks.map fun run => (run.1, place words stencil run.2)
  sawAll : memory'.sawAllTicks = memory.sawAllTicks

theorem find?_filled (inert : Inert words) (stencil : Stencil) (position : Nat) :
    (filled words stencil).find? '\x60' (place words stencil position) =
      (stencil.drawn.find? '\x60' position).map (place words stencil) := by
  have even : Even (· != '\x60') := by
    intro c plain
    exact bne_iff_ne.mpr (ne_of_isInert plain (by decide))
  have mono : StrictMono (place words stencil) := place_strictMono inert
  unfold Source.find?
  rw [size_filled, size_drawn, pass_filled_of_even inert even]
  simp only [mono.lt_iff_lt]
  split <;> rfl

theorem lookup_place (length : Nat) (ticks : List (Nat × Nat)) :
    ((ticks.map fun run => (run.1, place words stencil run.2)).lookup length).getD 0 =
      place words stencil ((ticks.lookup length).getD 0) := by
  induction ticks with
  | nil => exact place_zero.symm
  | cons run rest inductionHypothesis =>
      rw [List.map_cons, List.lookup_cons, List.lookup_cons]
      cases length == run.1 with
      | true => rfl
      | false => exact inductionHypothesis

theorem backtick_of_find? {found : Nat}
    (first : stencil.drawn.find? '\x60' position = some found) :
    stencil[found]? = some (.letter '\x60') ∧ position ≤ found ∧ found < stencil.length := by
  have ahead := Source.le_of_find? first
  unfold Source.find? at first
  dsimp only at first
  split at first
  · next short =>
      cases first
      have shown : stencil.drawn[stencil.drawn.pass (· != '\x60') stencil.drawn.size position]? =
          some stencil.drawn[stencil.drawn.pass (· != '\x60') stencil.drawn.size position] :=
        Array.getElem?_eq_getElem short
      have stops := Source.test_pass_eq_false short shown
      rw [bne_eq_false_iff_eq] at stops
      rw [stops] at shown
      exact ⟨letter_of_drawn shown (by decide), ahead, size_drawn stencil ▸ short⟩
  · cases first

/-- The run of backticks that begins at a position. -/
theorem pass_backticks (proper : stencil.Proper) (inert : Inert words)
    (held : stencil[position]? = some (.letter '\x60')) (stop : Nat) :
    (filled words stencil).pass (· == '\x60') (place words stencil stop)
        (place words stencil position + 1) =
      place words stencil (stencil.drawn.pass (· == '\x60') stop (position + 1)) ∧
    place words stencil (stencil.drawn.pass (· == '\x60') stop (position + 1)) =
      place words stencil position +
        (stencil.drawn.pass (· == '\x60') stop (position + 1) - position) := by
  have bare : ¬ stencil.IsSlot (position + 1) := proper.not_isSlot_succ held (by decide)
  have next : place words stencil (position + 1) = place words stencil position + 1 :=
    place_succ_of_letter held
  have ahead : position + 1 ≤ stencil.drawn.pass (· == '\x60') stop (position + 1) :=
    Source.le_pass stop (position + 1)
  have length : place words stencil (stencil.drawn.pass (· == '\x60') stop (position + 1)) =
      place words stencil (position + 1) +
        (stencil.drawn.pass (· == '\x60') stop (position + 1) - (position + 1)) :=
    proper.place_pass (by decide) bare stop
  refine ⟨?_, by omega⟩
  rw [← next]
  exact proper.pass_filled inert (by decide) bare stop

/-- Looking for the end of a code span finds the end that is found in the outline. -/
theorem closeTicks_scene (proper : stencil.Proper) (inert : Inert words)
    (within : stop ≤ stencil.length) (length : Nat) {fuel fuel' : Nat}
    {memory memory' : Memory} (inside : position ≤ stencil.length)
    (enough : stencil.length + 1 ≤ fuel + position)
    (enough' : place words stencil stencil.length + 1 ≤ fuel' + place words stencil position)
    (same : SameTicks words stencil memory memory') :
    ((scene words stencil stop).closeTicks length fuel' (place words stencil position) memory').1 =
        ((stencil.sketch stop).closeTicks length fuel position memory).1.map
          (place words stencil) ∧
      SameTicks words stencil ((stencil.sketch stop).closeTicks length fuel position memory).2
        ((scene words stencil stop).closeTicks length fuel' (place words stencil position)
          memory').2 := by
  have mono : StrictMono (place words stencil) := place_strictMono inert
  induction fuel using Nat.strong_induction_on generalizing fuel' position memory memory' with
  | h fuel inductionHypothesis =>
    have placed := mono.monotone inside
    obtain ⟨fuel, rfl⟩ : ∃ less, fuel = less + 1 := ⟨fuel - 1, by omega⟩
    obtain ⟨fuel', rfl⟩ : ∃ less, fuel' = less + 1 := ⟨fuel' - 1, by omega⟩
    unfold Scene.closeTicks
    dsimp only
    rw [find?_filled inert]
    cases found : stencil.drawn.find? '\x60' position with
    | none => exact ⟨rfl, same.ticks, rfl⟩
    | some start =>
        rcases backtick_of_find? found with ⟨held, ahead, short⟩
        have run := pass_backticks proper inert held stop
        have further : start + 1 ≤ stencil.drawn.pass (· == '\x60') stop (start + 1) :=
          Source.le_pass stop (start + 1)
        have bounded : stencil.drawn.pass (· == '\x60') stop (start + 1) ≤ max (start + 1) stop :=
          Source.pass_le stop (start + 1)
        dsimp only [Option.map_some]
        rw [run.1, run.2, Nat.add_sub_cancel_left]
        split
        · exact ⟨congrArg some run.2.symm, same⟩
        · rw [← run.2]
          refine inductionHypothesis fuel (Nat.lt_succ_self fuel) (by omega) (by omega) ?_ ?_
          · have grown := mono (show position < stencil.drawn.pass (· == '\x60') stop (start + 1) by
              omega)
            omega
          · refine ⟨?_, same.sawAll⟩
            rw [Memory.rememberTicks, Memory.rememberTicks, same.ticks]
            rfl

/-- A run of backticks begins a code span if it does in the outline. -/
theorem ticksAt_scene (proper : stencil.Proper) (inert : Inert words)
    (within : stop ≤ stencil.length) (held : stencil[position]? = some (.letter '\x60'))
    {memory memory' : Memory} (same : SameTicks words stencil memory memory') :
    ((scene words stencil stop).ticksAt (place words stencil position) memory').1 =
        { stop := place words stencil ((stencil.sketch stop).ticksAt position memory).1.stop
          isSpan := ((stencil.sketch stop).ticksAt position memory).1.isSpan } ∧
      SameTicks words stencil ((stencil.sketch stop).ticksAt position memory).2
        ((scene words stencil stop).ticksAt (place words stencil position) memory').2 := by
  have mono : StrictMono (place words stencil) := place_strictMono inert
  have run := pass_backticks proper inert held stop
  have ahead : position + 1 ≤ stencil.drawn.pass (· == '\x60') stop (position + 1) :=
    Source.le_pass stop (position + 1)
  have bounded : stencil.drawn.pass (· == '\x60') stop (position + 1) ≤ max (position + 1) stop :=
    Source.pass_le stop (position + 1)
  have inside := lt_length_of_held held
  unfold Scene.ticksAt
  dsimp only
  rw [run.1, run.2, Nat.add_sub_cancel_left, same.sawAll, same.ticks, lookup_place]
  simp only [mono.le_iff_le]
  split
  · exact ⟨by rw [run.2], same⟩
  · have closed := closeTicks_scene proper inert within
      (stencil.drawn.pass (· == '\x60') stop (position + 1) - position)
      (show stencil.drawn.pass (· == '\x60') stop (position + 1) ≤ stencil.length by omega)
      (show stencil.length + 1 ≤ stencil.drawn.size + 1 + _ by rw [size_drawn]; omega)
      (show place words stencil stencil.length + 1 ≤ (filled words stencil).size + 1 + _ by
        rw [size_filled]; omega) same
    rw [← run.2]
    revert closed
    generalize (stencil.sketch stop).closeTicks _ _ _ memory = first
    generalize (scene words stencil stop).closeTicks _ _ _ memory' = second
    rintro ⟨ends, kept⟩
    rcases first with ⟨_ | first, _⟩ <;> rcases second with ⟨_ | second, _⟩ <;> cases ends
    · exact ⟨rfl, kept⟩
    · exact ⟨rfl, kept⟩

end Stencil
end Markup
end Crosslink
