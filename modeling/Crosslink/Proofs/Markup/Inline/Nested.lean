import Crosslink.Markup.Inline.Token

namespace Crosslink
namespace Markup

/-!
Nested ranges.  Events are balanced if every range that opens is closed again and what stands
inside is balanced too; what opens a range decides which event closes it.  Levels are then no
further information: balanced events get the levels of nested tokens, and in nested tokens the end
of a link is found by its event and its level alone, since everything inside stands deeper.
-/

/-! ## Balanced events -/

def Event.closing? : Event → Option Event
  | .linkOpen _ => some .linkClose
  | .emphasisOpen => some .emphasisClose
  | _ => none

/-- Events that close all ranges that they open, and no others. -/
inductive Balanced : List Event → Prop where
  | nil : Balanced []
  | plain {event : Event} {rest : List Event} (opensNone : event.opens = false)
      (closesNone : event.closes = false) (behind : Balanced rest) : Balanced (event :: rest)
  | range {opening closing : Event} {inside rest : List Event}
      (closes : opening.closing? = some closing) (within : Balanced inside)
      (behind : Balanced rest) : Balanced (opening :: (inside ++ closing :: rest))

namespace Balanced

theorem append {first second : List Event} (ahead : Balanced first) (behind : Balanced second) :
    Balanced (first ++ second) := by
  induction ahead with
  | nil => exact behind
  | plain opensNone closesNone _ rest => exact .plain opensNone closesNone rest
  | range closes within _ _ rest =>
      rw [List.cons_append, List.append_assoc]
      exact .range closes within rest

theorem single {event : Event} (opensNone : event.opens = false)
    (closesNone : event.closes = false) : Balanced [event] :=
  .plain opensNone closesNone .nil

/-- A range with what stands inside. -/
theorem enclose {opening closing : Event} {inside : List Event}
    (closes : opening.closing? = some closing) (within : Balanced inside) :
    Balanced (opening :: (inside ++ [closing])) :=
  .range closes within .nil

end Balanced

/-! ## Nested tokens -/

/-- Tokens at a level and deeper.  A range opens and closes at its own level, and what stands
inside is nested one level deeper. -/
inductive Nested : Nat → List Token → Prop where
  | nil (level : Nat) : Nested level []
  | plain {level : Nat} {event : Event} {rest : List Token} (opensNone : event.opens = false)
      (closesNone : event.closes = false) (behind : Nested level rest) :
      Nested level ({ level, event } :: rest)
  | range {level : Nat} {opening closing : Event} {inside rest : List Token}
      (closes : opening.closing? = some closing) (within : Nested (level + 1) inside)
      (behind : Nested level rest) :
      Nested level ({ level, event := opening } :: (inside ++ { level, event := closing } :: rest))

theorem Event.ends_of_closing? {opening closing : Event}
    (closes : opening.closing? = some closing) :
    opening.opens = true ∧ opening.closes = false ∧ closing.opens = false ∧
      closing.closes = true := by
  cases opening with
  | linkOpen _ | emphasisOpen =>
      cases closes
      exact ⟨rfl, rfl, rfl, rfl⟩
  | _ => cases closes

theorem leveled_opening {opening closing : Event} (closes : opening.closing? = some closing)
    (level : Nat) (rest : List Event) :
    leveled level (opening :: rest) =
      { level, event := opening } :: leveled (level + 1) rest := by
  have ends := Event.ends_of_closing? closes
  rw [leveled]
  simp only [ends.1, ends.2.1, if_true, Bool.false_eq_true, if_false]

theorem leveled_closing {opening closing : Event} (closes : opening.closing? = some closing)
    (level : Nat) (rest : List Event) :
    leveled (level + 1) (closing :: rest) = { level, event := closing } :: leveled level rest := by
  have ends := Event.ends_of_closing? closes
  rw [leveled]
  simp only [ends.2.2.1, ends.2.2.2, if_true, Bool.false_eq_true, if_false, Nat.add_sub_cancel]

theorem leveled_plain {event : Event} (opensNone : event.opens = false)
    (closesNone : event.closes = false) (level : Nat) (rest : List Event) :
    leveled level (event :: rest) = { level, event } :: leveled level rest := by
  rw [leveled]
  simp only [opensNone, closesNone, Bool.false_eq_true, if_false]

theorem Balanced.leveled_append {first : List Event} (balanced : Balanced first) (level : Nat)
    (rest : List Event) :
    leveled level (first ++ rest) = leveled level first ++ leveled level rest := by
  induction balanced generalizing level rest with
  | nil => rfl
  | plain opensNone closesNone _ behind =>
      rw [List.cons_append, leveled_plain opensNone closesNone, leveled_plain opensNone closesNone,
        behind, List.cons_append]
  | @range opening closing inside later closes _ _ within behind =>
      have unfolded (events : List Event) :
          leveled level (opening :: (inside ++ closing :: events)) = { level, event := opening } ::
            (leveled (level + 1) inside ++ { level, event := closing } :: leveled level events) := by
        rw [leveled_opening closes, within, leveled_closing closes]
      calc leveled level (opening :: (inside ++ closing :: later) ++ rest)
          = leveled level (opening :: (inside ++ closing :: (later ++ rest))) := by
            rw [List.cons_append, List.append_assoc, List.cons_append]
        _ = leveled level (opening :: (inside ++ closing :: later)) ++ leveled level rest := by
            rw [unfolded, unfolded, behind, List.cons_append, List.append_assoc, List.cons_append]

theorem nested_leveled {events : List Event} (balanced : Balanced events) (level : Nat) :
    Nested level (leveled level events) := by
  induction balanced generalizing level with
  | nil => exact .nil level
  | plain opensNone closesNone _ behind =>
      rw [leveled_plain opensNone closesNone]
      exact .plain opensNone closesNone (behind level)
  | range closes balanced _ within behind =>
      rw [leveled_opening closes, balanced.leveled_append, leveled_closing closes]
      exact .range closes (within (level + 1)) (behind level)

theorem Nested.le_level {level : Nat} {tokens : List Token} (nested : Nested level tokens) :
    ∀ token ∈ tokens, level ≤ token.level := by
  induction nested with
  | nil => exact fun _ member => absurd member List.not_mem_nil
  | plain _ _ _ behind =>
      intro token member
      rcases List.mem_cons.mp member with rfl | later
      · exact Nat.le_refl _
      · exact behind token later
  | range _ _ _ within behind =>
      intro token member
      rcases List.mem_cons.mp member with rfl | further
      · exact Nat.le_refl _
      · rcases List.mem_append.mp further with inside | after
        · exact Nat.le_of_succ_le (within token inside)
        · rcases List.mem_cons.mp after with rfl | later
          · exact Nat.le_refl _
          · exact behind token later

theorem Nested.exists_closing {level : Nat} {tokens : List Token} (nested : Nested level tokens)
    {ahead behind : List Token} {own : Nat} {opening closing : Event}
    (closes : opening.closing? = some closing)
    (cut : tokens = ahead ++ { level := own, event := opening } :: behind) :
    ∃ inside rest, behind = inside ++ { level := own, event := closing } :: rest ∧
      Nested (own + 1) inside := by
  have opens := (Event.ends_of_closing? closes).1
  induction nested generalizing ahead behind with
  | nil => exact absurd cut.symm (List.append_ne_nil_of_right_ne_nil ahead (List.cons_ne_nil _ _))
  | plain opensNone _ _ later =>
      rcases List.cons_eq_append_iff.mp cut with ⟨rfl, same⟩ | ⟨front, rfl, rest⟩
      · cases same
        rw [opensNone] at opens
        cases opens
      · exact later rest
  | @range level opening' closing' inside' rest' closes' nested _ within later =>
      have closesNone := (Event.ends_of_closing? closes').2.2.1
      have unlike :
          ({ level, event := closing' } : Token) ≠ { level := own, event := opening } := by
        intro same
        cases same
        rw [closesNone] at opens
        cases opens
      rcases List.cons_eq_append_iff.mp cut with ⟨rfl, same⟩ | ⟨front, rfl, rest⟩
      · cases same
        cases closes.symm.trans closes'
        exact ⟨inside', rest', rfl, nested⟩
      · rcases List.append_eq_append_iff.mp rest with
          ⟨middle, rfl, cutRest⟩ | ⟨middle, rfl, cutInside⟩
        · rcases List.cons_eq_append_iff.mp cutRest with ⟨rfl, same⟩ | ⟨front', rfl, cutLater⟩
          · exact absurd (List.cons.inj same).1.symm unlike
          · exact later cutLater
        · rcases List.cons_eq_append_iff.mp cutInside with ⟨rfl, same⟩ | ⟨front', rfl, rfl⟩
          · exact absurd (List.cons.inj same).1 unlike
          · rcases within rfl with ⟨inside, between, rfl, nestedInside⟩
            exact ⟨inside, between ++ { level, event := closing' } :: rest',
              List.append_assoc _ _ _, nestedInside⟩

end Markup
end Crosslink
