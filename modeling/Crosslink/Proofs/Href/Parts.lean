import Crosslink.Href.Parts
import Crosslink.Proofs.Text.Pieces

namespace Crosslink
namespace Href

/-!
The three parts of an href.  Cutting loses nothing and leaves each mark in its own part.
What is read as the path of an href depends on the text in front of the query and the
anchor only, whatever path was put there.
-/

structure IsQuery (query : Text) : Prop where
  /-- The query is empty or begins with its mark. -/
  marked : query = [] ∨ ∃ rest, query = '?' :: rest
  /-- The query ends before the anchor. -/
  ends : '#' ∉ query

def IsAnchor (anchor : Text) : Prop :=
  anchor = [] ∨ ∃ rest, anchor = '#' :: rest

/-- A text that comes back letter for letter when it is written as the path of an href. -/
def Plain (text : Text) : Prop :=
  ∀ c ∈ text, c ≠ '\\' ∧ c ≠ '?' ∧ c ≠ '#'

-- The instance is named, since one could also be found that goes through all characters.
instance (text : Text) : Decidable (Plain text) :=
  List.decidableBAll (fun c => c ≠ '\\' ∧ c ≠ '?' ∧ c ≠ '#') text

/-- A text that holds neither of the two marks at which an href is cut. -/
def Unmarked (text : Text) : Prop :=
  '?' ∉ text ∧ '#' ∉ text

instance (text : Text) : Decidable (Unmarked text) :=
  inferInstanceAs (Decidable ('?' ∉ text ∧ '#' ∉ text))

/-- Both hrefs have the same query and the same anchor. -/
def SameMarks (href other : Text) : Prop :=
  (split href).query = (split other).query ∧ (split href).anchor = (split other).anchor

instance (href other : Text) : Decidable (SameMarks href other) :=
  inferInstanceAs (Decidable (_ ∧ _))

theorem SameMarks.symm {href other : Text} (same : SameMarks href other) : SameMarks other href :=
  ⟨same.1.symm, same.2.symm⟩

theorem SameMarks.trans {first second third : Text} (here : SameMarks first second)
    (there : SameMarks second third) : SameMarks first third :=
  ⟨here.1.trans there.1, here.2.trans there.2⟩

@[simp] theorem withoutAnchor_append_anchor (href : Text) : withoutAnchor href ++ anchor href = href :=
  Text.before_append_fromFirst '#' href

@[simp] theorem path_append_query (href : Text) :
    (split href).path ++ (split href).query = withoutAnchor href :=
  Text.before_append_fromFirst '?' (withoutAnchor href)

/-- Cutting an href loses nothing. -/
@[simp] theorem parts_append (href : Text) :
    (split href).path ++ (split href).query ++ (split href).anchor = href := by
  rw [path_append_query]
  exact withoutAnchor_append_anchor href

theorem question_not_mem_path (href : Text) : '?' ∉ (split href).path :=
  Text.not_mem_before '?' (withoutAnchor href)

theorem hash_not_mem_withoutAnchor (href : Text) : '#' ∉ withoutAnchor href :=
  Text.not_mem_before '#' href

theorem hash_not_mem_path (href : Text) : '#' ∉ (split href).path :=
  fun held => hash_not_mem_withoutAnchor href (Text.mem_of_mem_before held)

theorem mem_of_mem_path {href : Text} {c : Char} (held : c ∈ (split href).path) : c ∈ href :=
  Text.mem_of_mem_before (Text.mem_of_mem_before held)

theorem isQuery_split (href : Text) : IsQuery (split href).query where
  marked := Text.fromFirst_eq_nil_or_cons '?' (withoutAnchor href)
  ends := fun held => hash_not_mem_withoutAnchor href ((List.dropWhile_sublist _).mem held)

theorem isAnchor_split (href : Text) : IsAnchor (split href).anchor :=
  Text.fromFirst_eq_nil_or_cons '#' href

theorem path_split_append (text : Text) {query anchor : Text} (isQuery : IsQuery query)
    (isAnchor : IsAnchor anchor) :
    (split (text ++ query ++ anchor)).path = (split text).path := by
  have unanchored : withoutAnchor (text ++ query ++ anchor) = withoutAnchor (text ++ query) :=
    Text.before_append_mark (text ++ query) anchor isAnchor
  by_cases held : '#' ∈ text
  · have cut : withoutAnchor (text ++ query) = withoutAnchor text :=
      Text.before_append_of_mem query held
    simp only [split, unanchored, cut]
  · have kept : withoutAnchor (text ++ query) = text ++ query := by
      rw [withoutAnchor, Text.before_append query held, Text.before_of_not_mem isQuery.ends]
    have whole : withoutAnchor text = text := Text.before_of_not_mem held
    simp only [split, unanchored, kept, whole]
    exact Text.before_append_mark text query isQuery.marked

/-- A text without marks is its own path. -/
theorem path_split_of_not_mem {text : Text} (noQuestion : '?' ∉ text) (noHash : '#' ∉ text) :
    (split text).path = text := by
  rw [split, withoutAnchor, Text.before_of_not_mem noHash]
  exact Text.before_of_not_mem noQuestion

/-! ## Texts without marks -/

theorem unmarked_path (href : Text) : Unmarked (split href).path :=
  ⟨question_not_mem_path href, hash_not_mem_path href⟩

theorem Unmarked.of_mem {text : Text} (each : ∀ c ∈ text, c ≠ '?' ∧ c ≠ '#') : Unmarked text :=
  ⟨fun held => (each _ held).1 rfl, fun held => (each _ held).2 rfl⟩

theorem Unmarked.ne_of_mem {text : Text} (unmarked : Unmarked text) {c : Char} (held : c ∈ text) :
    c ≠ '?' ∧ c ≠ '#' :=
  ⟨fun same => unmarked.1 (same ▸ held), fun same => unmarked.2 (same ▸ held)⟩

theorem Unmarked.withoutAnchor {text : Text} (unmarked : Unmarked text) :
    Href.withoutAnchor text = text :=
  Text.before_of_not_mem unmarked.2

/-- A text without marks in front of an href becomes part of its path. -/
theorem Unmarked.split_append {text : Text} (unmarked : Unmarked text) (href : Text) :
    split (text ++ href) =
      { path := text ++ (split href).path, query := (split href).query
        anchor := (split href).anchor } := by
  have ahead : Href.withoutAnchor (text ++ href) = text ++ Href.withoutAnchor href :=
    Text.before_append href unmarked.2
  simp only [split, anchor, ahead, Text.before_append _ unmarked.1,
    Text.fromFirst_append _ unmarked.1, Text.fromFirst_append _ unmarked.2]

/-- A query and an anchor are cut where they were put together. -/
theorem split_query_append_anchor {query anchor : Text} (isQuery : IsQuery query)
    (isAnchor : IsAnchor anchor) :
    split (query ++ anchor) = { path := [], query, anchor } := by
  have unanchored : withoutAnchor (query ++ anchor) = query :=
    (Text.before_append_mark query anchor isAnchor).trans (Text.before_of_not_mem isQuery.ends)
  have anchored : Href.anchor (query ++ anchor) = anchor := by
    rw [Href.anchor, Text.fromFirst_append anchor isQuery.ends]
    rcases isAnchor with rfl | ⟨rest, rfl⟩
    · rfl
    · exact Text.fromFirst_cons_self '#' rest
  rw [split, unanchored, anchored]
  rcases isQuery.marked with rfl | ⟨rest, rfl⟩
  · rfl
  · rw [Text.before_cons_self, Text.fromFirst_cons_self]

/-- The query and the anchor that are put behind a text are read back exactly if the text holds no
mark. -/
theorem split_append_eq_iff {text query anchor : Text} (isQuery : IsQuery query)
    (isAnchor : IsAnchor anchor) :
    (split (text ++ query ++ anchor)).query = query ∧
        (split (text ++ query ++ anchor)).anchor = anchor ↔
      Unmarked text := by
  constructor
  · rintro ⟨sameQuery, sameAnchor⟩
    have whole := parts_append (text ++ query ++ anchor)
    rw [sameQuery, sameAnchor] at whole
    have path := List.append_cancel_right (List.append_cancel_right whole)
    rw [← path]
    exact unmarked_path _
  · intro unmarked
    rw [List.append_assoc, unmarked.split_append, split_query_append_anchor isQuery isAnchor]
    exact ⟨rfl, rfl⟩

/-- What stands behind the path of an href begins with one of the two marks. -/
theorem mark_of_query_append_anchor {href rest : Text} {c : Char}
    (begins : (split href).query ++ (split href).anchor = c :: rest) : c = '?' ∨ c = '#' := by
  rcases (isQuery_split href).marked with empty | ⟨query, marked⟩
  · rw [empty, List.nil_append] at begins
    rcases isAnchor_split href with none | ⟨anchor, marked⟩
    · rw [none] at begins
      cases begins
    · rw [marked] at begins
      exact Or.inr (List.cons.inj begins).1.symm
  · rw [marked] at begins
    exact Or.inl (List.cons.inj begins).1.symm

/-- What stands behind the path of an href does not begin with a dot. -/
theorem query_append_anchor_ne (href rest : Text) :
    (split href).query ++ (split href).anchor ≠ '.' :: rest := by
  intro dotted
  rcases mark_of_query_append_anchor dotted with question | hash
  · cases question
  · cases hash

/-! ## Plain texts -/

theorem Plain.noBackslash {text : Text} (plain : Plain text) : '\\' ∉ text :=
  fun held => (plain _ held).1 rfl

theorem Plain.path_split {text : Text} (plain : Plain text) : (split text).path = text :=
  path_split_of_not_mem (fun held => (plain _ held).2.1 rfl) (fun held => (plain _ held).2.2 rfl)

theorem Plain.withoutAnchor_append {text anchor : Text} (plain : Plain text)
    (isAnchor : IsAnchor anchor) : withoutAnchor (text ++ anchor) = text := by
  have noHash : '#' ∉ text := fun held => (plain _ held).2.2 rfl
  rw [withoutAnchor, Text.before_append_mark text anchor isAnchor, Text.before_of_not_mem noHash]

theorem Plain.of_mem_splitOn {text piece : Text} (plain : Plain text)
    (member : piece ∈ text.splitOn '/') : Plain piece :=
  fun c held => plain c (Text.mem_of_mem_splitOn member held)

theorem plain_join {names : List Text} (each : ∀ name ∈ names, Plain name) :
    Plain (Text.join ['/'] names) := by
  intro c held
  rcases Text.mem_join held with slash | ⟨name, member, inName⟩
  · rw [List.mem_singleton.mp slash]
    decide
  · exact each name member c inName

theorem plain_of_join {names : List Text} (plain : Plain (Text.join ['/'] names)) :
    ∀ name ∈ names, Plain name :=
  fun _ member c held => plain c (Text.mem_join_of_mem member held)

theorem plain_path {href : Text} (noBackslash : '\\' ∉ href) : Plain (split href).path := by
  intro c held
  refine ⟨?_, ?_, ?_⟩
  · intro same
    exact noBackslash (same ▸ mem_of_mem_path held)
  · intro same
    exact question_not_mem_path href (same ▸ held)
  · intro same
    exact hash_not_mem_path href (same ▸ held)

@[simp] theorem withoutAnchor_path (href : Text) : withoutAnchor (split href).path = (split href).path :=
  Text.before_of_not_mem (hash_not_mem_path href)

/-! ## Cutting and joining -/

/-- Parts that an href can be cut into.  Only an anchor may hold further marks, behind the `#`
that it begins with, and a query further question marks. -/
structure Parts.IsCut (parts : Parts) : Prop where
  /-- The path holds no mark. -/
  path : Unmarked parts.path
  /-- The query is empty or begins with `?`, and it holds no `#`. -/
  query : IsQuery parts.query
  /-- The anchor is empty or begins with `#`. -/
  anchor : IsAnchor parts.anchor

def Parts.whole (parts : Parts) : Text :=
  parts.path ++ parts.query ++ parts.anchor

theorem isCut_split (href : Text) : (split href).IsCut where
  path := unmarked_path href
  query := isQuery_split href
  anchor := isAnchor_split href

/-- Parts are found again in the href that is made of them. -/
theorem split_whole {parts : Parts} (isCut : parts.IsCut) : split parts.whole = parts := by
  rw [Parts.whole, List.append_assoc, isCut.path.split_append,
    split_query_append_anchor isCut.query isCut.anchor, List.append_nil]

/-- The anchor that an href leads to is the third of its parts, and there is none exactly if that
part is empty. -/
theorem anchor?_eq (href : Text) :
    (anchor? href).getD [] = (split href).anchor ∧
      (anchor? href = none ↔ (split href).anchor = []) := by
  have same : (split href).anchor = anchor href := rfl
  rw [anchor?, same]
  by_cases empty : anchor href = []
  · rw [empty]
    exact ⟨rfl, fun _ => rfl, fun _ => rfl⟩
  · have nonempty : ¬ (anchor href).isEmpty = true := fun none => empty (List.isEmpty_iff.mp none)
    rw [if_neg nonempty]
    exact ⟨rfl, nofun, fun impossible => absurd impossible empty⟩

/-- Cutting an href and joining its parts undo each other: the hrefs are in bijection with the
parts in which each mark keeps to its place.  What stands in front of the anchor, and the anchor
itself, are cut at the same places when they are asked for alone. -/
theorem split_bijective :
    (∀ href, (split href).IsCut ∧ (split href).whole = href) ∧
      (∀ parts : Parts, parts.IsCut → split parts.whole = parts) ∧
      ∀ href, withoutAnchor href = (split href).path ++ (split href).query ∧
        (anchor? href).getD [] = (split href).anchor ∧
        (anchor? href = none ↔ (split href).anchor = []) := by
  refine ⟨fun href => ⟨isCut_split href, parts_append href⟩, fun parts isCut => split_whole isCut,
    fun href => ?_⟩
  exact ⟨(path_append_query href).symm, anchor?_eq href⟩

/-- A query with a second question mark, and an anchor with both marks. -/
theorem split_bijective_repeated :
    let parts : Parts := { path := "a/b.md", query := "?x=1?y", anchor := "#top?z#w" }
    parts.IsCut ∧ parts.whole = ("a/b.md?x=1?y#top?z#w" : Text) ∧ split parts.whole = parts := by
  intro parts
  have isCut : parts.IsCut :=
    { path := by decide
      query := ⟨Or.inr ⟨_, rfl⟩, by decide⟩
      anchor := Or.inr ⟨_, rfl⟩ }
  exact ⟨isCut, rfl, split_bijective.2.1 parts isCut⟩

end Href
end Crosslink
