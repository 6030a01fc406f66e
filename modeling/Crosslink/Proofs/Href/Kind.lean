import Mathlib.Data.List.Basic
import Crosslink.Href.Kind
import Crosslink.Proofs.Href.Parts
import Crosslink.Text.Letter

namespace Crosslink

/-!
Texts that begin with a word in whatever case.  The word is given in small letters, and a text
begins with it if its first characters stand for these letters.  So what is said of a longer word
holds of the words that it begins with, and the first character of the text decides which words it
can begin with at all.
-/

namespace Text

variable {text start rest : Text}

theorem afterFolded?_cons_eq_some_iff {c p : Char} :
    afterFolded? (p :: start) (c :: text) = some rest ↔
      foldLetter c = p ∧ afterFolded? start text = some rest := by
  rw [afterFolded?]
  by_cases same : foldLetter c = p
  · rw [if_pos same]
    exact (and_iff_right same).symm
  · rw [if_neg same]
    exact iff_of_false nofun fun both => same both.1

/-- What stands behind a word is found, however the word is spelled. -/
@[simp] theorem afterFolded?_append (spelled rest : Text) :
    afterFolded? (spelled.map foldLetter) (spelled ++ rest) = some rest := by
  induction spelled with
  | nil => rfl
  | cons c spelled inductionHypothesis =>
      exact afterFolded?_cons_eq_some_iff.mpr ⟨rfl, inductionHypothesis⟩

theorem exists_spelled_of_afterFolded? (found : afterFolded? start text = some rest) :
    ∃ spelled, text = spelled ++ rest ∧ spelled.map foldLetter = start := by
  induction start generalizing text with
  | nil => exact ⟨[], Option.some.inj found, rfl⟩
  | cons p start inductionHypothesis =>
      cases text with
      | nil => cases found
      | cons c more =>
          rcases afterFolded?_cons_eq_some_iff.mp found with ⟨same, further⟩
          rcases inductionHypothesis further with ⟨spelled, rfl, folded⟩
          exact ⟨c :: spelled, rfl, by rw [List.map_cons, same, folded]⟩

theorem afterFolded?_eq_some_iff :
    afterFolded? start text = some rest ↔
      ∃ spelled, text = spelled ++ rest ∧ spelled.map foldLetter = start := by
  constructor
  · exact exists_spelled_of_afterFolded?
  · rintro ⟨spelled, rfl, rfl⟩
    exact afterFolded?_append spelled rest

/-- A text begins with a word in whatever case if its first characters stand for its letters. -/
theorem startsWithFolded_iff :
    startsWithFolded text start = true ↔
      ∃ spelled rest, text = spelled ++ rest ∧ spelled.map foldLetter = start := by
  rw [startsWithFolded, Option.isSome_iff_exists]
  constructor
  · rintro ⟨rest, found⟩
    rcases afterFolded?_eq_some_iff.mp found with ⟨spelled, both⟩
    exact ⟨spelled, rest, both⟩
  · rintro ⟨spelled, rest, both⟩
    exact ⟨rest, afterFolded?_eq_some_iff.mpr ⟨spelled, both⟩⟩

theorem startsWithFolded_of_append (first second : Text)
    (begins : startsWithFolded text (first ++ second) = true) :
    startsWithFolded text first = true := by
  rcases startsWithFolded_iff.mp begins with ⟨spelled, rest, whole, folded⟩
  rcases List.map_eq_append_iff.mp folded with ⟨here, behind, joined, same, _⟩
  rw [joined, List.append_assoc] at whole
  exact startsWithFolded_iff.mpr ⟨here, _, whole, same⟩

/-- The first character of a text stands for the first letter of each word that it begins with. -/
theorem foldLetter_of_startsWithFolded {c p : Char}
    (begins : startsWithFolded (c :: text) (p :: start) = true) : foldLetter c = p := by
  rcases startsWithFolded_iff.mp begins with ⟨spelled, rest, whole, folded⟩
  cases spelled with
  | nil => cases folded
  | cons d spelled =>
      rw [(List.cons.inj whole).1]
      exact (List.cons.inj folded).1

end Text

/-!
## Hrefs that no revision touches

Some are told by their first character.  The others are sorted twice, into kinds and into those that
are external and those that are not; the two sortings ask for different beginnings, and they agree
but for schemes that have no kind of their own.
-/

namespace Href

@[simp] theorem isSkipped_nil (exclusions : List Text) : isSkipped exclusions [] = true := rfl

private theorem trim_hash (rest : Text) : ∃ kept, Text.trim ('#' :: rest) = '#' :: kept := by
  have notBlank : isBlank '#' = false := by decide
  have begins : Text.trimStart ('#' :: rest) = '#' :: rest :=
    List.dropWhile_cons_of_neg (by rw [notBlank]; exact Bool.false_ne_true)
  rw [Text.trim, begins]
  exact Text.exists_dropEndWhile_cons '#' rest ⟨'#', List.mem_cons_self, notBlank⟩

/-- An href that only names an anchor points into its own document. -/
theorem isSkipped_hash (exclusions : List Text) (rest : Text) :
    isSkipped exclusions ('#' :: rest) = true := by
  rcases trim_hash rest with ⟨kept, trimmed⟩
  have external : isExternal ('#' :: rest) = true := by
    simp only [isExternal, trimmed]
    exact Bool.or_true _
  rw [isSkipped, external, Bool.or_true, Bool.true_or, Bool.true_or]

/-- An href that a revision may touch has something in front of its anchor. -/
theorem withoutAnchor_ne_nil {exclusions : List Text} {href : Text}
    (unskipped : isSkipped exclusions href = false) : withoutAnchor href ≠ [] := by
  intro empty
  have whole := withoutAnchor_append_anchor href
  rw [empty, List.nil_append] at whole
  rcases isAnchor_split href with nothing | ⟨rest, marked⟩
  · rw [← whole, show anchor href = [] from nothing, isSkipped_nil] at unskipped
    cases unskipped
  · rw [← whole, show anchor href = '#' :: rest from marked, isSkipped_hash] at unskipped
    cases unskipped

/-- An href that a revision may touch has no path exactly if it begins with its query. -/
theorem path_eq_nil_iff {exclusions : List Text} {href : Text}
    (unskipped : isSkipped exclusions href = false) :
    (split href).path = [] ↔ href.startsWith ['?'] = true := by
  rw [Text.startsWith_iff]
  constructor
  · intro empty
    have ahead := path_append_query href
    rw [empty, List.nil_append] at ahead
    rcases (isQuery_split href).marked with none | ⟨rest, marked⟩
    · exact absurd (ahead.symm.trans none) (withoutAnchor_ne_nil unskipped)
    · have whole := withoutAnchor_append_anchor href
      rw [← ahead, marked] at whole
      exact ⟨rest ++ anchor href, whole⟩
  · rintro ⟨rest, begins⟩
    have whole := parts_append href
    cases path : (split href).path with
    | nil => rfl
    | cons c more =>
        rw [path, ← begins, List.cons_append, List.cons_append] at whole
        have question := question_not_mem_path href
        rw [path, (List.cons.inj whole).1] at question
        exact absurd List.mem_cons_self question

/-! ## Schemes -/

/-- A letter and then letters, digits and the signs that may stand in the name of a scheme. -/
def IsScheme : Text → Prop
  | [] => False
  | c :: rest => isLatin c = true ∧ ∀ d ∈ rest, isSchemeChar d = true

/-- The text begins with `http:` or `https:` in whatever case, or with a scheme and `://`. -/
def NamesScheme (text : Text) : Prop :=
  ∃ opening rest, text = opening ++ rest ∧
    (opening.map foldLetter = "http:" ∨ opening.map foldLetter = "https:" ∨
      ∃ scheme, opening = scheme ++ ("://" : Text) ∧ IsScheme scheme)

theorem hasAuthority_iff {text : Text} :
    hasAuthority text = true ↔
      ∃ scheme rest, text = scheme ++ ("://" : Text) ++ rest ∧ IsScheme scheme := by
  have ends : isSchemeChar ':' = false := by decide
  cases text with
  | nil =>
      constructor
      · intro impossible
        cases impossible
      · rintro ⟨scheme, rest, whole, _⟩
        rw [List.append_assoc] at whole
        exact absurd whole.symm (List.append_ne_nil_of_right_ne_nil _ (List.cons_ne_nil _ _))
  | cons c more =>
      rw [hasAuthority, Bool.and_eq_true, Text.startsWith_iff]
      constructor
      · rintro ⟨letter, rest, behind⟩
        refine ⟨c :: more.takeWhile isSchemeChar, rest, ?_, letter, ?_⟩
        · rw [List.cons_append, List.cons_append, List.append_assoc, behind,
            List.takeWhile_append_dropWhile]
        · exact fun d held => List.all_eq_true.mp List.all_takeWhile d held
      · rintro ⟨scheme, rest, whole, isScheme⟩
        cases scheme with
        | nil => cases isScheme
        | cons d name =>
            rcases isScheme with ⟨letter, each⟩
            rw [List.cons_append, List.cons_append, List.append_assoc] at whole
            cases whole
            refine ⟨letter, rest, ?_⟩
            -- The colon is the first character that a scheme must not hold.
            rw [List.dropWhile_append_of_pos each]
            exact (List.dropWhile_cons_of_neg (Bool.eq_false_iff.mp ends)).symm

theorem namesScheme_iff {text : Text} :
    NamesScheme text ↔ hasWebScheme text = true ∨ hasAuthority text = true := by
  rw [hasWebScheme, Bool.or_eq_true, Text.startsWithFolded_iff, Text.startsWithFolded_iff,
    hasAuthority_iff]
  constructor
  · rintro ⟨opening, rest, whole, http | https | ⟨scheme, marked, isScheme⟩⟩
    · exact Or.inl (Or.inl ⟨opening, rest, whole, http⟩)
    · exact Or.inl (Or.inr ⟨opening, rest, whole, https⟩)
    · exact Or.inr ⟨scheme, rest, marked ▸ whole, isScheme⟩
  · rintro ((⟨opening, rest, whole, http⟩ | ⟨opening, rest, whole, https⟩) |
      ⟨scheme, rest, whole, isScheme⟩)
    · exact ⟨opening, rest, whole, Or.inl http⟩
    · exact ⟨opening, rest, whole, Or.inr (Or.inl https)⟩
    · exact ⟨_, rest, whole, Or.inr (Or.inr ⟨scheme, rfl, isScheme⟩)⟩

theorem not_startsWith_of_scheme {text : Text} {c : Char} (noLetter : isLatin c = false)
    (scheme : hasWebScheme text = true ∨ hasAuthority text = true ∨
      text.startsWithFolded "mailto:" = true) : text.startsWith [c] = false := by
  rw [Bool.eq_false_iff, ne_eq, Text.startsWith_iff]
  rintro ⟨rest, rfl⟩
  have folded {p : Char} (same : foldLetter c = p) : ¬ ('a' ≤ p && p ≤ 'z') = true := by
    rw [← same, ← isLatin, noLetter]
    exact Bool.false_ne_true
  rw [hasWebScheme, Bool.or_eq_true] at scheme
  rcases scheme with (http | https) | authority | mailto
  · exact folded (Text.foldLetter_of_startsWithFolded http) (by decide)
  · exact folded (Text.foldLetter_of_startsWithFolded https) (by decide)
  · rw [List.singleton_append, hasAuthority, noLetter] at authority
    cases authority
  · exact folded (Text.foldLetter_of_startsWithFolded mailto) (by decide)

/-! ## Kinds -/

/-- An href of this kind leads out of the tree of files, or stays in its own document. -/
def Kind.leaves : Kind → Bool
  | http => true
  | mailto => true
  | anchor => true
  | relative => false
  | absolute => false
  | other => false

theorem kind_of_ne_nil {href : Text} (proper : href ≠ []) :
    kind href =
      if href.trim.startsWith ['#'] then .anchor
      else if href.trim.startsWithFolded "http://" || href.trim.startsWithFolded "https://" then
        .http
      else if href.trim.startsWithFolded "mailto:" then .mailto
      else if href.trim.startsWith ['/'] then .absolute
      else .relative :=
  if_neg fun empty => proper (List.isEmpty_iff.mp empty)

theorem hasWebScheme_of_slashes {text : Text}
    (begins : (text.startsWithFolded "http://" || text.startsWithFolded "https://") = true) :
    hasWebScheme text = true := by
  rw [hasWebScheme, Bool.or_eq_true]
  rcases Bool.or_eq_true_iff.mp begins with http | https
  · exact Or.inl (Text.startsWithFolded_of_append "http:" "//" http)
  · exact Or.inr (Text.startsWithFolded_of_append "https:" "//" https)

/-- The two ways of sorting hrefs agree but for those that name a scheme without a kind of its
own. -/
theorem isExternal_iff (href : Text) :
    isExternal href = true ↔
      (kind href).leaves = true ∨ kind href = .relative ∧ NamesScheme href.trim := by
  by_cases proper : href = []
  · have inside : isExternal [] = false := by decide
    have unsorted : kind [] = .other := rfl
    rw [proper, inside, unsorted]
    simp [Kind.leaves]
  · rw [kind_of_ne_nil proper, namesScheme_iff, isExternal]
    generalize href.trim = text
    -- The tests are made in the order in which the kinds are told apart.
    cases hash : text.startsWith ['#'] with
    | true => simp [Kind.leaves]
    | false =>
        cases slashes : text.startsWithFolded "http://" || text.startsWithFolded "https://" with
        | true => simp [Kind.leaves, hasWebScheme_of_slashes slashes]
        | false =>
            cases mailto : text.startsWithFolded "mailto:" with
            | true => simp [Kind.leaves]
            | false =>
                cases rooted : text.startsWith ['/'] with
                | false => simp [Kind.leaves]
                | true =>
                    have schemeless : ¬ (hasWebScheme text = true ∨ hasAuthority text = true) := by
                      intro scheme
                      have begins := not_startsWith_of_scheme (c := '/') (by decide)
                        (scheme.imp_right Or.inl)
                      rw [rooted] at begins
                      cases begins
                    rw [not_or, Bool.not_eq_true, Bool.not_eq_true] at schemeless
                    simp [Kind.leaves, schemeless.1, schemeless.2]

theorem isSkipped_of_leaves {href : Text} (leaves : (kind href).leaves = true)
    (exclusions : List Text) : isSkipped exclusions href = true := by
  have external : isExternal href = true := (isExternal_iff href).mpr (Or.inl leaves)
  rw [isSkipped, external, Bool.or_true, Bool.true_or, Bool.true_or]

end Href

end Crosslink
