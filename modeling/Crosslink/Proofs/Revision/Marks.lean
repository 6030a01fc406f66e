import Crosslink.Proofs.Link.Nearest
import Crosslink.Proofs.Revision.Linkwise
import Crosslink.Proofs.Revision.Verdict
import Crosslink.Proofs.Text.Remainder

namespace Crosslink

/-!
Query and anchor of a repaired link.  Variants are made of the whole link, its query and anchor
included, and steps up are counted wherever they stand between slashes.  So a variant may begin
within the query or the anchor, and what was cut off there is lost.  A mark can also be gained, if
the path that is written leads through a directory whose name holds one.  As long as not both go
wrong at once, these are the only ways in which a repair changes the query or the anchor.
-/

namespace Variant

variable {href : Text} {count : Nat}

/-- Only segments of the path are left out, or there is nothing but a path. -/
def WithinPath (href : Text) (count : Nat) : Prop :=
  count ≤ (Href.split href).path.count '/' ∨
    (Href.split href).query ++ (Href.split href).anchor = []

instance (href : Text) (count : Nat) : Decidable (WithinPath href count) :=
  inferInstanceAs (Decidable (_ ∨ _))

@[simp] theorem path_append_marks (href : Text) :
    (Href.split href).path ++ ((Href.split href).query ++ (Href.split href).anchor) = href := by
  rw [← List.append_assoc, Href.parts_append]

/-- Where only segments of the path are left out, query and anchor are read as before. -/
theorem sameMarks_of_withinPath (within : WithinPath href count) :
    Href.SameMarks (dropping (href.splitOn '/') count) href := by
  have left : ∀ c ∈ Text.join ['/'] (((Href.split href).path.splitOn '/').drop count),
      c ≠ '?' ∧ c ≠ '#' := by
    intro c held
    rcases Text.mem_join held with slash | ⟨piece, member, inPiece⟩
    · rw [List.mem_singleton.mp slash]
      decide
    · exact (Href.unmarked_path href).ne_of_mem
        (Text.mem_of_mem_splitOn (List.mem_of_mem_drop member) inPiece)
  have kept : Text.join ['/'] ((href.splitOn '/').drop count) =
      Text.join ['/'] (((Href.split href).path.splitOn '/').drop count) ++
        ((Href.split href).query ++ (Href.split href).anchor) := by
    conv_lhs => rw [← path_append_marks href]
    rcases within with inside | nothing
    · exact Text.join_drop_splitOn_append inside _
    · rw [nothing, List.append_nil, List.append_nil]
  rw [Href.SameMarks, dropping, (sameMarks_dotted _).1, (sameMarks_dotted _).2, kept,
    ← List.append_assoc]
  exact (Href.split_append_eq_iff (Href.isQuery_split href) (Href.isAnchor_split href)).mpr
    (Href.Unmarked.of_mem left)

/-- Where more is left out, less is left than query and anchor. -/
theorem length_marks_lt (beyond : ¬ WithinPath href count) :
    ((Href.split (dropping (href.splitOn '/') count)).query ++
        (Href.split (dropping (href.splitOn '/') count)).anchor).length <
      ((Href.split href).query ++ (Href.split href).anchor).length := by
  rcases not_or.mp beyond with ⟨further, marked⟩
  have whole := path_append_marks href
  rcases Nat.exists_eq_add_of_lt (Nat.lt_of_not_le further) with ⟨more, counted⟩
  have behind : (href.splitOn '/').drop count =
      (((Href.split href).query ++ (Href.split href).anchor).splitOn '/').drop (more + 1) := by
    rw [← Text.drop_splitOn_append (Href.split href).path _ more, whole, counted, Nat.add_assoc]
  have parts := congrArg List.length
    (path_append_marks (Text.join ['/'] ((href.splitOn '/').drop count)))
  have shorter := Text.length_join_drop_lt '/' marked more
  rw [dropping, (sameMarks_dotted _).1, (sameMarks_dotted _).2]
  rw [behind] at parts ⊢
  rw [List.length_append] at parts
  omega

/-- A variant keeps query and anchor exactly if only segments of the path are left out. -/
theorem sameMarks_dropping_iff (href : Text) (count : Nat) :
    Href.SameMarks (dropping (href.splitOn '/') count) href ↔ WithinPath href count := by
  constructor
  · rintro ⟨sameQuery, sameAnchor⟩
    by_contra beyond
    have shorter := length_marks_lt beyond
    rw [sameQuery, sameAnchor] at shorter
    exact Nat.lt_irrefl _ shorter
  · exact sameMarks_of_withinPath

/-- A step up does not stand where the query or the anchor begins, so as long as none stands further
behind only segments of the path are left out. -/
theorem withinPath_of_level (counted : count ≤ (href.splitOn '/').count Path.up)
    (level : Path.up ∉
      (((Href.split href).query ++ (Href.split href).anchor).splitOn '/').drop 1) :
    WithinPath href count := by
  cases marks : (Href.split href).query ++ (Href.split href).anchor with
  | nil => exact Or.inr marks
  | cons mark rest =>
      refine Or.inl (counted.trans ?_)
      have other : ∀ ahead, Path.up ≠ ahead ++ Text.before '/' (mark :: rest) := by
        intro ahead same
        have isMark := Href.mark_of_query_append_anchor marks
        have notSlash : mark ≠ '/' := by
          rcases isMark with rfl | rfl <;> decide
        rw [Text.before_cons_of_ne notSlash] at same
        have held : mark ∈ Path.up := same ▸ List.mem_append_right _ List.mem_cons_self
        rw [Path.eq_of_mem_up held] at isMark
        exact absurd isMark (by decide)
      have bounded := Text.count_splitOn_append_le (Href.split href).path other
      rw [← marks, path_append_marks, List.count_eq_zero.mpr level] at bounded
      exact bounded

end Variant

namespace Check

variable {cwd file href written : Text} {rules : Rules}

/-- The path to where a path that begins with a dot leads holds no mark, unless it leads through the
names of the root. -/
theorem unmarked_relativeHref (cwd : Text) (rooted : Path.isAbsolute rules.root = true)
    (absolute : Path.isAbsolute file = true)
    (apart : (∀ folder ∈ rules.folders, folder.startsWith ['.'] = false) ∨
      Href.Unmarked rules.root)
    (dotted : written.startsWith ['.'] = true) (unmarked : Href.Unmarked written) :
    Href.Unmarked (Path.relativeHref cwd (Path.hostDir file)
      (Target.path cwd rules.folders rules.root file written)) := by
  refine Href.Unmarked.of_mem fun c held => ?_
  rcases Path.mem_relativeHref (Path.isAbsolute_hostDir absolute)
    (Target.isAbsolute_path cwd rooted absolute written) held with
    dot | slash | ⟨name, onRoute, inName⟩
  · rw [dot]
    decide
  · rw [slash]
    decide
  · have stands := Target.mem_route_path rooted absolute onRoute
    rw [unmarked.withoutAnchor] at stands
    rcases stands with up | segment | ⟨listed, inRoot⟩
    · rw [up] at inName
      rw [Path.eq_of_mem_up inName]
      decide
    · exact unmarked.ne_of_mem (Text.mem_of_mem_splitOn segment inName)
    · have rootUnmarked : Href.Unmarked rules.root := apart.resolve_left fun undotted =>
        Target.unlisted_of_dotted undotted dotted listed
      exact rootUnmarked.ne_of_mem (Path.mem_of_mem_place inRoot inName)

/-- The path that is written for a link that is repaired with a variant. -/
def mendedPath (cwd : Text) (rules : Rules) (file href candidate : Text) : Text :=
  keepDot href (Path.relativeHref cwd (Path.hostDir file)
    (Target.path cwd rules.folders rules.root file (Href.split candidate).path))

theorem unmarked_mendedPath {candidate : Text} (rooted : Path.isAbsolute rules.root = true)
    (absolute : Path.isAbsolute file = true)
    (apart : (∀ folder ∈ rules.folders, folder.startsWith ['.'] = false) ∨
      Href.Unmarked rules.root)
    (dotted : (Href.split candidate).path.startsWith ['.'] = true) :
    Href.Unmarked (mendedPath cwd rules file href candidate) := by
  have unmarked := unmarked_relativeHref cwd rooted absolute apart dotted
    (Href.unmarked_path candidate)
  refine Href.Unmarked.of_mem fun c held => ?_
  rcases mem_keepDot held with dot | slash | inPath
  · rw [dot]
    decide
  · rw [slash]
    decide
  · exact unmarked.ne_of_mem inPath

/-- Unless query or anchor are cut and a mark is gained at once, a repaired link keeps its query and
its anchor exactly if neither happens. -/
theorem sameMarks_mended_iff {count : Nat} :
    let candidate := Variant.dropping (href.splitOn '/') count
    let path := mendedPath cwd rules file href candidate
    Variant.WithinPath href count ∨ Href.Unmarked path →
      (Href.SameMarks (mended cwd rules file href candidate) href ↔
        Variant.WithinPath href count ∧ Href.Unmarked path) := by
  intro candidate path either
  have written : mended cwd rules file href candidate =
      path ++ (Href.split candidate).query ++ (Href.split candidate).anchor := rfl
  have ofCandidate : Href.SameMarks (mended cwd rules file href candidate) candidate ↔
      Href.Unmarked path := by
    rw [written]
    exact Href.split_append_eq_iff (Href.isQuery_split candidate) (Href.isAnchor_split candidate)
  have ofHref := Variant.sameMarks_dropping_iff href count
  constructor
  · intro kept
    rcases either with within | unmarked
    · exact ⟨within, ofCandidate.mp (kept.trans (ofHref.mpr within).symm)⟩
    · exact ⟨ofHref.mp ((ofCandidate.mpr unmarked).symm.trans kept), unmarked⟩
  · rintro ⟨within, unmarked⟩
    exact (ofCandidate.mpr unmarked).trans (ofHref.mpr within)

/-- A check patches a link with its nearest variant and writes a path, the variant's query and the
variant's anchor.  Unless both go wrong at once, the query and the anchor of the link are kept
exactly if the variant leaves out segments of the path only and the path that is written holds no
mark.  It holds none if no docs folder begins with a dot or the root holds none, and only segments of
the path are left out if no step up stands behind it. -/
theorem generate_sameMarks_iff (store : Store) (cwd : Text) (rules : Rules) (file : Text)
    (lines : List Text) (links : List Link) {replacement : Replacement}
    (rooted : Path.isAbsolute rules.root = true) (absolute : Path.isAbsolute file = true)
    (emitted : replacement ∈
      (generate (Files.present store) cwd rules file lines links).replacements) :
    let href := replacement.oldHref
    replacement.kind = Replacement.patched ∧
      ∃ count, Variant.Nearest store.present cwd rules file href count ∧
        let candidate := Variant.dropping (href.splitOn '/') count
        let path := mendedPath cwd rules file href candidate
        replacement.newHref =
            path ++ (Href.split candidate).query ++ (Href.split candidate).anchor ∧
          (Variant.WithinPath href count ∨ Href.Unmarked path →
            (Href.SameMarks replacement.newHref href ↔
              Variant.WithinPath href count ∧ Href.Unmarked path)) ∧
          ((∀ folder ∈ rules.folders, folder.startsWith ['.'] = false) ∨
            Href.Unmarked rules.root → Href.Unmarked path) ∧
          (Path.up ∉ (((Href.split href).query ++ (Href.split href).anchor).splitOn '/').drop 1 →
            Variant.WithinPath href count) := by
  rcases Generation.exists_of_mem_replacements emitted with
    ⟨link, _, treatment, treated, written⟩
  have copies := (governed_treat (Files.present store) cwd rules file lines).copies rules.exclusions
    link treatment replacement treated written
  rcases exists_repairable treated written with ⟨candidate, repairable, newHref, kind⟩
  rcases Variant.find?_eq_some_iff.mp repairable.found with ⟨count, nearest, rfl⟩
  rw [← copies.oldHref] at nearest newHref
  refine ⟨kind, count, nearest, newHref, ?_, ?_, Variant.withinPath_of_level nearest.counted⟩
  · rw [newHref]
    exact sameMarks_mended_iff
  · intro apart
    exact unmarked_mendedPath rooted absolute apart (Variant.startsWith_path_dotted _)

/-- A link that is patched with a variant that begins within the link's anchor. -/
theorem generate_sameMarks_iff_cut :
    let store := Store.ofFiles "/" [("/d/y.md", [])] []
    let rules : Rules := { folders := [], root := "/d", exclusions := [] }
    let link : Link :=
      { href := "../x.md#s/../y.md", text := "x", line := 1, start? := none, stop? := none }
    let replacement : Replacement :=
      { line := 1, oldHref := link.href, newHref := "../y.md", start? := none, stop? := none
        kind? := some Replacement.patched }
    (replacement ∈
        (generate (Files.present store) "/" rules "/d/a/b.md" [] [link]).replacements ∧
      Path.isAbsolute rules.root = true ∧ Path.isAbsolute "/d/a/b.md" = true) ∧
    (∃ count, Variant.Nearest store.present "/" rules "/d/a/b.md" link.href count ∧
      (Href.SameMarks replacement.newHref link.href ↔ Variant.WithinPath link.href count)) ∧
    ¬ Href.SameMarks replacement.newHref link.href := by
  intro store rules link replacement
  have emitted : replacement ∈
      (generate (Files.present store) "/" rules "/d/a/b.md" [] [link]).replacements := by
    decide +kernel
  rcases generate_sameMarks_iff store "/" rules "/d/a/b.md" [] [link] (by decide) (by decide)
    emitted with ⟨_, count, nearest, _, kept, unmarked, _⟩
  have noMark := unmarked (Or.inl (by decide))
  refine ⟨⟨emitted, by decide, by decide⟩, ⟨count, nearest, ?_⟩, by decide⟩
  exact (kept (Or.inr noMark)).trans (and_iff_left noMark)

end Check
end Crosslink
