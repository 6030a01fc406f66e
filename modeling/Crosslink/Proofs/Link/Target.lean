import Crosslink.Link.Target
import Crosslink.Proofs.Href.Parts
import Crosslink.Proofs.Path.Route

namespace Crosslink
namespace Target

/-!
Where links lead.  For an absolute file and an absolute root the three rules come down to
two: a link whose first segment is the name of a docs folder is followed from the root,
every other link from the directory of the file.  The way by the root that some links take
leads to the directory of the file first.
-/

/-- The directory from which a link is followed. -/
def origin (folders : List Text) (root file written : Text) : Text :=
  if folders.contains (written.before '/') then root else Path.hostDir file

variable {cwd root file : Text} {folders : List Text}

/-- The anchor of a link plays no part in where it leads. -/
theorem path_withoutAnchor (cwd : Text) (folders : List Text) (root file href : Text) :
    path cwd folders root file (Href.withoutAnchor href) = path cwd folders root file href := by
  have twice : Href.withoutAnchor (Href.withoutAnchor href) = Href.withoutAnchor href :=
    Text.before_of_not_mem (Href.hash_not_mem_withoutAnchor href)
  simp only [path, twice]

theorem path_eq_spell (cwd : Text) (rooted : Path.isAbsolute root = true)
    (absolute : Path.isAbsolute file = true) (href : Text) :
    path cwd folders root file href =
      Path.spell (Path.follow
        (Path.place (origin folders root file (Href.withoutAnchor href)))
        (Href.withoutAnchor href)) := by
  have hostAbsolute := Path.isAbsolute_hostDir absolute
  rw [path, origin]
  split
  · exact Path.concat_eq_spell rooted [Href.withoutAnchor href]
  · split
    · exact Path.concat_eq_spell hostAbsolute [Href.withoutAnchor href]
    · rw [Path.concat_eq_spell rooted, List.foldl_cons,
        Path.follow_relative cwd rooted hostAbsolute]
      rfl

theorem place_path (cwd : Text) (rooted : Path.isAbsolute root = true)
    (absolute : Path.isAbsolute file = true) (href : Text) :
    Path.place (path cwd folders root file href) =
      Path.follow (Path.place (origin folders root file (Href.withoutAnchor href)))
        (Href.withoutAnchor href) := by
  rw [path_eq_spell cwd rooted absolute,
    Path.place_spell (Path.follow_isPlace (Path.place_isPlace _) _)]

theorem isAbsolute_path (cwd : Text) (rooted : Path.isAbsolute root = true)
    (absolute : Path.isAbsolute file = true) (href : Text) :
    Path.isAbsolute (path cwd folders root file href) = true := by
  rw [path_eq_spell cwd rooted absolute]
  exact Path.isAbsolute_spell _

/-- On the route from a file to where a link leads stand steps up and names that are written in the
link.  Names of the root stand there only if the link begins with the name of a docs folder. -/
theorem mem_route_path (rooted : Path.isAbsolute root = true)
    (absolute : Path.isAbsolute file = true) {written name : Text}
    (onRoute : name ∈ Path.route (Path.place (Path.hostDir file))
      (Path.place (path cwd folders root file written))) :
    name = Path.up ∨ name ∈ (Href.withoutAnchor written).splitOn '/' ∨
      folders.contains ((Href.withoutAnchor written).before '/') = true ∧
        name ∈ Path.place root := by
  rw [place_path cwd rooted absolute] at onRoute
  by_cases listed : folders.contains ((Href.withoutAnchor written).before '/') = true
  · rw [origin, if_pos listed] at onRoute
    rcases Path.mem_route onRoute with climbing | inTarget
    · exact Or.inl climbing
    · rcases Path.follow_eq_take_append (Path.place root) (Href.withoutAnchor written) with
        ⟨kept, added, followed, among⟩
      rw [followed] at inTarget
      rcases List.mem_append.mp inTarget with above | below
      · exact Or.inr (Or.inr ⟨listed, List.mem_of_mem_take above⟩)
      · exact Or.inr (Or.inl (among name below))
  · rw [origin, if_neg listed] at onRoute
    exact (Path.mem_route_follow onRoute).imp_right Or.inl

/-- Two links lead to the same path if they lead to the same place. -/
theorem path_inj (rooted : Path.isAbsolute root = true) (absolute : Path.isAbsolute file = true)
    {href other : Text}
    (same : Path.place (path cwd folders root file href) =
      Path.place (path cwd folders root file other)) :
    path cwd folders root file href = path cwd folders root file other := by
  rw [place_path cwd rooted absolute, place_path cwd rooted absolute] at same
  rw [path_eq_spell cwd rooted absolute, same, ← path_eq_spell cwd rooted absolute]

/-! ## Links that begin with a dot -/

/-- A link that begins with a dot does not begin with the name of a docs folder, unless one of these
begins with a dot. -/
theorem unlisted_of_dotted (undotted : ∀ folder ∈ folders, folder.startsWith ['.'] = false)
    {written : Text} (dotted : written.startsWith ['.'] = true) :
    ¬ folders.contains (written.before '/') = true := by
  rcases Text.startsWith_iff.mp dotted with ⟨rest, begins⟩
  intro held
  have plain := undotted _ (List.contains_iff_mem.mp held)
  rw [← begins] at plain
  cases plain

/-- A link that begins with a dot is followed from the directory of its file, unless the name
of a docs folder begins with one. -/
theorem origin_of_dotted (undotted : ∀ folder ∈ folders, folder.startsWith ['.'] = false)
    {written : Text} (dotted : written.startsWith ['.'] = true) :
    origin folders root file written = Path.hostDir file :=
  if_neg (unlisted_of_dotted undotted dotted)

/-- A plain link that begins with a dot leads to where it is followed from the directory of its
file. -/
theorem place_path_of_dotted (cwd : Text) (rooted : Path.isAbsolute root = true)
    (absolute : Path.isAbsolute file = true)
    (undotted : ∀ folder ∈ folders, folder.startsWith ['.'] = false) {written : Text}
    (plain : Href.Plain written) (dotted : written.startsWith ['.'] = true) :
    Path.place (path cwd folders root file written) =
      Path.follow (Path.place (Path.hostDir file)) written := by
  have whole := plain.withoutAnchor_append (Or.inl rfl)
  rw [List.append_nil] at whole
  rw [place_path cwd rooted absolute, whole, origin_of_dotted undotted dotted]

/-! ## Plain links -/

theorem relativeHref_of_follow {base target written : Text} (cwd : Text)
    (baseAbsolute : Path.isAbsolute base = true) (targetAbsolute : Path.isAbsolute target = true)
    (plain : Href.Plain written)
    (led : Path.place target = Path.follow (Path.place base) written) :
    Href.Plain (Path.relativeHref cwd base target) ∧
      Path.follow (Path.place base) (Path.relativeHref cwd base target) = Path.place target := by
  have each : ∀ name ∈ Path.route (Path.place base) (Path.place target), Href.Plain name := by
    intro name member
    rw [led] at member
    rcases Path.mem_route_follow member with up | segment
    · rw [up]
      decide
    · exact plain.of_mem_splitOn segment
  have plainRelative : Href.Plain (Path.relative cwd base target) := by
    rw [Path.relative_eq_render cwd baseAbsolute targetAbsolute, Path.render,
      List.replicate_zero, List.nil_append]
    split
    · decide
    · exact Href.plain_join each
  refine ⟨?_, Path.follow_relativeHref cwd baseAbsolute targetAbsolute plainRelative.noBackslash⟩
  by_cases here : Path.relative cwd base target = Path.here
  · have dotted : Path.relativeHref cwd base target = ['.', '/'] := if_pos here
    rw [dotted]
    decide
  · have kept : Path.relativeHref cwd base target = Path.relative cwd base target :=
      (if_neg here).trans (Text.replaceChar_of_not_mem _ plainRelative.noBackslash)
    rw [kept]
    exact plainRelative

/-- Whatever a link stands for, it is a path of which a relative form can be asked. -/
theorem path_ne_nil (cwd : Text) (folders : List Text) (root file href : Text) :
    path cwd folders root file href ≠ [] := by
  unfold path
  dsimp only
  split
  · exact Path.concat_ne_nil _
  · split
    · exact Path.concat_ne_nil _
    · exact Path.concat_ne_nil _

/-! ## One rule for all links -/

/-- A link is joined to the directory that it is followed from, whichever way the path is made. -/
theorem path_eq_concat (cwd : Text) (rooted : Path.isAbsolute root = true)
    (absolute : Path.isAbsolute file = true) (href : Text) :
    path cwd folders root file href =
      Path.concat [origin folders root file (Href.withoutAnchor href), Href.withoutAnchor href] := by
  have originAbsolute :
      Path.isAbsolute (origin folders root file (Href.withoutAnchor href)) = true := by
    unfold origin
    split
    · exact rooted
    · exact Path.isAbsolute_hostDir absolute
  rw [path_eq_spell cwd rooted absolute]
  exact (Path.concat_eq_spell originAbsolute [Href.withoutAnchor href]).symm

/-- A link in front of its anchor is joined to the root if it begins with the name of a docs
folder, and to the directory of the file if it does not.  Where it does not, the root plays no
part, and the working directory never does. -/
theorem path?_eq_concat (cwd : Text) (rooted : Path.isAbsolute root = true)
    (absolute : Path.isAbsolute file = true) {href : Text} (written : href ≠ []) :
    let plain := href.before '#'
    path? cwd folders root file href = .ok (Path.concat
        [if folders.contains (plain.before '/') then root else Path.parent file, plain]) ∧
      (folders.contains (plain.before '/') = false → ∀ elsewhere other,
        Path.isAbsolute other = true →
          path? elsewhere folders other file href = path? cwd folders root file href) := by
  intro plain
  have joined (elsewhere : Text) {other : Text} (otherRooted : Path.isAbsolute other = true) :
      path? elsewhere folders other file href = .ok (Path.concat
        [if folders.contains (plain.before '/') then other else Path.parent file, plain]) := by
    have someLink : ¬ href.isEmpty = true := fun empty => written (List.isEmpty_iff.mp empty)
    rw [path?, if_neg someLink, path_eq_concat elsewhere otherRooted absolute, origin,
      Path.hostDir_eq_parent absolute]
    rfl
  refine ⟨joined cwd rooted, fun unlisted elsewhere other otherRooted => ?_⟩
  have unrooted : ¬ folders.contains (plain.before '/') = true := Bool.eq_false_iff.mp unlisted
  rw [joined elsewhere otherRooted, joined cwd rooted, if_neg unrooted, if_neg unrooted]

/-- A file beside the root, and a link of several segments that is written to it by way of the
root. -/
theorem path?_eq_concat_beside :
    (Path.isAbsolute "/dataset/./x" = true ∧ Path.isAbsolute "//other/../b/a.md" = true ∧
        ("/guide//c.md#top" : Text) ≠ []) ∧
      path? "/w" ["docs"] "/dataset/./x" "//other/../b/a.md" "/guide//c.md#top" =
        .ok "/b/guide/c.md" ∧
      path? "/" ["docs"] "/elsewhere" "//other/../b/a.md" "/guide//c.md#top" =
        .ok "/b/guide/c.md" := by
  have rooted : Path.isAbsolute "/dataset/./x" = true := by decide
  have absolute : Path.isAbsolute "//other/../b/a.md" = true := by decide
  have written : ("/guide//c.md#top" : Text) ≠ [] := by decide
  have joined := @path?_eq_concat "/dataset/./x" "//other/../b/a.md" ["docs"] "/w" rooted absolute
    _ written
  have found := joined.1.trans (by decide +kernel :
    _ = (.ok "/b/guide/c.md" : Except Failure Text))
  exact ⟨⟨rooted, absolute, written⟩, found,
    (joined.2 (by decide +kernel) "/" "/elsewhere" (by decide)).trans found⟩

end Target
end Crosslink
