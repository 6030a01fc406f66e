import Crosslink.Files.Disk
import Crosslink.Proofs.Data.Entries
import Crosslink.Proofs.Files.Walk
import Crosslink.Proofs.Path.Track
import Crosslink.Proofs.Text.Utf8
import Mathlib.Data.List.MinMax

namespace Crosslink

/-!
What writing to a tree changes.  Where a path leads is a matter of the tree with all its files
emptied, and a write to a file that can be read does not change that tree: the directories above
the file are there already, and all that changes is what one file holds.
-/

def Node.hollow : Node → Node
  | .file _ => .file []
  | .directory => .directory

namespace Disk

/-- The tree with all its files emptied. -/
def hollow (disk : Disk) : Disk :=
  { disk with nodes := disk.nodes.map fun entry => (entry.1, entry.2.hollow) }

def Destination.hollow : Destination → Destination
  | .found way node => .found way node.hollow
  | .vacant way => .vacant way
  | .missing => .missing
  | .blocked => .blocked
  | .tooLong => .tooLong

variable {disk other : Disk} {way : List Text} {path : Text} {old content : Bytes}

/-! ## Where a path leads -/

@[simp] theorem lookup_hollow (disk : Disk) (way : List Text) :
    disk.hollow.nodes.lookup way = (disk.nodes.lookup way).map Node.hollow := by
  rw [hollow]
  dsimp only
  induction disk.nodes with
  | nil => rfl
  | cons entry rest inductionHypothesis =>
      rw [List.map_cons, Entries.lookup_cons, Entries.lookup_cons, inductionHypothesis]
      split <;> rfl

@[simp] theorem node?_hollow (disk : Disk) (way : List Text) :
    disk.hollow.node? way = (disk.node? way).map Node.hollow := by
  unfold node?
  split
  · rfl
  · exact disk.lookup_hollow way

theorem follow_cons (disk : Disk) (way : List Text) (name : Text) (rest : List Text) :
    disk.follow way (name :: rest) =
      if name = Path.up then disk.follow way.dropLast rest
      else if nameLimit < Utf8.length name then .tooLong
      else
        match disk.node? (way ++ [name]), rest with
        | some .directory, _ => disk.follow (way ++ [name]) rest
        | some (.file content), [] => .found (way ++ [name]) (.file content)
        | some (.file _), _ => .blocked
        | none, [] => .vacant (way ++ [name])
        | none, _ => .missing := rfl

@[simp] theorem follow_hollow (disk : Disk) (way names : List Text) :
    disk.hollow.follow way names = (disk.follow way names).hollow := by
  induction names generalizing way with
  | nil => rfl
  | cons name rest inductionHypothesis =>
      rw [follow_cons, follow_cons, node?_hollow]
      split
      · exact inductionHypothesis _
      · split
        · rfl
        · cases disk.node? (way ++ [name]) with
          | none => cases rest <;> rfl
          | some node =>
              cases node with
              | directory => exact inductionHypothesis _
              | file content => cases rest <;> rfl

/-- Where a track leads that goes on where another one ends. -/
theorem follow_append (disk : Disk) (way first : List Text) {second : List Text}
    (onward : second ≠ []) :
    disk.follow way (first ++ second) =
      match disk.follow way first with
      | .found reached .directory => disk.follow reached second
      | .found _ (.file _) => .blocked
      | .vacant _ => .missing
      | .missing => .missing
      | .blocked => .blocked
      | .tooLong => .tooLong := by
  induction first generalizing way with
  | nil => rfl
  | cons name rest inductionHypothesis =>
      rw [List.cons_append, follow_cons, follow_cons]
      split
      · exact inductionHypothesis _
      · split
        · rfl
        · cases disk.node? (way ++ [name]) with
          | none =>
              cases rest with
              | nil =>
                  cases second with
                  | nil => exact absurd rfl onward
                  | cons next more => rfl
              | cons next more => rfl
          | some node =>
              cases node with
              | directory => exact inductionHypothesis _
              | file content =>
                  cases rest with
                  | nil =>
                      cases second with
                      | nil => exact absurd rfl onward
                      | cons next more => rfl
                  | cons next more => rfl

/-- A track that leads to a file comes through a directory. -/
theorem directory_of_follow_concat {first : List Text} {name : Text}
    (reached : disk.follow [] (first ++ [name]) = .found way (.file content)) :
    ∃ above, disk.follow [] first = .found above .directory := by
  rw [follow_append _ _ _ (List.cons_ne_nil name [])] at reached
  split at reached
  · next above led => exact ⟨above, led⟩
  · cases reached
  · cases reached
  · cases reached
  · cases reached
  · cases reached

/-- What a track leads to is a node of the tree. -/
theorem lookup_of_follow {start names : List Text}
    (reached : disk.follow start names = .found way (.file content)) :
    disk.nodes.lookup way = some (.file content) := by
  induction names generalizing start with
  | nil => cases reached
  | cons name rest inductionHypothesis =>
      rw [follow_cons] at reached
      split at reached
      · exact inductionHypothesis reached
      · split at reached
        · cases reached
        · cases found : disk.node? (start ++ [name]) with
          | none =>
              rw [found] at reached
              cases rest <;> cases reached
          | some node =>
              rw [found] at reached
              cases node with
              | directory => exact inductionHypothesis reached
              | file _ =>
                  cases rest with
                  | nil =>
                      cases reached
                      unfold node? at found
                      split at found
                      · cases found
                      · exact found
                  | cons next more => cases reached

/-! ## Routes -/

/-- The track of a path from the root. -/
def route (disk : Disk) (path : Text) : List Text :=
  Path.track (Path.under disk.surroundings.cwd path)

theorem locate_eq (disk : Disk) (path : Text) :
    disk.locate path =
      if pathLimit ≤ Utf8.length path then .tooLong else disk.follow [] (disk.route path) := rfl

theorem route_eq (disk : Disk) (path : Text) :
    disk.route path =
      (if Path.isAbsolute path then [] else Path.track disk.surroundings.cwd) ++
        Path.track path := by
  cases absolute : Path.isAbsolute path with
  | true => rw [route, Path.under, if_pos absolute, if_pos rfl, List.nil_append]
  | false => rw [route, Path.track_under _ absolute, if_neg Bool.false_ne_true]

theorem isAbsolute_resolve (rooted : Path.isAbsolute disk.surroundings.cwd = true) (path : Text) :
    Path.isAbsolute (disk.resolve path) = true :=
  Path.isAbsolute_absolute rooted _

@[simp] theorem route_tidy (disk : Disk) (path : Text) : disk.route (Path.tidy path) = disk.route path := by
  rw [route_eq, route_eq, Path.isAbsolute_tidy_eq, Path.track_tidy]

theorem route_under (disk : Disk) (directory : Text) {name : Text} (isName : Path.IsName name) :
    disk.route (Path.under directory name) = disk.route directory ++ [name] := by
  rw [route, Path.under_under _ _ isName.not_isAbsolute,
    Path.track_under _ isName.not_isAbsolute, isName.isStep.track]
  rfl

/-- The way to what a path leads to, whatever the length of the path. -/
def place (disk : Disk) (path : Text) : List Text :=
  match disk.follow [] (disk.route path) with
  | .found way _ => way
  | _ => []

@[simp] theorem place_hollow (disk : Disk) : disk.hollow.place = disk.place := by
  funext path
  rw [place, place, show disk.hollow.route path = disk.route path from rfl, follow_hollow]
  cases disk.follow [] (disk.route path) <;> rfl

@[simp] theorem locate_hollow (disk : Disk) (path : Text) :
    disk.hollow.locate path = (disk.locate path).hollow := by
  rw [locate_eq, locate_eq]
  split
  · rfl
  · exact disk.follow_hollow [] _

theorem place_of_locate {node : Node} (found : disk.locate (Path.tidy path) = .found way node) :
    disk.follow [] (disk.route path) = .found way node ∧ disk.place path = way := by
  rw [locate_eq, route_tidy] at found
  split at found
  · cases found
  · exact ⟨found, by rw [place, found]⟩

/-! ## What is there -/

@[simp] theorem nodeAt?_hollow (disk : Disk) (path : Text) :
    disk.hollow.nodeAt? path = (disk.nodeAt? path).map (Option.map Node.hollow) := by
  unfold nodeAt?
  dsimp only
  rw [locate_hollow]
  split
  · rfl
  · cases disk.locate (Path.tidy path) <;> rfl

@[simp] theorem present_hollow (disk : Disk) : disk.hollow.present = disk.present := by
  funext path
  rw [present, present, nodeAt?_hollow]
  cases disk.nodeAt? path with
  | error failure => rfl
  | ok node => cases node <;> rfl

/-- Neither a path as a whole nor a name on its route is too long. -/
structure Short (disk : Disk) (path : Text) : Prop where
  /-- The path has fewer bytes than a path may have. -/
  whole : Utf8.length (Path.tidy path) < pathLimit
  /-- No name on the route has more bytes than a name may have. -/
  each : ∀ name ∈ disk.route path, Utf8.length name ≤ nameLimit

theorem follow_ne_tooLong {names : List Text} (each : ∀ name ∈ names, Utf8.length name ≤ nameLimit)
    (way : List Text) : disk.follow way names ≠ .tooLong := by
  induction names generalizing way with
  | nil => nofun
  | cons name rest inductionHypothesis =>
      have later := inductionHypothesis fun other among => each other (.tail name among)
      rw [follow_cons, if_neg (Nat.not_lt.mpr (each name List.mem_cons_self))]
      split
      · exact later _
      · cases disk.node? (way ++ [name]) with
        | none => cases rest <;> nofun
        | some node =>
            cases node with
            | directory => exact later _
            | file _ => cases rest <;> nofun

/-- It can be told whether a short path is there. -/
theorem Short.exists_present (short : disk.Short path) : ∃ there, disk.present path = .ok there := by
  have located : disk.locate (Path.tidy path) ≠ .tooLong := by
    rw [locate_eq, if_neg (Nat.not_le.mpr short.whole), route_tidy]
    exact follow_ne_tooLong short.each []
  rw [present, nodeAt?]
  split
  · exact ⟨false, rfl⟩
  · cases led : disk.locate (Path.tidy path) with
    | tooLong => exact absurd led located
    | _ => exact ⟨_, rfl⟩

theorem nameTooLong_of_present {failure : Failure} (stopped : disk.present path = .error failure) :
    failure = .nameTooLong (Path.tidy path) := by
  rw [present, nodeAt?] at stopped
  split at stopped
  · cases stopped
  · split at stopped
    · cases stopped
    · cases stopped
      rfl
    · cases stopped

theorem children_hollow (disk : Disk) (way : List Text) :
    disk.hollow.children way = disk.children way := by
  have same (entry : List Text × Node) :
      childOf? way (entry.1, entry.2.hollow) = childOf? way entry := by
    rcases entry with ⟨names, node⟩
    cases node <;> rfl
  rw [children, children, hollow]
  dsimp only
  rw [List.filterMap_map]
  exact congrArg (List.foldr insertChild []) (List.filterMap_congr fun entry _ => same entry)

@[simp] theorem list_hollow (disk : Disk) : disk.hollow.list = disk.list := by
  funext path
  unfold list
  dsimp only
  rw [locate_hollow]
  split
  · rfl
  · cases disk.locate (Path.tidy path) with
    | found way node =>
        cases node with
        | directory => exact congrArg Except.ok (disk.children_hollow way)
        | file _ => rfl
    | vacant _ => rfl
    | missing => rfl
    | blocked => rfl
    | tooLong => rfl

@[simp] theorem depth_hollow (disk : Disk) : disk.hollow.depth = disk.depth := by
  rw [depth, depth, hollow]
  dsimp only
  rw [List.map_map]
  rfl

/-! ## Reading -/

theorem readBytes_eq (disk : Disk) (path : Text) :
    disk.readBytes path =
      if (Path.tidy path).contains '\x00' then .error (.noFile path)
      else
        match disk.locate (Path.tidy path) with
        | .found _ (.file content) => .ok content
        | .tooLong => .error (.nameTooLong (Path.tidy path))
        | _ => .error (.noFile path) := by
  rw [readBytes, nodeAt?]
  cases List.contains (Path.tidy path) '\x00' with
  | true => simp only [if_true]
  | false =>
      simp only [Bool.false_eq_true, if_false]
      cases disk.locate (Path.tidy path) with
      | found _ node => cases node <;> rfl
      | vacant _ => rfl
      | missing => rfl
      | blocked => rfl
      | tooLong => rfl

@[simp] theorem readBytes_hollow (disk : Disk) (path : Text) :
    disk.hollow.readBytes path = (disk.readBytes path).map fun _ => [] := by
  rw [readBytes, readBytes, nodeAt?_hollow]
  cases disk.nodeAt? path with
  | error failure => rfl
  | ok node? =>
      cases node? with
      | none => rfl
      | some node => cases node <;> rfl

/-- A path can be read exactly if it leads to a file. -/
theorem readBytes_eq_ok_iff :
    disk.readBytes path = .ok content ↔
      (Path.tidy path).contains '\x00' = false ∧
        disk.locate (Path.tidy path) = .found (disk.place path) (.file content) := by
  rw [readBytes_eq]
  constructor
  · intro read
    split at read
    · cases read
    · next clean =>
        refine ⟨Bool.eq_false_iff.mpr clean, ?_⟩
        split at read
        · next way _ found =>
            cases read
            rw [found, (place_of_locate found).2]
        · cases read
        · cases read
  · rintro ⟨clean, found⟩
    rw [clean, found, if_neg Bool.false_ne_true]

theorem lookup_of_readBytes (read : disk.readBytes path = .ok content) :
    disk.nodes.lookup (disk.place path) = some (.file content) :=
  lookup_of_follow (place_of_locate (readBytes_eq_ok_iff.mp read).2).1

/-- What a file holds in a tree that differs from one where it can be read in what files hold
only. -/
theorem readBytes_of_lookup (hollow : other.hollow = disk.hollow)
    (read : disk.readBytes path = .ok old)
    (held : other.nodes.lookup (disk.place path) = some (.file content)) :
    other.readBytes path = .ok content := by
  have emptied := other.readBytes_hollow path
  rw [hollow, readBytes_hollow, read] at emptied
  cases again : other.readBytes path with
  | error failure =>
      rw [again] at emptied
      cases emptied
  | ok bytes =>
      have stands := lookup_of_readBytes again
      rw [← place_hollow, hollow, place_hollow, held] at stands
      cases stands
      rfl

/-- Where two trees differ in what files hold only, a file that holds the same reads the same. -/
theorem readBytes_congr (hollow : other.hollow = disk.hollow)
    (same : other.nodes.lookup (disk.place path) = disk.nodes.lookup (disk.place path)) :
    other.readBytes path = disk.readBytes path := by
  cases read : disk.readBytes path with
  | ok content => exact readBytes_of_lookup hollow read (same.trans (lookup_of_readBytes read))
  | error failure =>
      have emptied := other.readBytes_hollow path
      rw [hollow, readBytes_hollow, read] at emptied
      cases again : other.readBytes path with
      | error other =>
          rw [again] at emptied
          cases emptied
          rfl
      | ok bytes =>
          rw [again] at emptied
          cases emptied

/-! ## Writing -/

theorem setNode_eq_set (way : List Text) (node : Node) (nodes : List (List Text × Node)) :
    setNode way node nodes = Entries.set way node nodes := by
  induction nodes with
  | nil => rfl
  | cons entry rest inductionHypothesis => rw [setNode, Entries.set, inductionHypothesis]

theorem lookup_put (disk : Disk) (way : List Text) (node : Node) (key : List Text) :
    (disk.put way node).nodes.lookup key =
      if key = way then some node else disk.nodes.lookup key := by
  rw [put, setNode_eq_set]
  exact Entries.lookup_set _ _ _ _

theorem map_hollow_setNode {nodes : List (List Text × Node)}
    (held : nodes.lookup way = some (.file old)) (content : Bytes) :
    (setNode way (.file content) nodes).map (fun entry => (entry.1, entry.2.hollow)) =
      nodes.map fun entry => (entry.1, entry.2.hollow) := by
  induction nodes with
  | nil => cases held
  | cons entry rest inductionHypothesis =>
      rw [Entries.lookup_cons] at held
      rw [setNode]
      by_cases here : way = entry.1
      · rw [if_pos here, Option.some.injEq] at held
        rw [if_pos here.symm, List.map_cons, List.map_cons, held, here]
        rfl
      · rw [if_neg here] at held
        rw [if_neg (Ne.symm here), List.map_cons, List.map_cons, inductionHypothesis held]

/-- What a file holds is changed, and nothing else. -/
theorem hollow_put (held : disk.nodes.lookup way = some (.file old)) (content : Bytes) :
    (disk.put way (.file content)).hollow = disk.hollow := by
  rw [hollow, hollow, put]
  dsimp only
  rw [map_hollow_setNode held]

/-! ### Into a file that is there -/

theorem locate_above {above : List Text} {last beginning : Text}
    (read : disk.readBytes path = .ok old) (tracked : Path.track path = above ++ [last])
    (onward : above ≠ [])
    (begins : (parts (Path.tidy path)).1 = beginning) :
    (beginning ++ Text.join ['/'] above).contains '\x00' = false ∧
      ∃ way, disk.locate (beginning ++ Text.join ['/'] above) = .found way .directory := by
  rcases readBytes_eq_ok_iff.mp read with ⟨clean, found⟩
  have isStep : ∀ name ∈ above ++ [last], Path.IsStep name := fun name member =>
    Path.isStep_of_mem_track (tracked ▸ member)
  have aboveStep : ∀ name ∈ above, Path.IsStep name := fun name member =>
    isStep name (List.mem_append_left _ member)
  have spelled : Path.tidy path = (beginning ++ Text.join ['/'] above) ++ '/' :: last := by
    have steps : Path.track path ≠ [] := by
      rw [tracked]
      exact List.append_ne_nil_of_left_ne_nil onward _
    have joined := Path.tidy_eq_append steps
    rw [tracked, Text.join_concat _ onward, ← List.append_assoc] at joined
    rw [← begins]
    exact joined
  generalize directoryIs : beginning ++ Text.join ['/'] above = directory at spelled ⊢
  have directoryTrack : Path.track directory = above := by
    rw [← directoryIs, ← begins]
    exact (Path.track_replicate_append _ _).trans (Path.track_join aboveStep)
  have nonempty : directory ≠ [] := by
    rintro rfl
    exact onward directoryTrack.symm
  constructor
  · refine Bool.eq_false_iff.mpr fun held => Bool.eq_false_iff.mp clean ?_
    rw [spelled, List.contains_iff_mem]
    exact List.mem_append_left _ (List.contains_iff_mem.mp held)
  · have short : ¬ pathLimit ≤ Utf8.length directory := by
      intro long
      rw [locate_eq, spelled, Utf8.length_append, if_pos (Nat.le_add_right_of_le long)] at found
      cases found
    have tracked : Path.track (directory ++ '/' :: last) = Path.track directory ++ [last] := by
      rw [Path.track_append_cons,
        (isStep last (List.mem_append_right _ List.mem_cons_self)).track]
    have routed : disk.route path = disk.route directory ++ [last] := by
      rw [← route_tidy, route_eq, route_eq, spelled, Path.isAbsolute_append nonempty, tracked,
        List.append_assoc]
    have reached := (place_of_locate found).1
    rw [routed] at reached
    rw [locate_eq, if_neg short]
    exact directory_of_follow_concat reached

/-- The directories above a file are there, so that making them changes nothing. -/
theorem makeDirectories_of_readBytes (read : disk.readBytes path = .ok old) :
    disk.makeDirectories (parts (Path.tidy path)).1 ((parts (Path.tidy path)).2.reverse.drop 1) =
      (.ok (), disk) := by
  have named : (parts (Path.tidy path)).2 = Path.track path := Path.track_tidy path
  rw [named]
  rcases List.eq_nil_or_concat (Path.track path) with none | ⟨above, last, tracked⟩
  · rw [none]
    rfl
  · rw [List.concat_eq_append] at tracked
    rw [tracked, List.reverse_append, List.reverse_singleton, List.singleton_append,
      List.drop_succ_cons, List.drop_zero]
    cases upward : above.reverse with
    | nil => rfl
    | cons name rest =>
        have spelled : above = (name :: rest).reverse := by
          rw [← upward, List.reverse_reverse]
        have onward : above ≠ [] := by
          rintro rfl
          cases upward
        rcases locate_above read tracked onward rfl with ⟨clean, way, there⟩
        rw [spelled] at clean there
        rw [makeDirectories]
        rw [if_neg (Bool.eq_false_iff.mp clean), there]
        rfl

theorem writeBytes_of_readBytes (read : disk.readBytes path = .ok old) (content : Bytes) :
    disk.writeBytes path content = (.ok (), disk.put (disk.place path) (.file content)) := by
  rcases readBytes_eq_ok_iff.mp read with ⟨clean, found⟩
  rw [writeBytes]
  dsimp only
  rw [makeDirectories_of_readBytes read]
  dsimp only
  rw [storeBytes, if_neg (Bool.eq_false_iff.mp clean), found]

end Disk
end Crosslink
