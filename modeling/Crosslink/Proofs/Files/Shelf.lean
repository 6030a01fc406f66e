import Crosslink.Proofs.Files.Disk

namespace Crosslink

/-!
Texts on a tree.  In a tree as file systems hold it a child of a directory lies right below it,
so a walk finds no file twice.  A text that is written into a file in UTF-8 is read back, and
neither what else is there nor what other files hold is changed by it.
-/

namespace Disk

/-- A tree as file systems hold it. -/
structure Proper (disk : Disk) : Prop where
  /-- Each way leads to one node. -/
  distinct : (disk.nodes.map (·.1)).Nodup
  /-- The names on a way are single components, and not too long. -/
  named : ∀ way ∈ disk.nodes.map (·.1), ∀ name ∈ way,
    Path.IsName name ∧ Utf8.length name ≤ nameLimit

instance (disk : Disk) : Decidable disk.Proper :=
  decidable_of_iff ((disk.nodes.map (·.1)).Nodup ∧ ∀ way ∈ disk.nodes.map (·.1), ∀ name ∈ way,
      Path.IsName name ∧ Utf8.length name ≤ nameLimit)
    ⟨fun ⟨distinct, named⟩ => ⟨distinct, named⟩, fun proper => ⟨proper.distinct, proper.named⟩⟩

variable {disk : Disk} {way : List Text}

/-! ## Children -/

theorem perm_insertChild (child : Entry) (children : List Entry) :
    (insertChild child children).Perm (child :: children) := by
  induction children with
  | nil => exact List.Perm.refl _
  | cons first rest inductionHypothesis =>
      rw [insertChild]
      split
      · exact List.Perm.refl _
      · exact (inductionHypothesis.cons first).trans (List.Perm.swap child first rest)

theorem perm_children (disk : Disk) (way : List Text) :
    (disk.children way).Perm (disk.nodes.filterMap (childOf? way)) := by
  rw [children]
  induction disk.nodes.filterMap (childOf? way) with
  | nil => exact List.Perm.nil
  | cons child rest inductionHypothesis =>
      exact (perm_insertChild child _).trans (inductionHypothesis.cons child)

theorem childOf?_eq_some {entry : List Text × Node} {child : Entry}
    (made : childOf? way entry = some child) :
    entry.1 = way ++ [child.name] ∧ child.isDirectory = decide (entry.2 = .directory) := by
  unfold childOf? at made
  split at made
  · split at made
    · next named =>
        cases made
        exact ⟨named, rfl⟩
    · cases made
  · cases made

/-- A child stands for a node right below the directory. -/
theorem node_of_mem_children {child : Entry} (member : child ∈ disk.children way) :
    ∃ node, (way ++ [child.name], node) ∈ disk.nodes ∧
      child.isDirectory = decide (node = .directory) := by
  rcases List.mem_filterMap.mp ((disk.perm_children way).mem_iff.mp member) with
    ⟨⟨names, node⟩, held, made⟩
  rcases childOf?_eq_some made with ⟨same, inside⟩
  exact ⟨node, same ▸ held, inside⟩

theorem Proper.nodup_children (proper : Proper disk) (way : List Text) :
    ((disk.children way).map (·.name)).Nodup := by
  rw [((disk.perm_children way).map _).nodup_iff]
  have below : ((disk.nodes.filterMap (childOf? way)).map fun child => way ++ [child.name]).Sublist
      (disk.nodes.map (·.1)) := by
    induction disk.nodes with
    | nil => exact List.Sublist.refl _
    | cons entry rest inductionHypothesis =>
        rw [List.map_cons]
        cases made : childOf? way entry with
        | none =>
            rw [List.filterMap_cons_none made]
            exact inductionHypothesis.cons _
        | some child =>
            rw [List.filterMap_cons_some made, List.map_cons, ← (childOf?_eq_some made).1]
            exact inductionHypothesis.cons_cons _
  have distinct := proper.distinct.sublist below
  rw [show (fun child : Entry => way ++ [child.name]) =
    (fun name => way ++ [name]) ∘ (fun child : Entry => child.name) from rfl, ← List.map_map]
    at distinct
  exact List.Nodup.of_map _ distinct

theorem list_eq_ok {directory : Text} {entries : List Entry}
    (listed : disk.list directory = .ok entries) :
    disk.follow [] (disk.route directory) = .found (disk.place directory) .directory ∧
      entries = disk.children (disk.place directory) := by
  unfold list at listed
  dsimp only at listed
  split at listed
  · cases listed
  · split at listed
    · next way found =>
        rcases place_of_locate found with ⟨reached, placed⟩
        rw [placed]
        exact ⟨reached, (Except.ok.inj listed).symm⟩
    · cases listed
    · cases listed

theorem Proper.follow_child (proper : disk.Proper) {directory : Text} {entries : List Entry}
    {entry : Entry} (listed : disk.list directory = .ok entries) (member : entry ∈ entries) :
    ∃ node, disk.follow [] (disk.route (Path.under directory entry.name)) =
        .found (disk.place directory ++ [entry.name]) node ∧
      (disk.place directory ++ [entry.name], node) ∈ disk.nodes ∧
      entry.isDirectory = decide (node = .directory) ∧ Path.IsName entry.name := by
  rcases list_eq_ok listed with ⟨reached, rfl⟩
  rcases node_of_mem_children member with ⟨node, held, inside⟩
  have stands := Entries.lookup_of_mem proper.distinct held
  rcases proper.named _ (List.mem_map_of_mem held) entry.name
    (List.mem_append_right _ List.mem_cons_self) with ⟨isName, short⟩
  refine ⟨node, ?_, held, inside, isName⟩
  have nonempty : (disk.place directory ++ [entry.name]).isEmpty = false := by
    cases disk.place directory <;> rfl
  rw [route_under _ _ isName, follow_append _ _ _ (List.cons_ne_nil _ _), reached]
  dsimp only
  rw [follow_cons, if_neg isName.notUp, if_neg (Nat.not_lt.mpr short), node?, nonempty,
    if_neg Bool.false_ne_true, stands]
  cases node with
  | directory => rfl
  | file _ => rfl

/-- A listed child lies right below its directory. -/
theorem Proper.place_of_mem_list (proper : Proper disk) {directory : Text} {entries : List Entry}
    {entry : Entry} (listed : disk.list directory = .ok entries) (member : entry ∈ entries) :
    disk.place (Path.under directory entry.name) = disk.place directory ++ [entry.name] ∧
      (disk.place directory).length < disk.depth := by
  rcases proper.follow_child listed member with ⟨node, reached, held, _, _⟩
  have counted : (disk.place directory ++ [entry.name]).length ≤ disk.depth :=
    List.le_max_of_le' 0 (List.mem_map_of_mem held) (Nat.le_refl _)
  rw [List.length_append, List.length_singleton] at counted
  exact ⟨by rw [place, reached], counted⟩

end Disk

namespace Shelf

variable {shelf other : Shelf} {path old content : Text}

/-- The paths of a tree have the places that they lead to. -/
theorem layout (shelf : Shelf) (proper : shelf.disk.Proper) : Files.Layout shelf shelf.disk.place where
  distinct := by
    intro directory entries listed
    rcases Disk.list_eq_ok listed with ⟨_, rfl⟩
    exact proper.nodup_children _
  below := fun listed member _ => (proper.place_of_mem_list listed member).1
  shallow := fun listed member _ => (proper.place_of_mem_list listed member).2

/-- A tree of texts in UTF-8 is given by the tree of their bytes. -/
theorem eq_ofDisk (encoding : shelf.encoding = .utf8) : shelf = ofDisk shelf.disk := by
  rw [ofDisk, ← encoding]

/-! ## What is there -/

/-- Two trees that differ in what their files hold only. -/
structure Alike (shelf other : Shelf) : Prop where
  /-- Texts are held in the same encoding. -/
  encoding : other.encoding = shelf.encoding
  /-- The same files and directories are there. -/
  hollow : other.disk.hollow = shelf.disk.hollow

namespace Alike

variable {more : Shelf}

theorem refl (shelf : Shelf) : Alike shelf shelf := ⟨rfl, rfl⟩

theorem trans (first : Alike shelf other) (second : Alike other more) : Alike shelf more :=
  ⟨second.encoding.trans first.encoding, second.hollow.trans first.hollow⟩

theorem place (alike : Alike shelf other) : other.disk.place = shelf.disk.place := by
  rw [← Disk.place_hollow, alike.hollow, Disk.place_hollow]

theorem present (alike : Alike shelf other) : Files.present other = Files.present shelf := by
  change other.disk.present = shelf.disk.present
  rw [← Disk.present_hollow, alike.hollow, Disk.present_hollow]

theorem list (alike : Alike shelf other) : Files.list other = Files.list shelf := by
  change other.disk.list = shelf.disk.list
  rw [← Disk.list_hollow, alike.hollow, Disk.list_hollow]

theorem depth (alike : Alike shelf other) : Files.depth other = Files.depth shelf := by
  change other.disk.depth = shelf.disk.depth
  rw [← Disk.depth_hollow, alike.hollow, Disk.depth_hollow]

/-- A path names the same files. -/
theorem collect (alike : Alike shelf other) : Files.collect other = Files.collect shelf :=
  Files.collect_congr alike.list alike.present alike.depth

theorem read (alike : Alike shelf other)
    (same : other.disk.nodes.lookup (shelf.disk.place path) =
      shelf.disk.nodes.lookup (shelf.disk.place path)) : other.read path = shelf.read path := by
  rw [Shelf.read, Shelf.read, Disk.readBytes_congr alike.hollow same, alike.encoding]

end Alike

/-! ## Reading -/

/-- A file that is there cannot be read only if it is no text. -/
theorem undecodable_of_read {disk : Disk} {content : Bytes} {failure : Failure}
    (held : disk.readBytes path = .ok content) (unread : (ofDisk disk).read path = .error failure) :
    ∃ fault, failure = .undecodable fault := by
  unfold read ofDisk at unread
  dsimp only at unread
  rw [held] at unread
  dsimp only [Encoding.decode] at unread
  split at unread
  · cases unread
  · cases unread
    exact ⟨_, rfl⟩

theorem isOrdinary_of_read {disk : Disk} {failure : Failure}
    (unread : (ofDisk disk).read path = .error failure) :
    failure.isOrdinary = true := by
  cases held : disk.readBytes path with
  | ok content =>
      rcases undecodable_of_read held unread with ⟨fault, rfl⟩
      rfl
  | error other =>
      have same : other = failure := by
        unfold read ofDisk at unread
        dsimp only at unread
        rw [held] at unread
        exact Except.error.inj unread
      rw [Disk.readBytes_eq] at held
      rw [← same]
      split at held
      · cases held
        rfl
      · split at held
        · cases held
        · cases held
          rfl
        · cases held
          rfl

/-! ## Writing -/

theorem readBytes_of_read (read : shelf.read path = .ok old) :
    ∃ bytes, shelf.disk.readBytes path = .ok bytes := by
  unfold Shelf.read at read
  split at read
  · next bytes found => exact ⟨bytes, found⟩
  · cases read

def written (shelf : Shelf) (content : Text) : Bytes :=
  (shelf.encoding.encode content).toOption.getD []

/-- A write into a file that can be read changes what that file holds; it succeeds if the text
can be encoded. -/
theorem write_of_read (read : shelf.read path = .ok old) (content : Text) :
    shelf.write path content =
      ((shelf.encoding.encode content).map fun _ => (),
        { shelf with
          disk := shelf.disk.put (shelf.disk.place path) (.file (shelf.written content)) }) := by
  rcases readBytes_of_read read with ⟨before, found⟩
  unfold write written
  cases shelf.encoding.encode content with
  | ok bytes =>
      dsimp only
      rw [Disk.writeBytes_of_readBytes found bytes]
      rfl
  | error failure =>
      dsimp only
      rw [Disk.writeBytes_of_readBytes found []]
      rfl

/-- Whether a text can be written into a file that is there is a matter of the encoding. -/
theorem Alike.fst_write (alike : Alike shelf other) {more : Text} (read : shelf.read path = .ok old)
    (again : other.read path = .ok more) (content : Text) :
    (other.write path content).1 = (shelf.write path content).1 := by
  rw [write_of_read read, write_of_read again, alike.encoding]

theorem alike_write (read : shelf.read path = .ok old) (content : Text) :
    Alike shelf (shelf.write path content).2 := by
  rcases readBytes_of_read read with ⟨before, found⟩
  rw [write_of_read read]
  exact ⟨rfl, Disk.hollow_put (Disk.lookup_of_readBytes found) _⟩

/-- A write into a file changes nothing in other places. -/
theorem lookup_write (read : shelf.read path = .ok old) (content : Text) {way : List Text}
    (different : way ≠ shelf.disk.place path) :
    (shelf.write path content).2.disk.nodes.lookup way = shelf.disk.nodes.lookup way := by
  rw [write_of_read read]
  exact (Disk.lookup_put _ _ _ _).trans (if_neg different)

theorem read_write (encoding : shelf.encoding = .utf8) (read : shelf.read path = .ok old)
    (content : Text) : (shelf.write path content).2.read path = .ok content := by
  rcases readBytes_of_read read with ⟨before, found⟩
  have stands : (shelf.disk.put (shelf.disk.place path)
      (.file (shelf.written content))).readBytes path = .ok (shelf.written content) :=
    Disk.readBytes_of_lookup (Disk.hollow_put (Disk.lookup_of_readBytes found) _) found
      ((Disk.lookup_put _ _ _ _).trans (if_pos rfl))
  have bytes : shelf.written content = Utf8.encode content := by
    rw [written, encoding]
    rfl
  rw [write_of_read read, Shelf.read]
  dsimp only
  rw [stands, bytes, encoding]
  dsimp only [Encoding.decode]
  rw [Utf8.decode_encode]

end Shelf
end Crosslink
