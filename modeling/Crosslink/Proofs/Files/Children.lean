import Crosslink.Proofs.Files.Store
import Crosslink.Proofs.Text.Pieces
import Mathlib.Data.Char
import Mathlib.Data.List.Lex
import Mathlib.Data.List.Nodup

namespace Crosslink

/-!
The children of a directory.  They are put in order one by one, each name once, and a name whose
children do not agree stands for a directory.  So a directory has a child of a name exactly if
some key leads there, and the child is a directory exactly if some key leads further.
-/

/-! ## Names in order -/

namespace Text

theorem precedes_iff_lt {first second : Text} : first.precedes second = true ↔ first < second := by
  induction first generalizing second with
  | nil =>
      cases second with
      | nil => decide
      | cons c rest =>
          constructor
          · exact fun _ => List.nil_lt_cons c rest
          · exact fun _ => rfl
  | cons c rest inductionHypothesis =>
      cases second with
      | nil =>
          constructor
          · intro impossible
            cases impossible
          · exact fun impossible => absurd impossible (List.not_lt_nil _)
      | cons d more =>
          calc precedes (c :: rest) (d :: more) = true
            _ ↔ c.val < d.val ∨ c.val = d.val ∧ precedes rest more = true := by
              simp [precedes]
            _ ↔ c < d ∨ c = d ∧ rest < more := by
              rw [inductionHypothesis, Char.ext_iff]
              exact Iff.rfl
            _ ↔ c :: rest < d :: more := List.cons_lt_cons_iff.symm

end Text

namespace Store

def Ordered (children : List Entry) : Prop :=
  children.Pairwise fun first second => first.name < second.name

theorem Ordered.nodup {children : List Entry} (ordered : Ordered children) :
    (children.map (·.name)).Nodup :=
  List.pairwise_map.mpr (ordered.imp fun earlier => ne_of_lt earlier)

def Named (children : List Entry) (name : Text) : Prop :=
  ∃ child ∈ children, child.name = name

def Leads (children : List Entry) (name : Text) : Prop :=
  ∃ child ∈ children, child.name = name ∧ child.isDirectory = true

theorem named_cons_iff {first : Entry} {rest : List Entry} {name : Text} :
    Named (first :: rest) name ↔ first.name = name ∨ Named rest name := by
  simp [Named]

theorem leads_cons_iff {first : Entry} {rest : List Entry} {name : Text} :
    Leads (first :: rest) name ↔
      (first.name = name ∧ first.isDirectory = true) ∨ Leads rest name := by
  simp [Leads]

theorem Ordered.mem_iff {children : List Entry} (ordered : Ordered children) {entry : Entry} :
    entry ∈ children ↔
      Named children entry.name ∧ (entry.isDirectory = true ↔ Leads children entry.name) := by
  have leads_iff {child : Entry} (member : child ∈ children) :
      child.isDirectory = true ↔ Leads children child.name := by
    refine ⟨fun inside => ⟨child, member, rfl, inside⟩, ?_⟩
    rintro ⟨other, among, same, inside⟩
    exact List.inj_on_of_nodup_map ordered.nodup among member same ▸ inside
  constructor
  · exact fun member => ⟨⟨entry, member, rfl⟩, leads_iff member⟩
  · rintro ⟨⟨child, among, same⟩, leads⟩
    have agree : child.isDirectory = entry.isDirectory :=
      Bool.eq_iff_iff.mpr ((leads_iff among).trans (same ▸ leads.symm))
    have one : child = entry := by
      cases child
      cases entry
      exact congr (congrArg Entry.mk same) agree
    exact one ▸ among

/-! ## Children put in order -/

theorem named_addChild_iff {child : Entry} {children : List Entry} {name : Text} :
    Named (addChild child children) name ↔ child.name = name ∨ Named children name := by
  induction children with
  | nil => exact named_cons_iff
  | cons first rest inductionHypothesis =>
      rw [addChild]
      split
      · next same => rw [named_cons_iff, named_cons_iff, same, or_self_left]
      · split
        · exact named_cons_iff
        · rw [named_cons_iff, named_cons_iff, inductionHypothesis, or_left_comm]

theorem leads_addChild_iff {child : Entry} {children : List Entry} {name : Text} :
    Leads (addChild child children) name ↔
      (child.name = name ∧ child.isDirectory = true) ∨ Leads children name := by
  induction children with
  | nil => exact leads_cons_iff
  | cons first rest inductionHypothesis =>
      rw [addChild]
      split
      · next same =>
          rw [leads_cons_iff, leads_cons_iff, same, Bool.or_eq_true, and_or_left, or_assoc,
            or_left_comm]
      · split
        · exact leads_cons_iff
        · rw [leads_cons_iff, leads_cons_iff, inductionHypothesis, or_left_comm]

theorem Ordered.addChild {children : List Entry} (ordered : Ordered children) (child : Entry) :
    Ordered (addChild child children) := by
  induction children with
  | nil => exact List.pairwise_singleton _ _
  | cons first rest inductionHypothesis =>
      rcases List.pairwise_cons.mp ordered with ⟨least, restOrdered⟩
      rw [Store.addChild]
      split
      · exact List.pairwise_cons.mpr ⟨least, restOrdered⟩
      · next different =>
          split
          · next precedes =>
              have earlier := Text.precedes_iff_lt.mp precedes
              refine List.pairwise_cons.mpr ⟨?_, ordered⟩
              intro other member
              rcases List.mem_cons.mp member with same | later
              · exact same ▸ earlier
              · exact lt_trans earlier (least other later)
          · next follows =>
              have later : first.name < child.name :=
                lt_of_le_of_ne (not_lt.mp fun earlier =>
                  follows (Text.precedes_iff_lt.mpr earlier)) different
              refine List.pairwise_cons.mpr ⟨?_, inductionHypothesis restOrdered⟩
              intro other member
              rcases named_addChild_iff.mp ⟨other, member, rfl⟩ with same | ⟨held, among, named⟩
              · exact same ▸ later
              · exact named ▸ least held among

theorem ordered_foldr_addChild (children : List Entry) :
    Ordered (children.foldr addChild []) := by
  induction children with
  | nil => exact List.Pairwise.nil
  | cons child rest inductionHypothesis => exact inductionHypothesis.addChild child

theorem named_foldr_addChild_iff {children : List Entry} {name : Text} :
    Named (children.foldr addChild []) name ↔ Named children name := by
  induction children with
  | nil => exact Iff.rfl
  | cons child rest inductionHypothesis =>
      rw [List.foldr_cons, named_addChild_iff, inductionHypothesis, named_cons_iff]

theorem leads_foldr_addChild_iff {children : List Entry} {name : Text} :
    Leads (children.foldr addChild []) name ↔ Leads children name := by
  induction children with
  | nil => exact Iff.rfl
  | cons child rest inductionHypothesis =>
      rw [List.foldr_cons, leads_addChild_iff, inductionHypothesis, leads_cons_iff]

/-! ## Where keys lead -/

theorem childOf?_append (start rest : Text) :
    childOf? start (start ++ rest) =
      some { name := Text.before '/' rest, isDirectory := rest.contains '/' } := by
  rw [childOf?, if_pos (Text.startsWith_iff.mpr (List.prefix_append start rest)), List.drop_left]

theorem childOf?_eq_some {start path : Text} {child : Entry}
    (made : childOf? start path = some child) :
    ∃ rest, path = start ++ rest ∧ child.name = Text.before '/' rest ∧
      child.isDirectory = rest.contains '/' := by
  by_cases begins : path.startsWith start = true
  · rcases Text.startsWith_iff.mp begins with ⟨rest, rfl⟩
    rw [childOf?_append] at made
    cases made
    exact ⟨rest, rfl, rfl, rfl⟩
  · rw [childOf?, if_neg begins] at made
    cases made

theorem childOf?_eq_some_iff {start path : Text} {child : Entry} :
    childOf? start path = some child ↔
      '/' ∉ child.name ∧
        if child.isDirectory then start ++ child.name ++ ['/'] <+: path
        else path = start ++ child.name := by
  constructor
  · intro made
    rcases childOf?_eq_some made with ⟨rest, rfl, named, inside⟩
    have whole : '/' ∉ child.name := named ▸ Text.not_mem_before '/' rest
    refine ⟨whole, ?_⟩
    have joined := Text.before_append_fromFirst '/' rest
    rw [← named] at joined
    rcases Text.fromFirst_eq_nil_or_cons '/' rest with ends | ⟨more, onward⟩
    · rw [ends, List.append_nil] at joined
      have flat : child.isDirectory = false := by
        rw [inside, ← joined]
        exact Bool.eq_false_iff.mpr fun held => whole (List.contains_iff_mem.mp held)
      rw [flat, if_neg Bool.false_ne_true, joined]
    · rw [onward] at joined
      have directory : child.isDirectory = true := by
        rw [inside, ← joined, List.contains_iff_mem]
        exact List.mem_append_right _ List.mem_cons_self
      rw [directory, if_pos rfl, ← joined]
      exact ⟨more, by simp⟩
  · rcases child with ⟨name, _ | _⟩
    · rintro ⟨whole, rfl⟩
      have flat : name.contains '/' = false :=
        Bool.eq_false_iff.mpr fun held => whole (List.contains_iff_mem.mp held)
      rw [childOf?_append, Text.before_of_not_mem whole, flat]
    · rintro ⟨whole, more, rfl⟩
      have inside : (name ++ '/' :: more).contains '/' = true :=
        List.contains_iff_mem.mpr (List.mem_append_right _ List.mem_cons_self)
      have first : Text.before '/' (name ++ '/' :: more) = name := by
        rw [Text.before_append _ whole, Text.before_cons_self, List.append_nil]
      rw [List.append_assoc, List.append_assoc, List.singleton_append, childOf?_append, first, inside]

variable {store : Store}

theorem list_eq_ok {directory : Text} {entries : List Entry}
    (listed : store.list directory = .ok entries) :
    entries =
      (store.keys.filterMap (childOf? (below (store.resolve directory)))).foldr addChild [] := by
  unfold list at listed
  dsimp only at listed
  split at listed
  · rw [keys, List.filterMap_map]
    exact (Except.ok.inj listed).symm
  · cases listed

theorem list_eq_error {directory : Text} {failure : Failure}
    (stopped : store.list directory = .error failure) : failure = .noDirectory directory := by
  unfold list at stopped
  dsimp only at stopped
  split at stopped
  · cases stopped
  · exact (Except.error.inj stopped).symm

/-- A path is listed exactly if it is the path of a directory. -/
theorem exists_list_iff {directory : Text} :
    (∃ entries, store.list directory = .ok entries) ↔
      store.isDirectory (store.resolve directory) = true := by
  unfold list
  dsimp only
  split
  · next there => exact ⟨fun _ => there, fun _ => ⟨_, rfl⟩⟩
  · next nowhere =>
      refine ⟨?_, fun there => absurd there nowhere⟩
      rintro ⟨_, impossible⟩
      cases impossible

theorem Ordered.of_list {directory : Text} {entries : List Entry}
    (listed : store.list directory = .ok entries) : Ordered entries := by
  rw [list_eq_ok listed]
  exact ordered_foldr_addChild _

/-- Some key leads to a name behind a start, or further. -/
theorem named_filterMap_childOf?_iff {keys : List Text} {start name : Text} :
    Named (keys.filterMap (childOf? start)) name ↔
      '/' ∉ name ∧
        (start ++ name ∈ keys ∨ ∃ key ∈ keys, start ++ name ++ ['/'] <+: key) := by
  constructor
  · rintro ⟨child, among, rfl⟩
    rcases List.mem_filterMap.mp among with ⟨key, member, made⟩
    rcases childOf?_eq_some_iff.mp made with ⟨whole, leads⟩
    refine ⟨whole, ?_⟩
    split at leads
    · exact Or.inr ⟨key, member, leads⟩
    · exact Or.inl (leads ▸ member)
  · rintro ⟨whole, member | ⟨key, member, leads⟩⟩
    · exact ⟨⟨name, false⟩,
        List.mem_filterMap.mpr ⟨_, member, childOf?_eq_some_iff.mpr ⟨whole, rfl⟩⟩, rfl⟩
    · exact ⟨⟨name, true⟩,
        List.mem_filterMap.mpr ⟨key, member, childOf?_eq_some_iff.mpr ⟨whole, leads⟩⟩, rfl⟩

theorem leads_filterMap_childOf?_iff {keys : List Text} {start name : Text} :
    Leads (keys.filterMap (childOf? start)) name ↔
      '/' ∉ name ∧ ∃ key ∈ keys, start ++ name ++ ['/'] <+: key := by
  constructor
  · rintro ⟨child, among, rfl, inside⟩
    rcases List.mem_filterMap.mp among with ⟨key, member, made⟩
    rcases childOf?_eq_some_iff.mp made with ⟨whole, leads⟩
    rw [if_pos inside] at leads
    exact ⟨whole, key, member, leads⟩
  · rintro ⟨whole, key, member, leads⟩
    exact ⟨⟨name, true⟩,
      List.mem_filterMap.mpr ⟨key, member, childOf?_eq_some_iff.mpr ⟨whole, leads⟩⟩, rfl, rfl⟩

variable {directory : Text} {entries : List Entry}

theorem named_list_iff (listed : store.list directory = .ok entries) {name : Text} :
    Named entries name ↔
      '/' ∉ name ∧
        (below (store.resolve directory) ++ name ∈ store.keys ∨
          ∃ key ∈ store.keys, below (store.resolve directory) ++ name ++ ['/'] <+: key) := by
  rw [list_eq_ok listed, named_foldr_addChild_iff, named_filterMap_childOf?_iff]

theorem leads_list_iff (listed : store.list directory = .ok entries) {name : Text} :
    Leads entries name ↔
      '/' ∉ name ∧
        ∃ key ∈ store.keys, below (store.resolve directory) ++ name ++ ['/'] <+: key := by
  rw [list_eq_ok listed, leads_foldr_addChild_iff, leads_filterMap_childOf?_iff]

/-- The children of a directory are those to which keys lead, and a child is a directory exactly
if some key leads further. -/
theorem mem_list_iff {entry : Entry} (listed : store.list directory = .ok entries) :
    entry ∈ entries ↔
      '/' ∉ entry.name ∧
      (below (store.resolve directory) ++ entry.name ∈ store.keys ∨
        ∃ key ∈ store.keys, below (store.resolve directory) ++ entry.name ++ ['/'] <+: key) ∧
      (entry.isDirectory = true ↔
        ∃ key ∈ store.keys, below (store.resolve directory) ++ entry.name ++ ['/'] <+: key) := by
  rw [(Ordered.of_list listed).mem_iff, named_list_iff listed, leads_list_iff listed, and_assoc]
  refine and_congr_right fun whole => ?_
  rw [and_iff_right whole]

theorem key_of_mem_list {entry : Entry} (listed : store.list directory = .ok entries)
    (member : entry ∈ entries) :
    ∃ key ∈ store.keys, childOf? (below (store.resolve directory)) key = some entry := by
  rcases (mem_list_iff listed).mp member with ⟨whole, leads, further⟩
  cases inside : entry.isDirectory with
  | true =>
      rcases further.mp inside with ⟨key, held, onward⟩
      exact ⟨key, held, childOf?_eq_some_iff.mpr ⟨whole, by rwa [if_pos inside]⟩⟩
  | false =>
      rcases leads with held | onward
      · exact ⟨_, held, childOf?_eq_some_iff.mpr ⟨whole, by rw [inside, if_neg Bool.false_ne_true]⟩⟩
      · rw [further.mpr onward] at inside
        cases inside

theorem named_of_below (listed : store.list directory = .ok entries) {rest : Text}
    (held : below (store.resolve directory) ++ rest ∈ store.keys) :
    Named entries (Text.before '/' rest) := by
  refine (named_list_iff listed).mpr ⟨Text.not_mem_before '/' rest, ?_⟩
  have joined := Text.before_append_fromFirst '/' rest
  rcases Text.fromFirst_eq_nil_or_cons '/' rest with ends | ⟨more, onward⟩
  · rw [ends, List.append_nil] at joined
    rw [joined]
    exact Or.inl held
  · rw [onward] at joined
    refine Or.inr ⟨_, held, more, ?_⟩
    rw [List.append_assoc, List.append_assoc, List.singleton_append, joined]

end Store
end Crosslink
