import Crosslink.Proofs.Files.Shelf
import Crosslink.Proofs.Revision.Frame

namespace Crosslink

def Edit.Outcome.left (outcome : Edit.Outcome) (write : Bool) (before : Text) : Text :=
  if write && outcome.triggersWrite then outcome.content else before

theorem Edit.Outcome.left_eq (outcome : Edit.Outcome) (write : Bool) (before : Text) :
    outcome.left write before = before ∨ outcome.left write before = outcome.content := by
  unfold left
  split
  · exact Or.inr rfl
  · exact Or.inl rfl

namespace Batch

/-!
Runs over a tree.  A file on which the work comes to its end was revised as it stood at first,
and what is written into it is read back.
-/

/-- A tree is the same but for what its files hold, as long as only files that are there are
written. -/
def shelfFrame : Frame Shelf (List Text) (Option Node) where
  Alike := Shelf.Alike
  place shelf := shelf.disk.place
  cell shelf way := shelf.disk.nodes.lookup way
  refl := Shelf.Alike.refl
  trans := Shelf.Alike.trans
  place_eq := Shelf.Alike.place
  present_eq := Shelf.Alike.present
  read_eq := Shelf.Alike.read
  write_eq := fun alike read again content => alike.fst_write read again content
  alike_write := Shelf.alike_write
  cell_write := fun read content _ different => Shelf.lookup_write read content different

variable {rule : Rule Shelf} {write : Bool} {shelf : Shelf} {files : List Text} {file : Text}
variable {outcome : Edit.Outcome}

/-- A file on which the work comes to its end was revised as it stood at first, and in the end it
reads as it was revised, or as before if it was not to be written. -/
theorem Steady.read_of_ok (steady : Steady rule) (encoding : shelf.encoding = .utf8)
    (distinct : (files.map shelf.disk.place).Nodup) (member : file ∈ files)
    (made : (processFile shelf rule write file).1.result = .ok outcome) :
    ∃ content, shelf.read file = .ok content ∧
      revise (rule shelf file) content =
        .ok (outcome, (processFile shelf rule write file).1.broken) ∧
      (processFiles rule write shelf files).2.read file = .ok (outcome.left write content) := by
  rcases List.mem_iff_append.mp member with ⟨before, after, split⟩
  have readBefore := shelfFrame.read_before rule write distinct split
  have readAfter := shelfFrame.read_after rule write distinct split
  have alike := shelfFrame.alike_processFiles rule write shelf before
  have placed := shelfFrame.cell_before rule write distinct split
  generalize (processFiles rule write shelf before).2 = now at readBefore readAfter alike placed
  have same : (processFile now rule write file).1 = (processFile shelf rule write file).1 :=
    shelfFrame.processFile_fst steady alike placed
  have step := step_processFile rule write now file
  rw [same, made] at step
  generalize (processFile now rule write file).2 = next at step readAfter
  -- The step did not fail, so it has left the file alone or has written it.
  cases step with
  | @spared content _ _ source revised unasked =>
      rw [shelfFrame.rule_eq steady alike] at revised
      have first : shelf.read file = .ok content := readBefore.symm.trans source
      refine ⟨content, first, revised, ?_⟩
      rw [Edit.Outcome.left, unasked, if_neg Bool.false_ne_true]
      exact readAfter.trans source
  | @stored content _ _ _ source revised asked written =>
      rw [shelfFrame.rule_eq steady alike] at revised
      have first : shelf.read file = .ok content := readBefore.symm.trans source
      have left : (now.write file outcome.content).2 = next := congrArg Prod.snd written
      refine ⟨content, first, revised, ?_⟩
      rw [Edit.Outcome.left, if_pos asked]
      refine readAfter.trans ?_
      rw [← left]
      exact Shelf.read_write (alike.encoding.trans encoding) source outcome.content

end Batch
end Crosslink
