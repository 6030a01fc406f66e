import Crosslink.Link.Survey

namespace Crosslink
namespace Survey

/-!
What is told of the files of a tree.  The links of several files are told if each of them can be
read; else what is told is why one of them cannot.
-/

variable {σ : Type} [Files σ] {files : σ} {directory : Text}

theorem ofFiles_cases (files : σ) (found : List Text) :
    ((∃ links, ofFiles files found = .ok links) ∧
      ∀ file ∈ found, ∃ content, Files.read files file = .ok content) ∨
    ∃ file ∈ found, ∃ failure, Files.read files file = .error failure ∧
      ofFiles files found = .error failure := by
  induction found with
  | nil => exact Or.inl ⟨⟨[], rfl⟩, fun _ member => absurd member List.not_mem_nil⟩
  | cons file rest inductionHypothesis =>
      rw [ofFiles, ofFile]
      cases read : Files.read files file with
      | error failure => exact Or.inr ⟨file, List.mem_cons_self, failure, read, rfl⟩
      | ok content =>
          rcases inductionHypothesis with
            ⟨⟨links, told⟩, each⟩ | ⟨other, member, failure, unread, stopped⟩
          · rw [told]
            refine Or.inl ⟨⟨_, rfl⟩, fun other member => ?_⟩
            rcases List.mem_cons.mp member with same | later
            · exact ⟨content, same ▸ read⟩
            · exact each other later
          · rw [stopped]
            exact Or.inr ⟨other, List.mem_cons_of_mem file member, failure, unread, rfl⟩

theorem read_of_styleOf {most : Style} (told : styleOf files directory = .ok most) :
    ∃ found, Files.walk files directory = .ok found ∧
      ∀ file ∈ found, ∃ content, Files.read files file = .ok content := by
  unfold styleOf ofDirectory at told
  cases walked : Files.walk files directory with
  | error failure =>
      rw [walked] at told
      cases told
  | ok found =>
      rcases ofFiles_cases files found with ⟨_, each⟩ | ⟨_, _, failure, _, stopped⟩
      · exact ⟨found, rfl, each⟩
      · rw [walked] at told
        change (ofFiles files found).map style = _ at told
        rw [stopped] at told
        cases told

theorem unread_of_styleOf {failure : Failure} (untold : styleOf files directory = .error failure) :
    Files.walk files directory = .error failure ∨
      ∃ found, Files.walk files directory = .ok found ∧
        ∃ file ∈ found, Files.read files file = .error failure := by
  unfold styleOf ofDirectory at untold
  cases walked : Files.walk files directory with
  | error other =>
      rw [walked] at untold
      exact Or.inl (congrArg Except.error (Except.error.inj untold))
  | ok found =>
      rw [walked] at untold
      change (ofFiles files found).map style = _ at untold
      rcases ofFiles_cases files found with
        ⟨⟨links, told⟩, _⟩ | ⟨file, member, other, unread, stopped⟩
      · rw [told] at untold
        cases untold
      · rw [stopped] at untold
        cases untold
        exact Or.inr ⟨found, rfl, file, member, unread⟩

end Survey
end Crosslink
