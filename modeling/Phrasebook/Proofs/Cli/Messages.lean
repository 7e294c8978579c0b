import Phrasebook.Cli.Run
import Phrasebook.Proofs.Json.Faults
import Phrasebook.Proofs.Script.Token

/-!
What a run tells of a failure: a path, and what is wrong there. What is wrong is said in one line, but by the
report on a configuration.
-/

namespace Phrasebook

/-! ### Paths to values -/

namespace Text

theorem lineEnd_not_mem_hex (n : Nat) : '\n' ∉ hex n := by
  intro h
  have hall : ∀ d < 16, '\n' ≠ Nat.digitChar d := by decide
  obtain ⟨d, hlt, hd⟩ := digitChar_of_mem_hex h
  exact hall d hlt hd

theorem lineEnd_not_mem_quotedChar (c : Char) : '\n' ∉ quotedChar c := by
  rw [quotedChar]
  split_ifs with _ _ hline
  all_goals simp [lineEnd_not_mem_hex]
  exact fun h => hline h.symm

theorem lineEnd_not_mem_quoted (s : List Char) : '\n' ∉ quoted s := by
  simp [quoted, lineEnd_not_mem_quotedChar]

end Text

theorem Step.lineEnd_not_mem_text (step : Step) : '\n' ∉ step.text := by
  cases step with
  | key name =>
      rw [Step.text]
      split_ifs with hname
      · have hline : '\n' ∉ name.toList := fun h =>
          absurd (Text.isNameChar_of_isName hname _ h) (by decide)
        simp [hline]
      · simp [Text.lineEnd_not_mem_quoted]
  | index place =>
      have hdigits : '\n' ∉ Number.decimalDigits place := fun h =>
        absurd (Nat.isDigit_of_mem_toDigits (by decide) (by decide) h) (by decide)
      simp [Step.text, hdigits]

theorem Path.lineEnd_not_mem_text (path : Path) : '\n' ∉ path.text := by
  simp [Path.text, Step.lineEnd_not_mem_text]

theorem Unsupported.lineEnd_not_mem_message (e : Unsupported) : '\n' ∉ e.message.toList := by
  have hkind : '\n' ∉ ("unsupported " ++ kind ++ " value at ").toList := by decide
  rw [message, String.toList_append, List.mem_append, not_or, String.toList_ofList]
  exact ⟨hkind, Path.lineEnd_not_mem_text e.path⟩

/-! ### Failures -/

namespace Cli

theorem FileError.lineEnd_not_mem_message (e : FileError) : '\n' ∉ e.message.toList := by
  cases e <;> decide

namespace Failure

theorem lineEnd_not_mem_lead (failure : Failure) : '\n' ∉ failure.lead.toList := by
  cases failure with
  | read => exact (by decide : '\n' ∉ "failed to read ".toList)
  | write => exact (by decide : '\n' ∉ "failed to write ".toList)
  | config => exact (by decide : '\n' ∉ "invalid config file ".toList)
  | resource => exact (by decide : '\n' ∉ "".toList)

/-- Wherever a failure comes from, but for a text that some other decoder refused, its cause is one line, unless
it is a report on a configuration. -/
theorem lineEnd_not_mem_cause {failure : Failure}
    (hconfig : ∀ path report, failure ≠ .config path report)
    (hjson : ∀ path e, failure = .resource path (.json e) → ∃ text, Json.decode text = .error e) :
    '\n' ∉ failure.cause.toList := by
  cases failure with
  | read file e => exact e.lineEnd_not_mem_message
  | write file e => exact e.lineEnd_not_mem_message
  | config file report => exact absurd rfl (hconfig file report)
  | resource file e =>
      cases e with
      | json e =>
          obtain ⟨text, htext⟩ := hjson file e rfl
          have hlead : '\n' ∉ "invalid resource JSON: ".toList := by decide
          change '\n' ∉ ("invalid resource JSON: " ++ e.message).toList
          simp only [String.toList_append, List.mem_append, not_or]
          exact ⟨hlead, Json.lineEnd_not_mem_message htext⟩
      | unsupported e => exact e.lineEnd_not_mem_message

end Failure

end Cli

end Phrasebook
