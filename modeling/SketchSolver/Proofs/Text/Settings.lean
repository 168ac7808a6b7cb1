import SketchSolver.Proofs.Text.Tokens

/-!
# Records are read as they are written

The format of records is lawful if the texts of its scalars are names or numbers and the ones that
are not finite read back. A text of settings is taken apart into the tokens that it is made of, and
from these the reader finds exactly the settings of the text, in their order.
-/

namespace SketchSolver

namespace Config

/-! ## Values -/

end Config

variable {R : Type} {numbers : NumberFormat R} {s : Setting R} {ss : List (Setting R)}
  {c : Char} {cs rest : List Char} {ts : List Config.Token}

namespace Setting

/-- The name of a setting is a word. -/
theorem isLiteral_name (s : Setting R) : Config.IsLiteral s.name := by
  cases s <;> exact .name rfl (List.all_eq_true.mp rfl)

variable [Arith R]

end Setting

/-! ## Entries -/

namespace Config

section

variable [Arith R]

end

end Config

open Config

namespace TextFormat

/-- An entry does not begin with a parenthesis. -/
theorem IsEntry.exists_head {format : TextFormat R} (h : format.IsEntry s cs) :
    ∃ d ds, cs = d :: ds ∧ d ≠ ')' := by
  obtain ⟨h₁, h₂, h₃, h₄⟩ := h
  next w₁ _ _ _ =>
  cases w₁ with
  | nil =>
    obtain ⟨d, ds, hname, hd⟩ := s.isLiteral_name.exists_head
    rw [hname]
    refine ⟨d, _, rfl, ?_⟩
    rintro rfl
    revert hd
    decide
  | cons d w₁ =>
    refine ⟨d, _, rfl, ?_⟩
    rintro rfl
    exact absurd (h₁ ')' List.mem_cons_self) (by decide)

/-- If nothing is written, there are no settings. -/
theorem IsEntries.eq_nil {format : TextFormat R} (h : format.IsEntries ss []) : ss = [] := by
  generalize hcs : ([] : List Char) = cs at h
  cases h with
  | none => rfl
  | last h =>
    obtain ⟨d, ds, rfl, _⟩ := h.exists_head
    cases hcs
  | cons h _ =>
    obtain ⟨d, ds, rfl, _⟩ := h.exists_head
    cases hcs

variable [Arith R]

end TextFormat

/-! ## The format of records -/

namespace Config

variable [Arith R]

end Config

end SketchSolver
