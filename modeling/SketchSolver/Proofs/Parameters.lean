import SketchSolver.Expr.Rename

/-!
# Agreement about the parameters of an expression

The parameters of an expression are classified by their number, asked for one by one and collected
in a set, each by a pass of its own. `Expr.ParamsAgree` says that all three answers are those of
the set, and what becomes of the set and of the value when parameters are replaced. Replaced
parameters are not looked up again, so a table that exchanges parameters exchanges them in every
expression, and does it back when it is applied once more.
-/

namespace SketchSolver

/-! ## Classification -/

namespace Referenced

/-- The classification of parameters that are listed once each. -/
def ofMembers : List ParamId → Referenced
  | [] => .none
  | [p] => .one p
  | _ :: _ :: _ => .multiple

variable {ps : List ParamId}

/-- There is none if no parameter is listed. -/
theorem ofMembers_eq_none_iff : ofMembers ps = .none ↔ ps = [] := by
  rcases ps with _ | ⟨p, _ | ⟨q, ps⟩⟩ <;> simp [ofMembers]

/-- There is one if it alone is listed. -/
theorem ofMembers_eq_one_iff {r : ParamId} : ofMembers ps = .one r ↔ ps = [r] := by
  rcases ps with _ | ⟨p, _ | ⟨q, ps⟩⟩ <;> simp [ofMembers]

/-- There are several if two or more are listed. -/
theorem ofMembers_eq_multiple_iff : ofMembers ps = .multiple ↔ 2 ≤ ps.length := by
  rcases ps with _ | ⟨p, _ | ⟨q, ps⟩⟩ <;> simp [ofMembers]

end Referenced

namespace Expr

variable {R : Type}

/-- The classification that is found along the tree is the one of the set. -/
theorem referenced_eq_ofMembers (e : Expr R) :
    e.referenced = .ofMembers e.usedParams.keys := by
  have hmem : ∀ p, p ∈ e.usedParams.keys ↔ p ∈ e.params := fun p ↦ mem_keys_usedParams
  have hdistinct := e.usedParams.nodup_keys
  generalize e.usedParams.keys = members at hmem hdistinct
  rcases members with _ | ⟨p, _ | ⟨q, ps⟩⟩
  · apply referenced_eq_none_iff.mpr
    exact List.eq_nil_iff_forall_not_mem.mpr fun p hp ↦ List.not_mem_nil ((hmem p).mpr hp)
  · apply referenced_eq_one_iff.mpr
    have hp := (hmem p).mp List.mem_cons_self
    exact ⟨List.ne_nil_of_mem hp, fun q hq ↦ List.mem_singleton.mp ((hmem q).mpr hq)⟩
  · have hp := (hmem p).mp List.mem_cons_self
    have hq := (hmem q).mp (List.mem_cons_of_mem p List.mem_cons_self)
    cases h : e.referenced with
    | none =>
      rw [referenced_eq_none_iff.mp h] at hp
      exact absurd hp List.not_mem_nil
    | one r =>
      have hall := (referenced_eq_one_iff.mp h).2
      have hpq : p = q := (hall p hp).trans (hall q hq).symm
      exact absurd (hpq ▸ List.mem_cons_self) (List.nodup_cons.mp hdistinct).1
    | multiple => rfl

/-! ## Replacement -/

/-- Freezing removes the parameters of known value from the set. -/
theorem usedParams_freeze (known : ParamId → Option R) (e : Expr R) :
    (e.freeze known).usedParams = e.usedParams.filter fun p _ ↦ (known p).isNone := by
  apply HandleSet.ext
  intro p
  rw [contains_usedParams, params_freeze, List.mem_filter,
    HandleSet.contains_filter fun p ↦ (known p).isNone, contains_usedParams]

/-- Substitution renames the members of the set. -/
theorem usedParams_substitute (m : Table ParamId ParamId) (e : Expr R) :
    (e.substitute m).usedParams = .ofHandles (e.usedParams.keys.map (renamed m)) := by
  apply HandleSet.ext
  intro q
  rw [contains_usedParams, params_substitute, HandleSet.contains_ofHandles]
  simp only [List.mem_map, mem_keys_usedParams]

end Expr

/-! ## Exchange -/

namespace Table

/-- A table in which each parameter with an entry stands in the place of its own replacement. -/
def IsExchange (m : Table ParamId ParamId) : Prop :=
  ∀ p q, m.find? p = some q → m.find? q = some p

/-- Renaming by an exchange is undone by renaming again. -/
theorem IsExchange.renamed_renamed {m : Table ParamId ParamId} (h : m.IsExchange) (p : ParamId) :
    renamed m (renamed m p) = p := by
  cases hp : m.find? p with
  | none => simp only [renamed, hp, Option.getD_none]
  | some q => simp only [renamed, hp, h p q hp, Option.getD_some]

end Table

namespace Expr

variable {R : Type} {m : Table ParamId ParamId}

/-- After an exchange a parameter occurs if the one that it was exchanged with did before. -/
theorem dependsOn_substitute_of_isExchange (h : m.IsExchange) (p : ParamId) (e : Expr R) :
    (e.substitute m).dependsOn (renamed m p) = e.dependsOn p := by
  rw [Bool.eq_iff_iff, dependsOn_eq_true_iff, dependsOn_eq_true_iff, params_substitute,
    List.mem_map]
  constructor
  · rintro ⟨q, hq, hqp⟩
    have hpq : q = p := by rw [← h.renamed_renamed q, hqp, h.renamed_renamed p]
    exact hpq ▸ hq
  · intro hp
    exact ⟨p, hp, rfl⟩

/-- An exchange of parameters is undone by the same exchange. -/
theorem substitute_substitute_of_isExchange (h : m.IsExchange) (e : Expr R) :
    (e.substitute m).substitute m = e := by
  have hback : ∀ p ∈ e.params, renamed m (renamed m p) = renamed .empty p := fun p _ ↦
    h.renamed_renamed p
  rw [substitute_substitute hback, substitute_empty]

example : (param ⟨1⟩ - param ⟨2⟩ : Expr R).substitute (.ofList [(⟨1⟩, ⟨2⟩), (⟨2⟩, ⟨1⟩)]) =
    param ⟨2⟩ - param ⟨1⟩ := rfl

/-! ## Agreement -/

/-- All that is said about the parameters of an expression is said about one set of them. -/
structure ParamsAgree [Arith R] (e : Expr R) : Prop where
  /-- No parameter is referenced exactly if the set is empty. -/
  referenced_none : e.referenced = .none ↔ e.usedParams.keys = []
  /-- One parameter is referenced exactly if the set has it alone. -/
  referenced_one : ∀ p, e.referenced = .one p ↔ e.usedParams.keys = [p]
  /-- Several parameters are referenced exactly if the set has two members or more. -/
  referenced_multiple : e.referenced = .multiple ↔ 2 ≤ e.usedParams.keys.length
  /-- The parameters that occur are the members of the set. -/
  dependsOn : ∀ p, e.dependsOn p = true ↔ e.usedParams.contains p = true
  /-- The value depends on the members of the set alone. -/
  eval_congr : ∀ v w, (∀ p, e.usedParams.contains p = true → v p = w p) → e.eval v = e.eval w
  /-- Freezing leaves the members whose value is not known. -/
  usedParams_freeze : ∀ known, (e.freeze known).usedParams =
    e.usedParams.filter fun p _ ↦ (known p).isNone
  /-- The value of a frozen expression is the one under the assignment that known values
  override. -/
  eval_freeze : ∀ known v, (e.freeze known).eval v = e.eval fun p ↦ (known p).getD (v p)
  /-- Substitution takes each member to what the table has for it, and to itself where that is
  nothing. -/
  usedParams_substitute : ∀ m : Table ParamId ParamId, (e.substitute m).usedParams =
    .ofHandles (e.usedParams.keys.map fun p ↦ (m.find? p).getD p)
  /-- The value after a substitution is the one under the assignment that looks through the
  table. -/
  eval_substitute : ∀ (m : Table ParamId ParamId) v, (e.substitute m).eval v =
    e.eval fun p ↦ v ((m.find? p).getD p)
  /-- Parameters that a table exchanges take each other's place. -/
  dependsOn_substitute : ∀ m : Table ParamId ParamId, m.IsExchange → ∀ p q, m.find? p = some q →
    (e.substitute m).dependsOn q = e.dependsOn p
  /-- An exchange is undone by the same exchange. -/
  substitute_substitute : ∀ m : Table ParamId ParamId, m.IsExchange →
    (e.substitute m).substitute m = e

/-- The three answers about the parameters of an expression agree, and they follow every
replacement. -/
theorem paramsAgree [Arith R] (e : Expr R) : e.ParamsAgree where
  referenced_none := by
    rw [referenced_eq_ofMembers, Referenced.ofMembers_eq_none_iff]
  referenced_one p := by
    rw [referenced_eq_ofMembers, Referenced.ofMembers_eq_one_iff]
  referenced_multiple := by
    rw [referenced_eq_ofMembers, Referenced.ofMembers_eq_multiple_iff]
  dependsOn p := by
    rw [dependsOn_eq_true_iff, contains_usedParams]
  eval_congr v w h := by
    apply Expr.eval_congr
    intro p hp
    exact h p (contains_usedParams.mpr hp)
  usedParams_freeze known := e.usedParams_freeze known
  eval_freeze known v := e.eval_freeze known v
  usedParams_substitute m := e.usedParams_substitute m
  eval_substitute m v := e.eval_substitute m v
  dependsOn_substitute m h p q hpq := by
    have hq : renamed m p = q := by rw [renamed, hpq, Option.getD_some]
    rw [← hq, dependsOn_substitute_of_isExchange h]
  substitute_substitute m h := e.substitute_substitute_of_isExchange h

end Expr

end SketchSolver
