import SketchSolver.Sketch.Basic

/-!
# Operations

An operation works on a sketch in place: it looks at the sketch as it is, changes it, and in the
end answers or is refused. A refusal undoes nothing, so what a refused operation leaves behind is
a property of the operation. `Operation.outcome` keeps the sketch only along with an answer, and
`Operation.left` keeps it in any case.
-/

namespace SketchSolver

/-- An operation on a sketch that is changed in place, with its answer or refusal. -/
abbrev Operation (R α : Type) := EStateM (SketchError R) (Sketch R) α

namespace Operation

variable {R α β : Type}

/-- Asks something of the sketch as it is. -/
def consult (f : Sketch R → Outcome R α) : Operation R α := fun s ↦
  match f s with
  | .ok a => .ok a s
  | .error e => .error e s

/-- Makes a change that is refused before anything happens or else done as a whole. -/
def change (f : Sketch R → Outcome R (α × Sketch R)) : Operation R α := fun s ↦
  match f s with
  | .ok (a, t) => .ok a t
  | .error e => .error e s

/-- The answer with the sketch after it, unless the operation is refused. -/
def outcome (op : Operation R α) (s : Sketch R) : Outcome R (α × Sketch R) :=
  match op.run s with
  | .ok a t => .ok (a, t)
  | .error e _ => .error e

/-- The sketch that an operation leaves behind, also if it is refused. -/
def left (op : Operation R α) (s : Sketch R) : Sketch R :=
  match op.run s with
  | .ok _ t => t
  | .error _ t => t

/-- Asking leaves the sketch alone. -/
theorem run_consult (f : Sketch R → Outcome R α) (s : Sketch R) :
    (consult f).run s =
      match f s with
      | .ok a => .ok a s
      | .error e => .error e s := rfl

/-- A change that is refused leaves the sketch alone. -/
theorem run_change (f : Sketch R → Outcome R (α × Sketch R)) (s : Sketch R) :
    (change f).run s =
      match f s with
      | .ok (a, t) => .ok a t
      | .error e => .error e s := rfl

/-- An outcome is an answer exactly if the operation ends with it. -/
theorem outcome_eq_ok_iff {op : Operation R α} {s t : Sketch R} {a : α} :
    op.outcome s = .ok (a, t) ↔ op.run s = .ok a t := by
  unfold outcome
  cases op.run s <;> simp

/-- Relabelling the answer of an operation changes its answer only. -/
theorem run_map (f : α → β) (op : Operation R α) (s : Sketch R) :
    (f <$> op).run s =
      match op.run s with
      | .ok a t => .ok (f a) t
      | .error e t => .error e t := by
  change EStateM.map f op s = _
  unfold EStateM.map EStateM.run
  cases op s <;> rfl

/-- Relabelling the answer of an operation changes nothing that it leaves behind. -/
theorem left_map (f : α → β) (op : Operation R α) (s : Sketch R) :
    (f <$> op).left s = op.left s := by
  unfold left
  rw [run_map]
  cases op.run s <;> rfl

/-- A change leaves the sketch that it gives, and a refused one leaves the sketch alone. -/
theorem left_change (f : Sketch R → Outcome R (α × Sketch R)) (s : Sketch R) :
    (change f).left s =
      match f s with
      | .ok (_, t) => t
      | .error _ => s := by
  cases h : f s with
  | ok r => simp only [left, change, EStateM.run, h]
  | error e => simp only [left, change, EStateM.run, h]

end Operation

end SketchSolver
