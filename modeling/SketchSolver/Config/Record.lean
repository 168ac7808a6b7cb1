import SketchSolver.Config.Text
import SketchSolver.Config.Value

/-!
# Configurations as records

A format that writes a configuration as a record: its settings in parentheses, one to a line, each
with its name. Reading takes any of the settings in any order and passes over settings of unknown
name. How scalars are written is a parameter of the format.
-/

namespace SketchSolver

namespace Setting

variable {R : Type}

/-- The text of a truth value. -/
def flagText (b : Bool) : List Char := if b then "true".toList else "false".toList

/-- The text of the value of a setting. -/
def valueText (numbers : NumberFormat R) : Setting R → List Char
  | tolerance x => numbers.render x
  | maxIterations n => (Nat.repr n).toList
  | maxUnknowns n => (Nat.repr n).toList
  | rankTolerance x => numbers.render x
  | draggedScale x => numbers.render x
  | damping x => numbers.render x
  | stallWindow n => (Nat.repr n).toList
  | stallRatio x => numbers.render x
  | findBadConstraints b => flagText b
  | findFreeParams b => flagText b

variable [Arith R]

/-- The reader of the value of a setting, if a setting has the name. -/
def reader? (numbers : NumberFormat R) (name : List Char) :
    Option (List Char → Option (Setting R)) :=
  if name = "tolerance".toList then some fun v ↦ (Config.readNumber? numbers v).map tolerance
  else if name = "max_iterations".toList then some fun v ↦ (Config.readCount? v).map maxIterations
  else if name = "max_unknowns".toList then some fun v ↦ (Config.readCount? v).map maxUnknowns
  else if name = "rank_tolerance".toList then
    some fun v ↦ (Config.readNumber? numbers v).map rankTolerance
  else if name = "dragged_scale".toList then
    some fun v ↦ (Config.readNumber? numbers v).map draggedScale
  else if name = "damping".toList then some fun v ↦ (Config.readNumber? numbers v).map damping
  else if name = "stall_window".toList then some fun v ↦ (Config.readCount? v).map stallWindow
  else if name = "stall_ratio".toList then
    some fun v ↦ (Config.readNumber? numbers v).map stallRatio
  else if name = "find_bad_constraints".toList then
    some fun v ↦ (Config.readFlag? v).map findBadConstraints
  else if name = "find_free_params".toList then
    some fun v ↦ (Config.readFlag? v).map findFreeParams
  else none

end Setting

namespace Config

variable {R : Type}

/-- A setting as it is written: its name, a colon and its value. -/
def entryText (numbers : NumberFormat R) (s : Setting R) : List Char :=
  s.name ++ ": ".toList ++ s.valueText numbers

/-- A configuration as a record, one setting to a line. -/
def recordText (numbers : NumberFormat R) (c : Config R) : List Char :=
  "(\n".toList ++
    (c.settings.flatMap fun s ↦ "    ".toList ++ entryText numbers s ++ ",\n".toList) ++ [')']

variable [Arith R]

/-- The setting of an entry, unless its name is unknown, and what follows the entry. The value of a
setting is a number or a truth value, and a value of any kind may stand for an unknown one. -/
def readAssignment? (numbers : NumberFormat R) (extensions : List Extension) (fuel : Nat) :
    List Token → Option (Option (Setting R) × List Token)
  | .name _ name :: .mark ':' :: ts =>
    match Setting.reader? numbers name with
    | some read =>
      match ts with
      | v :: ts => (v.literal?.bind read).map fun s ↦ (some s, ts)
      | [] => none
    | none =>
      (skipValue? numbers extensions fuel nestingLimit ts).map fun ts ↦ (none, ts)
  | _ => none

/-- The settings of entries in parentheses, which nothing follows. -/
def readAssignments? (numbers : NumberFormat R) (extensions : List Extension) :
    List Token → Option (List (Setting R))
  | [.unit] => some []
  | .mark '(' :: ts =>
    match readItems? ')' (readAssignment? numbers extensions ts.length) ts.length ts with
    | some (entries, []) => some (entries.filterMap id)
    | _ => none
  | _ => none

/-- The name that may stand before the parentheses of a configuration. -/
def typeName : List Char := "SolverConfig".toList

/-- What follows the type name, if a text begins with one. -/
def skipTypeName? : List Token → Option (List Token)
  | .name _ cs :: ts => if cs = typeName then some ts else none
  | ts => some ts

/-- The settings of a text: attributes, an optional type name and entries in parentheses, where no
setting comes twice. -/
def readSettings? (numbers : NumberFormat R) (cs : List Char) : Option (List (Setting R)) :=
  let settings? :=
    match tokens? cs with
    | some ts =>
      match readAttributes? ts.length ts with
      | some (extensions, ts) => (skipTypeName? ts).bind (readAssignments? numbers extensions)
      | none => none
    | none => none
  settings?.filter fun ss ↦ decide (ss.map Setting.name).Nodup

/-- The format of records. -/
def recordFormat (numbers : NumberFormat R) : TextFormat R where
  valueText := Setting.valueText numbers
  readSetting? name text := (Setting.reader? numbers name).bind fun read ↦ read text
  write := recordText numbers
  read? base cs := (readSettings? numbers cs).map fun ss ↦ ss.foldr (fun s c ↦ c.set s) base

end Config

end SketchSolver
