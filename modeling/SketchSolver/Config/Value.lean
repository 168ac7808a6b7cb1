import SketchSolver.Config.Token

/-!
# Values in configuration text

What may stand where a setting of unknown name has its value: numbers, quoted pieces, names, lists,
pairs of keys and values, and values or named values in parentheses, with or without a name before
them. Such values are passed over. They may nest up to a limit, where a bracket counts as one level
and each item between brackets as one more. Attributes at the start of a text relax the notation.
-/

namespace SketchSolver.Config

/-- The items up to a closing mark, and what follows it. A comma stands between items and may stand
after the last one. Each item uses up some of the fuel. -/
def readItems? {α : Type} (close : Char) (item : List Token → Option (α × List Token)) :
    Nat → List Token → Option (List α × List Token)
  | 0, _ => none
  | fuel + 1, ts =>
    if ts.head? = some (.mark close) then some ([], ts.tail)
    else
      match item ts with
      | some (x, .mark c :: ts) =>
        if c = ',' then (readItems? close item fuel ts).map fun (xs, r) ↦ (x :: xs, r)
        else if c = close then some ([x], ts)
        else none
      | _ => none

/-- A relaxation of the notation. -/
inductive Extension
  /-- A type with one unnamed field is written as the field. -/
  | unwrapNewtypes
  /-- A value that is there is written without a mark, or without parentheses behind the mark. -/
  | implicitSome
  /-- A case with one field of named parts is written with the parts. -/
  | unwrapVariantNewtypes
  deriving DecidableEq, Repr

/-- The relaxation of a name. -/
def Extension.ofName? (cs : List Char) : Option Extension :=
  if cs = "unwrap_newtypes".toList then some .unwrapNewtypes
  else if cs = "implicit_some".toList then some .implicitSome
  else if cs = "unwrap_variant_newtypes".toList then some .unwrapVariantNewtypes
  else none

/-- A relaxation by its name, and what follows it. -/
def readExtension? : List Token → Option (Extension × List Token)
  | .name _ cs :: ts => (Extension.ofName? cs).map fun e ↦ (e, ts)
  | _ => none

/-- The relaxations that the attributes at the start of a text ask for, and what follows the
attributes. Each attribute names at least one and uses up some of the fuel. -/
def readAttributes? : Nat → List Token → Option (List Extension × List Token)
  | fuel + 1, .mark '#' :: ts =>
    match ts with
    | .mark '!' :: .mark '[' :: .name false enable :: .mark '(' :: ts =>
      if enable = "enable".toList then
        match readItems? ')' readExtension? ts.length ts with
        | some (e :: es, .mark ']' :: ts) =>
          (readAttributes? fuel ts).map fun (more, r) ↦ (e :: es ++ more, r)
        | _ => none
      else none
    | _ => none
  | _, .mark '#' :: _ => none
  | _, ts => some ([], ts)

/-- What follows the items up to a closing mark. -/
def skipItems? (close : Char) (item : List Token → Option (List Token)) (fuel : Nat)
    (ts : List Token) : Option (List Token) :=
  (readItems? close (fun ts ↦ (item ts).map fun r ↦ ((), r)) fuel ts).map Prod.snd

/-- What follows a name, a colon and a value. -/
def skipNamed? (value : List Token → Option (List Token)) : List Token → Option (List Token)
  | .name _ _ :: .mark ':' :: ts => value ts
  | _ => none

/-- What follows a key, a colon and a value. -/
def skipPair? (value : List Token → Option (List Token)) (ts : List Token) :
    Option (List Token) :=
  match value ts with
  | some (.mark ':' :: ts) => value ts
  | _ => none

/-- What follows a bracket, items and the bracket that closes. In parentheses either all of the
items are named or none is, as the first one shows. -/
def skipBracketed? (value : List Token → Option (List Token)) (fuel : Nat) :
    List Token → Option (List Token)
  | .unit :: ts => some ts
  | .mark '(' :: .name marked cs :: .mark ':' :: ts =>
    skipItems? ')' (skipNamed? value) fuel (.name marked cs :: .mark ':' :: ts)
  | .mark '(' :: ts => skipItems? ')' value fuel ts
  | .mark '[' :: ts => skipItems? ']' value fuel ts
  | .mark '\x7b' :: ts => skipItems? '\x7d' (skipPair? value) fuel ts
  | _ => none

/-- The names that are values by themselves and take nothing in parentheses. -/
def constants : List (List Char) :=
  ["true".toList, "false".toList, "None".toList, "inf".toList, "NaN".toList]

variable {R : Type} [Arith R]

mutual

/-- What follows a value within some levels of nesting, with fuel for the items of each list. -/
def skipValue? (format : NumberFormat R) (extensions : List Extension) (fuel : Nat) :
    Nat → List Token → Option (List Token)
  | 0, _ => none
  | levels + 1, ts =>
    match ts with
    | .quoted :: ts => some ts
    | .unit :: ts => some ts
    | .number cs :: ts => if isNumber format cs then some ts else none
    | .name marked cs :: ts =>
      if !marked && cs == "Some".toList then
        match ts with
        | .unit :: _ => none
        | .mark '(' :: ts =>
          match skipValue? format extensions fuel levels ts with
          | some (.mark ')' :: ts) => some ts
          | some (.mark ',' :: .mark ')' :: ts) => some ts
          | _ => none
        | ts =>
          if extensions.contains .implicitSome then
            skipValue? format extensions fuel levels ts
          else none
      else if !marked && constants.contains cs then some ts
      else
        match ts with
        | .unit :: _ => skipGroup? format extensions fuel levels ts
        | .mark '(' :: _ => skipGroup? format extensions fuel levels ts
        | _ => some ts
    | _ => skipGroup? format extensions fuel levels ts

/-- What follows a bracket, items and the bracket that closes within some levels of nesting. -/
def skipGroup? (format : NumberFormat R) (extensions : List Extension) (fuel : Nat) :
    Nat → List Token → Option (List Token)
  | 0, _ => none
  | levels + 1, ts => skipBracketed? (skipValue? format extensions fuel levels) fuel ts

end

/-- How many levels a value may nest. -/
def nestingLimit : Nat := 127

end SketchSolver.Config
