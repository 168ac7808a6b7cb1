import SketchSolver.Config.Literal

/-!
# Tokens of configuration text

Configuration text consists of names, numbers, quoted pieces and single marks. Blanks, comments to
the end of the line and nested block comments separate tokens and mean nothing else. A name or a
number is the longest run of its characters. A name may be written after a mark that makes it a
name whatever it says and lets it hold the characters of numbers.
-/

namespace SketchSolver.Config

/-- A piece of configuration text. -/
inductive Token
  /-- A bracket, a colon, a comma or a mark of attributes. -/
  | mark (c : Char)
  /-- A pair of parentheses with nothing between them. -/
  | unit
  /-- A name, and whether it is marked as one. -/
  | name (marked : Bool) (cs : List Char)
  /-- What begins like a number. -/
  | number (cs : List Char)
  /-- A quoted text or character. -/
  | quoted
  deriving DecidableEq, Repr

/-- The text of a token that can stand for a number or a truth value. -/
def Token.literal? : Token → Option (List Char)
  | name false cs => some cs
  | number cs => some cs
  | _ => none

/-- Whether a character separates tokens. -/
def isBlank (c : Char) : Bool := c == ' ' || c == '\t' || c == '\n' || c == '\r'

/-- Whether a character is a token by itself. -/
def isMark (c : Char) : Bool :=
  c == '(' || c == ')' || c == '[' || c == ']' || c == '\x7b' || c == '\x7d' || c == ':' ||
    c == ',' || c == '#' || c == '!'

/-- Whether a character begins names. -/
def isNameStart (c : Char) : Bool := c.isAlpha || c == '_'

/-- Whether a character belongs to names. -/
def isNameChar (c : Char) : Bool := c.isAlphanum || c == '_'

/-- Whether a character begins numbers. -/
def isNumberStart (c : Char) : Bool := c.isDigit || c == '.' || c == '+' || c == '-'

/-- Whether a character belongs to numbers and to marked names. -/
def isWordChar (c : Char) : Bool := isNameChar c || c == '.' || c == '+' || c == '-'

/-- Whether a number is the code of a character. -/
def isCharCode (n : Nat) : Bool :=
  decide (n < 0xD800) || decide (0xDFFF < n) && decide (n < 0x110000)

/-- Whether a character is a digit below sixteen. -/
def isHexDigit (c : Char) : Bool := (digitValue? c).isSome

/-- What follows a block comment that is open at some depth. -/
def skipBlock? : Nat → List Char → Option (List Char)
  | depth, '/' :: '*' :: cs => skipBlock? (depth + 1) cs
  | depth, '*' :: '/' :: cs => if depth ≤ 1 then some cs else skipBlock? (depth - 1) cs
  | depth, _ :: cs => skipBlock? depth cs
  | _, [] => none

/-- What follows what a backslash begins: a character that stands for another one, two digits after
an `x`, or up to six digits in braces after a `u` that are the code of a character. -/
def skipEscape? : List Char → Option (List Char)
  | 'x' :: a :: b :: cs => if isHexDigit a && isHexDigit b then some cs else none
  | 'u' :: '\x7b' :: cs =>
    let digits := cs.takeWhile isHexDigit
    match cs.drop digits.length with
    | '\x7d' :: cs =>
      if decide (digits.length ≤ 6) && (readDigits? 16 digits).any isCharCode then some cs
      else none
    | _ => none
  | c :: cs => if ("\\\"'nrt0".toList).contains c then some cs else none
  | [] => none

/-- What a backslash begins ends within the text. -/
theorem length_skipEscape? {cs r : List Char} (h : skipEscape? cs = some r) :
    r.length < cs.length := by
  unfold skipEscape? at h
  split at h
  · split at h
    · cases h
      simp only [List.length_cons]
      omega
    · cases h
  · next cs =>
    simp only at h
    split at h
    · next rest hd =>
      split at h
      · cases h
        have hl := congrArg List.length hd
        simp only [List.length_drop, List.length_cons] at hl ⊢
        omega
      · cases h
    · cases h
  · split at h
    · cases h
      simp
    · cases h
  · cases h

/-- What follows a quoted text that is open. -/
def skipQuoted? : List Char → Option (List Char)
  | '"' :: cs => some cs
  | '\\' :: cs =>
    match _h : skipEscape? cs with
    | some r => skipQuoted? r
    | none => none
  | _ :: cs => skipQuoted? cs
  | [] => none
termination_by cs => cs.length
decreasing_by
  · have := length_skipEscape? _h
    simp only [List.length_cons]
    omega
  · simp

/-- What follows a quoted character that is open: one character, or what a backslash begins. -/
def skipCharacter? : List Char → Option (List Char)
  | '\\' :: cs =>
    match skipEscape? cs with
    | some ('\'' :: r) => some r
    | _ => none
  | '\'' :: _ => none
  | _ :: '\'' :: cs => some cs
  | _ => none

/-- What follows the first place where a text goes on with the given ending. -/
def skipPast? (ending : List Char) : List Char → Option (List Char)
  | [] => none
  | c :: cs =>
    if ending.isPrefixOf (c :: cs) then some ((c :: cs).drop ending.length)
    else skipPast? ending cs

/-- What follows a quoted text in which a backslash means nothing. Any number of hash marks may
stand before the quotation mark, and then as many stand behind the one that closes. -/
def skipVerbatim? (cs : List Char) : Option (List Char) :=
  let hashes := cs.takeWhile (· == '#')
  match cs.drop hashes.length with
  | '"' :: cs => skipPast? ('"' :: hashes) cs
  | _ => none

/-- The token at the start of a text, and what follows it. -/
def readToken? : List Char → Option (Token × List Char)
  | '(' :: ')' :: cs => some (.unit, cs)
  | '"' :: cs => (skipQuoted? cs).map fun r ↦ (.quoted, r)
  | '\'' :: cs => (skipCharacter? cs).map fun r ↦ (.quoted, r)
  | 'r' :: '"' :: cs => (skipVerbatim? ('"' :: cs)).map fun r ↦ (.quoted, r)
  | 'r' :: '#' :: cs =>
    match cs.takeWhile isWordChar with
    | [] => (skipVerbatim? ('#' :: cs)).map fun r ↦ (.quoted, r)
    | c :: name => some (.name true (c :: name), cs.dropWhile isWordChar)
  | c :: cs =>
    if isMark c then some (.mark c, cs)
    else if isNameStart c then
      some (.name false (c :: cs.takeWhile isNameChar), cs.dropWhile isNameChar)
    else if isNumberStart c then
      some (.number (c :: cs.takeWhile isWordChar), cs.dropWhile isWordChar)
    else none
  | [] => none

/-- A block comment ends within the text. -/
theorem length_skipBlock? {depth : Nat} {cs r : List Char} (h : skipBlock? depth cs = some r) :
    r.length < cs.length := by
  fun_induction skipBlock? depth cs with
  | case1 depth cs ih => exact Nat.lt_trans (ih h) (by simp only [List.length_cons]; omega)
  | case2 depth cs hd =>
    cases h
    simp only [List.length_cons]
    omega
  | case3 depth cs hd ih => exact Nat.lt_trans (ih h) (by simp only [List.length_cons]; omega)
  | case4 depth c cs _ _ ih => exact Nat.lt_trans (ih h) (by simp)
  | case5 => cases h

/-- A quoted text ends within the text. -/
theorem length_skipQuoted? {cs r : List Char} (h : skipQuoted? cs = some r) :
    r.length < cs.length := by
  fun_induction skipQuoted? cs with
  | case1 cs =>
    cases h
    simp
  | case2 cs s hs ih =>
    have := length_skipEscape? hs
    exact Nat.lt_trans (ih h) (by simp only [List.length_cons]; omega)
  | case3 => cases h
  | case4 c cs _ _ ih => exact Nat.lt_trans (ih h) (by simp)
  | case5 => cases h

/-- A quoted character ends within the text. -/
theorem length_skipCharacter? {cs r : List Char} (h : skipCharacter? cs = some r) :
    r.length < cs.length := by
  unfold skipCharacter? at h
  split at h
  · split at h
    · next hs =>
      cases h
      have := length_skipEscape? hs
      simp only [List.length_cons] at this ⊢
      omega
    · cases h
  · cases h
  · cases h
    simp only [List.length_cons]
    omega
  · cases h

/-- What follows an ending is no longer than what follows its first character. -/
theorem length_skipPast? {c : Char} {ending cs r : List Char}
    (h : skipPast? (c :: ending) cs = some r) : r.length < cs.length := by
  induction cs with
  | nil => cases h
  | cons d cs ih =>
    unfold skipPast? at h
    split at h
    · cases h
      simp only [List.length_cons, List.length_drop]
      omega
    · exact Nat.lt_trans (ih h) (by simp)

/-- A quoted text without escapes ends within the text. -/
theorem length_skipVerbatim? {cs r : List Char} (h : skipVerbatim? cs = some r) :
    r.length < cs.length := by
  unfold skipVerbatim? at h
  simp only at h
  split at h
  · next hd =>
    have hl := congrArg List.length hd
    have := length_skipPast? h
    simp only [List.length_drop, List.length_cons] at hl
    omega
  · cases h

/-- Leaving out the first characters that satisfy a condition makes no text longer. -/
theorem length_dropWhile_le (p : Char → Bool) (cs : List Char) :
    (cs.dropWhile p).length ≤ cs.length := (List.dropWhile_suffix p).length_le

/-- A token ends within the text. -/
theorem length_readToken? {cs r : List Char} {t : Token} (h : readToken? cs = some (t, r)) :
    r.length < cs.length := by
  unfold readToken? at h
  split at h
  · cases h
    simp only [List.length_cons]
    omega
  · obtain ⟨s, hs, he⟩ := Option.map_eq_some_iff.1 h
    cases he
    have := length_skipQuoted? hs
    simp only [List.length_cons]
    omega
  · obtain ⟨s, hs, he⟩ := Option.map_eq_some_iff.1 h
    cases he
    have := length_skipCharacter? hs
    simp only [List.length_cons]
    omega
  · obtain ⟨s, hs, he⟩ := Option.map_eq_some_iff.1 h
    cases he
    have := length_skipVerbatim? hs
    simp only [List.length_cons] at this ⊢
    omega
  · next cs =>
    split at h
    · obtain ⟨s, hs, he⟩ := Option.map_eq_some_iff.1 h
      cases he
      have := length_skipVerbatim? hs
      simp only [List.length_cons] at this ⊢
      omega
    · cases h
      have := length_dropWhile_le isWordChar cs
      simp only [List.length_cons]
      omega
  · next c cs _ _ _ _ _ =>
    have := length_dropWhile_le isNameChar cs
    have := length_dropWhile_le isWordChar cs
    split at h
    · cases h
      simp
    · split at h
      · cases h
        simp only [List.length_cons]
        omega
      · split at h
        · cases h
          simp only [List.length_cons]
          omega
        · cases h
  · cases h

/-- The tokens of a text, unless it holds a character that begins none or an open comment or
quotation. -/
def tokens? : List Char → Option (List Token)
  | [] => some []
  | '/' :: '/' :: cs => tokens? (cs.dropWhile (· != '\n'))
  | '/' :: '*' :: cs =>
    match _h : skipBlock? 1 cs with
    | some r => tokens? r
    | none => none
  | c :: cs =>
    if isBlank c then tokens? cs
    else
      match _h : readToken? (c :: cs) with
      | some (t, r) => (tokens? r).map (t :: ·)
      | none => none
termination_by cs => cs.length
decreasing_by
  · have := length_dropWhile_le (· != '\n') cs
    simp only [List.length_cons]
    omega
  · have := length_skipBlock? _h
    simp only [List.length_cons]
    omega
  · simp
  · exact length_readToken? _h

end SketchSolver.Config
