import SketchSolver.Expr.Text
import SketchSolver.Proofs.Text.Numerals

/-!
# Expressions can be told from their texts

No two expressions have the same text, apart from constants that are written alike. Parameters and
constants are words, which go on to the first character that belongs to no word, and an operation
begins like no word. Only an opposite and an operation on two operands begin alike, since the first
operand may be a negative number. They are told apart by what follows the number: an operation on
two operands goes on with its sign, an opposite is closed.
-/

namespace SketchSolver

variable {R S : Type}

/-! ## Texts of operations -/

/-- An expression with each constant replaced. -/
def Expr.mapConstants (f : R → S) : Expr R → Expr S
  | .param p => .param p
  | .constant x => .constant (f x)
  | .binary op a b => .binary op (a.mapConstants f) (b.mapConstants f)
  | .unary op a => .unary op (a.mapConstants f)

/-- The text of an expression is made of the texts of its constants. -/
theorem Expr.text_mapConstants (number : R → String) (e : Expr R) :
    (e.mapConstants number).text id = e.text number := by
  induction e with
  | param => rfl
  | constant => rfl
  | binary op a b iha ihb => simp only [mapConstants, text, iha, ihb]
  | unary op a ih => simp only [mapConstants, text, ih]

/-- The sign between two operands does not go on with a character of words. -/
theorem BinaryOp.endsWord_sign (op : BinaryOp) (rest : List Char) :
    EndsWord (op.sign.toList ++ rest) := by
  cases op <;> exact endsWord_cons rfl _

/-- The sign between two operands tells which one it is. -/
theorem BinaryOp.sign_append_inj {op op' : BinaryOp} {r s : List Char}
    (h : op.sign.toList ++ r = op'.sign.toList ++ s) : op = op' ∧ r = s := by
  cases op <;> cases op' <;> cases h <;> exact ⟨rfl, rfl⟩

/-- The opening of an operation tells which one it is. -/
theorem UnaryOp.opening_append_inj {op op' : UnaryOp} {r s : List Char}
    (h : op.opening.toList ++ r = op'.opening.toList ++ s) : op = op' ∧ r = s := by
  cases op <;> cases op' <;> cases h <;> exact ⟨rfl, rfl⟩

/-- The characters that operations begin with. -/
def openings : List Char := ['(', 's', 'c', 'a']

/-- The opening of an operation begins with one of these characters. -/
theorem UnaryOp.exists_opening (op : UnaryOp) :
    ∃ c ds, op.opening.toList = c :: ds ∧ c ∈ openings := by
  cases op <;> exact ⟨_, _, rfl, by decide⟩

namespace Expr

variable {number : R → String}

/-- The text of an operation between two operands, before some rest. -/
theorem toList_text_binary (op : BinaryOp) (a b : Expr R) (rest : List Char) :
    ((binary op a b).text number).toList ++ rest =
      '(' :: ((a.text number).toList ++
        (op.sign.toList ++ ((b.text number).toList ++ (')' :: rest)))) := by
  simp only [text, String.toList_append, List.append_assoc]
  rfl

/-- The text of an operation on one operand, before some rest. -/
theorem toList_text_unary (op : UnaryOp) (a : Expr R) (rest : List Char) :
    ((unary op a).text number).toList ++ rest =
      op.opening.toList ++ ((a.text number).toList ++ (')' :: rest)) := by
  simp only [text, String.toList_append, List.append_assoc]
  rfl

end Expr

/-! ## Operands that are words -/

/-- A word that begins like no operation. -/
structure IsOperand (w : List Char) : Prop where
  /-- It is a word. -/
  isWordChar_of_mem : ∀ c ∈ w, Config.isWordChar c = true
  /-- It begins like no operation. -/
  exists_head : ∃ c ds, w = c :: ds ∧ c ∉ openings

/-- Numerals begin like no operation. -/
theorem IsNumeral.isOperand {w : List Char} (h : IsNumeral w) : IsOperand w := by
  refine ⟨h.isWordChar_of_mem, ?_⟩
  have hopenings : ∀ c ∈ openings, (!c.isDigit && !(['-', 'N', 'i'].contains c)) = true :=
    List.all_eq_true.mp rfl
  obtain ⟨c, ds, rfl, hc⟩ := h.exists_head
  refine ⟨c, ds, rfl, fun hopens ↦ ?_⟩
  have hother := hopenings c hopens
  rw [Bool.and_eq_true, Bool.not_eq_true', Bool.not_eq_true', ← Bool.not_eq_true,
    ← Bool.not_eq_true, List.contains_iff_mem] at hother
  exact hc.elim hother.1 hother.2

/-- Parameters begin like no operation. -/
theorem ParamId.isOperand_text (p : ParamId) : IsOperand p.text.toList := by
  have htext : p.text.toList = 'p' :: (Nat.repr p.index).toList := by
    rw [ParamId.text, String.toList_append]
    rfl
  rw [htext]
  refine ⟨fun c hc ↦ ?_, 'p', _, rfl, by decide⟩
  rcases List.mem_cons.mp hc with rfl | hc
  · rfl
  · exact isWordChar_of_isDigit (isDigit_of_mem_repr hc)

/-- Parameters are told from their texts. -/
theorem ParamId.text_inj {p q : ParamId} (h : p.text.toList = q.text.toList) : p = q := by
  rw [ParamId.text, ParamId.text, String.toList_append, String.toList_append] at h
  exact Numbered.index_inj (toList_repr_inj (List.append_cancel_left h))

/-- A parameter is not written like a number. -/
theorem ParamId.not_isNumeral_text (p : ParamId) : ¬ IsNumeral p.text.toList := by
  intro h
  obtain ⟨c, ds, hcs, hc⟩ := h.exists_head
  rw [ParamId.text, String.toList_append] at hcs
  obtain ⟨rfl, _⟩ := List.cons.inj hcs
  revert hc
  decide

namespace Expr

variable {number : R → String} {w r s : List Char} {e : Expr R}

/-- A word that begins like no operation is not the beginning of one on two operands. -/
theorem append_ne_text_binary (hw : IsOperand w) (op : BinaryOp) (a b : Expr R) :
    w ++ r ≠ ((binary op a b).text number).toList ++ s := by
  intro h
  obtain ⟨c, ds, rfl, hc⟩ := hw.exists_head
  rw [toList_text_binary] at h
  obtain ⟨rfl, _⟩ := List.cons.inj h
  exact hc (by decide)

/-- A word that begins like no operation is not the beginning of one on one operand. -/
theorem append_ne_text_unary (hw : IsOperand w) (op : UnaryOp) (a : Expr R) :
    w ++ r ≠ ((unary op a).text number).toList ++ s := by
  intro h
  obtain ⟨c, ds, rfl, hc⟩ := hw.exists_head
  obtain ⟨d, es, hopening, hd⟩ := op.exists_opening
  rw [toList_text_unary, hopening] at h
  obtain ⟨rfl, _⟩ := List.cons.inj h
  exact hc hd

/-- Where a text begins with such a word, the word is an expression by itself. -/
theorem eq_of_isOperand_append (hnumber : ∀ x, IsNumeral (number x).toList) (hw : IsOperand w)
    (hr : EndsWord r) (hs : EndsWord s) (h : w ++ r = (e.text number).toList ++ s) :
    w = (e.text number).toList ∧ r = s := by
  cases e with
  | param p =>
    exact append_inj_of_endsWord hw.isWordChar_of_mem p.isOperand_text.isWordChar_of_mem hr hs h
  | constant x =>
    exact append_inj_of_endsWord hw.isWordChar_of_mem (hnumber x).isWordChar_of_mem hr hs h
  | binary op a b => exact absurd h (append_ne_text_binary hw op a b)
  | unary op a => exact absurd h (append_ne_text_unary hw op a)

/-- A closing parenthesis ends words. -/
theorem endsWord_close (rest : List Char) : EndsWord (')' :: rest) := endsWord_cons rfl rest

/-- Where a text begins with the sign of a negative number, the expression is the number. -/
theorem exists_isNumeral_of_minus (hnumber : ∀ x, IsNumeral (number x).toList)
    (h : (e.text number).toList ++ r = '-' :: s) :
    ∃ v, (e.text number).toList = '-' :: v ∧ IsNumeral v := by
  cases e with
  | param p =>
    rw [text, ParamId.text, String.toList_append] at h
    cases h
  | constant x =>
    rw [text] at h ⊢
    obtain ⟨c, v, hcs, _⟩ := (hnumber x).exists_head
    have hnumeral := hnumber x
    rw [hcs] at h hnumeral ⊢
    obtain ⟨rfl, _⟩ := List.cons.inj h
    exact ⟨v, rfl, hnumeral.of_cons_minus⟩
  | binary op a b =>
    rw [toList_text_binary] at h
    cases h
  | unary op a =>
    rw [toList_text_unary] at h
    cases op <;> cases h

/-- An operation on two operands is not written like one on one operand. -/
theorem text_binary_append_ne (hnumber : ∀ x, IsNumeral (number x).toList) (op : BinaryOp)
    (op' : UnaryOp) (a b c : Expr R) :
    ((binary op a b).text number).toList ++ r ≠ ((unary op' c).text number).toList ++ s := by
  intro h
  rw [toList_text_binary, toList_text_unary] at h
  cases op' with
  | negate =>
    have hminus := (List.cons.inj h).2
    obtain ⟨v, hv, hnumeral⟩ := exists_isNumeral_of_minus hnumber hminus
    rw [hv] at hminus
    -- The number without its sign would be the operand of the opposite, which is closed behind it.
    have hclosed := (eq_of_isOperand_append hnumber hnumeral.isOperand (op.endsWord_sign _)
      (endsWord_close s) (List.cons.inj hminus).2).2
    cases op <;> cases hclosed
  | sqrt => cases h
  | square => cases h
  | sin => cases h
  | cos => cases h
  | asin => cases h
  | acos => cases h

/-! ## Reading an expression off its text -/

/-- What is written tells the expression, up to constants that are written alike, and what follows
it. -/
theorem mapConstants_eq_of_append (hnumber : ∀ x, IsNumeral (number x).toList) {a b : Expr R}
    (hr : EndsWord r) (hs : EndsWord s)
    (h : (a.text number).toList ++ r = (b.text number).toList ++ s) :
    a.mapConstants number = b.mapConstants number ∧ r = s := by
  induction a generalizing b r s with
  | param p =>
    obtain ⟨htext, hrest⟩ := eq_of_isOperand_append hnumber p.isOperand_text hr hs h
    cases b with
    | param q => exact ⟨congrArg param (ParamId.text_inj htext), hrest⟩
    | constant y => exact absurd (htext ▸ hnumber y) p.not_isNumeral_text
    | binary op' b c => exact absurd h (append_ne_text_binary p.isOperand_text op' b c)
    | unary op' b => exact absurd h (append_ne_text_unary p.isOperand_text op' b)
  | constant x =>
    obtain ⟨htext, hrest⟩ := eq_of_isOperand_append hnumber (hnumber x).isOperand hr hs h
    cases b with
    | param q => exact absurd (htext ▸ hnumber x) q.not_isNumeral_text
    | constant y => exact ⟨congrArg constant (String.toList_inj.mp htext), hrest⟩
    | binary op' b c => exact absurd h (append_ne_text_binary (hnumber x).isOperand op' b c)
    | unary op' b => exact absurd h (append_ne_text_unary (hnumber x).isOperand op' b)
  | binary op a₁ a₂ ih₁ ih₂ =>
    cases b with
    | param q => exact absurd h.symm (append_ne_text_binary q.isOperand_text op a₁ a₂)
    | constant y => exact absurd h.symm (append_ne_text_binary (hnumber y).isOperand op a₁ a₂)
    | binary op' b₁ b₂ =>
      rw [toList_text_binary, toList_text_binary] at h
      obtain ⟨hfirst, hsign⟩ := ih₁ (op.endsWord_sign _) (op'.endsWord_sign _) (List.cons.inj h).2
      obtain ⟨rfl, hsecond⟩ := BinaryOp.sign_append_inj hsign
      obtain ⟨hsecond, hrest⟩ := ih₂ (endsWord_close r) (endsWord_close s) hsecond
      rw [mapConstants, mapConstants, hfirst, hsecond]
      exact ⟨rfl, (List.cons.inj hrest).2⟩
    | unary op' b => exact absurd h (text_binary_append_ne hnumber op op' a₁ a₂ b)
  | unary op a ih =>
    cases b with
    | param q => exact absurd h.symm (append_ne_text_unary q.isOperand_text op a)
    | constant y => exact absurd h.symm (append_ne_text_unary (hnumber y).isOperand op a)
    | binary op' b₁ b₂ => exact absurd h.symm (text_binary_append_ne hnumber op' op b₁ b₂ a)
    | unary op' b =>
      rw [toList_text_unary, toList_text_unary] at h
      obtain ⟨rfl, hoperand⟩ := UnaryOp.opening_append_inj h
      obtain ⟨hsame, hrest⟩ := ih (endsWord_close r) (endsWord_close s) hoperand
      rw [mapConstants, mapConstants, hsame]
      exact ⟨rfl, (List.cons.inj hrest).2⟩

/-- If the texts of constants are numerals, two expressions have the same text exactly if they are
the same up to constants that are written alike. -/
theorem text_eq_text_iff (hnumber : ∀ x, IsNumeral (number x).toList) (a b : Expr R) :
    a.text number = b.text number ↔ a.mapConstants number = b.mapConstants number := by
  constructor
  · intro h
    have htext := congrArg (String.toList · ++ []) h
    exact (mapConstants_eq_of_append hnumber endsWord_nil endsWord_nil htext).1
  · intro h
    rw [← text_mapConstants, h, text_mapConstants]

/-- The texts of doubles are numerals, so expressions over them can be told from their texts. -/
theorem text_eq_text_iff_shortestText :
    (∀ x, IsNumeral (Decimal.shortestText x).toList) ∧
      ∀ a b : Expr Float, a.text Decimal.shortestText = b.text Decimal.shortestText ↔
        a.mapConstants Decimal.shortestText = b.mapConstants Decimal.shortestText :=
  ⟨Decimal.isNumeral_shortestText, text_eq_text_iff Decimal.isNumeral_shortestText⟩

end Expr

end SketchSolver
