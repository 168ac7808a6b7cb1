import Mathlib
import SketchSolver.Config.Number

/-!
# The form of number texts

Counts are written in digits, and doubles in digits with an optional fraction and an optional sign
before them, or as a word. `IsNumeral` is this form. It is what makes texts with numbers in them
readable: a numeral never begins like anything else and goes on to the first character that belongs
to no numeral.
-/

namespace SketchSolver

open Config (isWordChar)

/-! ## Words -/

/-- A text does not go on with a character of words. -/
def EndsWord (rest : List Char) : Prop := ∀ c ∈ rest.head?, isWordChar c = false

/-- The end of a text ends words. -/
theorem endsWord_nil : EndsWord [] := fun _ hc ↦ nomatch hc

/-- A character that belongs to no word ends words. -/
theorem endsWord_cons {c : Char} (hc : isWordChar c = false) (rest : List Char) :
    EndsWord (c :: rest) := by
  intro d hd
  obtain rfl : c = d := Option.some.inj hd
  exact hc

/-- What ends words ends a run of some of their characters. -/
theorem EndsWord.takeWhile_append {p : Char → Bool} {w rest : List Char} (hrest : EndsWord rest)
    (hp : ∀ c, p c = true → isWordChar c = true) (hw : ∀ c ∈ w, p c = true) :
    (w ++ rest).takeWhile p = w ∧ (w ++ rest).dropWhile p = rest := by
  rw [List.takeWhile_append_of_pos hw, List.dropWhile_append_of_pos hw]
  cases rest with
  | nil => exact ⟨List.append_nil w, rfl⟩
  | cons c rest =>
    have hc : p c ≠ true := fun hc ↦ Bool.false_ne_true ((hrest c rfl).symm.trans (hp c hc))
    rw [List.takeWhile_cons_of_neg hc, List.dropWhile_cons_of_neg hc]
    exact ⟨List.append_nil w, rfl⟩

/-- Words that are followed by no character of words can be told from the rest. -/
theorem append_inj_of_endsWord {v w r s : List Char} (hv : ∀ c ∈ v, isWordChar c = true)
    (hw : ∀ c ∈ w, isWordChar c = true) (hr : EndsWord r) (hs : EndsWord s)
    (h : v ++ r = w ++ s) : v = w ∧ r = s := by
  obtain ⟨htakev, hdropv⟩ := hr.takeWhile_append (fun _ hc ↦ hc) hv
  obtain ⟨htakew, hdropw⟩ := hs.takeWhile_append (fun _ hc ↦ hc) hw
  rw [h] at htakev hdropv
  exact ⟨htakev.symm.trans htakew, hdropv.symm.trans hdropw⟩

/-- A digit is a character of words. -/
theorem isWordChar_of_isDigit {c : Char} (h : c.isDigit = true) : isWordChar c = true := by
  simp [isWordChar, Config.isNameChar, Char.isAlphanum, h]

/-! ## Counts -/

/-- A count is written in digits. -/
theorem isDigit_of_mem_repr {n : Nat} {c : Char} (h : c ∈ (Nat.repr n).toList) :
    c.isDigit = true := by
  rw [Nat.repr_eq_ofList_toDigits, String.toList_ofList] at h
  exact Nat.isDigit_of_mem_toDigits (by omega) (by omega) h

/-- The text of a count has a digit. -/
theorem toList_repr_ne_nil (n : Nat) : (Nat.repr n).toList ≠ [] := by
  rw [Nat.repr_eq_ofList_toDigits, String.toList_ofList]
  exact Nat.toDigits_ne_nil

/-- The text of a count tells which one it is. -/
theorem toList_repr_inj {m n : Nat} (h : (Nat.repr m).toList = (Nat.repr n).toList) : m = n := by
  rw [Nat.repr_eq_ofList_toDigits, Nat.repr_eq_ofList_toDigits, String.toList_ofList,
    String.toList_ofList] at h
  rw [← Nat.ofDigitChars_ten_toDigits (n := m), h, Nat.ofDigitChars_ten_toDigits]

/-! ## Numerals -/

/-- Digits with an optional fraction. -/
inductive IsDecimal : List Char → Prop
  /-- A whole number. -/
  | whole {ds : List Char} (hne : ds ≠ []) (hds : ∀ d ∈ ds, d.isDigit = true) : IsDecimal ds
  /-- A number with digits behind the point. -/
  | fraction {ds fs : List Char} (hne : ds ≠ []) (hds : ∀ d ∈ ds, d.isDigit = true)
    (hfs : ∀ d ∈ fs, d.isDigit = true) : IsDecimal (ds ++ '.' :: fs)

/-- The text of a number: a word for an undefined value, or an optional sign before another word or
before digits with an optional fraction. -/
inductive IsNumeral : List Char → Prop
  /-- An undefined value. -/
  | undefined : IsNumeral "NaN".toList
  /-- A value beyond all numbers. -/
  | infinite (negative : Bool) : IsNumeral ((Decimal.signText negative).toList ++ "inf".toList)
  /-- A number. -/
  | decimal (negative : Bool) {cs : List Char} (h : IsDecimal cs) :
    IsNumeral ((Decimal.signText negative).toList ++ cs)

/-- Digits come first. -/
theorem IsDecimal.exists_head {cs : List Char} (h : IsDecimal cs) :
    ∃ c ds, cs = c :: ds ∧ c.isDigit = true := by
  cases h with
  | whole hne hds =>
    obtain ⟨c, ds, rfl⟩ := List.exists_cons_of_ne_nil hne
    exact ⟨c, ds, rfl, hds c List.mem_cons_self⟩
  | fraction hne hds _ =>
    obtain ⟨c, ds, rfl⟩ := List.exists_cons_of_ne_nil hne
    exact ⟨c, _, rfl, hds c List.mem_cons_self⟩

namespace IsNumeral

variable {cs : List Char}

/-- A numeral is a word. -/
theorem isWordChar_of_mem (h : IsNumeral cs) : ∀ c ∈ cs, isWordChar c = true := by
  have hsign : ∀ negative, ∀ c ∈ (Decimal.signText negative).toList, isWordChar c = true := by
    intro negative
    cases negative <;> exact List.all_eq_true.mp rfl
  intro c hc
  cases h with
  | undefined => exact List.all_eq_true.mp rfl c hc
  | infinite negative => cases negative <;> exact List.all_eq_true.mp rfl c hc
  | decimal negative h =>
    rcases List.mem_append.mp hc with hc | hc
    · exact hsign negative c hc
    · cases h with
      | whole _ hds => exact isWordChar_of_isDigit (hds c hc)
      | fraction _ hds hfs =>
        rcases List.mem_append.mp hc with hc | hc
        · exact isWordChar_of_isDigit (hds c hc)
        · rcases List.mem_cons.mp hc with rfl | hc
          · rfl
          · exact isWordChar_of_isDigit (hfs c hc)

/-- A numeral begins with its sign, a digit or the first letter of a word for a value. -/
theorem exists_head (h : IsNumeral cs) :
    ∃ c ds, cs = c :: ds ∧ (c.isDigit = true ∨ c ∈ ['-', 'N', 'i']) := by
  cases h with
  | undefined => exact ⟨'N', _, rfl, .inr (by decide)⟩
  | infinite negative =>
    cases negative with
    | false => exact ⟨'i', _, rfl, .inr (by decide)⟩
    | true => exact ⟨'-', _, rfl, .inr (by decide)⟩
  | decimal negative h =>
    cases negative with
    | false =>
      obtain ⟨c, ds, rfl, hc⟩ := h.exists_head
      exact ⟨c, ds, rfl, .inl hc⟩
    | true => exact ⟨'-', _, rfl, .inr (by decide)⟩

/-- What follows the sign of a numeral is a numeral. -/
theorem of_cons_minus (h : IsNumeral ('-' :: cs)) : IsNumeral cs := by
  generalize hds : '-' :: cs = ds at h
  cases h with
  | undefined => cases hds
  | infinite negative =>
    cases negative with
    | false => cases hds
    | true =>
      cases hds
      exact .infinite false
  | decimal negative h =>
    cases negative with
    | false =>
      obtain ⟨c, ds, rfl, hc⟩ := h.exists_head
      cases hds
      exact absurd hc (by decide)
    | true =>
      cases hds
      exact .decimal false h

end IsNumeral

namespace Decimal

/-- A number in positional notation is written in digits with an optional fraction. -/
theorem isDecimal_positional (s : Scaled) : IsDecimal s.positional.toList := by
  have hrepr : ∀ n, IsDecimal (Nat.repr n).toList := fun n ↦
    .whole (toList_repr_ne_nil n) fun _ ↦ isDigit_of_mem_repr
  have hpoint : ".".toList = ['.'] := rfl
  unfold Scaled.positional
  dsimp only
  split
  · exact hrepr _
  · split
    · exact hrepr _
    · rw [String.toList_append, String.toList_append, hpoint, String.toList_ofList,
        List.append_assoc, List.cons_append, List.nil_append]
      apply IsDecimal.fraction (toList_repr_ne_nil _)
      · intro d hd
        exact isDigit_of_mem_repr hd
      · intro d hd
        have hpadded := (List.dropWhile_sublist _).subset (List.mem_reverse.mp hd)
        rcases List.mem_append.mp (List.mem_reverse.mp hpadded) with hzero | hbehind
        · rw [List.eq_of_mem_replicate hzero]
          rfl
        · exact Nat.isDigit_of_mem_toDigits (by omega) (by omega) hbehind

/-- The digits of a finite double are digits with an optional fraction. -/
theorem isDecimal_digits (mantissa : Nat) (exponent : Int) :
    IsDecimal (if mantissa = 0 then "0" else (shortest mantissa exponent).positional).toList := by
  split
  · exact .whole (List.cons_ne_nil _ _) (List.all_eq_true.mp rfl)
  · exact isDecimal_positional _

/-- The shortest text of a double is a numeral. -/
theorem isNumeral_shortestText (x : Float) : IsNumeral (shortestText x).toList := by
  unfold shortestText
  split
  · exact .undefined
  · next negative _ =>
    rw [String.toList_append]
    exact .infinite negative
  · next negative mantissa exponent _ =>
    rw [String.toList_append]
    exact .decimal negative (isDecimal_digits mantissa exponent)

end Decimal

end SketchSolver
