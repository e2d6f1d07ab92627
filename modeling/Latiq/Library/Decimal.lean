import Mathlib.Algebra.Group.Nat.Defs
import Mathlib.Data.Int.Notation
import Mathlib.Data.List.Basic

/-!
# Decimal numbers in texts

Numbers as a formatter writes them, filled with zeros to a width, and a reader of them: it takes the digits in front
of a text, so that what is written is read back where no digit follows it.

* `padded`, `signed` — the writers (the sign of a negative number counts for its width).
* `number`, `integer`, `expect` — the readers.
-/

namespace Decimal

/-- A number, filled with zeros to this width. -/
def padded (width n : ℕ) : List Char := (Nat.toDigits 10 n).leftpad width '0'

/-- A number with a sign, filled with zeros behind the sign to this width. -/
def signed (width : ℕ) (n : ℤ) : List Char :=
  if n < 0 then '-' :: padded (width - 1) n.natAbs else padded width n.natAbs

/-! ### Readers -/

/-- The number in front of a text, and what is behind it. -/
def number (t : List Char) : Option (ℕ × List Char) :=
  match t.takeWhile Char.isDigit with
  | [] => none
  | d :: ds => some (Nat.ofDigitChars 10 (d :: ds) 0, t.dropWhile Char.isDigit)

/-- The number in front of a text, with a sign or without one. -/
def integer : List Char → Option (ℤ × List Char)
  | '-' :: t => (number t).map fun r => (-(r.1 : ℤ), r.2)
  | t => (number t).map fun r => ((r.1 : ℤ), r.2)

/-- What is behind this character. -/
def expect (c : Char) : List Char → Option (List Char)
  | [] => none
  | d :: t => if d = c then some t else none

@[simp] theorem expect_cons (c : Char) (t : List Char) : expect c (c :: t) = some t := if_pos rfl

/-! ### What is written is read -/

theorem isDigit_of_mem_padded {width n : ℕ} {c : Char} (h : c ∈ padded width n) : c.isDigit := by
  rw [padded, List.leftpad, List.mem_append] at h
  rcases h with h | h
  · rw [List.eq_of_mem_replicate h]
    rfl
  · exact Nat.isDigit_of_mem_toDigits (by decide) (by decide) h

theorem padded_ne_nil (width n : ℕ) : padded width n ≠ [] := by
  rw [padded, List.leftpad]
  exact List.append_ne_nil_of_right_ne_nil _ (List.ne_nil_of_length_pos Nat.length_toDigits_pos)

theorem ofDigitChars_padded (width n : ℕ) : Nat.ofDigitChars 10 (padded width n) 0 = n := by
  rw [padded, List.leftpad, Nat.ofDigitChars_append, Nat.ofDigitChars_replicate_zero, Nat.mul_zero,
    Nat.ofDigitChars_ten_toDigits]

theorem length_padded {width n : ℕ} (hpos : 0 < width) (h : n < 10 ^ width) : (padded width n).length = width := by
  have hlen : (Nat.toDigits 10 n).length ≤ width := (Nat.length_toDigits_le_iff (by decide) hpos).2 h
  rw [padded, List.leftpad, List.length_append, List.length_replicate]
  exact Nat.sub_add_cancel hlen

theorem signed_natCast (width n : ℕ) : signed width n = padded width n := by
  rw [signed, if_neg (by omega), Int.natAbs_natCast]

/-- A text without a digit in front. -/
def Ends (t : List Char) : Prop := ∀ c ∈ t.head?, ¬c.isDigit

theorem ends_nil : Ends [] := nofun

theorem ends_cons {c : Char} {t : List Char} (h : c.isDigit = false) : Ends (c :: t) := by
  rintro _ ⟨⟩
  rw [h]
  exact Bool.false_ne_true

/-- **A number that is written is read back**, where no digit follows it. -/
theorem number_padded (width n : ℕ) {rest : List Char} (h : Ends rest) :
    number (padded width n ++ rest) = some (n, rest) := by
  have hdigits : ∀ c ∈ padded width n, c.isDigit = true := fun c hc => isDigit_of_mem_padded hc
  have htake : (padded width n ++ rest).takeWhile Char.isDigit = padded width n := by
    rw [List.takeWhile_append_of_pos hdigits]
    cases rest with
    | nil => exact List.append_nil _
    | cons c rest => rw [List.takeWhile_cons_of_neg (h c rfl), List.append_nil]
  have hdrop : (padded width n ++ rest).dropWhile Char.isDigit = rest := by
    rw [List.dropWhile_append_of_pos hdigits]
    cases rest with
    | nil => rfl
    | cons c rest => exact List.dropWhile_cons_of_neg (h c rfl)
  have hvalue := ofDigitChars_padded width n
  rw [number, htake, hdrop]
  cases hp : padded width n with
  | nil => exact absurd hp (padded_ne_nil width n)
  | cons d ds =>
    rw [hp] at hvalue
    exact congrArg (fun k => some (k, rest)) hvalue

theorem integer_signed (width : ℕ) (n : ℤ) {rest : List Char} (h : Ends rest) :
    integer (signed width n ++ rest) = some (n, rest) := by
  unfold signed
  split_ifs with hneg
  · rw [List.cons_append, integer, number_padded _ _ h, Option.map_some]
    congr 2
    omega
  · have habs : ((n.natAbs : ℕ) : ℤ) = n := by omega
    cases hp : padded width n.natAbs with
    | nil => exact absurd hp (padded_ne_nil width _)
    | cons d ds =>
      have hdigit : d.isDigit = true := isDigit_of_mem_padded (hp ▸ List.mem_cons_self)
      have hsign : d ≠ '-' := by
        rintro rfl
        cases hdigit
      rw [List.cons_append, integer, ← List.cons_append, ← hp, number_padded _ _ h, Option.map_some, habs]
      rintro t ⟨⟩
      exact hsign rfl

end Decimal
