import Mathlib.Data.List.Basic
import Mathlib.Data.Nat.Notation

/-!
# Percent-encoding

Bytes of which some are written as a percent sign and two hexadecimal digits. A percent sign that no two such digits
follow stands for itself.

* `decode` — what the bytes stand for.
* `encodeUnless` — all bytes but the safe ones are escaped.
* **`decode_encodeUnless`** — where percent signs and hexadecimal digits are safe, a text stands for the same as
  before, whatever it has escaped already.
-/

namespace Percent

/-- `%`. -/
def sign : UInt8 := 37

/-- The value of a hexadecimal digit. -/
def hexValue (b : UInt8) : Option ℕ :=
  if 48 ≤ b.toNat ∧ b.toNat ≤ 57 then some (b.toNat - 48)
  else if 65 ≤ b.toNat ∧ b.toNat ≤ 70 then some (b.toNat - 55)
  else if 97 ≤ b.toNat ∧ b.toNat ≤ 102 then some (b.toNat - 87)
  else none

/-- An upper-case hexadecimal digit. -/
def hexDigit (n : ℕ) : UInt8 := UInt8.ofNat (if n < 10 then 48 + n else 55 + n)

/-- A byte, as its two digits behind a percent sign. -/
def escape (b : UInt8) : List UInt8 := [sign, hexDigit (b.toNat / 16), hexDigit (b.toNat % 16)]

/-- What bytes stand for. -/
def decode : List UInt8 → List UInt8
  | [] => []
  | [a] => [a]
  | [a, b] => [a, b]
  | a :: x :: y :: t =>
    if a = sign then
      match hexValue x, hexValue y with
      | some h, some l => UInt8.ofNat (16 * h + l) :: decode t
      | _, _ => a :: decode (x :: y :: t)
    else a :: decode (x :: y :: t)

/-- All bytes but those are escaped. -/
def encodeUnless (safe : UInt8 → Bool) (t : List UInt8) : List UInt8 :=
  t.flatMap fun b => if safe b then [b] else escape b

theorem hexValue_hexDigit {n : ℕ} (h : n < 16) : hexValue (hexDigit n) = some n := by
  have hall : ∀ n < 16, hexValue (hexDigit n) = some n := by decide
  exact hall n h

theorem hexValue_sign : hexValue sign = none := rfl

/-- The first two bytes are digits. -/
def Digits : List UInt8 → Prop
  | x :: y :: _ => (hexValue x).isSome ∧ (hexValue y).isSome
  | _ => False

/-- A byte that no two digits follow stands for itself. -/
theorem decode_cons_of_not_digits {t : List UInt8} (h : ¬Digits t) (a : UInt8) : decode (a :: t) = a :: decode t := by
  match t with
  | [] => rfl
  | [_] => rfl
  | x :: y :: t =>
    rw [decode]
    split
    · split
      · rename_i hx hy
        exact absurd ⟨by rw [hx]; rfl, by rw [hy]; rfl⟩ h
      · rfl
    · rfl

theorem decode_cons_of_ne {a : UInt8} (h : a ≠ sign) (t : List UInt8) : decode (a :: t) = a :: decode t := by
  match t with
  | [] => rfl
  | [_] => rfl
  | x :: y :: t => rw [decode, if_neg h]

theorem decode_digits {x y : UInt8} {h l : ℕ} (hx : hexValue x = some h) (hy : hexValue y = some l) (t : List UInt8) :
    decode (sign :: x :: y :: t) = UInt8.ofNat (16 * h + l) :: decode t := by
  rw [decode, if_pos rfl, hx, hy]

theorem decode_escape (b : UInt8) (t : List UInt8) : decode (escape b ++ t) = b :: decode t := by
  have hlt : b.toNat < 256 := b.toNat_lt
  have hhigh := hexValue_hexDigit (n := b.toNat / 16) (by omega)
  have hlow := hexValue_hexDigit (n := b.toNat % 16) (by omega)
  have hb : 16 * (b.toNat / 16) + b.toNat % 16 = b.toNat := Nat.div_add_mod b.toNat 16
  rw [escape, List.cons_append, List.cons_append, List.cons_append, List.nil_append, decode_digits hhigh hlow, hb,
    UInt8.ofNat_toNat]

section

variable {safe : UInt8 → Bool}

theorem encodeUnless_cons (b : UInt8) (t : List UInt8) :
    encodeUnless safe (b :: t) = (if safe b then [b] else escape b) ++ encodeUnless safe t := rfl

/-- The first byte is not escaped, or a percent sign stands there. -/
theorem digit_of_encodeUnless {t r : List UInt8} {x : UInt8} (h : encodeUnless safe t = x :: r)
    (hx : (hexValue x).isSome) : ∃ t', t = x :: t' ∧ r = encodeUnless safe t' := by
  cases t with
  | nil => cases h
  | cons b t =>
    rw [encodeUnless_cons] at h
    split at h
    · cases h
      exact ⟨t, rfl, rfl⟩
    · cases h
      rw [hexValue_sign] at hx
      cases hx

theorem digits_of_encodeUnless {t : List UInt8} (h : Digits (encodeUnless safe t)) : Digits t := by
  match he : encodeUnless safe t with
  | [] => rw [he] at h; exact h.elim
  | [_] => rw [he] at h; exact h.elim
  | x :: y :: r =>
    rw [he] at h
    obtain ⟨hx, hy⟩ := h
    obtain ⟨t₁, rfl, ht₁⟩ := digit_of_encodeUnless he hx
    obtain ⟨t₂, rfl, -⟩ := digit_of_encodeUnless ht₁.symm hy
    exact ⟨hx, hy⟩

/-- **What was escaped already** stands for the same as before. -/
theorem decode_encodeUnless (hsign : safe sign = true) (hdigit : ∀ b, (hexValue b).isSome → safe b = true)
    (t : List UInt8) : decode (encodeUnless safe t) = decode t := by
  induction hn : t.length using Nat.strongRecOn generalizing t with
  | _ n ih =>
    cases t with
    | nil => rfl
    | cons a t =>
      have htail : decode (encodeUnless safe t) = decode t := ih t.length (by simp [← hn]) t rfl
      rw [encodeUnless_cons]
      by_cases ha : a = sign
      · subst ha
        rw [if_pos hsign, List.singleton_append]
        by_cases hd : Digits t
        · match t, hd with
          | x :: y :: r, ⟨hx, hy⟩ =>
            obtain ⟨h, hh⟩ := Option.isSome_iff_exists.1 hx
            obtain ⟨l, hl⟩ := Option.isSome_iff_exists.1 hy
            rw [encodeUnless_cons, encodeUnless_cons, if_pos (hdigit x hx), if_pos (hdigit y hy)]
            show decode (sign :: x :: y :: encodeUnless safe r) = _
            rw [decode_digits hh hl, decode_digits hh hl, ih r.length (by simp [← hn]; omega) r rfl]
        · rw [decode_cons_of_not_digits (fun h => hd (digits_of_encodeUnless h)), decode_cons_of_not_digits hd, htail]
      · rw [decode_cons_of_ne ha]
        split
        · rw [List.singleton_append, decode_cons_of_ne ha, htail]
        · rw [decode_escape, htail]

end

end Percent
