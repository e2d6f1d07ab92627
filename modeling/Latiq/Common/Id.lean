import Latiq.Common.PondOptions

/-!
# The ids of ponds

A pond that is created gets a UUID of version 4 for its id, and for its name if it was given none.
-/

namespace Latiq.Common

open RustStr

/-- `PondId`: a `Uuid` as `Uuid::new_v4` makes it. -/
structure PondId where
  bits : BitVec 128
  version : bits.extractLsb' 76 4 = 4
  variant : bits.extractLsb' 62 2 = 2

namespace PondId

/-- The hexadecimal digits from bit `at` down. -/
def digits (id : PondId) (start count : ℕ) : Text :=
  (List.range count).map fun i => Nat.digitChar ((id.bits >>> (start - 4 * (i + 1))).toNat % 16)

/-- `to_string`: in lower case, with hyphens. -/
def toText (id : PondId) : Text :=
  id.digits 128 8 ++ '-' :: (id.digits 96 4 ++ '-' :: (id.digits 80 4 ++ '-' :: (id.digits 64 4 ++ '-' :: id.digits 48 12)))

theorem of_mem_digits {id : PondId} {start count : ℕ} {c : Char} (h : c ∈ id.digits start count) :
    isPondNameChar c ∧ c.utf8Size = 1 := by
  obtain ⟨i, -, rfl⟩ := List.mem_map.1 h
  have hdigits : ∀ d < 16, isPondNameChar (Nat.digitChar d) ∧ (Nat.digitChar d).utf8Size = 1 := by decide
  exact hdigits _ (Nat.mod_lt _ (by omega))

theorem of_mem_toText {id : PondId} {c : Char} (h : c ∈ id.toText) : isPondNameChar c ∧ c.utf8Size = 1 := by
  simp only [toText, List.mem_append, List.mem_cons] at h
  rcases h with h | rfl | h | rfl | h | rfl | h | rfl | h
  all_goals first | exact of_mem_digits h | decide

theorem length_toText (id : PondId) : id.toText.length = 36 := by
  simp [toText, digits]

/-- **An id is a legal name.** -/
theorem validate_toText (id : PondId) : validatePondName id.toText = .ok () := by
  have hne : id.toText ≠ [] := List.ne_nil_of_length_eq_add_one (length_toText id)
  have hlen : byteLen id.toText = 36 := by
    have hones : id.toText.map Char.utf8Size = List.replicate 36 1 := by
      rw [← length_toText id, ← List.map_const']
      exact List.map_congr_left fun c hc => (of_mem_toText hc).2
    rw [byteLen, hones]
    decide
  have hchars : id.toText.find? (fun c => !isPondNameChar c) = none :=
    List.find?_eq_none.2 fun c hc => by simp [(of_mem_toText hc).1]
  unfold validatePondName
  rw [if_neg hne, hlen, if_neg (by decide), hchars]

end PondId

end Latiq.Common
