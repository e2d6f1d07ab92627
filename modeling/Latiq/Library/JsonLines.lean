import Latiq.Library.JsonCodec
import Latiq.Library.RustStr

/-!
# JSON on lines

A file with one value on each line: a value is printed without a control character, so that no line breaks within it,
and a reader holds its objects as maps.

* `Plain` — a text without control characters; `plain_print` says that a value is printed as one.
* `trim_print_obj` — nothing is trimmed off an object.
* `held` — a value as it is held: the members of an object by their keys, the last one of each key.
* `fromLine` — the value of a line; **`fromLine_print`** says that a value that is printed is held behind it.
* `settled` — a value whose numbers are numbers.
-/

namespace Json

open Serde (Value insert collect)

/-! ### A line -/

/-- No control character is in the text. -/
def Plain (t : Text) : Prop := ∀ c ∈ t, 32 ≤ c.toNat

theorem plain_nil : Plain [] := List.forall_mem_nil _

theorem plain_cons {c : Char} {t : Text} : Plain (c :: t) ↔ 32 ≤ c.toNat ∧ Plain t := List.forall_mem_cons

theorem plain_append {s t : Text} : Plain (s ++ t) ↔ Plain s ∧ Plain t := List.forall_mem_append

theorem plain_of_all {t : Text} (h : (t.all fun c => decide (32 ≤ c.toNat)) = true) : Plain t := fun c hc =>
  of_decide_eq_true (List.all_eq_true.1 h c hc)

theorem plain_hexDigit {n : ℕ} (h : n < 16) : 32 ≤ (hexDigit n).toNat := by
  interval_cases n <;> decide

/-- A character is escaped without a control character. -/
theorem plain_escape (c : Char) : Plain (escape c) := by
  have hshort {d : Char} (hd : 32 ≤ d.toNat) : Plain ['\\', d] :=
    plain_cons.2 ⟨by decide, plain_cons.2 ⟨hd, plain_nil⟩⟩
  unfold escape
  split_ifs with h1 h2 h3 h4 h5 h6 h7 hcontrol
  · exact hshort (by decide)
  · exact hshort (by decide)
  · exact hshort (by decide)
  · exact hshort (by decide)
  · exact hshort (by decide)
  · exact hshort (by decide)
  · exact hshort (by decide)
  · have hzeros : Plain ['\\', 'u', '0', '0'] := plain_of_all (by decide)
    refine plain_append.2 ⟨hzeros, plain_cons.2 ⟨plain_hexDigit (by omega), plain_cons.2 ⟨?_, plain_nil⟩⟩⟩
    exact plain_hexDigit (by omega)
  · exact plain_cons.2 ⟨not_lt.1 hcontrol, plain_nil⟩

theorem plain_quote (s : Text) : Plain (quote s) := by
  refine plain_cons.2 ⟨by decide, plain_append.2 ⟨fun c hc => ?_, plain_cons.2 ⟨by decide, plain_nil⟩⟩⟩
  obtain ⟨d, -, hd⟩ := List.mem_flatMap.1 hc
  exact plain_escape d c hd

theorem plain_number {token : Text} (h : token.all isNumberChar = true) : Plain token := by
  intro c hc
  have hnumber := List.all_eq_true.1 h c hc
  simp only [isNumberChar, Char.isDigit, Bool.or_eq_true, Bool.and_eq_true, decide_eq_true_eq, beq_iff_eq] at hnumber
  rcases hnumber with ((((⟨hlow, -⟩ | rfl) | rfl) | rfl) | rfl) | rfl
  · have hle : (48 : UInt32).toNat ≤ c.val.toNat := hlow
    exact le_trans (by decide) hle
  all_goals decide

mutual

/-- **A value is printed** without a control character. -/
theorem plain_print : ∀ v : Value, Written v → Plain (print v)
  | .null, _ | .bool true, _ | .bool false, _ => plain_of_all (by decide)
  | .int n, _ => plain_number (isNumberChar_of_isIntChar (isIntChar_signed n))
  | .float _, h => plain_number h.1
  | .str s, _ => plain_quote s
  | .arr [], _ | .obj [], _ => plain_of_all (by decide)
  | .arr (v :: vs), h => plain_cons.2 ⟨by decide, plain_append.2 ⟨plain_print v h.1, plain_printItems vs h.2⟩⟩
  | .obj ((k, v) :: ms), h => by
    refine plain_cons.2 ⟨by decide, plain_append.2 ⟨plain_quote k.toList, plain_cons.2 ⟨by decide, ?_⟩⟩⟩
    exact plain_append.2 ⟨plain_print v h.1, plain_printMembers ms h.2⟩

theorem plain_printItems : ∀ vs : List Value, WrittenItems vs → Plain (printItems vs)
  | [], _ => plain_of_all (by decide)
  | v :: vs, h => plain_cons.2 ⟨by decide, plain_append.2 ⟨plain_print v h.1, plain_printItems vs h.2⟩⟩

theorem plain_printMembers : ∀ ms : List (String × Value), WrittenMembers ms → Plain (printMembers ms)
  | [], _ => plain_of_all (by decide)
  | (k, v) :: ms, h => by
    refine plain_cons.2 ⟨by decide, plain_append.2 ⟨plain_quote k.toList, plain_cons.2 ⟨by decide, ?_⟩⟩⟩
    exact plain_append.2 ⟨plain_print v h.1, plain_printMembers ms h.2⟩

end

theorem printMembers_eq (ms : List (String × Value)) : ∃ t, printMembers ms = t ++ ['}'] := by
  induction ms with
  | nil => exact ⟨[], rfl⟩
  | cons e ms ih =>
    obtain ⟨t, ht⟩ := ih
    refine ⟨',' :: (quote e.1.toList ++ ':' :: (print e.2 ++ t)), ?_⟩
    rw [printMembers, ht]
    simp

/-- An object is between its braces. -/
theorem print_obj_eq (ms : List (String × Value)) : ∃ t, print (.obj ms) = '{' :: (t ++ ['}']) := by
  cases ms with
  | nil => exact ⟨[], rfl⟩
  | cons e ms =>
    obtain ⟨t, ht⟩ := printMembers_eq ms
    refine ⟨quote e.1.toList ++ ':' :: (print e.2 ++ t), ?_⟩
    rw [print, ht]
    simp

/-- Nothing is trimmed off an object. -/
theorem trim_print_obj (ms : List (String × Value)) : RustStr.trim (print (.obj ms)) = print (.obj ms) := by
  obtain ⟨t, ht⟩ := print_obj_eq ms
  have hstart : RustStr.trimStart ('{' :: (t ++ ['}'])) = '{' :: (t ++ ['}']) :=
    List.dropWhile_cons_of_neg (by decide)
  have hend : RustStr.trimEnd ('{' :: t ++ ['}']) = '{' :: t ++ ['}'] := List.rdropWhile_concat_neg _ _ _ (by decide)
  rw [ht, RustStr.trim, hstart]
  exact hend

/-! ### As it is held -/

mutual

/-- The value as a reader holds it. -/
def held : Value → Value
  | .arr vs => .arr (heldItems vs)
  | .obj ms => .obj (collect (heldMembers ms))
  | v => v

def heldItems : List Value → List Value
  | [] => []
  | v :: vs => held v :: heldItems vs

def heldMembers : List (String × Value) → List (String × Value)
  | [] => []
  | (k, v) :: ms => (k, held v) :: heldMembers ms

end

theorem heldItems_eq (vs : List Value) : heldItems vs = vs.map held := by
  induction vs with
  | nil => rfl
  | cons v vs ih => rw [heldItems, ih, List.map_cons]

theorem heldMembers_eq (ms : List (String × Value)) : heldMembers ms = ms.map fun e => (e.1, held e.2) := by
  induction ms with
  | nil => rfl
  | cons e ms ih => rw [heldMembers, ih, List.map_cons]

/-- A member of an object without a key twice is held under its key. -/
theorem get?_held {ms : List (String × Value)} (h : (ms.map Prod.fst).Nodup) {k : String} {v : Value} (hv : (k, v) ∈ ms) :
    (held (.obj ms)).get? k = some (held v) := by
  have hkeys : (heldMembers ms).map Prod.fst = ms.map Prod.fst := by
    rw [heldMembers_eq, List.map_map]
    rfl
  have hmem : (k, held v) ∈ heldMembers ms := by
    rw [heldMembers_eq]
    exact List.mem_map_of_mem (f := fun e : String × Value => (e.1, held e.2)) hv
  exact Serde.lookup_collect (hkeys ▸ h) hmem

/-- The value of a line. -/
def fromLine (t : Text) : Option Value := (read t).map held

/-- **A value that is printed** is held behind it. -/
theorem fromLine_print {v : Value} (h : Written v) : fromLine (print v) = some (held v) := by
  rw [fromLine, read_print h, Option.map_some]

/-! ### Numbers -/

/-- A text of a number that is no integer. -/
def isFraction (written : String) : Bool := written.toList.all isNumberChar && !written.toList.all isIntChar

mutual

/-- A value, with `null` for what is no number. -/
def settled : Value → Value
  | .float written => if isFraction written then .float written else .null
  | .arr vs => .arr (settledItems vs)
  | .obj ms => .obj (settledMembers ms)
  | v => v

def settledItems : List Value → List Value
  | [] => []
  | v :: vs => settled v :: settledItems vs

def settledMembers : List (String × Value) → List (String × Value)
  | [] => []
  | (k, v) :: ms => (k, settled v) :: settledMembers ms

end

mutual

theorem written_settled : ∀ v : Value, Written (settled v)
  | .null | .bool _ | .int _ | .str _ => trivial
  | .float written => by
    unfold settled
    split_ifs with h
    · simp only [isFraction, Bool.and_eq_true, Bool.not_eq_true'] at h
      exact h
    · trivial
  | .arr vs => written_settledItems vs
  | .obj ms => written_settledMembers ms

theorem written_settledItems : ∀ vs : List Value, WrittenItems (settledItems vs)
  | [] => trivial
  | v :: vs => ⟨written_settled v, written_settledItems vs⟩

theorem written_settledMembers : ∀ ms : List (String × Value), WrittenMembers (settledMembers ms)
  | [] => trivial
  | (_, v) :: ms => ⟨written_settled v, written_settledMembers ms⟩

end

mutual

theorem settled_of_written : ∀ v : Value, Written v → settled v = v
  | .null, _ | .bool _, _ | .int _, _ | .str _, _ => rfl
  | .float written, h => by
    have hfraction : isFraction written = true := by
      simp only [isFraction, Bool.and_eq_true, Bool.not_eq_true']
      exact h
    rw [settled, if_pos hfraction]
  | .arr vs, h => congrArg Value.arr (settledItems_of_written vs h)
  | .obj ms, h => congrArg Value.obj (settledMembers_of_written ms h)

theorem settledItems_of_written : ∀ vs : List Value, WrittenItems vs → settledItems vs = vs
  | [], _ => rfl
  | v :: vs, h => congrArg₂ List.cons (settled_of_written v h.1) (settledItems_of_written vs h.2)

theorem settledMembers_of_written : ∀ ms : List (String × Value), WrittenMembers ms → settledMembers ms = ms
  | [], _ => rfl
  | (k, v) :: ms, h =>
    congrArg₂ List.cons (congrArg (Prod.mk k) (settled_of_written v h.1)) (settledMembers_of_written ms h.2)

end

end Json
