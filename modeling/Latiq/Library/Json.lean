import Latiq.Library.Decimal
import Latiq.Library.Serde
import Mathlib.Tactic.IntervalCases

/-!
# JSON texts

Values as a compact serializer writes them, and a reader of what it writes: no space is between the tokens, and a
string has the short escapes, and `\u00xx` for the other control characters.

* `quote`, `unquote` — strings.
* `print`, `value`, `read` — values; `value` has a fuel, for which the length of the text is enough.

## What is proved

* `value_print` — what is printed is read back, where no character of a number follows it.
* `read_print`, `print_inj` — a text is the print of one value.
-/

namespace Json

open Serde (Value)

/-- A text, as the list of its characters. -/
abbrev Text := List Char

/-! ### Strings -/

/-- A hexadecimal digit. -/
def hexDigit (n : ℕ) : Char := if n < 10 then Char.ofNat (48 + n) else Char.ofNat (87 + n)

/-- One character in a string. -/
def escape (c : Char) : Text :=
  if c = '"' then ['\\', '"']
  else if c = '\\' then ['\\', '\\']
  else if c = '\x08' then ['\\', 'b']
  else if c = '\x0c' then ['\\', 'f']
  else if c = '\n' then ['\\', 'n']
  else if c = '\r' then ['\\', 'r']
  else if c = '\t' then ['\\', 't']
  else if c.toNat < 32 then ['\\', 'u', '0', '0', hexDigit (c.toNat / 16), hexDigit (c.toNat % 16)]
  else [c]

/-- A string. -/
def quote (s : Text) : Text := '"' :: (s.flatMap escape ++ ['"'])

/-- What a hexadecimal digit stands for. -/
def hexValue (c : Char) : ℕ := if c.isDigit then c.toNat - 48 else c.toNat - 87

/-- What a short escape stands for. -/
def unescape (c : Char) : Char :=
  if c = 'b' then '\x08'
  else if c = 'f' then '\x0c'
  else if c = 'n' then '\n'
  else if c = 'r' then '\r'
  else if c = 't' then '\t'
  else c

/-- A string from behind its opening quote, and what is behind its closing quote. -/
def unquote : Text → Option (Text × Text)
  | [] => none
  | '"' :: t => some ([], t)
  | '\\' :: 'u' :: _ :: _ :: a :: b :: t =>
    (unquote t).map fun r => (Char.ofNat (hexValue a * 16 + hexValue b) :: r.1, r.2)
  | '\\' :: e :: t => (unquote t).map fun r => (unescape e :: r.1, r.2)
  | c :: t => (unquote t).map fun r => (c :: r.1, r.2)

theorem hexValue_hexDigit {n : ℕ} (h : n < 16) : hexValue (hexDigit n) = n := by
  interval_cases n <;> rfl

theorem unquote_escape (c : Char) (t : Text) :
    unquote (escape c ++ t) = (unquote t).map fun r => (c :: r.1, r.2) := by
  unfold escape
  split_ifs with hquote hback hb hf hn hr ht hcontrol
  · subst hquote
    rfl
  · subst hback
    rfl
  · subst hb
    rfl
  · subst hf
    rfl
  · subst hn
    rfl
  · subst hr
    rfl
  · subst ht
    rfl
  · have hchar : Char.ofNat (hexValue (hexDigit (c.toNat / 16)) * 16 + hexValue (hexDigit (c.toNat % 16))) = c := by
      rw [hexValue_hexDigit (by omega), hexValue_hexDigit (by omega), Nat.div_add_mod', Char.ofNat_toNat]
    rw [List.cons_append, List.cons_append, List.cons_append, List.cons_append, List.cons_append, List.cons_append,
      List.nil_append, unquote, hchar]
  · rw [List.singleton_append, unquote]
    · exact hquote
    · exact fun _ _ _ _ _ h => absurd h hback
    · exact fun _ _ h => absurd h hback

/-- **A string is read back**, whatever is behind it. -/
theorem unquote_quote (s t : Text) : unquote (s.flatMap escape ++ '"' :: t) = some (s, t) := by
  induction s with
  | nil => rfl
  | cons c s ih => rw [List.flatMap_cons, List.append_assoc, unquote_escape, ih, Option.map_some]

/-! ### Values -/

/-- The characters of numbers. -/
def isNumberChar (c : Char) : Bool := c.isDigit || c == '-' || c == '+' || c == '.' || c == 'e' || c == 'E'

/-- The characters of integers. -/
def isIntChar (c : Char) : Bool := c.isDigit || c == '-'

mutual

/-- A value, without spaces. -/
def print : Value → Text
  | .null => "null".toList
  | .bool true => "true".toList
  | .bool false => "false".toList
  | .int n => Decimal.signed 0 n
  | .float written => written.toList
  | .str s => quote s
  | .arr [] => "[]".toList
  | .arr (v :: vs) => '[' :: (print v ++ printItems vs)
  | .obj [] => "\x7b\x7d".toList
  | .obj ((k, v) :: ms) => '{' :: (quote k.toList ++ ':' :: (print v ++ printMembers ms))

/-- What is behind an item. -/
def printItems : List Value → Text
  | [] => [']']
  | v :: vs => ',' :: (print v ++ printItems vs)

/-- What is behind a member. -/
def printMembers : List (String × Value) → Text
  | [] => ['}']
  | (k, v) :: ms => ',' :: (quote k.toList ++ ':' :: (print v ++ printMembers ms))

end

/-- What a number is. -/
def numberOf (token : Text) : Option Value :=
  if token.all isIntChar then (Decimal.integer token).map fun r => .int r.1 else some (.float (String.ofList token))

mutual

/-- The value in front of a text, and what is behind it. -/
def value : ℕ → Text → Option (Value × Text)
  | 0, _ => none
  | n + 1, t =>
    match t with
    | '"' :: t => (unquote t).map fun r => (.str r.1, r.2)
    | '[' :: ']' :: t => some (.arr [], t)
    | '[' :: t => (items n t).map fun r => (.arr r.1, r.2)
    | '{' :: '}' :: t => some (.obj [], t)
    | '{' :: t => (members n t).map fun r => (.obj r.1, r.2)
    | 'n' :: 'u' :: 'l' :: 'l' :: t => some (.null, t)
    | 't' :: 'r' :: 'u' :: 'e' :: t => some (.bool true, t)
    | 'f' :: 'a' :: 'l' :: 's' :: 'e' :: t => some (.bool false, t)
    | t => (numberOf (t.takeWhile isNumberChar)).map fun v => (v, t.dropWhile isNumberChar)

/-- The items in front of the end of an array. -/
def items : ℕ → Text → Option (List Value × Text)
  | 0, _ => none
  | n + 1, t =>
    match value n t with
    | some (v, ']' :: t) => some ([v], t)
    | some (v, ',' :: t) => (items n t).map fun r => (v :: r.1, r.2)
    | _ => none

/-- The members in front of the end of an object. -/
def members : ℕ → Text → Option (List (String × Value) × Text)
  | 0, _ => none
  | n + 1, t =>
    match value n t with
    | some (.str k, ':' :: t) =>
      match value n t with
      | some (v, '}' :: t) => some ([(String.ofList k, v)], t)
      | some (v, ',' :: t) => (members n t).map fun r => ((String.ofList k, v) :: r.1, r.2)
      | _ => none
    | _ => none

end

/-- The value that a text is. -/
def read (t : Text) : Option Value :=
  match value t.length t with
  | some (v, []) => some v
  | _ => none

mutual

/-- Numbers with a fraction or an exponent are written as such. -/
def Written : Value → Prop
  | .float written => written.toList.all isNumberChar = true ∧ written.toList.all isIntChar = false
  | .arr vs => WrittenItems vs
  | .obj ms => WrittenMembers ms
  | _ => True

def WrittenItems : List Value → Prop
  | [] => True
  | v :: vs => Written v ∧ WrittenItems vs

def WrittenMembers : List (String × Value) → Prop
  | [] => True
  | (_, v) :: ms => Written v ∧ WrittenMembers ms

end

mutual

/-- The fuel that a value needs. -/
def weight : Value → ℕ
  | .arr vs => 1 + weightItems vs
  | .obj ms => 1 + weightMembers ms
  | _ => 1

def weightItems : List Value → ℕ
  | [] => 0
  | v :: vs => 1 + weight v + weightItems vs

def weightMembers : List (String × Value) → ℕ
  | [] => 0
  | (_, v) :: ms => 1 + weight v + weightMembers ms

end

/-! ### What is printed is read -/

/-- A text with no character of a number in front. -/
def Ends (t : Text) : Prop := ∀ c ∈ t.head?, isNumberChar c = false

theorem ends_items (vs : List Value) (t : Text) : Ends (printItems vs ++ t) := by
  cases vs <;> rintro _ ⟨⟩ <;> rfl

theorem ends_members (ms : List (String × Value)) (t : Text) : Ends (printMembers ms ++ t) := by
  cases ms <;> rintro _ ⟨⟩ <;> rfl

theorem takeWhile_ends {token t : Text} (h : ∀ c ∈ token, isNumberChar c = true) (ht : Ends t) :
    (token ++ t).takeWhile isNumberChar = token ∧ (token ++ t).dropWhile isNumberChar = t := by
  rw [List.takeWhile_append_of_pos h, List.dropWhile_append_of_pos h]
  cases t with
  | nil => exact ⟨List.append_nil token, rfl⟩
  | cons c t =>
    have hc : ¬isNumberChar c = true := by
      rw [ht c rfl]
      exact Bool.false_ne_true
    rw [List.takeWhile_cons_of_neg hc, List.dropWhile_cons_of_neg hc]
    exact ⟨List.append_nil token, rfl⟩

/-- A number, up to what is none of its characters. -/
theorem value_number {token : Text} {v : Value} (hall : token.all isNumberChar = true) (hne : token ≠ [])
    (h : numberOf token = some v) {t : Text} (ht : Ends t) (n : ℕ) : value (n + 1) (token ++ t) = some (v, t) := by
  obtain ⟨htake, hdrop⟩ := takeWhile_ends (List.all_eq_true.1 hall) ht
  obtain ⟨c, cs, rfl⟩ := List.exists_cons_of_ne_nil hne
  have hc : isNumberChar c = true := List.all_eq_true.1 hall c List.mem_cons_self
  have hvalue : value (n + 1) (c :: (cs ++ t)) =
      (numberOf ((c :: (cs ++ t)).takeWhile isNumberChar)).map fun v => (v, (c :: (cs ++ t)).dropWhile isNumberChar) := by
    rw [value]
    all_goals
      intro _ heq
      obtain rfl := (List.cons.inj heq).1
      cases hc
  rw [List.cons_append] at htake hdrop ⊢
  rw [hvalue, htake, hdrop, h]
  rfl

theorem signed_ne_nil (n : ℤ) : Decimal.signed 0 n ≠ [] := by
  unfold Decimal.signed
  split_ifs
  · exact List.cons_ne_nil _ _
  · exact Decimal.padded_ne_nil _ _

theorem isIntChar_signed (n : ℤ) : (Decimal.signed 0 n).all isIntChar = true := by
  have hpadded (width m : ℕ) : (Decimal.padded width m).all isIntChar = true := by
    refine List.all_eq_true.2 fun c hc => ?_
    rw [isIntChar, Decimal.isDigit_of_mem_padded hc, Bool.true_or]
  unfold Decimal.signed
  split_ifs
  · rw [List.all_cons, hpadded]
    rfl
  · exact hpadded _ _

theorem isNumberChar_of_isIntChar {token : Text} (h : token.all isIntChar = true) : token.all isNumberChar = true := by
  refine List.all_eq_true.2 fun c hc => ?_
  obtain hdigit | hsign := Bool.or_eq_true_iff.1 (List.all_eq_true.1 h c hc)
  · simp [isNumberChar, hdigit]
  · simp [isNumberChar, hsign]

theorem numberOf_signed (n : ℤ) : numberOf (Decimal.signed 0 n) = some (.int n) := by
  have hread := Decimal.integer_signed 0 n Decimal.ends_nil
  rw [List.append_nil] at hread
  rw [numberOf, if_pos (isIntChar_signed n), hread]
  rfl

theorem numberOf_written {written : String} (h : written.toList.all isIntChar = false) :
    numberOf written.toList = some (.float written) := by
  rw [numberOf, if_neg (by rw [h]; exact Bool.false_ne_true), String.ofList_toList]

theorem ne_nil_of_written {written : String} (h : Written (.float written)) : written.toList ≠ [] := by
  intro hnil
  have hint := h.2
  rw [hnil] at hint
  cases hint

theorem value_quote (s t : Text) (n : ℕ) : value (n + 1) (quote s ++ t) = some (.str s, t) := by
  rw [quote, List.cons_append, List.append_assoc, List.singleton_append, value, unquote_quote]
  rfl

theorem weight_pos (v : Value) : 0 < weight v := by
  cases v <;> simp [weight]

/-- What is printed does not end the array it is in. -/
theorem head_print {v : Value} (hv : Written v) (t : Text) : ∃ c s, print v ++ t = c :: s ∧ c ≠ ']' := by
  have hnumber {token : Text} (hall : token.all isNumberChar = true) (hne : token ≠ []) :
      ∃ c s, token ++ t = c :: s ∧ c ≠ ']' := by
    obtain ⟨c, cs, rfl⟩ := List.exists_cons_of_ne_nil hne
    refine ⟨c, cs ++ t, rfl, ?_⟩
    rintro rfl
    cases List.all_eq_true.1 hall ']' List.mem_cons_self
  cases v with
  | null => exact ⟨'n', _, rfl, by decide⟩
  | bool b =>
    cases b with
    | false => exact ⟨'f', _, rfl, by decide⟩
    | true => exact ⟨'t', _, rfl, by decide⟩
  | int n => exact hnumber (isNumberChar_of_isIntChar (isIntChar_signed n)) (signed_ne_nil n)
  | float written => exact hnumber hv.1 (ne_nil_of_written hv)
  | str s => exact ⟨'"', _, rfl, by decide⟩
  | arr vs => cases vs <;> exact ⟨'[', _, rfl, by decide⟩
  | obj ms => cases ms <;> exact ⟨'{', _, rfl, by decide⟩

mutual

/-- **What is printed is read back**, where no character of a number follows it. -/
theorem value_print : ∀ (v : Value), Written v → ∀ {n : ℕ}, weight v ≤ n → ∀ {t : Text}, Ends t →
    value n (print v ++ t) = some (v, t)
  | .null, _, n + 1, _, _, _ => rfl
  | .bool true, _, n + 1, _, _, _ => rfl
  | .bool false, _, n + 1, _, _, _ => rfl
  | .int i, _, n + 1, _, _, ht =>
    value_number (isNumberChar_of_isIntChar (isIntChar_signed i)) (signed_ne_nil i) (numberOf_signed i) ht n
  | .float _, hv, n + 1, _, _, ht => value_number hv.1 (ne_nil_of_written hv) (numberOf_written hv.2) ht n
  | .str s, _, n + 1, _, t, _ => value_quote s t n
  | .arr [], _, n + 1, _, _, _ => rfl
  | .obj [], _, n + 1, _, _, _ => rfl
  | .arr (v :: vs), hv, n, hn, t, _ => by
    rw [weight, weightItems] at hn
    obtain ⟨n, rfl⟩ : ∃ k, n = k + 2 := ⟨n - 2, by omega⟩
    have hvalue := value_print v hv.1 (n := n) (by omega) (ends_items vs t)
    have hitems := items_print vs hv.2 (by omega) hvalue
    obtain ⟨c, s, heq, hc⟩ := head_print hv.1 (printItems vs ++ t)
    rw [heq] at hitems
    rw [print, List.cons_append, List.append_assoc, heq, value, hitems]
    · rfl
    · rintro _ heq
      exact hc (List.cons.inj heq).1
  | .obj ((k, v) :: ms), hv, n, hn, t, _ => by
    rw [weight, weightMembers] at hn
    have hpos := weight_pos v
    obtain ⟨n, rfl⟩ : ∃ k, n = k + 3 := ⟨n - 3, by omega⟩
    have hvalue := value_print v hv.1 (n := n + 1) (by omega) (ends_members ms t)
    have hkey := value_quote k.toList (':' :: (print v ++ (printMembers ms ++ t))) n
    have hmembers := members_print ms hv.2 (by omega) hkey hvalue
    simp only [quote, String.ofList_toList, List.cons_append, List.append_assoc, List.nil_append] at hmembers
    simp only [print, quote, List.cons_append, List.append_assoc, List.nil_append]
    rw [value, hmembers]
    · rfl
    · rintro _ ⟨⟩

/-- The rest of an array, behind an item of it. -/
theorem items_print : ∀ (vs : List Value), WrittenItems vs → ∀ {n : ℕ}, weightItems vs ≤ n → ∀ {s t : Text} {v : Value},
    value n s = some (v, printItems vs ++ t) → items (n + 1) s = some (v :: vs, t)
  | [], _, n, _, s, t, v, h => by
    rw [items, h]
    rfl
  | w :: ws, hv, n, hn, s, t, v, h => by
    rw [weightItems] at hn
    obtain ⟨n, rfl⟩ : ∃ k, n = k + 1 := ⟨n - 1, by omega⟩
    have hvalue := value_print w hv.1 (n := n) (by omega) (ends_items ws t)
    rw [items, h, printItems, List.cons_append, List.append_assoc]
    show (items (n + 1) (print w ++ (printItems ws ++ t))).map (fun r => (v :: r.1, r.2)) = _
    rw [items_print ws hv.2 (by omega) hvalue]
    rfl

/-- The rest of an object, behind a member of it. -/
theorem members_print : ∀ (ms : List (String × Value)), WrittenMembers ms → ∀ {n : ℕ}, weightMembers ms ≤ n →
    ∀ {s r t : Text} {k : Text} {v : Value}, value n s = some (.str k, ':' :: r) →
      value n r = some (v, printMembers ms ++ t) → members (n + 1) s = some ((String.ofList k, v) :: ms, t)
  | [], _, n, _, s, r, t, k, v, hk, h => by
    rw [members, hk]
    simp only [h]
    rfl
  | (k', w) :: ms, hv, n, hn, s, r, t, k, v, hk, h => by
    rw [weightMembers] at hn
    have hpos := weight_pos w
    obtain ⟨n, rfl⟩ : ∃ k, n = k + 2 := ⟨n - 2, by omega⟩
    have hvalue := value_print w hv.1 (n := n + 1) (by omega) (ends_members ms t)
    have hkey := value_quote k'.toList (':' :: (print w ++ (printMembers ms ++ t))) n
    have hmembers := members_print ms hv.2 (by omega) hkey hvalue
    rw [members, hk]
    simp only [h]
    rw [printMembers, List.cons_append, List.append_assoc, List.cons_append, List.append_assoc]
    show (members (n + 2) (quote k'.toList ++ ':' :: (print w ++ (printMembers ms ++ t)))).map
      (fun r => ((String.ofList k, v) :: r.1, r.2)) = _
    rw [hmembers, String.ofList_toList]
    rfl

end

mutual

theorem weight_le_length : ∀ v : Value, Written v → weight v ≤ (print v).length
  | .null, _ => by decide
  | .bool true, _ => by decide
  | .bool false, _ => by decide
  | .int n, _ => List.length_pos_of_ne_nil (signed_ne_nil n)
  | .float _, hv => List.length_pos_of_ne_nil (ne_nil_of_written hv)
  | .str _, _ => by simp [weight, print, quote]
  | .arr [], _ => by decide
  | .obj [], _ => by decide
  | .arr (v :: vs), hv => by
    have hvalue := weight_le_length v hv.1
    have hitems := weightItems_lt_length vs hv.2
    simp only [weight, weightItems, print, List.length_cons, List.length_append]
    omega
  | .obj ((k, v) :: ms), hv => by
    have hvalue := weight_le_length v hv.1
    have hmembers := weightMembers_lt_length ms hv.2
    simp only [weight, weightMembers, print, List.length_cons, List.length_append]
    omega

theorem weightItems_lt_length : ∀ vs : List Value, WrittenItems vs → weightItems vs < (printItems vs).length
  | [], _ => by decide
  | v :: vs, hv => by
    have hvalue := weight_le_length v hv.1
    have hitems := weightItems_lt_length vs hv.2
    simp only [weightItems, printItems, List.length_cons, List.length_append]
    omega

theorem weightMembers_lt_length : ∀ ms : List (String × Value), WrittenMembers ms →
    weightMembers ms < (printMembers ms).length
  | [], _ => by decide
  | (k, v) :: ms, hv => by
    have hvalue := weight_le_length v hv.1
    have hmembers := weightMembers_lt_length ms hv.2
    simp only [weightMembers, printMembers, List.length_cons, List.length_append]
    omega

end

/-- **The text of a value is read as the value.** -/
theorem read_print {v : Value} (hv : Written v) : read (print v) = some v := by
  have hvalue := value_print v hv (weight_le_length v hv) (t := []) nofun
  rw [List.append_nil] at hvalue
  rw [read, hvalue]

/-- No two values have one text. -/
theorem print_inj {v w : Value} (hv : Written v) (hw : Written w) (h : print v = print w) : v = w := by
  have hread := read_print hv
  rw [h, read_print hw] at hread
  exact (Option.some.inj hread).symm

example : (read "[1,-2.5e3,\x7b\"a\\n\":[null,true]\x7d]".toList).map print =
    some "[1,-2.5e3,\x7b\"a\\n\":[null,true]\x7d]".toList := by
  decide +kernel

end Json
