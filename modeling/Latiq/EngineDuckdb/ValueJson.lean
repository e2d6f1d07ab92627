import Latiq.EngineDuckdb.Temporal
import Latiq.Library.Collect
import Latiq.Library.Json

/-!
# Cells as JSON

`value_to_json` and `map_key`: the JSON of a cell, with its lists, structs and maps, as a row of a result holds it. The
fields of a struct and the entries of a map are collected into an object, whose names are texts: a key of a map that is
a text is its own name, and of any other key the JSON is printed.

## What is abstracted

A finite float is given by the text `serde_json` prints for it, the shortest one that is read as it; a 32-bit float is
the 64-bit one of its value. The bits of a NaN are not told apart.

## What is proved

* `written_valueToJson` — the JSON is one that a text says: no two cells with different JSON are printed alike.
* `scalar_eq_iff` — of two cells of one type without parts, the JSON is one just where they are one value
  (`AlikeScalar`), or neither says a number, or both are in one microsecond.
-/

namespace Latiq.EngineDuckdb.ValueJson

open RustStr (Text)
open Serde (Value collect)
open Temporal

/-- The integers of at most 64 bits. -/
inductive IntWidth where
  | tinyInt | smallInt | int | bigInt | uTinyInt | uSmallInt | uInt | uBigInt
  deriving DecidableEq, Repr

/-- A float. -/
inductive Double where
  | nan
  | infinite (negative : Bool)
  | finite (written : {s : String // Json.Written (.float s)})

/-- `duckdb::types::Value`. -/
inductive DuckValue where
  | null
  | boolean (b : Bool)
  | integer (width : IntWidth) (i : ℤ)
  | hugeInt (i : ℤ)
  | float (f : Double)
  | double (f : Double)
  | decimal (mantissa : ℤ) (scale : ℕ)
  | text (s : String)
  | enum (s : String)
  | date32 (days : I32)
  | timestamp (unit : TimeUnit) (t : I64)
  | time64 (unit : TimeUnit) (t : I64)
  | interval (months days : I32) (nanos : I64)
  | blob (b : List UInt8)
  | list (items : List DuckValue)
  | array (items : List DuckValue)
  | struct (fields : List (String × DuckValue))
  | map (entries : List (DuckValue × DuckValue))
  | union (inner : DuckValue)

/-! ### Scalars -/

/-- `J::from` of a float. -/
def ofDouble : Double → Value
  | .finite written => .float written
  | _ => .null

/-- The digits of a decimal number, with this many of them behind the point. -/
def decimalDigits (n scale : ℕ) : Text :=
  Decimal.padded 1 (n / 10 ^ scale) ++ (if scale = 0 then [] else '.' :: Decimal.padded scale (n % 10 ^ scale))

/-- `Decimal::to_string`. -/
def decimalText (mantissa : ℤ) (scale : ℕ) : Text :=
  if mantissa < 0 then '-' :: decimalDigits mantissa.natAbs scale else decimalDigits mantissa.natAbs scale

/-- `{byte:02x}` of each byte. -/
def hexText (b : List UInt8) : Text :=
  b.flatMap fun byte => [Json.hexDigit (byte.toNat / 16), Json.hexDigit (byte.toNat % 16)]

def dateOf (days : I32) : Text := (renderDate days).get (isSome_renderDate days)

def timestampOf (unit : TimeUnit) (t : I64) : Text := (renderTimestamp unit t).get (isSome_renderTimestamp unit t)

def timeOf (unit : TimeUnit) (t : I64) : Text := (renderTime unit t).get (isSome_renderTime unit t)

/-! ### Values -/

/-- `map_key`, with the JSON of the key. -/
def keyOf : DuckValue → Value → String
  | .text s, _ => s
  | .enum s, _ => s
  | _, j => String.ofList (Json.print j)

mutual

/-- `value_to_json`. -/
def valueToJson : DuckValue → Value
  | .null => .null
  | .boolean b => .bool b
  | .integer _ i => .int i
  | .hugeInt i => if -2 ^ 63 ≤ i ∧ i < 2 ^ 63 then .int i else .str (Decimal.signed 0 i)
  | .float f => ofDouble f
  | .double f => ofDouble f
  | .decimal mantissa scale => .str (decimalText mantissa scale)
  | .text s => .str s.toList
  | .enum s => .str s.toList
  | .date32 days => .str (dateOf days)
  | .timestamp unit t => .str (timestampOf unit t)
  | .time64 unit t => .str (timeOf unit t)
  | .interval months days nanos =>
    .obj (collect [("months", .int months), ("days", .int days), ("nanos", .int nanos)])
  | .blob b => .str (hexText b)
  | .list items => .arr (itemsToJson items)
  | .array items => .arr (itemsToJson items)
  | .struct fields => .obj (collect (fieldsToJson fields))
  | .map entries => .obj (collect (entriesToJson entries))
  | .union inner => valueToJson inner

def itemsToJson : List DuckValue → List Value
  | [] => []
  | v :: vs => valueToJson v :: itemsToJson vs

def fieldsToJson : List (String × DuckValue) → List (String × Value)
  | [] => []
  | (k, v) :: fs => (k, valueToJson v) :: fieldsToJson fs

def entriesToJson : List (DuckValue × DuckValue) → List (String × Value)
  | [] => []
  | (k, v) :: es => (keyOf k (valueToJson k), valueToJson v) :: entriesToJson es

end

/-- `map_key`. -/
def mapKey (k : DuckValue) : String := keyOf k (valueToJson k)

theorem itemsToJson_eq (items : List DuckValue) : itemsToJson items = items.map valueToJson := by
  induction items with
  | nil => rfl
  | cons v vs ih => rw [itemsToJson, ih, List.map_cons]

theorem fieldsToJson_eq (fields : List (String × DuckValue)) :
    fieldsToJson fields = fields.map fun e => (e.1, valueToJson e.2) := by
  induction fields with
  | nil => rfl
  | cons e es ih => rw [fieldsToJson, ih, List.map_cons]

theorem entriesToJson_eq (entries : List (DuckValue × DuckValue)) :
    entriesToJson entries = entries.map fun e => (mapKey e.1, valueToJson e.2) := by
  induction entries with
  | nil => rfl
  | cons e es ih => rw [entriesToJson, ih, List.map_cons, mapKey]

/-! ### Every JSON is one that a text says -/

theorem writtenMembers_iff {ms : List (String × Value)} : Json.WrittenMembers ms ↔ ∀ e ∈ ms, Json.Written e.2 := by
  induction ms with
  | nil => exact ⟨fun _ => nofun, fun _ => trivial⟩
  | cons e ms ih => rw [Json.WrittenMembers, ih, List.forall_mem_cons]

theorem written_collect {ms : List (String × Value)} (h : Json.WrittenMembers ms) : Json.Written (.obj (collect ms)) :=
  writtenMembers_iff.2 fun e he => writtenMembers_iff.1 h e (Serde.collect_subset ms he)

theorem written_ofDouble : ∀ f : Double, Json.Written (ofDouble f)
  | .nan => trivial
  | .infinite _ => trivial
  | .finite written => written.2

mutual

theorem written_valueToJson : ∀ v : DuckValue, Json.Written (valueToJson v)
  | .null => trivial
  | .boolean _ => trivial
  | .integer _ _ => trivial
  | .hugeInt i => by
    rw [valueToJson]
    split_ifs <;> trivial
  | .float f => written_ofDouble f
  | .double f => written_ofDouble f
  | .decimal _ _ => trivial
  | .text _ => trivial
  | .enum _ => trivial
  | .date32 _ => trivial
  | .timestamp _ _ => trivial
  | .time64 _ _ => trivial
  | .interval _ _ _ => written_collect ⟨trivial, trivial, trivial, trivial⟩
  | .blob _ => trivial
  | .list items => written_items items
  | .array items => written_items items
  | .struct fields => written_collect (written_fields fields)
  | .map entries => written_collect (written_entries entries)
  | .union inner => written_valueToJson inner

theorem written_items : ∀ items : List DuckValue, Json.WrittenItems (itemsToJson items)
  | [] => trivial
  | v :: vs => ⟨written_valueToJson v, written_items vs⟩

theorem written_fields : ∀ fields : List (String × DuckValue), Json.WrittenMembers (fieldsToJson fields)
  | [] => trivial
  | (_, v) :: fs => ⟨written_valueToJson v, written_fields fs⟩

theorem written_entries : ∀ entries : List (DuckValue × DuckValue), Json.WrittenMembers (entriesToJson entries)
  | [] => trivial
  | (_, v) :: es => ⟨written_valueToJson v, written_entries es⟩

end

/-! ### Scalars apart -/

theorem decimalDigits_inj {n n' scale : ℕ} (h : decimalDigits n scale = decimalDigits n' scale) : n = n' := by
  have hends (n : ℕ) : Decimal.Ends (if scale = 0 then [] else '.' :: Decimal.padded scale (n % 10 ^ scale)) := by
    split_ifs
    · exact Decimal.ends_nil
    · exact Decimal.ends_cons rfl
  have hread := Decimal.number_padded 1 (n / 10 ^ scale) (hends n)
  change Decimal.number (decimalDigits n scale) = _ at hread
  rw [h, decimalDigits, Decimal.number_padded 1 _ (hends n'), Option.some.injEq, Prod.mk.injEq] at hread
  obtain ⟨hdiv, hfrac⟩ := hread
  have hmod : n' % 10 ^ scale = n % 10 ^ scale := by
    split_ifs at hfrac with hscale
    · rw [hscale, Nat.pow_zero, Nat.mod_one, Nat.mod_one]
    · rw [← Decimal.ofDigitChars_padded scale (n' % 10 ^ scale), (List.cons.inj hfrac).2, Decimal.ofDigitChars_padded]
  rw [← Nat.div_add_mod n (10 ^ scale), ← Nat.div_add_mod n' (10 ^ scale), hdiv, hmod]

theorem head_decimalDigits {n scale : ℕ} {t : Text} : decimalDigits n scale ≠ '-' :: t := by
  intro h
  rw [decimalDigits] at h
  cases hp : Decimal.padded 1 (n / 10 ^ scale) with
  | nil => exact Decimal.padded_ne_nil _ _ hp
  | cons d ds =>
    have hdigit : d.isDigit = true := Decimal.isDigit_of_mem_padded (hp ▸ List.mem_cons_self)
    rw [hp] at h
    rw [(List.cons.inj h).1] at hdigit
    cases hdigit

theorem decimalText_inj {m m' : ℤ} {scale : ℕ} (h : decimalText m scale = decimalText m' scale) : m = m' := by
  unfold decimalText at h
  split_ifs at h with hneg hneg' hneg'
  · have habs := decimalDigits_inj (List.cons.inj h).2
    omega
  · exact absurd h.symm head_decimalDigits
  · exact absurd h head_decimalDigits
  · have habs := decimalDigits_inj h
    omega

theorem hexText_inj {b b' : List UInt8} (h : hexText b = hexText b') : b = b' := by
  induction b generalizing b' with
  | nil =>
    cases b' with
    | nil => rfl
    | cons _ _ => cases h
  | cons n b ih =>
    cases b' with
    | nil => cases h
    | cons n' b' =>
      simp only [hexText, List.flatMap_cons, List.cons_append, List.nil_append, List.cons.injEq] at h
      obtain ⟨hhigh, hlow, htail⟩ := h
      have hbyte (x : UInt8) : x.toNat < 256 := x.toNat_lt
      have hhigh := congrArg Json.hexValue hhigh
      have hlow := congrArg Json.hexValue hlow
      rw [Json.hexValue_hexDigit (by have := hbyte n; omega), Json.hexValue_hexDigit (by have := hbyte n'; omega)] at hhigh
      rw [Json.hexValue_hexDigit (by omega), Json.hexValue_hexDigit (by omega)] at hlow
      have hn : n = n' := UInt8.toNat_inj.1 (by omega)
      rw [hn, ih htail]

theorem dateOf_inj {a b : I32} (h : dateOf a = dateOf b) : a = b := by
  refine renderDate_inj ?_
  rw [← Option.some_get (isSome_renderDate a), ← Option.some_get (isSome_renderDate b)]
  exact congrArg some h

theorem timestampOf_eq_iff {unit unit' : TimeUnit} {t t' : I64} :
    timestampOf unit t = timestampOf unit' t' ↔ t * 1000000 / perSecond unit = t' * 1000000 / perSecond unit' := by
  rw [← renderTimestamp_eq_iff, ← Option.some_get (isSome_renderTimestamp unit t),
    ← Option.some_get (isSome_renderTimestamp unit' t')]
  exact Option.some_inj.symm

theorem timeOf_eq_iff {unit unit' : TimeUnit} {t t' : I64} :
    timeOf unit t = timeOf unit' t' ↔ t * 1000000 / perSecond unit = t' * 1000000 / perSecond unit' := by
  rw [← renderTime_eq_iff, ← Option.some_get (isSome_renderTime unit t), ← Option.some_get (isSome_renderTime unit' t')]
  exact Option.some_inj.symm

/-- The types of what has no parts. -/
inductive Kind where
  | boolean | integer (width : IntWidth) | hugeInt | float | double | decimal (scale : ℕ) | text | enum | date32
  | timestamp (unit : TimeUnit) | time64 (unit : TimeUnit) | interval | blob
  deriving DecidableEq, Repr

/-- Of which of them a value is. -/
def DuckValue.kind? : DuckValue → Option Kind
  | .boolean _ => some .boolean
  | .integer width _ => some (.integer width)
  | .hugeInt _ => some .hugeInt
  | .float _ => some .float
  | .double _ => some .double
  | .decimal _ scale => some (.decimal scale)
  | .text _ => some .text
  | .enum _ => some .enum
  | .date32 _ => some .date32
  | .timestamp unit _ => some (.timestamp unit)
  | .time64 unit _ => some (.time64 unit)
  | .interval _ _ _ => some .interval
  | .blob _ => some .blob
  | _ => none

/-- A float without a number, or no value. -/
def Numberless : DuckValue → Prop
  | .null => True
  | .float .nan => True
  | .float (.infinite _) => True
  | .double .nan => True
  | .double (.infinite _) => True
  | _ => False

/-- The microsecond that a timestamp or a time of day is in. -/
def DuckValue.micros? : DuckValue → Option ℤ
  | .timestamp unit t => some (t * 1000000 / perSecond unit)
  | .time64 unit t => some (t * 1000000 / perSecond unit)
  | _ => none

/-- Values without parts, of one type, that the JSON does not tell apart. -/
def AlikeScalar (v w : DuckValue) : Prop :=
  v = w ∨ Numberless v ∧ Numberless w ∨ ∃ us, v.micros? = some us ∧ w.micros? = some us

theorem valueToJson_numberless {v : DuckValue} (h : Numberless v) : valueToJson v = .null := by
  cases v with
  | null => rfl
  | float f =>
    cases f with
    | finite written => exact h.elim
    | _ => rfl
  | double f =>
    cases f with
    | finite written => exact h.elim
    | _ => rfl
  | _ => exact h.elim

/-- A value without parts, whose JSON is none, has no number. -/
theorem numberless_of_null {v : DuckValue} {k : Kind} (hk : v.kind? = some k) (h : valueToJson v = .null) :
    Numberless v := by
  cases v with
  | float f =>
    cases f with
    | finite written => cases h
    | _ => trivial
  | double f =>
    cases f with
    | finite written => cases h
    | _ => trivial
  | hugeInt i =>
    rw [valueToJson] at h
    split_ifs at h
  | null => trivial
  | union inner => cases hk
  | _ => cases h

theorem ofDouble_inj : ∀ {f g : Double}, ofDouble f ≠ .null → ofDouble f = ofDouble g → f = g
  | .nan, _, hne, _ => absurd rfl hne
  | .infinite _, _, hne, _ => absurd rfl hne
  | .finite _, .finite _, _, h => congrArg Double.finite (Subtype.ext (Value.float.inj h))

theorem collect_interval (months days nanos : Value) :
    collect [("months", months), ("days", days), ("nanos", nanos)] =
      [("days", days), ("months", months), ("nanos", nanos)] := by
  simp only [collect, List.foldl_cons, List.foldl_nil, Serde.insert, String.reduceEq, String.reduceLT, ↓reduceIte]

/-- Two values of one type without parts, whose JSON is one and says something. -/
theorem alike_of_eq {v w : DuckValue} {k : Kind} (hv : v.kind? = some k) (hw : w.kind? = some k)
    (hne : valueToJson v ≠ .null) (h : valueToJson v = valueToJson w) : AlikeScalar v w := by
  cases v with
  | boolean b =>
    cases hv
    cases w <;> cases hw
    cases h
    exact .inl rfl
  | integer width i =>
    cases hv
    cases w <;> cases hw
    cases h
    exact .inl rfl
  | hugeInt i =>
    cases hv
    cases w <;> cases hw
    next i' =>
    rw [valueToJson, valueToJson] at h
    split_ifs at h with hi hi'
    · cases h
      exact .inl rfl
    · have htext := congrArg Decimal.integer (Value.str.inj h)
      have hread (n : ℤ) := Decimal.integer_signed 0 n Decimal.ends_nil
      simp only [List.append_nil] at hread
      rw [hread, hread] at htext
      cases htext
      exact .inl rfl
  | float f =>
    cases hv
    cases w <;> cases hw
    rw [ofDouble_inj hne h]
    exact .inl rfl
  | double f =>
    cases hv
    cases w <;> cases hw
    rw [ofDouble_inj hne h]
    exact .inl rfl
  | decimal m scale =>
    cases hv
    cases w <;> cases hw
    rw [decimalText_inj (Value.str.inj h)]
    exact .inl rfl
  | text s =>
    cases hv
    cases w <;> cases hw
    rw [String.toList_inj.1 (Value.str.inj h)]
    exact .inl rfl
  | enum s =>
    cases hv
    cases w <;> cases hw
    rw [String.toList_inj.1 (Value.str.inj h)]
    exact .inl rfl
  | date32 days =>
    cases hv
    cases w <;> cases hw
    rw [dateOf_inj (Value.str.inj h)]
    exact .inl rfl
  | timestamp unit t =>
    cases hv
    cases w <;> cases hw
    exact .inr (.inr ⟨_, rfl, congrArg some (timestampOf_eq_iff.1 (Value.str.inj h)).symm⟩)
  | time64 unit t =>
    cases hv
    cases w <;> cases hw
    exact .inr (.inr ⟨_, rfl, congrArg some (timeOf_eq_iff.1 (Value.str.inj h)).symm⟩)
  | interval months days nanos =>
    cases hv
    cases w <;> cases hw
    have hparts := Value.obj.inj h
    simp only [collect_interval, List.cons.injEq, Prod.mk.injEq, Value.int.injEq, true_and, and_true] at hparts
    obtain ⟨hdays, hmonths, hnanos⟩ := hparts
    rw [Subtype.ext hdays, Subtype.ext hmonths, Subtype.ext hnanos]
    exact .inl rfl
  | blob b =>
    cases hv
    cases w <;> cases hw
    rw [hexText_inj (Value.str.inj h)]
    exact .inl rfl
  | _ => cases hv

theorem eq_of_alike {v w : DuckValue} {k : Kind} (hv : v = .null ∨ v.kind? = some k) (hw : w = .null ∨ w.kind? = some k)
    (h : AlikeScalar v w) : valueToJson v = valueToJson w := by
  obtain rfl | ⟨hv', hw'⟩ | ⟨us, hus, hus'⟩ := h
  · rfl
  · rw [valueToJson_numberless hv', valueToJson_numberless hw']
  · -- they are both timestamps, or both times of day
    cases v with
    | timestamp unit t =>
      cases hv.resolve_left nofun
      cases w with
      | timestamp unit' t' =>
        exact congrArg Value.str (timestampOf_eq_iff.2 ((Option.some.inj hus).trans (Option.some.inj hus').symm))
      | time64 unit' t' => cases hw.resolve_left nofun
      | _ => cases hus'
    | time64 unit t =>
      cases hv.resolve_left nofun
      cases w with
      | time64 unit' t' =>
        exact congrArg Value.str (timeOf_eq_iff.2 ((Option.some.inj hus).trans (Option.some.inj hus').symm))
      | timestamp unit' t' => cases hw.resolve_left nofun
      | _ => cases hus'
    | _ => cases hus

/-- **What the JSON of a value without parts tells**, among the values of its type. -/
theorem scalar_eq_iff {v w : DuckValue} {k : Kind} (hv : v = .null ∨ v.kind? = some k)
    (hw : w = .null ∨ w.kind? = some k) : valueToJson v = valueToJson w ↔ AlikeScalar v w := by
  refine ⟨fun h => ?_, eq_of_alike hv hw⟩
  have hnumberless {v : DuckValue} (hv : v = .null ∨ v.kind? = some k) (hnull : valueToJson v = .null) :
      Numberless v := by
    rcases hv with rfl | hk
    · trivial
    · exact numberless_of_null hk hnull
  by_cases hnull : valueToJson v = .null
  · exact .inr (.inl ⟨hnumberless hv hnull, hnumberless hw (h ▸ hnull)⟩)
  · have hv' := hv.resolve_left fun heq => hnull (heq ▸ rfl)
    have hw' := hw.resolve_left fun heq => hnull (h.trans (heq ▸ rfl))
    exact alike_of_eq hv' hw' hnull h

end Latiq.EngineDuckdb.ValueJson
