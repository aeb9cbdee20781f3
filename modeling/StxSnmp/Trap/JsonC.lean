import Mathlib.Algebra.Order.Ring.Int

/-!
# The JSON library

`json-c` is not part of the repository: the functions of it that the trap sender calls are
parameters, with the behaviour its documentation gives them as hypotheses.

## Main definitions

* `Json`: what a `struct json_object *` points to
* `JsonC`: the functions called
* `JsonC.Documented`: how they behave
* `JsonC.ofParse`: an instance, around a parser

## Main results

* `JsonC.ofParse_documented`: the instance behaves as documented
-/

namespace StxSnmp.Trap

/-- A JSON value; the null pointer stands for JSON's `null`. -/
inductive Json where
  | null
  | boolean (b : Bool)
  | double (literal : String)
  | int (n : ℤ)
  | string (s : String)
  | array (values : List Json)
  | object (members : List (String × Json))
  deriving Repr

/-- The functions of `json-c` that are called. A string is a C string, one character a byte and
none of them NUL, and `none` is a null pointer; a failed look-up stores null. -/
structure JsonC where
  tokenerParse : String → Json
  objectGetEx : Json → String → Option Json
  objectGet : Json → String → Json
  getString : Json → Option String
  getInt : Json → ℤ

/-- The documented behaviour: a key is looked up in an object only, every value but null has a
string, and an object has no integer value. -/
structure JsonC.Documented (jc : JsonC) : Prop where
  objectGetEx_object : ∀ members key,
    jc.objectGetEx (.object members) key = members.lookup key
  objectGetEx_of_ne_object : ∀ jobj key, (∀ members, jobj ≠ .object members) →
    jc.objectGetEx jobj key = none
  objectGet_eq : ∀ jobj key, jc.objectGet jobj key = (jc.objectGetEx jobj key).getD .null
  getString_eq_none_iff : ∀ jobj, jc.getString jobj = none ↔ jobj = .null
  getInt_object : ∀ members, jc.getInt (.object members) = 0

/-- A key found was found in an object. -/
theorem JsonC.Documented.exists_object {jc : JsonC} (h : jc.Documented) {jobj value : Json}
    {key : String} (hfound : jc.objectGetEx jobj key = some value) :
    ∃ members, jobj = .object members ∧ members.lookup key = some value := by
  by_cases hobject : ∃ members, jobj = .object members
  · obtain ⟨members, rfl⟩ := hobject
    exact ⟨members, rfl, h.objectGetEx_object members key ▸ hfound⟩
  · have hnone := h.objectGetEx_of_ne_object jobj key fun members heq => hobject ⟨members, heq⟩
    rw [hnone] at hfound
    cases hfound

/-- A value other than null has a string. -/
theorem JsonC.Documented.exists_getString {jc : JsonC} (h : jc.Documented) {jobj : Json}
    (hnull : jobj ≠ .null) : ∃ s, jc.getString jobj = some s :=
  Option.ne_none_iff_exists'.mp (mt (h.getString_eq_none_iff jobj).mp hnull)

/-! ## An instance -/

/-- A string up to its first NUL. -/
def cString (s : String) : String := String.ofList (s.toList.takeWhile (· ≠ '\x00'))

/-- The string of a value; the serialisation of arrays and objects is not spelt out. -/
def Json.toCString : Json → Option String
  | .null => none
  | .boolean b => some (toString b)
  | .double literal => some literal
  | .int n => some (toString n)
  | .string s => some (cString s)
  | .array _ => some "[ ]"
  | .object _ => some "{ }"

/-- The member of an object under a key; a null pointer where it is missing. -/
def Json.getEx (jobj : Json) (key : String) : Option Json :=
  match jobj with
  | .object members => members.lookup key
  | _ => none

/-- The integer value, brought into the range of `int32_t`; only integers and booleans have
one here. -/
def Json.toInt32 : Json → ℤ
  | .boolean b => if b then 1 else 0
  | .int n => max (-2 ^ 31) (min (2 ^ 31 - 1) n)
  | _ => 0

/-- The library around a parser. -/
def JsonC.ofParse (parse : String → Json) : JsonC where
  tokenerParse := parse
  objectGetEx := Json.getEx
  objectGet jobj key := (jobj.getEx key).getD .null
  getString := Json.toCString
  getInt := Json.toInt32

theorem JsonC.ofParse_documented (parse : String → Json) : (JsonC.ofParse parse).Documented where
  objectGetEx_object _ _ := rfl
  objectGetEx_of_ne_object jobj key h := by
    cases jobj with
    | object members => exact absurd rfl (h members)
    | _ => rfl
  objectGet_eq _ _ := rfl
  getString_eq_none_iff jobj := by cases jobj <;> simp [ofParse, Json.toCString]
  getInt_object _ := rfl

end StxSnmp.Trap
