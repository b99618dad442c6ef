/-
JSON forms: how values of a type are written as JSON, and read back.

An optional field may be missing or null. A name without content may also be given as an object of
the name and null. Fields that are not known are skipped.
-/
import Placement.Json.Reader
import Placement.Json.Writer
import Placement.OrderedMap
import Placement.Span
import Placement.Timestamp.Reader
import Placement.Timestamp.Writer

namespace Placement

/-- A type whose values have a JSON form. -/
class JsonForm (α : Type) where
  toJson : α → Json
  ofJson? : Json → Option α

export JsonForm (toJson ofJson?)

/-- A value as it is stored: the text of its JSON form. -/
def document {α : Type} [JsonForm α] (a : α) : String := (toJson a).render

/-- The value that a stored text denotes. -/
def ofDocument? {α : Type} [JsonForm α] (s : String) : Option α := (Json.parse? s).bind ofJson?

namespace Json

/-! ## Fields -/

/-- The value of a field that has to be there. -/
def Fields.required {α : Type} [JsonForm α] (fields : Fields) (name : String) : Option α :=
  (fields.find? name).bind ofJson?

/-- The value of a field that may be missing or null. -/
def Fields.optional {α : Type} [JsonForm α] (fields : Fields) (name : String) :
    Option (Option α) :=
  match fields.find? name with
  | none => some none
  | some .null => some none
  | some j => (ofJson? j).map some

/-- A whole number below a limit. -/
def nat? (limit : Nat) : Json → Option Nat
  | int n => if 0 ≤ n ∧ n < limit then some n.toNat else none
  | _ => none

def Fields.nat (fields : Fields) (name : String) (limit : Nat) : Option Nat :=
  (fields.find? name).bind (nat? limit)

def Fields.optionalNat (fields : Fields) (name : String) (limit : Nat) : Option (Option Nat) :=
  match fields.find? name with
  | none => some none
  | some .null => some none
  | some j => (nat? limit j).map some

/-- A name without content. -/
def name? : Json → Option String
  | str s => some s
  | obj [(s, null)] => some s
  | _ => none

/-- The member of a list whose name is given. -/
def named? {α : Type} (members : List α) (name : α → String) (j : Json) : Option α :=
  (name? j).bind fun s => members.find? fun a => name a == s

def ofNat (n : Nat) : Json := int n

end Json

/-! ## Plain types -/

instance : JsonForm Json := ⟨id, some⟩

instance : JsonForm Bool where
  toJson := .bool
  ofJson?
    | .bool b => some b
    | _ => none

instance : JsonForm String where
  toJson := .str
  ofJson?
    | .str s => some s
    | _ => none

instance {n : Nat} : JsonForm (Fin n) where
  toJson x := .ofNat x.val
  ofJson?
    | .int i => if h : i.toNat < n ∧ 0 ≤ i then some ⟨i.toNat, h.1⟩ else none
    | _ => none

instance {α : Type} [JsonForm α] : JsonForm (Option α) where
  toJson
    | some a => toJson a
    | none => .null
  ofJson?
    | .null => some none
    | j => (ofJson? j).map some

instance {α : Type} [JsonForm α] : JsonForm (List α) where
  toJson xs := .arr (xs.map toJson)
  ofJson?
    | .arr items => items.mapM ofJson?
    | _ => none

instance {α : Type} [JsonForm α] : JsonForm (OrderedMap String α) where
  toJson m := .obj (m.entries.map fun e => (e.1, toJson e.2))
  ofJson?
    | .obj fields => (fields.mapM fun f => (ofJson? f.2).map fun v => (f.1, v)).map OrderedMap.ofList
    | _ => none

/-! ## Times -/

instance : JsonForm Timestamp where
  toJson t := .str (t.render .letter)
  ofJson?
    | .str s => Timestamp.parse? s
    | _ => none

instance : JsonForm Span where
  toJson s := .obj [("nanos", .ofNat s.subNanos), ("secs", .ofNat s.seconds)]
  ofJson? j := do
    let fields ← j.record? ["secs", "nanos"]
    Span.ofParts? (← fields.nat "secs" UInt64.size) (← fields.nat "nanos" UInt32.size)

end Placement
