/-
JSON values, and how fields are looked up in them.

A record is read from an object, or from an array that lists its fields in order. An object keeps
its fields in ascending order of their names, one field a name.
-/

namespace Placement

/-- A JSON value. Whole numbers are kept apart from numbers with a fraction or an exponent. -/
inductive Json where
  | null
  | bool (value : Bool)
  | int (value : Int)
  | float (value : Float)
  | str (value : String)
  | arr (items : List Json)
  | obj (fields : List (String × Json))
  deriving Repr, BEq

namespace Json

instance : Inhabited Json := ⟨null⟩

/-- Fields of a record by name. -/
abbrev Fields := List (String × Json)

/-- The value of a field. -/
def Fields.find? (fields : Fields) (name : String) : Option Json :=
  (List.find? (fun f => f.1 == name) fields).map (·.2)

/-- The fields of a record whose fields are called `names`; an array holds all of them in order. -/
def record? (names : List String) : Json → Option Fields
  | obj fields => some fields
  | arr items => if items.length = names.length then some (names.zip items) else none
  | _ => none

/-- A value with a tag: the tag, and the value without it. -/
def tagged? (tagName : String) : Json → Option (String × Json)
  | obj fields =>
    match Fields.find? fields tagName with
    | some (str tag) => some (tag, obj (fields.filter fun f => f.1 != tagName))
    | _ => none
  | arr (str tag :: rest) => some (tag, arr rest)
  | _ => none

/-- Puts a field into fields in ascending order, in place of one of the same name. -/
def insertField (name : String) (value : Json) : Fields → Fields
  | [] => [(name, value)]
  | f :: rest =>
    match compare name f.1 with
    | .lt => (name, value) :: f :: rest
    | .eq => (name, value) :: rest
    | .gt => f :: insertField name value rest

/-- The object of a list of fields; of two fields of one name the later stands. -/
def ofFields (fields : List (String × Json)) : Json :=
  obj (fields.foldl (fun acc f => insertField f.1 f.2 acc) [])

end Json

end Placement
