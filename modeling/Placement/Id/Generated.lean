/-
Identifiers that are generated: a tag for what they name, an underscore, and 26 characters of
base 32, such as `agent_01HV4Z2WQXKJNM8GPQY6VBKC3D`.
-/
import Placement.Id.Ulid

namespace Placement

/-- What a generated identifier names. -/
inductive IdKind where
  /-- A unit of placement, made when an operation is decided on. -/
  | placement
  /-- A machine that offers resources. -/
  | agent
  /-- A resource offer, good for one answer. -/
  | offer
  deriving DecidableEq, Repr

def IdKind.tag : IdKind → String
  | .placement => "inst"
  | .agent => "agent"
  | .offer => "offer"

/-- A generated identifier of one kind, ordered by its bits. -/
structure GeneratedId (kind : IdKind) where
  ulid : Ulid
  deriving DecidableEq, Repr

abbrev InstanceId := GeneratedId .placement

abbrev AgentId := GeneratedId .agent

abbrev OfferId := GeneratedId .offer

namespace GeneratedId

variable {kind : IdKind}

instance : Ord (GeneratedId kind) := ⟨compareOn GeneratedId.ulid⟩

instance : Std.TransOrd (GeneratedId kind) :=
  inferInstanceAs (Std.TransCmp (compareOn GeneratedId.ulid))

instance : Std.LawfulEqOrd (GeneratedId kind) where
  eq_of_compare {a b} h := by
    obtain ⟨x⟩ := a
    obtain ⟨y⟩ := b
    exact congrArg _ (Std.LawfulEqCmp.eq_of_compare (show compare x y = .eq from h))

def chars (id : GeneratedId kind) : List Char := kind.tag.toList ++ '_' :: id.ulid.chars

def text (id : GeneratedId kind) : String := String.ofList id.chars

/-- Reads an identifier of the given kind from its characters. -/
def parseChars (cs : List Char) : Except IdError (GeneratedId kind) :=
  if cs = [] then .error .empty
  else match cs.dropWhile (· ≠ '_') with
    | [] => .error (.missingSeparator '_')
    | _ :: rest =>
      let tag := String.ofList (cs.takeWhile (· ≠ '_'))
      if tag ≠ kind.tag then .error (.wrongKind kind.tag tag)
      else match Ulid.parse rest with
        | .ok ulid => .ok ⟨ulid⟩
        | .error fault => .error (.ulid fault)

def parse (s : String) : Except IdError (GeneratedId kind) := parseChars s.toList

end GeneratedId

end Placement
