/-
Names of workloads: absolute paths such as `/prod/web`. A segment is one or more of `a` to `z`,
`0` to `9` and dashes, with no dash at either end.

A path has a second, safe form for use inside other identifiers, with underscores for slashes and
none in front: `prod_web`. No segment holds an underscore, so the path can be read back from it.
-/
import Placement.Id.Error

namespace Placement

/-! ## Segments -/

/-- A character of a segment. -/
def isSegmentChar (c : Char) : Bool := ('a' ≤ c && c ≤ 'z') || c.isDigit || c == '-'

/-- What keeps a text from being a segment. -/
def segmentFault? (cs : List Char) : Option SegmentFault :=
  if cs.isEmpty then some .empty
  else if !cs.all isSegmentChar then some .character
  else if cs.head? == some '-' || cs.getLast? == some '-' then some .edgeDash
  else none

/-- The error for a text that is no segment. -/
def segmentError? (cs : List Char) : Option IdError :=
  (segmentFault? cs).map (.segment (String.ofList cs))

/-- A segment that names one container of a task group. -/
structure ContainerName where
  text : String
  valid : segmentFault? text.toList = none
  deriving DecidableEq, Repr

namespace ContainerName

theorem text_injective {a b : ContainerName} (h : a.text = b.text) : a = b := by
  obtain ⟨x, hx⟩ := a
  obtain ⟨y, hy⟩ := b
  obtain rfl : x = y := h
  rfl

def parseChars (cs : List Char) : Except IdError ContainerName :=
  match h : segmentFault? cs with
  | some fault => .error (.segment (String.ofList cs) fault)
  | none => .ok ⟨String.ofList cs, by rw [String.toList_ofList]; exact h⟩

def parse (s : String) : Except IdError ContainerName := parseChars s.toList

end ContainerName

/-! ## Paths -/

/-- What keeps a text from being a path; of several bad segments the first is named. -/
def pathError? (cs : List Char) : Option IdError :=
  match cs with
  | [] => some .empty
  | '/' :: rest =>
    if rest.isEmpty then some (.format .rootPath)
    else (rest.splitOn '/').findSome? segmentError?
  | _ => some (.format (.relativePath (String.ofList cs)))

/-- The name of a workload, ordered as text. -/
structure RunSpecId where
  path : String
  valid : pathError? path.toList = none
  deriving DecidableEq, Repr

namespace RunSpecId

instance : Ord RunSpecId := ⟨compareOn RunSpecId.path⟩

instance : Std.TransOrd RunSpecId := inferInstanceAs (Std.TransCmp (compareOn RunSpecId.path))

instance : Std.LawfulEqOrd RunSpecId where
  eq_of_compare {a b} h := by
    obtain ⟨x, hx⟩ := a
    obtain ⟨y, hy⟩ := b
    obtain rfl : x = y := Std.LawfulEqCmp.eq_of_compare (show compare x y = .eq from h)
    rfl

def parseChars (cs : List Char) : Except IdError RunSpecId :=
  match h : pathError? cs with
  | some e => .error e
  | none => .ok ⟨String.ofList cs, by rw [String.toList_ofList]; exact h⟩

def parse (s : String) : Except IdError RunSpecId := parseChars s.toList

/-- The path without its leading slash. -/
def relative (id : RunSpecId) : List Char := id.path.toList.dropWhile (· = '/')

/-- The names of the groups from the outermost, and of the workload itself. -/
def segments (id : RunSpecId) : List String := (id.relative.splitOn '/').map String.ofList

def safeChars (id : RunSpecId) : List Char :=
  id.relative.map fun c => if c = '/' then '_' else c

/-- The path with underscores for slashes, and none in front. -/
def safePath (id : RunSpecId) : String := String.ofList id.safeChars

/-- Reads a path back from its safe form. -/
def ofSafeChars (cs : List Char) : Except IdError RunSpecId :=
  if cs = [] then .error .empty
  else parseChars ('/' :: cs.map fun c => if c = '_' then '/' else c)

def ofSafePath (s : String) : Except IdError RunSpecId := ofSafeChars s.toList

end RunSpecId

end Placement
