/-
What can be wrong with the text of an identifier, and how it is said.
-/

namespace Placement

/-- What is wrong with a path segment or container name. -/
inductive SegmentFault where
  | empty
  | character
  | edgeDash
  deriving DecidableEq, Repr

def SegmentFault.message : SegmentFault → String
  | .empty => "segment is empty"
  | .character => "only [a-z0-9-] allowed"
  | .edgeDash => "must not start or end with '-'"

/-- What is wrong with the 26 characters of a generated identifier. -/
inductive UlidFault where
  | length
  | character
  deriving DecidableEq, Repr

def UlidFault.message : UlidFault → String
  | .length => "invalid length"
  | .character => "invalid character"

/-- What is wrong with the shape of an identifier made of several parts. -/
inductive FormatFault where
  | relativePath (path : String)
  | rootPath
  | tooManyTaskParts (text : String)
  | volumePartCount (text : String)
  | emptyVolumeName
  | emptyContainerPath
  | hashInContainerPath (path : String)
  deriving DecidableEq, Repr

def FormatFault.message : FormatFault → String
  | .relativePath path => s!"run spec id '{path}' must be absolute"
  | .rootPath => "run spec id cannot be the root path"
  | .tooManyTaskParts text => s!"task id '{text}' has too many parts"
  | .volumePartCount text => s!"volume id '{text}' must have three '#'-separated parts"
  | .emptyVolumeName => "volume name is empty"
  | .emptyContainerPath => "volume container path is empty"
  | .hashInContainerPath path => s!"volume container path '{path}' contains '#'"

/-- Why a text is not an identifier. -/
inductive IdError where
  | empty
  | wrongKind (expected actual : String)
  | missingSeparator (separator : Char)
  | ulid (fault : UlidFault)
  | uuid
  | segment (text : String) (fault : SegmentFault)
  | format (fault : FormatFault)
  deriving DecidableEq, Repr

namespace IdError

def message : IdError → String
  | .empty => "ID cannot be empty"
  | .wrongKind expected actual => s!"invalid ID prefix: expected '{expected}', got '{actual}'"
  | .missingSeparator c => s!"ID missing '{c}' separator"
  | .ulid fault => "invalid ULID: " ++ fault.message
  | .uuid => "invalid UUID"
  | .segment text fault => s!"invalid path segment '{text}': " ++ fault.message
  | .format fault => "invalid ID format: " ++ fault.message

end IdError

end Placement
