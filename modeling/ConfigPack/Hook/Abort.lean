/-!
# Aborts

A listener may stop the whole operation at the point at which it was called.
-/

namespace ConfigPack

/-- A point of an operation at which listeners are called. -/
inductive HookPoint where
  | parameter
  | token
  | exclude
  | builder
  | candidate
  | write
  | merge
  | extract
deriving DecidableEq, Repr

/-- The name of a point. -/
def HookPoint.name : HookPoint → String
  | parameter => "on_parameter"
  | token => "on_variable_resolve"
  | exclude => "on_exclude_resolve"
  | builder => "on_file_builder_resolve"
  | candidate => "on_frame_file"
  | write => "on_write"
  | merge => "on_merge"
  | extract => "on_extract"

/-- A listener stopped the operation. -/
structure Abort where
  point : HookPoint
  reason : String
deriving DecidableEq, Repr

/-- The words for an abort. -/
def Abort.message (abort : Abort) : String := s!"hook '{abort.point.name}' aborted: {abort.reason}"

end ConfigPack
