import ConfigPack.Failure

/-!
# Errors of commands

A command that fails says what it was doing, and then the causes, each behind the one that it
caused.
-/

namespace ConfigPack

/-- The cause behind an error of the configuration. -/
def ConfigError.cause? : ConfigError → Option IoError
  | io _ error => some error
  | _ => none

/-- The cause behind an error of output. -/
def OutputError.cause? : OutputError → Option IoError
  | io _ error => some error
  | _ => none

/-- The cause behind an error of assembly. -/
def AssemblyError.cause? : AssemblyError → Option IoError
  | io _ error => some error
  | output error => error.cause?
  | _ => none

/-- The cause behind an error of a pack. -/
def PackError.cause? : PackError → Option IoError
  | io _ error => some error
  | _ => none

/-- The cause behind a failure. -/
def Failure.cause? : Failure → Option IoError
  | config error => error.cause?
  | assembly error => error.cause?
  | output error => error.cause?
  | pack error => error.cause?

/-- The words for a failure and for the cause behind it. -/
def Failure.chain (failure : Failure) : List String :=
  failure.message :: (failure.cause?.map IoError.message).toList

/-- Why a command failed. -/
structure CommandError where
  /-- What failed. -/
  text : String
  /-- The causes, the first cause last. -/
  causes : List String
deriving DecidableEq, Repr

namespace CommandError

/-- A failure by itself. -/
def plain (failure : Failure) : CommandError :=
  ⟨failure.message, (failure.cause?.map IoError.message).toList⟩

/-- A failure in the course of something. -/
def during (doing : String) (failure : Failure) : CommandError := ⟨doing, failure.chain⟩

/-- The words for an error and for its causes, outermost first. -/
def chain (error : CommandError) : List String := error.text :: error.causes

/-- A cause with what stands before its first line and before the others. -/
def indented (first others text : String) : String :=
  first ++ ("\n" ++ others).intercalate (text.splitOn "\n")

/-- A number that fills five places. -/
def numbered (index : Nat) : String :=
  let digits := toString index
  String.ofList (List.replicate (5 - digits.length) ' ') ++ digits ++ ": "

/-- The causes, numbered when there are several. -/
def listed (causes : List String) : List String :=
  match causes with
  | [cause] => [indented "    " "    " cause]
  | _ => causes.zipIdx.map fun (cause, index) => indented (numbered index) "       " cause

/-- The report on an error. -/
def report (error : CommandError) : String :=
  "\n".intercalate <| ("Error: " ++ error.text) ::
    if error.causes.isEmpty then [] else ["", "Caused by:"] ++ listed error.causes

end CommandError

end ConfigPack
