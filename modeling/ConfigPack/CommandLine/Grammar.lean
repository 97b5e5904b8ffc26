/-!
# Grammars of command lines

A command line is read by rules: options, each with a long name and perhaps a short one, and at most
one argument that is not an option.  Reading gives the texts under each name.  Values are checked as
soon as the next option or argument shows that they are complete, so of two mistakes that one is
told which shows first.
-/

namespace ConfigPack.CommandLine

/-- Why a command line is refused, or answered at once. -/
inductive Refusal where
  /-- Help was asked for. -/
  | help
  /-- The version was asked for. -/
  | version
  /-- There is nothing on the command line. -/
  | empty
  /-- There are options but no command. -/
  | missingCommand
  | unknownCommand
  | unknownArgument
  | missingArgument
  /-- A value is missing or not allowed. -/
  | invalidValue
  /-- A value is given where none belongs. -/
  | superfluousValue
  /-- An option is given twice. -/
  | repeated
deriving DecidableEq, Repr

/-- The values that are allowed. -/
inductive ValueKind where
  /-- Any text. -/
  | text
  /-- Any text but the empty one. -/
  | path
  /-- One of some words. -/
  | word (words : List String)
deriving DecidableEq, Repr

/-- Whether a value is allowed. -/
def ValueKind.allows (kind : ValueKind) (value : String) : Bool :=
  match kind with
  | text => true
  | path => !value.isEmpty
  | word words => words.contains value

/-- What an option does. -/
inductive Action where
  /-- It is given or not. -/
  | flag
  /-- It has one value. -/
  | value (kind : ValueKind)
  /-- It may be given often, each time with a value. -/
  | values (kind : ValueKind)
  /-- It asks for help. -/
  | help
  /-- It asks for the version. -/
  | version
deriving DecidableEq, Repr

/-- The rule of an option or argument. -/
structure Rule where
  name : String
  short : Option Char
  action : Action
deriving DecidableEq, Repr

/-- The rules of a command. -/
structure CommandRule where
  options : List Rule
  /-- The argument that is not an option. -/
  argument : Option Rule
  /-- The names that must be given. -/
  required : List String
deriving DecidableEq, Repr

/-- The values under each name that was given. -/
abbrev Matches := List (String × List String)

/-- How far a command line is read. -/
structure Progress where
  found : Matches
  /-- An option or argument with its value, which are not checked yet. -/
  pending : Option (Rule × Option String)
  /-- Whether nothing is an option any more. -/
  plain : Bool
  /-- Whether the argument was read. -/
  argumentRead : Bool

/-- Nothing is read. -/
def Progress.start : Progress := ⟨[], none, false, false⟩

/-- Whether a name was given. -/
def Matches.has (found : Matches) (name : String) : Bool := found.any fun e => e.1 == name

/-- The values under a name. -/
def Matches.all (found : Matches) (name : String) : List String := (found.lookup name).getD []

/-- The value under a name. -/
def Matches.value? (found : Matches) (name : String) : Option String := (found.all name).head?

/-- The value under a name, or another one. -/
def Matches.value (found : Matches) (name default : String) : String :=
  (found.value? name).getD default

/-- Add a value to those under a name. -/
def Matches.append (found : Matches) (name value : String) : Matches :=
  if found.has name then
    found.map fun e => if e.1 = name then (e.1, e.2 ++ [value]) else e
  else found ++ [(name, [value])]

/-- Keep the value of an option or argument. -/
def keep (found : Matches) (rule : Rule) (value : String) : Except Refusal Matches :=
  match rule.action with
  | .values kind =>
    if kind.allows value then .ok (found.append rule.name value) else .error .invalidValue
  | .value kind =>
    if found.has rule.name then .error .repeated
    else if kind.allows value then .ok (found.append rule.name value)
    else .error .invalidValue
  | _ => .error .superfluousValue

/-- Check and keep what is pending. -/
def Progress.settle (p : Progress) : Except Refusal Progress :=
  match p.pending with
  | none => .ok p
  | some (_, none) => .error .invalidValue
  | some (rule, some value) => do
    return { p with found := ← keep p.found rule value, pending := none }

/-- Take an option that is a flag. -/
def Progress.takeFlag (p : Progress) (rule : Rule) : Except Refusal Progress := do
  let p ← p.settle
  match rule.action with
  | .help => throw .help
  | .version => throw .version
  | _ =>
    if p.found.has rule.name then throw .repeated
    return { p with found := p.found ++ [(rule.name, [])] }

/-- Take an option that has a value, which may be attached to it. -/
def Progress.takeOption (p : Progress) (rule : Rule) (attached : Option String) :
    Except Refusal Progress := do
  let p ← p.settle
  match attached with
  | some value => return { p with found := ← keep p.found rule value }
  | none => return { p with pending := some (rule, none) }

/-- Whether an action needs a value. -/
def Action.takesValue : Action → Bool
  | .value _ => true
  | .values _ => true
  | _ => false

/-- The parts of a text before and after the first equals sign. -/
def splitAtEquals : List Char → List Char × Option (List Char)
  | [] => ([], none)
  | '=' :: rest => ([], some rest)
  | c :: rest =>
    let (name, value) := splitAtEquals rest
    (c :: name, value)

/-- Take an option with a long name. -/
def takeLong (options : List Rule) (p : Progress) (text : List Char) : Except Refusal Progress :=
  let (name, value) := splitAtEquals text
  match options.find? fun rule => rule.name == String.ofList name with
  | none => .error .unknownArgument
  | some rule =>
    if rule.action.takesValue then p.takeOption rule (value.map String.ofList)
    else if value.isSome then .error .superfluousValue
    else p.takeFlag rule

/-- Take options with short names that are written together. -/
def takeShort (options : List Rule) (p : Progress) : List Char → Except Refusal Progress
  | [] => .ok p
  | c :: rest =>
    match options.find? fun rule => rule.short == some c with
    | none => .error .unknownArgument
    | some rule =>
      if rule.action.takesValue then
        p.takeOption rule (match rest with
          | [] => none
          | '=' :: value => some (String.ofList value)
          | value => some (String.ofList value))
      else do takeShort options (← p.takeFlag rule) rest

/-- Take options, or nothing when an argument is none. -/
def takeOptions (options : List Rule) (p : Progress) (argument : String) :
    Except Refusal (Option Progress) :=
  match argument.toList with
  | '-' :: '-' :: [] => .ok (some { p with plain := true })
  | '-' :: '-' :: text => (takeLong options p text).map some
  | '-' :: c :: text => (takeShort options p (c :: text)).map some
  | _ => .ok none

/-- Take what is no option: the value of an option, or the argument. -/
def takePlain (rule : CommandRule) (p : Progress) (argument : String) : Except Refusal Progress :=
  match p.plain, p.pending with
  | false, some (option, none) => .ok { p with pending := some (option, some argument) }
  | _, _ =>
    match rule.argument, p.argumentRead with
    | some expected, false => do
      let p ← p.settle
      return { p with pending := some (expected, some argument), argumentRead := true }
    | _, _ => .error .unknownArgument

/-- Take one argument of a command. -/
def CommandRule.take (rule : CommandRule) (p : Progress) (argument : String) :
    Except Refusal Progress := do
  if p.plain then takePlain rule p argument
  else
    match ← takeOptions rule.options p argument with
    | some p => return p
    | none => takePlain rule p argument

/-- The arguments of a command, read by its rules. -/
def CommandRule.read (rule : CommandRule) (arguments : List String) : Except Refusal Matches := do
  let p ← arguments.foldlM rule.take .start
  let p ← p.settle
  if rule.required.all fun name => p.found.has name then return p.found
  else throw .missingArgument

end ConfigPack.CommandLine
