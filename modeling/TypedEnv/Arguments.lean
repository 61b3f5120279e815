import TypedEnv.Text.Cut

/-!
Command-line arguments.  Three options take a value, given after an equals sign or as the next
argument, and one is a flag; nothing may be given twice, and there are no other arguments.

An option without an attached value stays pending until the next option is met or the arguments
end; only then is it settled, so a fault in its value comes after a fault that is seen at once.
-/

namespace TypedEnv

open TypedEnv.Text

structure Arguments where
  file : Option String
  schema : Option String
  delimiter : Option String
  noPopulate : Bool
  deriving DecidableEq

inductive ArgumentFault where
  | unknownArgument
  | invalidValue
  | repeated
  | tooManyValues
  | helpAsked
  deriving DecidableEq

inductive ValueOption where
  | file
  | schema
  | delimiter
  deriving DecidableEq

namespace Arguments

def empty : Arguments := ⟨none, none, none, false⟩

def get? (arguments : Arguments) : ValueOption → Option String
  | .file => arguments.file
  | .schema => arguments.schema
  | .delimiter => arguments.delimiter

def set (arguments : Arguments) (value : String) : ValueOption → Arguments
  | .file => { arguments with file := some value }
  | .schema => { arguments with schema := some value }
  | .delimiter => { arguments with delimiter := some value }

def give (arguments : Arguments) (option : ValueOption) (value : String) :
    Except ArgumentFault Arguments :=
  if (arguments.get? option).isSome then .error .repeated
  else if value = "" ∧ option ≠ .delimiter then .error .invalidValue
  else .ok (arguments.set value option)

/-- What was read so far: the settled arguments, the option that waits for its value or to be
settled, and whether a double dash ended the options. -/
structure Reading where
  settled : Arguments
  pending : Option (ValueOption × Option String)
  ended : Bool

namespace Reading

def settle (reading : Reading) : Except ArgumentFault Arguments :=
  match reading.pending with
  | none => .ok reading.settled
  | some (_, none) => .error .invalidValue
  | some (option, some value) => reading.settled.give option value

inductive Name where
  | value (option : ValueOption)
  | noPopulate
  | help

def name? (text : List Char) : Option Name :=
  match String.ofList text with
  | "env-file" => some (.value .file)
  | "env-schema" => some (.value .schema)
  | "env-delimiter" => some (.value .delimiter)
  | "no-populate" => some .noPopulate
  | "help" => some .help
  | _ => none

def takeNamed (reading : Reading) (name : Name) (attached : Option String) :
    Except ArgumentFault Reading :=
  match name, attached with
  | .value option, some value => do
    return { reading with settled := ← (← reading.settle).give option value, pending := none }
  | .value option, none => do
    return { reading with settled := ← reading.settle, pending := some (option, none) }
  | .noPopulate, some _ | .help, some _ => .error .tooManyValues
  | .noPopulate, none => do
    let settled ← reading.settle
    if settled.noPopulate then throw .repeated
    return { reading with settled := { settled with noPopulate := true }, pending := none }
  | .help, none => do
    let _ ← reading.settle
    throw .helpAsked

def takePlain (reading : Reading) (argument : String) : Except ArgumentFault Reading :=
  match reading.pending with
  | some (option, none) => .ok { reading with pending := some (option, some argument) }
  | _ => .error .unknownArgument

def take (reading : Reading) (argument : String) : Except ArgumentFault Reading :=
  if reading.ended then .error .unknownArgument
  else match argument.toList with
    | '-' :: '-' :: [] => .ok { reading with ended := true }
    | '-' :: '-' :: text =>
      let (name, attached) := match cutAt ['='] text with
        | some (name, value) => (name, some (String.ofList value))
        | none => (text, none)
      match name? name with
      | some name => reading.takeNamed name attached
      | none => .error .unknownArgument
    | '-' :: 'h' :: _ => reading.takeNamed .help none
    | '-' :: _ :: _ => .error .unknownArgument
    | _ => reading.takePlain argument

end Reading

def parse (arguments : List String) : Except ArgumentFault Arguments := do
  let reading ← (arguments.drop 1).foldlM Reading.take ⟨empty, none, false⟩
  reading.settle

end Arguments

end TypedEnv
