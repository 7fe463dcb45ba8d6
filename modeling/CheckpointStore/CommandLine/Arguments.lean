import CheckpointStore.Handle.Stage

/-!
# Command line arguments

One command with its positional arguments, and options that may stand anywhere behind it, as two
words or joined by an equals sign, each at most once. The settings option is also taken before
the command. Two dashes end the options.
-/

namespace CheckpointStore

/-- A command and its arguments. -/
inductive Command where
  | create (database : String)
  | put (database key document : String) (mode : PutMode)
  | get (database key : String) (checkpoint : Option Nat)
  | remove (database key : String)
  | list (database : String) (checkpoint : Option Nat)
  | info (database : String)
  | history (database : String)
  | compact (database target : String)
  deriving DecidableEq, Repr

/-- A whole command line. -/
structure Invocation where
  settingsPath : Option String
  command : Command
  deriving DecidableEq, Repr

namespace Arguments

/-- One argument, by its form. -/
inductive Word where
  | plain (text : String)
  /-- A long option, with the value that is joined to it -/
  | option (name : String) (value : Option String)
  | separator
  /-- A single dash with letters; no such option exists -/
  | short
  deriving DecidableEq, Repr

def Word.ofString (argument : String) : Word :=
  match argument.toList with
  | ['-'] => .plain argument
  | ['-', '-'] => .separator
  | '-' :: '-' :: rest =>
    match rest.dropWhile (· != '=') with
    | [] => .option (String.ofList rest) none
    | _ :: value => .option (String.ofList (rest.takeWhile (· != '='))) (some (String.ofList value))
  | '-' :: _ => .short
  | _ => .plain argument

/-- Values of options. -/
structure Options where
  settingsPath : Option String := none
  checkpoint : Option Nat := none
  mode : Option PutMode := none
  deriving DecidableEq, Repr

/-- A checkpoint as an argument: digits, with a plus sign allowed, of a number within 64 bits. -/
def checkpoint? (text : String) : Option Nat :=
  let digits := match text.toList with
    | '+' :: rest => rest
    | all => all
  if digits.isEmpty || digits.any (fun c => c < '0' || '9' < c) then none
  else
    let value := digits.foldl (fun n c => n * 10 + (c.toNat - 48)) 0
    if value < 18446744073709551616 then some value else none

def mode? : String → Option PutMode
  | "insert" => some .insert
  | "update" => some .update
  | "upsert" => some .upsert
  | _ => none

namespace Options

/-- Takes the value of an option among those allowed, unless it was given before or is no value of
that option. -/
def set? (options : Options) (allowed : List String) (name value : String) : Option Options :=
  if name ∉ allowed then none
  else if name = "config" then
    if options.settingsPath.isSome || value.isEmpty then none else some { options with settingsPath := some value }
  else if name = "at" then
    if options.checkpoint.isSome then none
    else (checkpoint? value).map fun checkpoint => { options with checkpoint := some checkpoint }
  else if options.mode.isSome then none
  else (mode? value).map fun mode => { options with mode := some mode }

end Options

/-- Reads the arguments behind a command: options and positional arguments, the latter behind
those in `plain`, which are reversed. -/
def scan? (allowed : List String) (options : Options) (plain : List String) :
    List String → Option (Options × List String)
  | [] => some (options, plain.reverse)
  | argument :: rest =>
    match Word.ofString argument with
    | .plain text => scan? allowed options (text :: plain) rest
    | .separator => some (options, plain.reverse ++ rest)
    | .short => none
    | .option name (some value) =>
      match options.set? allowed name value with
      | some options => scan? allowed options plain rest
      | none => none
    | .option name none =>
      match rest with
      | [] => none
      | value :: rest =>
        match Word.ofString value with
        | .plain value =>
          match options.set? allowed name value with
          | some options => scan? allowed options plain rest
          | none => none
        | _ => none

def optionsOf? : String → Option (List String)
  | "put" => some ["config", "mode"]
  | "get" | "list" => some ["config", "at"]
  | "create" | "remove" | "info" | "history" | "export" => some ["config"]
  | _ => none

/-- The command of a name with these positional arguments and options. -/
def command? (name : String) (plain : List String) (options : Options) : Option Command :=
  match name, plain with
  | "create", [database] => some (.create database)
  | "put", [database, key, document] => some (.put database key document (options.mode.getD .upsert))
  | "get", [database, key] => some (.get database key options.checkpoint)
  | "remove", [database, key] => some (.remove database key)
  | "list", [database] => some (.list database options.checkpoint)
  | "info", [database] => some (.info database)
  | "history", [database] => some (.history database)
  | "export", [database, target] => if target.isEmpty then none else some (.compact database target)
  | _, _ => none

def behind? (settingsPath : Option String) (name : String) (arguments : List String) : Option Invocation :=
  match optionsOf? name with
  | none => none
  | some allowed =>
    match scan? allowed {} [] arguments with
    | none => none
    | some (options, plain) =>
      if plain.head? = some "" then none
      else (command? name plain options).map fun command =>
        ⟨options.settingsPath <|> settingsPath, command⟩

/-- Reads a whole command line; none when it is not well formed. -/
def parse? (options : Options) : List String → Option Invocation
  | [] => none
  | argument :: rest =>
    match Word.ofString argument with
    | .plain name => behind? options.settingsPath name rest
    | .separator | .short => none
    | .option name (some value) =>
      match options.set? ["config"] name value with
      | some options => parse? options rest
      | none => none
    | .option name none =>
      match rest with
      | [] => none
      | value :: rest =>
        match Word.ofString value with
        | .plain value =>
          match options.set? ["config"] name value with
          | some options => parse? options rest
          | none => none
        | _ => none

end Arguments

def Invocation.ofArguments? (arguments : List String) : Option Invocation := Arguments.parse? {} arguments

end CheckpointStore
