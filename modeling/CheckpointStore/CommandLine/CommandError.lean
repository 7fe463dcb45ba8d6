import CheckpointStore.DatabaseError

/-!
# Command errors

What a command complains of. Errors of the database keep their code and text; bad settings are
the command's own matter.
-/

namespace CheckpointStore

/-- Why an argument cannot be used. -/
inductive InputFault where
  | alreadyExists (path : String)
  | notJson
  | worded (text : String)
  deriving DecidableEq, Repr

def InputFault.text : InputFault → String
  | .alreadyExists path => path ++ " already exists"
  | .notJson => "document is not valid JSON"
  | .worded text => text

/-- A failed command. -/
inductive CommandError where
  | settings (error : SettingsError)
  | io (text : String)
  | input (fault : InputFault)
  | database (error : DatabaseError)
  deriving DecidableEq, Repr

namespace CommandError

def ofDatabase : DatabaseError → CommandError
  | .settings error => .settings error
  | error => .database error

def code : CommandError → String
  | .settings _ => "KEEL_CLI_CONFIG_ERROR"
  | .io _ => "KEEL_CLI_IO_ERROR"
  | .input _ => "KEEL_CLI_INVALID_INPUT"
  | .database error => error.code

def message : CommandError → String
  | .settings error => error.text
  | .io text => text
  | .input fault => fault.text
  | .database error => error.text

def text (error : CommandError) : String := error.code ++ ": " ++ error.message

end CommandError
end CheckpointStore
