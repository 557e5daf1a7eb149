import ColumnCipher.Config.File
import ColumnCipher.Rule.Batch
/-!
The command line: checking a configuration and showing what it maps, and encrypting or decrypting
values for a column. A command is a function of the file that it names and of the nonces that it may
use; reading, drawing and printing are left to the program.
-/
namespace ColumnCipher

namespace CommandLine

inductive Mode where
  | encrypt
  | assistedQuery
  | decrypt
  deriving DecidableEq, Repr

structure Target where
  config : String
  table : String
  column : String
  database : String
  schema : String
  values : List String
  deriving DecidableEq, Repr

inductive Command where
  | validate (config : String)
  | transform (mode : Mode) (target : Target)
  deriving DecidableEq, Repr

/-! Arguments. -/

structure Options where
  values : List (String × String)
  flags : List String
  positionals : List String

namespace Options

def value? (o : Options) (name : String) : Option String := o.values.lookup name

end Options

/-- The name and the value of an argument such as `--name=value`, without the dashes. -/
def splitValue (s : List Char) : String × Option String :=
  let name := String.ofList (s.takeWhile (· != '='))
  match s.dropWhile (· != '=') with
  | [] => (name, none)
  | _ :: value => (name, some (String.ofList value))

/-- Whether an argument stands for itself: it has no dash before it, or is nothing but a dash. -/
def isPlainArgument (s : String) : Bool := s == "-" || !s.startsWith "-"

/-- Reads the arguments of a command that has the given options and flags, each of which may be
given once. After two dashes all arguments stand for themselves. -/
def readOptions (named flags : List String) : List String → Options → Option Options
  | [], o => some { o with positionals := o.positionals.reverse }
  | "--" :: rest, o => some { o with positionals := o.positionals.reverse ++ rest }
  | argument :: rest, o =>
    let flag (name : String) : Option Options :=
      if flags.contains name && !o.flags.contains name then
        some { o with flags := name :: o.flags }
      else none
    let option (name value : String) : Option Options :=
      if named.contains name && (o.values.lookup name).isNone then
        some { o with values := (name, value) :: o.values }
      else none
    if isPlainArgument argument then
      readOptions named flags rest { o with positionals := argument :: o.positionals }
    else
      match argument.toList with
      | '-' :: '-' :: body =>
        match splitValue body, rest with
        | (name, some value), rest => (option name value).bind (readOptions named flags rest)
        | (name, none), rest =>
          if named.contains name then
            match rest with
            | value :: rest =>
              if isPlainArgument value then (option name value).bind (readOptions named flags rest)
              else none
            | [] => none
          else (flag name).bind (readOptions named flags rest)
      | ['-', 'v'] => (flag "verbose").bind (readOptions named flags rest)
      | _ => none

def readTarget (flags arguments : List String) : Option (Options × Target) := do
  let o ← readOptions ["table", "column", "database", "schema"] ("verbose" :: flags) arguments
    ⟨[], [], []⟩
  let config :: values := o.positionals | none
  let table ← o.value? "table"
  let column ← o.value? "column"
  if config = "" then none
  return (o, ⟨config, table, column, (o.value? "database").getD "sharding_db",
    (o.value? "schema").getD "public", values⟩)

def readCommand : List String → Option Command
  | "validate" :: arguments => do
    let o ← readOptions [] ["verbose"] arguments ⟨[], [], []⟩
    let [config] := o.positionals | none
    if config = "" then none else some (.validate config)
  | "encrypt" :: arguments =>
    (readTarget ["assisted"] arguments).map fun (o, target) =>
      .transform (if o.flags.contains "assisted" then .assistedQuery else .encrypt) target
  | "decrypt" :: arguments =>
    (readTarget [] arguments).map fun (_, target) => .transform .decrypt target
  | _ => none

/-- Reads the arguments of the program: a command, before which the verbose flag may stand once. -/
def read : List String → Option Command
  | "-v" :: rest | "--verbose" :: rest => readCommand rest
  | arguments => readCommand arguments

/-! Values. -/

/-- The text that stands for NULL, in any letter case. -/
def nullText : String := "NULL"

/-- The value of an argument: NULL, an integer of 64 bits, or else a text. -/
def readValue (s : String) : Option Value :=
  if s.toList.map Char.toUpper = nullText.toList then none
  else match Decimal.readInt64? s.toList with
    | some n => some (.int n)
    | none => some (.text s)

def displayValue : Option Value → String
  | some v => v.display
  | none => nullText

/-! Running a command. -/

inductive Failure where
  | load (path : String) (e : Error)
  | build (e : Error)
  | transform (e : Error)
  deriving DecidableEq, Repr

def loadRule (path : String) (view : FileView) : Except Failure (Rule NonceStream) :=
  match RuleConfig.ofFile path view with
  | .error e => .error (.load path e)
  | .ok c => (Rule.ofConfig 0 c).mapError .build

/-- A column as it is shown, with a dash for what is absent. -/
def columnLine (r : Rule NonceStream) (table : String) (c : Column) : String :=
  "  " ++ c.logicColumn ++ " -> cipher=" ++ c.cipherColumn ++ " encryptor=" ++ c.encryptorName ++
    " assisted=" ++ c.assistedQueryColumn.getD "-" ++ " plain=" ++ c.plainColumn.getD "-" ++
    " query_with_cipher=" ++ Value.boolText (r.isQueryWithCipherColumn table c.logicColumn)

/-- The tables of a rule in the order of their lower-case names, with their columns. -/
def report (r : Rule NonceStream) : List String :=
  let names := r.tableNames
  ("Encrypt rule is valid (" ++ Decimal.ofNat names.length ++ " tables)") ::
    names.flatMap fun name =>
      match r.findTable? name with
      | some t => t.name :: t.columns.list.map (columnLine r name)
      | none => []

def transform (r : Rule NonceStream) (mode : Mode) (t : Target) (nonces : NonceStream) :
    Except Error (List (Option Value)) :=
  let values := t.values.map readValue
  match mode with
  | .encrypt => (r.encryptValues t.database t.schema t.table t.column values nonces).1
  | .assistedQuery =>
    (r.encryptAssistedQueryValues t.database t.schema t.table t.column values nonces).1
  | .decrypt => (r.decryptValues t.database t.schema t.table t.column values nonces).1

namespace Command

def config : Command → String
  | validate path => path
  | transform _ target => target.config

def nonceCount : Command → Nat
  | validate _ => 0
  | transform _ target => target.values.length

def run (c : Command) (view : FileView) (nonces : NonceStream) : Except Failure (List String) := do
  let r ← loadRule c.config view
  match c with
  | validate _ => return report r
  | transform mode target =>
    let values ← (CommandLine.transform r mode target nonces).mapError .transform
    return values.map displayValue

end Command

namespace Failure

def messages : Failure → List String
  | load path (.file fault) =>
    ["failed to load " ++ path, (Error.file fault).message, fault.message]
  | load path e => ["failed to load " ++ path, e.message]
  | build e => ["invalid encrypt rule", e.message]
  | transform e => [e.message]

def indented (indent : String) (s : String) : String :=
  String.ofList
    (s.toList.flatMap fun c => if c = '\n' then '\n' :: indent.toList else [c])

/-- Causes are listed under the failure, and numbered if there are several. -/
def report (f : Failure) : String :=
  match f.messages with
  | [] => ""
  | [message] => "Error: " ++ message ++ "\n"
  | [message, cause] =>
    "Error: " ++ message ++ "\n\nCaused by:\n    " ++ indented "    " cause ++ "\n"
  | message :: causes =>
    "Error: " ++ message ++ "\n\nCaused by:\n" ++
      String.join (causes.zipIdx.map fun (cause, i) =>
        "    " ++ Decimal.ofNat i ++ ": " ++ indented "       " cause ++ "\n")

end Failure

structure Outcome where
  exit : Nat
  output : String
  error : String
  deriving DecidableEq, Repr

def outcome (c : Command) (view : FileView) (nonces : NonceStream) : Outcome :=
  match c.run view nonces with
  | .ok lines => ⟨0, String.join (lines.map (· ++ "\n")), ""⟩
  | .error f => ⟨1, "", f.report⟩

end CommandLine

end ColumnCipher
