import DurableFlow.Source.Decode
import DurableFlow.Trigger.TimeoutPolicy

/-!
# Settings

The settings come from environment variables; one that is not set has a default.
-/

namespace DurableFlow

/-- Where the store is and how many connections to it there may be. -/
structure StoreSettings where
  path : String := "data/tripwire.db"
  maxConnections : Nat := 5
deriving DecidableEq, Repr

namespace StoreSettings

/-- A store that lives in memory alone. -/
def isInMemory (s : StoreSettings) : Bool := s.path == ":memory:"

/-- What is wrong with the settings of the store. -/
def fault? (s : StoreSettings) : Option SettingsFault :=
  if s.path.isEmpty then some .emptyStorePath
  else if s.maxConnections = 0 then some .noConnections
  else none

/-- A path, which is a text. -/
def decodePath : Decoder String
  | .str s => .ok s
  | .plain s => .ok s
  | v => .error (v.mismatch "path string")

open Decode in
def decode (v : Source) : Except DecodeError StoreSettings := do
  let fields ← record "DatabaseConfig"
    [.of "sqlite_path" decodePath, .of "max_connections" nat32] (fun _ => true) v
  let path ← required fields "sqlite_path" decodePath
  let maxConnections ← required fields "max_connections" nat32
  .ok { path, maxConnections }

end StoreSettings

/-- All settings. -/
structure Settings where
  address : String := "0.0.0.0:8080"
  /-- The address that providers call back under. -/
  publicUrl : String := "http://localhost:8080"
  store : StoreSettings := {}
  workflows : Option String := none
  /-- The most steps that one pass of a run may take. -/
  maxSteps : Nat := 10000
  policy : TimeoutPolicy := .drop
deriving DecidableEq, Repr

namespace Settings

/-- A number among the variables. -/
def number (vars : Fields String) (name : String) (bound missing : Nat) :
    Except Failure Nat :=
  match Fields.get? vars name with
  | none => .ok missing
  | some text =>
    match Bounded.nat bound text with
    | .ok n => .ok n
    | .error fault => .error (.settings (.invalidNumber name text fault))

/-- The policy among the variables. -/
def policyOf (vars : Fields String) (name : String) : Except Failure TimeoutPolicy :=
  match Fields.get? vars name with
  | none => .ok .drop
  | some text =>
    match TimeoutPolicy.ofText text with
    | .ok policy => .ok policy
    | .error found => .error (.settings (.invalidPolicy name text found))

/-- A text without the slashes at its end. -/
def dropSlashes (text : String) : String :=
  String.ofList (text.toList.reverse.dropWhile (· == '/')).reverse

/-- What is wrong with settings that could be read. -/
def check (settings : Settings) : Except Failure Unit :=
  match settings.store.fault? with
  | some fault => .error (.settings fault)
  | none =>
    if settings.maxSteps = 0 then .error (.settings .noSteps)
    else (Url.check settings.publicUrl).mapError .url

/-- Read the settings from environment variables. -/
def load (vars : Fields String) : Except Failure Settings := do
  let maxConnections ← number vars "DATABASE_MAX_CONNECTIONS" (2 ^ (32 : Nat)) 5
  let maxSteps ← number vars "ENGINE_MAX_STEPS" (2 ^ (64 : Nat)) 10000
  let policy ← policyOf vars "TIMEOUT_POLICY"
  let settings : Settings :=
    { address := (Fields.get? vars "SERVER_ADDR").getD "0.0.0.0:8080"
      publicUrl :=
        ((Fields.get? vars "PUBLIC_URL").map dropSlashes).getD "http://localhost:8080"
      store :=
        { path := (Fields.get? vars "SQLITE_PATH").getD "data/tripwire.db"
          maxConnections }
      workflows := Fields.get? vars "WORKFLOWS_DIR"
      maxSteps
      policy }
  settings.check
  .ok settings

/-- The address that a provider is to call back. -/
def webhookUrl (settings : Settings) (provider : String) : String :=
  settings.publicUrl ++ "/webhooks/" ++ provider

def toData (settings : Settings) : Data :=
  .ofPairs
    [("server", .ofPairs
      [("addr", .str settings.address), ("public_url", .str settings.publicUrl)]),
    ("database", .ofPairs
      [("sqlite_path", .str settings.store.path),
        ("max_connections", .nat settings.store.maxConnections)]),
    ("engine", .ofPairs
      [("workflows_dir", .ofOption (settings.workflows.map .str)),
        ("max_steps", .nat settings.maxSteps)])]

end Settings

end DurableFlow
