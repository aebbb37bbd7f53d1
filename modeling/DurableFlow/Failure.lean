import DurableFlow.Definition.Validate
import DurableFlow.Net.Url
import DurableFlow.Number.Bounded
import DurableFlow.Source.Text
import DurableFlow.Template.Placeholder

/-!
# Failures

Everything that can go wrong with a definition, a run, a deployment or the settings,
as causes; what is said about a failure follows from its cause.
-/

namespace DurableFlow

/-- Why a condition leads nowhere. -/
inductive RoutingFault where
  /-- The condition says neither what to test nor what to switch on. -/
  | noForm
  /-- No case goes by the key, and there is no default. -/
  | noCase (key : String)
deriving DecidableEq, Repr

def RoutingFault.message : RoutingFault → String
  | noForm => "condition declares neither an expression nor a switch"
  | noCase key => "no case matches '" ++ key ++ "' and no default is declared"

/-- Why a workflow cannot be deployed. -/
inductive TriggerFault where
  | noTrigger (workflow : String)
  | alreadyDeployed (workflow : String)
  | noSubscriptionId (procedure : String)
  | invalidExpiration (value : Data)
  | cannotSuspend (procedure : String)
deriving DecidableEq, Repr

def TriggerFault.message : TriggerFault → String
  | noTrigger workflow => "workflow " ++ workflow ++ " declares no trigger"
  | alreadyDeployed workflow => "workflow " ++ workflow ++ " is already deployed"
  | noSubscriptionId procedure =>
    "trigger procedure " ++ procedure ++ " returned no subscription id"
  | invalidExpiration value => "invalid subscription expiration: " ++ value.compact
  | cannotSuspend procedure => "trigger procedure " ++ procedure ++ " cannot suspend"

/-- What is looked for and not there. -/
inductive Missing where
  | workflow (id : String)
  | deployment (workflow : String)
  | execution (id : String)
  | pendingExecution (id : String)
deriving DecidableEq, Repr

def Missing.message : Missing → String
  | workflow id => "workflow " ++ id
  | deployment id => "deployment of workflow " ++ id
  | execution id => "execution " ++ id
  | pendingExecution id => "pending execution " ++ id

/-- What is wrong with the settings. -/
inductive SettingsFault where
  | unknownPolicy (text : String)
  | invalidNumber (setting text : String) (fault : IntegerFault)
  | invalidPolicy (setting text found : String)
  | emptyStorePath
  | noConnections
  | noSteps
deriving DecidableEq, Repr

namespace SettingsFault

def policyMessage (text : String) : String := "unknown timeout policy '" ++ text ++ "'"

def message : SettingsFault → String
  | unknownPolicy text => policyMessage text
  | invalidNumber setting text fault =>
    "invalid " ++ setting ++ "='" ++ text ++ "': " ++ fault.message
  | invalidPolicy setting text found =>
    "invalid " ++ setting ++ "='" ++ text ++ "': Configuration error: " ++ policyMessage found
  | emptyStorePath => "SQLite path must not be empty"
  | noConnections => "max_connections must be at least 1"
  | noSteps => "ENGINE_MAX_STEPS must be at least 1"

end SettingsFault

/-- What went wrong. -/
inductive Failure where
  | settings (fault : SettingsFault)
  | invalid (problems : List Problem)
  | unknownNode (id : String)
  | unnamedProcedure (node : String)
  | unknownProcedure (name : String)
  /-- A procedure answered with a failure. -/
  | procedure (name text : String)
  | expression (error : ExprError)
  | routing (node : String) (fault : RoutingFault)
  | stepLimit (limit : Nat)
  | cancelled
  | template (fault : Template.Fault)
  | trigger (fault : TriggerFault)
  | notFound (what : Missing)
  | unknownStatus (text : String)
  | storeDown
  /-- A stored text cannot be read. -/
  | unreadable (error : DecodeError)
  /-- A branch broke down and left no outcome. -/
  | brokenBranch
  | url (fault : UrlFault)
  /-- The calendar ends before the date that is asked for. -/
  | dateRange
deriving DecidableEq, Repr

namespace Failure

def message : Failure → String
  | settings fault => "Configuration error: " ++ fault.message
  | invalid problems =>
    "Validation failed: " ++ "; ".intercalate (problems.map Problem.message)
  | unknownNode id => "Node not found: " ++ id
  | unnamedProcedure node =>
    "Procedure not found: node '" ++ node ++ "' declares no procedureName"
  | unknownProcedure name => "Procedure not found: " ++ name
  | procedure name text => "Procedure " ++ name ++ " failed: " ++ text
  | expression error => "Expression error: " ++ error.message
  | routing node fault => "Routing error at node " ++ node ++ ": " ++ fault.message
  | stepLimit limit => "Step limit of " ++ toString limit ++ " exceeded"
  | cancelled => "Execution cancelled"
  | template fault => "Template error: " ++ fault.message
  | trigger fault => "Trigger error: " ++ fault.message
  | notFound what => "Not found: " ++ what.message
  | unknownStatus text => "Internal error: unknown execution status '" ++ text ++ "'"
  | storeDown => "Internal error: store down"
  | unreadable error => "JSON error: " ++ error.message
  | brokenBranch => "Internal error: Branch task failed"
  | url fault => "URL error: " ++ fault.message
  | dateRange => "date out of range"

/-- What has been decoded, an error being a failure to read what is stored. -/
def ofDecode {α : Type} : Except DecodeError α → Except Failure α
  | .ok value => .ok value
  | .error e => .error (.unreadable e)

end Failure

/-- A fault of templated data as a failure of whoever fills it in. -/
def Template.RenderFault.failure : Template.RenderFault → Failure
  | .path error => .expression error
  | .template fault => .template fault

end DurableFlow
