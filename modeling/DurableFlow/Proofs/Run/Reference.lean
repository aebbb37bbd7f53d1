import DurableFlow.Engine.Basic

/-!
# The run that is never cut

A reference for what a run over a definition without parallel nodes comes to: one node after
another, each in one piece, and a suspension is no more than a node that keeps no output,
takes in some bindings and goes on. Nothing is captured, and nothing is resumed.
-/

namespace DurableFlow

/-- What running a node in one piece comes to. -/
structure Visit where
  context : Context
  calls : List Call := []
  ending : Ending

/-- A visit with some calls made before it. -/
def Visit.after (calls : List Call) (visit : Visit) : Visit :=
  { visit with calls := calls ++ visit.calls }

@[simp] theorem Visit.after_nil (visit : Visit) : visit.after [] = visit := rfl

def NodeKind.isParallel : NodeKind → Bool
  | .parallel .. => true
  | _ => false

namespace Node

/-- Take up the reply of the node's procedure. -/
def takeReply (node : Node) (context : Context) (procedure : String) (reply : Reply) : Visit :=
  match reply with
  | .output value =>
    { context := context.record node.id value, ending := .ok (.goOn node.successors) }
  | reply => { context, ending := node.answered procedure reply }

/-- Do all that the kind of the node asks for, for kinds other than parallel ones. -/
def perform (node : Node) (catalog : Catalog) (moment : Moment) (context : Context) : Visit :=
  match node.kind with
  | .procedure none _ => { context, ending := .error (.unnamedProcedure node.id) }
  | .procedure (some name) config =>
    match Fields.get? catalog name with
    | none => { context, ending := .error (.unknownProcedure name) }
    | some procedure =>
      match context.input config with
      | .error failure => { context, ending := .error failure }
      | .ok input =>
        let invocation : Invocation :=
          { workflow := context.workflow, execution := context.execution, node := some node.id }
        (node.takeReply context name (procedure.reply moment invocation input)).after
          [⟨name, input, invocation⟩]
  | .condition _ => { context, ending := node.route context.expressionScope }
  | .await names filter timeout =>
    { context, ending := .ok (.suspend node.id (.awaiting names filter timeout)) }
  | .parallel .. | .sequential => { context, ending := .ok (.goOn node.successors) }

/-- A node that fails hands control to the node that it names for that, if it names one. -/
def recover (node : Node) (visit : Visit) : Visit :=
  match visit.ending, node.onError with
  | .error failure, some target =>
    { visit with
      context := visit.context.bind "lastError" (Phase.lastError node failure)
      ending := .ok (.goOn [target]) }
  | _, _ => visit

@[simp] theorem recover_after (node : Node) (calls : List Call) (visit : Visit) :
    node.recover (visit.after calls) = (node.recover visit).after calls := by
  obtain ⟨context, before, ending⟩ := visit
  cases ending with
  | ok step => rfl
  | error failure => cases handler : node.onError <;> simp [recover, Visit.after, handler]

end Node

/-- Where a run gets to. -/
structure Journey where
  context : Context
  calls : List Call := []
  conclusion : Conclusion

/-- A journey with some calls made before it. -/
def Journey.after (calls : List Call) (journey : Journey) : Journey :=
  { journey with calls := calls ++ journey.calls }

@[simp] theorem Journey.after_nil (journey : Journey) : journey.after [] = journey := rfl

@[simp] theorem Journey.after_after (first second : List Call) (journey : Journey) :
    (journey.after second).after first = journey.after (first ++ second) := by
  simp [Journey.after]

namespace Definition

/-- No node sets off others, and none is followed by several at once. -/
def IsSequential (d : Definition) : Prop :=
  ∀ node ∈ d.nodes, node.kind.isParallel = false ∧ node.successors.length ≤ 1

/-- Run the node that an id stands for in one piece. -/
def visit (d : Definition) (catalog : Catalog) (moment : Moment) (context : Context)
    (id : String) : Visit :=
  match d.node? id with
  | none => { context, ending := .error (.unknownNode id) }
  | some node => node.recover (node.perform catalog moment (context.enter node.id))

/-- Go on from the ending of a node. At a suspension the next bindings are taken in, and the
journey goes on behind the node. -/
def proceed (d : Definition)
    (go : Context → List String → List (Fields Data) → Option Journey) (context : Context)
    (ending : Ending) (deltas : List (Fields Data)) : Option Journey :=
  match ending with
  | .error failure => some { context, conclusion := .failed failure }
  | .ok (.goOn next) => go context next deltas
  | .ok (.suspend id _) =>
    match deltas, d.node? id with
    | delta :: rest, some node => go (context.merge delta) node.successors rest
    | _, _ => none

/-- The journey from a node on that is never cut, if the fuel lasts. -/
def uninterrupted (d : Definition) (catalog : Catalog) (moment : Moment) :
    Nat → Context → List String → List (Fields Data) → Option Journey
  | 0, _, _, _ => none
  | _ + 1, context, [], _ => some { context, conclusion := .completed }
  | fuel + 1, context, id :: _, deltas =>
    let visit := d.visit catalog moment context id
    (d.proceed (uninterrupted d catalog moment fuel) visit.context visit.ending deltas).map
      (Journey.after visit.calls)

variable {d : Definition} {catalog : Catalog} {moment : Moment} {context : Context}
  {deltas : List (Fields Data)} {journey : Journey}

theorem proceed_mono {go further : Context → List String → List (Fields Data) → Option Journey}
    (more : ∀ context next deltas journey, go context next deltas = some journey →
      further context next deltas = some journey) {ending : Ending}
    (h : d.proceed go context ending deltas = some journey) :
    d.proceed further context ending deltas = some journey := by
  match ending with
  | .error failure => exact h
  | .ok (.goOn next) => exact more _ _ _ _ h
  | .ok (.suspend id pause) =>
    simp only [proceed] at h ⊢
    split at h
    · exact more _ _ _ _ h
    · contradiction

/-- More fuel takes no journey elsewhere. -/
theorem uninterrupted_succ {fuel : Nat} {next : List String}
    (h : d.uninterrupted catalog moment fuel context next deltas = some journey) :
    d.uninterrupted catalog moment (fuel + 1) context next deltas = some journey := by
  induction fuel generalizing context next deltas journey with
  | zero => simp [uninterrupted] at h
  | succ fuel ih =>
    cases next with
    | nil => exact h
    | cons id rest =>
      obtain ⟨onwards, found, rfl⟩ := Option.map_eq_some_iff.mp h
      exact Option.map_eq_some_iff.mpr
        ⟨onwards, proceed_mono (fun _ _ _ _ reached => ih reached) found, rfl⟩

theorem uninterrupted_mono {fuel more : Nat} (enough : fuel ≤ more) {next : List String}
    (h : d.uninterrupted catalog moment fuel context next deltas = some journey) :
    d.uninterrupted catalog moment more context next deltas = some journey := by
  induction enough with
  | refl => exact h
  | step _ ih => exact uninterrupted_succ ih

end Definition

end DurableFlow
