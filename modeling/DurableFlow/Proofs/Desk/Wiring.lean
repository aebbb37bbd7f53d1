import DurableFlow.Proofs.Desk.Deploying

/-!
# Handlers and subscriptions of a deployed workflow

A deployment is entered in one step, and its handler is registered and its subscription saved in
later ones. It is taken back in one step too, and its handler is unregistered and its subscription
deleted in later ones. `Site.Wired` says that errands have what is missing still to do at any time,
unless a deployment is taken back while its handler is still to be registered or its subscription to
be saved.
-/

namespace DurableFlow

namespace Site

variable {site after : Site} {lives : String → Life} {told : String → List Passage}
  {workflow : String}

/-- A move takes back the deployment of a workflow. -/
def Removes (site : Site) (workflow : String) (m : Move) : Prop :=
  (site.office.desk.deployment? workflow).isSome ∧
    (site.move m).office.desk.deployment? workflow = none

/-- A move takes back a deployment while the errand that has entered it has still to register its
handler or to save its subscription. -/
def Overtakes (site : Site) (workflow : String) (m : Move) : Prop :=
  site.Removes workflow m ∧ ∃ entry ∈ site.office.errands, entry.2.Announces workflow

instance (site : Site) (workflow : String) (m : Move) : Decidable (site.Removes workflow m) :=
  inferInstanceAs (Decidable ((site.office.desk.deployment? workflow).isSome ∧
    (site.move m).office.desk.deployment? workflow = none))

instance (site : Site) (workflow : String) (m : Move) : Decidable (site.Overtakes workflow m) :=
  inferInstanceAs (Decidable (site.Removes workflow m ∧
    ∃ entry ∈ site.office.errands, entry.2.Announces workflow))

/-- A handler of the workflow that is registered is the one of its deployment, or an errand is going
to unregister it. A subscription that is stored of the workflow while it is not deployed is going to
be deleted by an errand. What errands are still going to register and to save is of the deployment
that there is. -/
structure Wired (site : Site) (workflow : String) : Prop where
  /-- What is deployed is the workflow's own. -/
  deployed : ∀ deployment, site.office.desk.deployment? workflow = some deployment →
    deployment.subscription.workflow = workflow ∧ deployment.handler.workflow = workflow
  /-- Nothing is announced but the deployment that there is. -/
  announces : ∀ entry ∈ site.office.errands, ∀ act ∈ entry.2.acts,
    act.announces? = some workflow → site.office.desk.Announced workflow act
  registered : ∀ provider, ∀ handler ∈ site.office.board.handlersOf provider,
    handler.workflow = workflow → site.office.desk.Announced workflow (.register provider handler) ∨
      ∃ entry ∈ site.office.errands, .unregister provider handler ∈ entry.2.acts
  subscribed : ∀ subscription ∈ site.engine.subscriptions, subscription.workflow = workflow →
    (site.office.desk.deployment? workflow).isSome ∨
      ∃ entry ∈ site.office.errands, entry.2.Unsubscribes workflow
  installs : ∀ entry ∈ site.office.errands, entry.2.decision.IsOwn

/-- What has to do with deployments is the same, and no errand is there but such as have
nothing to do with them. -/
theorem Wired.aside (wired : site.Wired workflow)
    (deployments : after.office.desk.deployments = site.office.desk.deployments)
    (board : after.office.board = site.office.board)
    (ledger : after.engine.ledger = site.engine.ledger)
    (stays : ∀ entry ∈ site.office.errands, entry ∈ after.office.errands)
    (errands : ∀ entry ∈ after.office.errands, entry ∈ site.office.errands ∨
      entry.2.acts = [] ∧ entry.2.decision.IsOwn) : after.Wired workflow := by
  have same := Desk.deployment?_congr deployments
  refine ⟨?_, fun entry member act held announces => ?_, fun provider handler among own => ?_,
    fun subscription among own => ?_, fun entry member => ?_⟩
  · rw [same]
    exact wired.deployed
  · rw [Desk.Announced, same]
    rcases errands entry member with before | ⟨nothing, _⟩
    · exact wired.announces entry before act held announces
    · simp [nothing] at held
  · rw [board] at among
    rw [Desk.Announced, same]
    exact (wired.registered provider handler among own).imp_right
      fun ⟨entry, member, takes⟩ => ⟨entry, stays entry member, takes⟩
  · rw [Engine.subscriptions_of_ledger ledger] at among
    rw [same]
    exact (wired.subscribed subscription among own).imp_right
      fun ⟨entry, member, takes⟩ => ⟨entry, stays entry member, takes⟩
  · rcases errands entry member with before | ⟨_, own⟩
    · exact wired.installs entry before
    · exact own

/-- One errand takes a step. What it has had to take back it takes back, or has still to. -/
theorem Wired.deal (wired : site.Wired workflow) {id : Nat} {errand : Errand} {stride : Stride}
    (strides : site.Strides id errand stride)
    (deployed : ∀ deployment, stride.office.desk.deployment? workflow = some deployment →
      deployment.subscription.workflow = workflow ∧ deployment.handler.workflow = workflow)
    (others : stride.office.desk.deployment? workflow = site.office.desk.deployment? workflow ∨
      ∀ entry ∈ site.office.errands, ¬ entry.2.Announces workflow)
    (announces : ∀ act ∈ stride.errand.acts, act.announces? = some workflow →
      stride.office.desk.Announced workflow act)
    (registered : ∀ provider, ∀ handler ∈ stride.office.board.handlersOf provider,
      handler.workflow = workflow →
      (handler ∈ site.office.board.handlersOf provider ∨
        site.office.desk.Announced workflow (.register provider handler)) ∧
      (site.office.desk.Announced workflow (.register provider handler) ∨
        .unregister provider handler ∈ errand.acts →
      stride.office.desk.Announced workflow (.register provider handler) ∨
        .unregister provider handler ∈ stride.errand.acts))
    (subscribed : ∀ subscription ∈ stride.engine.subscriptions, subscription.workflow = workflow →
      (subscription ∈ site.engine.subscriptions ∨
        (site.office.desk.deployment? workflow).isSome) ∧
      ((site.office.desk.deployment? workflow).isSome ∨ errand.Unsubscribes workflow →
      (stride.office.desk.deployment? workflow).isSome ∨ stride.errand.Unsubscribes workflow))
    (installs : stride.errand.decision.IsOwn) : (land stride id).Wired workflow := by
  have desk : (land stride id).office.desk = stride.office.desk := desk_land stride id
  have board : (land stride id).office.board = stride.office.board := by
    unfold land
    dsimp only
    split <;> rfl
  refine ⟨desk ▸ deployed, fun entry member act held told => ?_,
    fun provider handler among own => ?_, fun subscription among own => ?_, fun entry member => ?_⟩
  · rw [desk]
    rcases strides.others entry member with rfl | ⟨before, _⟩
    · exact announces act held told
    · rcases others with same | nobody
      · rw [Desk.Announced, same]
        exact wired.announces entry before act held told
      · exact absurd ⟨act, held, told⟩ (nobody entry before)
  · rw [board] at among
    -- the handler was there before, or it belongs to the deployment, and is accounted for
    obtain ⟨source, keeps⟩ := registered provider handler among own
    rw [desk]
    refine strides.exists_land (.unregister provider handler ∈ ·.acts)
      (fun answer acts _ => by simp [acts]) keeps ?_
    rcases source with before | there
    · exact wired.registered provider handler before own
    · exact .inl there
  · obtain ⟨source, keeps⟩ := subscribed subscription among own
    rw [desk]
    refine strides.exists_land (·.Unsubscribes workflow)
      (fun answer acts decision unsubscribes => ?_) keeps ?_
    · have later := Stride.unsubscribes_of_acts acts unsubscribes
      rw [decision] at later
      contradiction
    · rcases source with before | there
      · exact wired.subscribed subscription before own
      · exact .inl there
  · rcases strides.others entry member with rfl | ⟨before, _⟩
    · exact installs
    · exact wired.installs entry before

/-- An errand carries out an act. -/
theorem Wired.act (wired : site.Wired workflow) (serves : site.engine.Serves) {id : Nat}
    {errand : Errand} (member : (id, errand) ∈ site.office.errands) {act : Act} {rest : List Act}
    (acts : errand.acts = act :: rest)
    (strides : site.Strides id errand
      (Stride.act site.engine site.office { errand with acts := rest } act)) :
    (land (Stride.act site.engine site.office { errand with acts := rest } act) id).Wired
      workflow := by
  obtain ⟨same, deployments, board⟩ :=
    Stride.act_wires site.engine site.office { errand with acts := rest } act
  have desk := Desk.deployment?_congr deployments
  have first : act ∈ errand.acts := acts ▸ List.mem_cons_self
  refine wired.deal strides (desk ▸ wired.deployed) (.inl (congrFun desk workflow))
    (fun other held told => ?_) (fun provider handler among own => ⟨?_, fun had => ?_⟩)
    (fun subscription among own => ⟨?_, fun had => ?_⟩) ?_
  · rw [same] at held
    rw [Desk.Announced, desk]
    exact wired.announces _ member other (acts ▸ List.mem_cons_of_mem _ held) told
  · rw [board] at among
    rcases Stride.mem_rewire among with rfl | ⟨before, _⟩
    · exact .inr (wired.announces _ member _ first (congrArg some own))
    · exact .inl before
  · rw [Desk.Announced, desk, same]
    refine had.imp_right fun left => ?_
    rw [board] at among
    rw [acts, List.mem_cons] at left
    apply left.resolve_left
    rintro rfl
    rcases Stride.mem_rewire among with registers | ⟨_, different⟩
    · contradiction
    · exact different rfl
  · rcases Stride.act_subscriptions serves _ _ among with rfl | ⟨before, _⟩
    · obtain ⟨deployment, there, _⟩ := wired.announces _ member _ first (congrArg some own)
      exact .inr (by simp [there])
    · exact .inl before
  · rw [desk, same]
    rcases Stride.act_subscriptions serves _ _ among with rfl | ⟨_, different⟩
    · obtain ⟨deployment, there, _⟩ := wired.announces _ member _ first (congrArg some own)
      exact .inl (by simp [there])
    · refine had.imp_right (Or.imp_left fun left => ?_)
      rw [acts, List.mem_cons] at left
      exact left.resolve_left fun deletes => different (own ▸ deletes.symm)
  · rw [same]
    exact wired.installs _ member

section Decides

variable {id : Nat} {errand : Errand} {stride : Stride} {deployment : Deployment} {changed : String}

/-- A deployment is entered that is going to be announced. -/
theorem Wired.enters (wired : site.Wired workflow) (acts : errand.acts = [])
    (strides : site.Strides id errand stride)
    (board : stride.office.board = site.office.board)
    (ledger : stride.engine.ledger = site.engine.ledger)
    (absent : site.office.desk.deployment? changed = none)
    (own : deployment.subscription.workflow = changed ∧ deployment.handler.workflow = changed)
    (entered : stride.office.desk.deployments =
      Fields.insert site.office.desk.deployments changed deployment)
    (announcing : stride.errand.acts = deployment.announcements)
    (free : errand.decision.unsubscribes? = none) (installs : stride.errand.decision.IsOwn) :
    (land stride id).Wired workflow := by
  have desk := Desk.deployment?_of_insert entered
  have still : ∀ act, site.office.desk.Announced workflow act →
      stride.office.desk.Announced workflow act := by
    rintro act ⟨known, there, announces⟩
    refine ⟨known, ?_, announces⟩
    rw [desk, if_neg]
    · exact there
    · rintro rfl
      rw [absent] at there
      contradiction
  refine wired.deal strides (fun known there => ?_) ?_ (fun act held told => ?_)
    (fun provider handler among _ => ⟨.inl (board ▸ among), fun had => .inl (still _ ?_)⟩)
    (fun subscription among _ =>
      ⟨.inl (Engine.subscriptions_of_ledger ledger ▸ among), fun had => .inl ?_⟩)
    installs
  · rw [desk] at there
    split at there
    · rename_i same
      cases there
      exact same ▸ own
    · exact wired.deployed known there
  · by_cases same : workflow = changed
    · right
      rintro entry member ⟨act, held, told⟩
      obtain ⟨known, there, _⟩ := wired.announces entry member act held told
      rw [same, absent] at there
      contradiction
    · exact .inl (by rw [desk, if_neg same])
  · -- what the errand is going to announce is the deployment that it has just entered
    have mine : act.announces? = some changed := by
      rw [announcing] at held
      rcases List.mem_pair.mp held with rfl | rfl
      · exact congrArg some own.2
      · exact congrArg some own.1
    obtain rfl := Option.some.inj (mine.symm.trans told)
    exact ⟨deployment, by rw [desk, if_pos rfl], announcing ▸ held⟩
  · exact had.resolve_right (by simp [acts])
  · have there := had.resolve_right (Stride.not_unsubscribes acts free workflow)
    rw [desk]
    split
    · rfl
    · exact there

/-- A deployment is taken back that is not being announced any more. Its handler is going to be
unregistered, and its subscription deleted. -/
theorem Wired.removes (wired : site.Wired workflow) (acts : errand.acts = [])
    (strides : site.Strides id errand stride)
    (board : stride.office.board = site.office.board)
    (ledger : stride.engine.ledger = site.engine.ledger)
    (there : site.office.desk.deployment? changed = some deployment)
    (desk : ∀ other, stride.office.desk.deployment? other =
      if other = changed then none else site.office.desk.deployment? other)
    (removing : stride.errand.acts =
      [.unregister deployment.subscription.provider deployment.handler])
    (free : errand.decision.unsubscribes? = none) {dropped : List String}
    (calls : stride.errand.decision = .callStop deployment.subscription dropped)
    (announced : workflow = changed →
      ∀ entry ∈ site.office.errands, ¬ entry.2.Announces workflow) :
    (land stride id).Wired workflow := by
  refine wired.deal strides (fun known still => ?_) ?_ (fun act held told => ?_)
    (fun provider handler among _ => ⟨.inl (board ▸ among), fun had => ?_⟩)
    (fun subscription among _ =>
      ⟨.inl (Engine.subscriptions_of_ledger ledger ▸ among), fun had => ?_⟩)
    (calls ▸ trivial)
  · rw [desk] at still
    split at still
    · contradiction
    · exact wired.deployed known still
  · by_cases same : workflow = changed
    · exact .inr (announced same)
    · exact .inl (by rw [desk, if_neg same])
  · rw [removing] at held
    rw [List.mem_singleton.mp held] at told
    contradiction
  · obtain ⟨known, found, announces⟩ := had.resolve_right (by simp [acts])
    by_cases same : workflow = changed
    · right
      rw [same, there] at found
      cases found
      have registers : Act.register provider handler =
          .register deployment.subscription.provider deployment.handler := by
        simpa [Deployment.announcements] using announces
      obtain ⟨rfl, rfl⟩ := Act.register.inj registers
      rw [removing]
      exact List.mem_singleton_self _
    · exact .inl ⟨known, by rw [desk, if_neg same, found], announces⟩
  · have found := had.resolve_right (Stride.not_unsubscribes acts free workflow)
    by_cases same : workflow = changed
    · right; right
      rw [calls, ← (wired.deployed deployment (same ▸ there)).1]
      rfl
    · left
      rw [desk, if_neg same]
      exact found

/-- An errand decides. What is deployed it is going to announce, and what is deployed no more, to
take back. -/
theorem Wired.decide (wired : site.Wired workflow) (acts : errand.acts = [])
    (own : errand.decision.IsOwn) (strides : site.Strides id errand stride)
    (plugs : Stride.Plugs site.office errand stride)
    (board : stride.office.board = site.office.board)
    (ledger : stride.engine.ledger = site.engine.ledger)
    (announced : (site.office.desk.deployment? workflow).isSome →
      stride.office.desk.deployment? workflow = none →
        ∀ entry ∈ site.office.errands, ¬ entry.2.Announces workflow) :
    (land stride id).Wired workflow := by
  cases plugs with
  | aside deployments _ announces unsubscribes still =>
    have desk := Desk.deployment?_congr deployments
    have subscriptions := Engine.subscriptions_of_ledger ledger
    refine wired.deal strides (desk ▸ wired.deployed) (.inl (congrFun desk workflow))
      (fun act held told => ?_) (fun provider handler among _ => ⟨.inl (board ▸ among), ?_⟩)
      (fun subscription among _ => ⟨.inl (subscriptions ▸ among), ?_⟩) (still own)
    · rw [announces act held] at told
      contradiction
    · rw [Desk.Announced, Desk.Announced, desk, acts]
      exact fun had => .inl (had.resolve_right List.not_mem_nil)
    · rw [desk]
      exact Or.imp_right (unsubscribes workflow)
  | enters deployment absent belongs entered _ announcing free answer answers =>
    exact wired.enters acts strides board ledger absent (belongs own) entered announcing free
      (answers ▸ trivial)
  | @removes deployment removed there detaches removing free dropped calls =>
    have desk : ∀ other, stride.office.desk.deployment? other =
        if other = removed then none else site.office.desk.deployment? other := by
      rw [detaches]
      exact site.office.deployment?_detach removed
    refine wired.removes acts strides board ledger there desk removing free calls fun same => ?_
    exact announced (by simp [same, there]) (by rw [desk, if_pos same])

end Decides

/-- A move keeps what belongs together, unless it takes back a deployment that is still being
announced. -/
theorem Wired.move (wired : site.Wired workflow) (kept : site.Kept lives) (filed : site.Filed told)
    (m : Move) (inTime : ¬ site.Overtakes workflow m) : (site.move m).Wired workflow := by
  have announced : (site.office.desk.deployment? workflow).isSome →
      (site.move m).office.desk.deployment? workflow = none →
        ∀ entry ∈ site.office.errands, ¬ entry.2.Announces workflow :=
    fun there gone entry member announces => inTime ⟨⟨there, gone⟩, entry, member, announces⟩
  clear inTime
  have moved := kept.moves m
  generalize site.move m = after at moved announced ⊢
  cases moved with
  | order order =>
    refine wired.aside rfl rfl rfl (fun entry member => List.mem_append_left _ member)
      fun entry member => ?_
    rcases List.mem_append.mp member with before | new
    · exact .inl before
    · rw [List.mem_singleton.mp new]
      exact .inr ⟨rfl, by cases order <;> trivial⟩
  | @turn id errand found =>
    have member : (id, errand) ∈ site.office.errands := Table.mem_of_lookup found
    have strides := kept.strides_turn found
    rw [desk_land] at announced
    cases acts : errand.acts with
    | cons act rest =>
      simp only [Stride.step, acts] at strides ⊢
      exact wired.act filed.serves member acts strides
    | nil =>
      simp only [Stride.step, acts] at strides announced ⊢
      have managed := kept.managed _ member
      obtain ⟨plugs, board⟩ := Stride.decide_plugs acts managed
      exact wired.decide acts (wired.installs _ member) strides plugs board
        (Stride.decide_leaves _ _ _).1 announced
  | @ring alarm found =>
    -- the new errand has no acts, so that all it does is decide
    have strides := kept.strides_ring found
    rw [desk_land] at announced
    let errand : Errand := { decision := .expire alarm.execution }
    let taken := ((site.office.silence (some alarm.id)).takeOn errand).2
    have idle : errand.acts = [] := rfl
    have own : errand.decision.IsOwn := trivial
    have desk : taken.desk = site.office.desk := rfl
    obtain ⟨plugs, board, ledger⟩ :=
      Stride.expire_plugs idle site.engine site.office desk rfl alarm.execution
    exact wired.decide idle own strides plugs board ledger announced
  | branch run id =>
    obtain ⟨_, ledger⟩ := site.engine.stepRun_keeps run (.branch id)
    exact wired.aside rfl rfl ledger (fun _ member => member) fun _ member => .inl member
  | noErrand | noAlarm => exact wired
  | closed | learn | pass =>
    exact wired.aside rfl rfl rfl (fun _ member => member) fun _ member => .inl member

theorem Wired.play (wired : site.Wired workflow) (kept : site.Kept lives) (filed : site.Filed told)
    (schedule : List Move)
    (inTime : site.Along (fun site m => ¬ site.Overtakes workflow m) schedule) :
    (site.play schedule).Wired workflow := by
  induction schedule generalizing site lives told with
  | nil => exact wired
  | cons m rest ih =>
    obtain ⟨middle, accounts⟩ := kept.accounts_move m
    exact ih (wired.move kept filed m inTime.1) accounts.kept (filed.move kept m) inTime.2

/-- At first there is nothing but what has been stored of other workflows. -/
theorem Wired.opened (catalog : Catalog) (limit : Nat) (ledger : Ledger) (epoch : Instant)
    (policy : TimeoutPolicy)
    (foreign : ∀ subscription ∈ ledger.subscriptions, subscription.workflow ≠ workflow) :
    (Site.opened catalog limit (some ledger) epoch policy).Wired workflow where
  deployed deployment there := by simp [Site.opened, Desk.deployment?] at there
  announces entry member := absurd member List.not_mem_nil
  registered provider handler among := by
    simp [Site.opened, Switchboard.handlersOf] at among
  subscribed subscription among own := absurd own (foreign subscription among)
  installs entry member := absurd member List.not_mem_nil

/-- All that a move can do about deployments and known workflows. -/
theorem move_desk (kept : site.Kept lives) (m : Move) :
    ((site.move m).office.desk.deployments = site.office.desk.deployments ∧
      ((site.move m).office.desk.definitions = site.office.desk.definitions ∨
        (∃ d, m = .learn d ∧ (site.move m).office.desk = site.office.desk.learn d) ∨
        ∃ id errand d state rest, m = .turn id ∧ site.office.errand? id = some errand ∧
          errand.acts = .arm d state :: rest ∧ (site.move m).office.desk.definitions =
            (site.office.desk.learnNew d).definitions)) ∨
      ∃ id errand, m = .turn id ∧ site.office.errand? id = some errand ∧ errand.acts = [] ∧
        (site.move m).office.desk =
          (Stride.decide site.engine site.office errand).office.desk ∧
        Stride.Plugs site.office errand (Stride.decide site.engine site.office errand) := by
  have moved := kept.moves m
  generalize site.move m = after at moved ⊢
  cases moved with
  | learn d => exact .inl ⟨rfl, .inr (.inl ⟨d, rfl, rfl⟩)⟩
  | order | branch | pass | noErrand | noAlarm | closed => exact .inl ⟨rfl, .inl rfl⟩
  | @turn id errand found =>
    have member : (id, errand) ∈ site.office.errands := Table.mem_of_lookup found
    rw [desk_land, Stride.step]
    cases acts : errand.acts with
    | nil =>
      obtain ⟨plugs, _⟩ := @Stride.decide_plugs _ site.office _ acts (kept.managed _ member)
      exact .inr ⟨id, errand, rfl, found, acts, rfl, plugs⟩
    | cons act rest =>
      obtain ⟨_, deployments, _⟩ :=
        Stride.act_wires site.engine site.office { errand with acts := rest } act
      obtain ⟨_, plain, arms⟩ :=
        Stride.act_desk site.engine site.office { errand with acts := rest } act
      refine .inl ⟨deployments, ?_⟩
      cases act with
      | arm d state =>
        refine .inr (.inr ⟨id, errand, d, state, rest, rfl, found, acts, ?_⟩)
        dsimp only
        rw [arms d state rfl, Desk.hold]
      | _ => exact .inl (congrArg Desk.definitions (plain (by simp)))
  | ring found =>
    left
    rw [desk_land, Stride.expire]
    split
    · exact ⟨rfl, .inl rfl⟩
    · exact ⟨by simp [Office.takeOn], .inl (by simp [Office.definitions_release, Office.takeOn])⟩

end Site

end DurableFlow
