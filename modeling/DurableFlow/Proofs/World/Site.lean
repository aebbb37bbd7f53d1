import DurableFlow.World.Basic
import DurableFlow.Proofs.Desk.Schedule

/-!
# The jobs of a world are moves of its sites

A world decides which job takes the next step and when time passes. What a job does to the
engine and to an office is a move of their site, so whatever holds of all schedules of a site
holds of the turns that a world gives to its jobs.
-/

namespace DurableFlow

/-- The job belongs to the site of an office. -/
def Job.IsOf (office : Nat) : Job → Prop
  | .errand other _ | .alarm other _ => other = office
  | .branch .. => True
  | .cancel .. => False

namespace World

variable {world : World} {site : Site} {office : Nat}

/-- The engine and one of the offices. -/
def site? (world : World) (office : Nat) : Option Site :=
  (world.office? office).map fun o => ⟨world.engine, o⟩

/-- Two worlds have the same engine and the same offices. -/
def SameSites (world other : World) : Prop :=
  other.engine = world.engine ∧ other.offices = world.offices

theorem SameSites.site? {other : World} (same : world.SameSites other) (office : Nat) :
    other.site? office = world.site? office := by
  rw [World.site?, World.site?, office?, office?, same.1, same.2]

theorem SameSites.trans {middle other : World} (first : world.SameSites middle)
    (second : middle.SameSites other) : world.SameSites other :=
  ⟨second.1.trans first.1, second.2.trans first.2⟩

theorem sameSites_wake (world : World) (job : Job) : world.SameSites (world.wake job) := by
  rw [wake]
  split <;> exact ⟨rfl, rfl⟩

theorem sameSites_foldl {α : Type} {act : World → α → World}
    (each : ∀ world item, SameSites world (act world item)) (items : List α) (world : World) :
    world.SameSites (items.foldl act world) := by
  induction items generalizing world with
  | nil => exact ⟨rfl, rfl⟩
  | cons item rest ih => exact (each world item).trans (ih _)

theorem sameSites_grant (world : World) (office : Nat) (request : Request) :
    world.SameSites (world.grant office request) := by
  cases request with
  | branches run ids =>
    exact sameSites_foldl (fun world id => sameSites_wake world (.branch run id)) ids world
  | alarm id after =>
    simp only [grant]
    split
    · exact sameSites_wake world _
    · exact ⟨rfl, rfl⟩

theorem sameSites_wakeWaiters (world : World) (run group : Nat) :
    world.SameSites (world.wakeWaiters run group) := by
  rw [wakeWaiters]
  split
  · exact sameSites_wake world _
  · exact sameSites_foldl sameSites_wake _ world
  · exact sameSites_foldl sameSites_wake _ world

theorem site?_setOffice {o : Office} (there : world.office? office = some o) (changed : Office) :
    (world.setOffice office changed).site? office = some ⟨world.engine, changed⟩ := by
  obtain ⟨inside, _⟩ := List.getElem?_eq_some_iff.mp there
  simp [site?, office?, setOffice, inside]

theorem site?_eq_some (h : world.site? office = some site) :
    site.engine = world.engine ∧ world.office? office = some site.office := by
  obtain ⟨o, found, rfl⟩ := Option.map_eq_some_iff.mp h
  exact ⟨rfl, found⟩

/-- An errand that has come to its end is dropped, which is all that the site sees of it. -/
theorem site?_resolve (h : world.site? office = some site) (id : Nat) :
    (world.resolve office id).site? office =
      some { site with office := site.office.dropErrand id } := by
  obtain ⟨engine, found⟩ := site?_eq_some h
  have dropped := site?_setOffice found (site.office.dropErrand id)
  rw [← engine] at dropped
  rw [resolve]
  simp only [found]
  split <;> exact dropped

/-- A step of an errand in the world is a turn of the errand. -/
theorem site?_stepErrand (h : world.site? office = some site) (id : Nat) :
    (world.stepErrand office id).1.site? office = some (site.move (.turn id)) := by
  obtain ⟨engine, found⟩ := site?_eq_some h
  cases asked : site.office.errand? id with
  | none =>
    have still : site.move (.turn id) = site := by simp only [Site.move, Site.turn, asked]
    simp only [stepErrand, found, asked]
    rw [still, h]
  | some errand =>
    have moved : site.move (.turn id) =
        Site.land (Stride.step site.engine site.office errand) id := by
      simp only [Site.move, Site.turn, asked]
    rw [moved]
    simp only [stepErrand, found, asked, ← engine]
    generalize Stride.step site.engine site.office errand = stride
    let changed := stride.office.setErrand id stride.errand
    have granted : World.site? (stride.requests.foldl
        (fun world request => world.grant office request)
        ({ world with engine := stride.engine }.setOffice office changed)) office =
          some ⟨stride.engine, changed⟩ := by
      rw [(sameSites_foldl (fun world request => sameSites_grant world office request) _ _).site?]
      have same : World.office? { world with engine := stride.engine } office =
          some site.office := found
      exact site?_setOffice same changed
    cases signal : stride.signal with
    | finished =>
      simp only [Site.land, signal]
      exact site?_resolve granted id
    | giveWay =>
      simp only [Site.land, signal]
      rw [(sameSites_wake _ _).site?]
      exact granted
    | _ =>
      simp only [Site.land, signal]
      exact granted

/-- A step of a branch in the world is a step of the branch. -/
theorem site?_stepBranch (h : world.site? office = some site) (run id : Nat) :
    (world.stepBranch run id).1.site? office = some (site.move (.branch run id)) := by
  obtain ⟨engine, found⟩ := site?_eq_some h
  have stepped : World.site? ((world.engine.stepRun run (.branch id)).2.1.foldl
      (fun world id => world.wake (.branch run id))
        { world with engine := (world.engine.stepRun run (.branch id)).1 }) office =
      some (site.move (.branch run id)) := by
    rw [(sameSites_foldl (fun world _ => sameSites_wake world _) _ _).site?]
    have same : World.office? { world with engine := (world.engine.stepRun run (.branch id)).1 }
        office = some site.office := found
    rw [World.site?, same, Site.move, engine]
    rfl
  rw [stepBranch]
  dsimp only
  split
  · exact stepped
  · rw [(sameSites_wake _ _).site?]
    exact stepped
  · exact stepped
  · exact stepped
  · rw [(sameSites_wakeWaiters _ _ _).site?]
    exact stepped
  · exact stepped

/-- When an alarm rings in the world, the errand that it takes on takes its first step at once,
and then the time of the alarm has come. In an office that is closed the alarm is stopped. -/
theorem site?_ring (h : world.site? office = some site) (id : Nat) :
    (world.ring office id = none ∧ site.move (.ring id) = site) ∨
      (∃ after errand, world.ring office id = some (after, .errand office errand) ∧
        (after.stepErrand office errand).1.site? office = some (site.move (.ring id))) ∨
      ∃ after, world.ring office id = some (after, .alarm office id) ∧
        after.ring office id = none ∧ after.site? office = some (site.move (.ring id)) := by
  obtain ⟨engine, found⟩ := site?_eq_some h
  simp only [ring, found, Site.move, Site.ring]
  cases rings : site.office.alarms.find? (·.id == id) with
  | none => exact .inl ⟨rfl, rfl⟩
  | some alarm =>
    by_cases opened : (site.office.silence (some id)).isOpen = true
    · refine .inr (.inl ⟨_, _, if_pos opened, ?_⟩)
      rw [site?_stepErrand (site?_setOffice found _)]
      dsimp only
      rw [if_pos opened, engine]
      rfl
    · have set := site?_setOffice found (site.office.silence (some id))
      have silent : (site.office.silence (some id)).alarms.find? (·.id == id) = none := by
        rw [List.find?_eq_none]
        intro other member same
        exact (Office.mem_silence.mp member).2 (congrArg some (beq_iff_eq.mp same).symm)
      refine .inr (.inr ⟨_, if_neg opened, ?_, ?_⟩)
      · simp only [(site?_eq_some set).2, silent]
      · dsimp only
        rw [set, if_neg opened, engine]

/-- A job goes on as long as its steps say so, and if each of them is a move, they make up a
schedule. -/
theorem exists_schedule_of_step {job : Job} {step : World → World × Turn} {m : Site.Move}
    (unfolds : ∀ fuel world, run (fuel + 1) world job =
      if (step world).2 = .goesOn then run fuel (step world).1 job else (step world).1)
    (moves : ∀ world site, world.site? office = some site →
      (step world).1.site? office = some (site.move m))
    (h : world.site? office = some site) (fuel : Nat) :
    ∃ schedule, (world.run fuel job).site? office = some (site.play schedule) := by
  induction fuel generalizing world site with
  | zero => exact ⟨[], h⟩
  | succ fuel ih =>
    have moved := moves world site h
    rw [unfolds]
    split
    · obtain ⟨schedule, later⟩ := ih moved
      exact ⟨m :: schedule, later⟩
    · exact ⟨[m], moved⟩

theorem run_errand (fuel : Nat) (world : World) (office id : Nat) :
    run (fuel + 1) world (.errand office id) =
      if (world.stepErrand office id).2 = .goesOn then
        run fuel (world.stepErrand office id).1 (.errand office id)
      else (world.stepErrand office id).1 := by
  rw [run]
  split <;> rename_i turn <;> rw [turn] <;> rfl

theorem run_branch (fuel : Nat) (world : World) (r id : Nat) :
    run (fuel + 1) world (.branch r id) =
      if (world.stepBranch r id).2 = .goesOn then
        run fuel (world.stepBranch r id).1 (.branch r id)
      else (world.stepBranch r id).1 := by
  rw [run]
  split <;> rename_i turn <;> rw [turn] <;> rfl

theorem exists_schedule_errand (h : world.site? office = some site) (fuel id : Nat) :
    ∃ schedule, (world.run fuel (.errand office id)).site? office = some (site.play schedule) :=
  exists_schedule_of_step (fun fuel world => run_errand fuel world office id)
    (fun _ _ there => site?_stepErrand there id) h fuel

/-- What a world lets a job of an office do is a schedule of the site. -/
theorem exists_schedule_run (h : world.site? office = some site) {job : Job}
    (own : job.IsOf office) (fuel : Nat) :
    ∃ schedule, (world.run (fuel + 2) job).site? office = some (site.play schedule) := by
  cases job with
  | errand other id =>
    obtain rfl : other = office := own
    exact exists_schedule_errand h (fuel + 2) id
  | branch r id =>
    exact exists_schedule_of_step (fun fuel world => run_branch fuel world r id)
      (fun _ _ there => site?_stepBranch there r id) h (fuel + 2)
  | cancel other id => exact own.elim
  | alarm other id =>
    obtain rfl : other = office := own
    rcases site?_ring h id with ⟨rings, _⟩ | ⟨after, errand, rings, rung⟩ |
      ⟨after, rings, silent, rung⟩
    · have stays : world.run (fuel + 2) (.alarm other id) = world := by simp only [run, rings]
      exact ⟨[], by rw [stays]; exact h⟩
    · have goes : world.run (fuel + 2) (.alarm other id) =
          after.run (fuel + 1) (.errand other errand) := by
        simp only [run, rings]
      rw [goes, run_errand]
      split
      · obtain ⟨schedule, later⟩ := exists_schedule_errand rung fuel errand
        exact ⟨.ring id :: schedule, later⟩
      · exact ⟨[.ring id], rung⟩
    · have stops : world.run (fuel + 2) (.alarm other id) = after := by
        simp only [run, rings, silent]
      exact ⟨[.ring id], stops ▸ rung⟩

end World

end DurableFlow
