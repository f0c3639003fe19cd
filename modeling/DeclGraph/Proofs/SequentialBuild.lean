import DeclGraph.Proofs.ParallelRuns

/-!
Building one unit after another is one of the orders in which workers and caller can take their steps. The
first unit that fails makes the workers after it end without looking into their units.
-/

namespace DeclGraph.Parallel

open Run

variable {job : Job} {start : World}

def Reaches (job : Job) (start : World) (state : State) : Prop := ∃ events, .cancel ∉ events ∧ Runs job start events state

theorem reaches_worker {state next : State} {number : Nat} (reached : Reaches job start state)
    (stepped : Step job state (.worker number) next) : Reaches job start next := by
  obtain ⟨events, ordinary, runs⟩ := reached
  exact ⟨_, by simp [ordinary], runs.step stepped⟩

theorem reaches_caller {state next : State} (reached : Reaches job start state)
    (stepped : Step job state .caller next) : Reaches job start next := by
  obtain ⟨events, ordinary, runs⟩ := reached
  exact ⟨_, by simp [ordinary], runs.step stepped⟩

section OneWorker

variable {shared next : Shared} {head tail : List Worker} {caller : Caller} {unit : UnitOperand}

theorem reaches_work (asked : job.units[head.length]? = some unit)
    (quiet : ∀ worker ∈ head ++ tail, worker.isActive = false) {before after : Worker}
    (reached : Reaches job start ⟨shared, head ++ before :: tail, caller⟩)
    (moved : Work job unit shared before next after) : Reaches job start ⟨next, head ++ after :: tail, caller⟩ := by
  have found : (head ++ before :: tail)[head.length]? = some before := by simp
  have placed : (head ++ before :: tail).set head.length after = head ++ after :: tail := by simp
  have idle (waits : before = .waiting) : (((head ++ before :: tail).countP Worker.isActive : Nat) : Int) <
      Service.workers job.host job.service job.units.length := by
    have none : (head ++ before :: tail).countP Worker.isActive = 0 := by
      rw [List.countP_eq_zero]
      intro worker listed
      rw [Bool.not_eq_true]
      rcases List.mem_append.mp listed with early | late
      · exact quiet worker (List.mem_append_left _ early)
      · rcases List.mem_cons.mp late with rfl | later
        · rw [waits]
          rfl
        · exact quiet worker (List.mem_append_right _ later)
    rw [none, Service.workers]
    omega
  have stepped : Step job ⟨shared, head ++ before :: tail, caller⟩ (.worker head.length) _ :=
    .worker asked found idle moved
  rw [placed] at stepped
  exact reaches_worker reached stepped

variable {world after : World} {collected : List (List FileDependencies)}

theorem reaches_finished (asked : job.units[head.length]? = some unit)
    (quiet : ∀ worker ∈ head ++ tail, worker.isActive = false) {results : List FileDependencies}
    (ran : (job.service.analyzeUnit job.host unit).outcome world = (.ok results, after))
    (reached : Reaches job start ⟨⟨world, false, collected⟩, head ++ .waiting :: tail, caller⟩) :
    Reaches job start ⟨⟨after, false, collected ++ [results]⟩, head ++ .finished results :: tail, caller⟩ := by
  rw [Service.analyzeUnit_eq] at ran
  obtain ⟨_, middle, checked, examined⟩ := outcome_bind_eq_ok.mp ran
  have cleared := reaches_work asked quiet reached (.clear checked)
  have analysing := reaches_work asked quiet cleared (.proceed rfl)
  have holding := reaches_work asked quiet analysing (.find examined)
  exact reaches_work asked quiet holding .append

theorem reaches_failed (asked : job.units[head.length]? = some unit)
    (quiet : ∀ worker ∈ head ++ tail, worker.isActive = false) {fault : Fault}
    (ran : (job.service.analyzeUnit job.host unit).outcome world = (.error fault, after))
    (reached : Reaches job start ⟨⟨world, false, collected⟩, head ++ .waiting :: tail, caller⟩) :
    Reaches job start ⟨⟨after, true, collected⟩, head ++ .failed fault :: tail, caller⟩ := by
  rw [Service.analyzeUnit_eq] at ran
  rcases outcome_bind_eq_error.mp ran with stopped | ⟨_, middle, checked, examined⟩
  · exact reaches_work asked quiet (reaches_work asked quiet reached (.stop stopped)) .abort
  · have cleared := reaches_work asked quiet reached (.clear checked)
    have analysing := reaches_work asked quiet cleared (.proceed rfl)
    have raising := reaches_work asked quiet analysing (.miss examined)
    exact reaches_work asked quiet raising .abort

theorem reaches_ended (asked : job.units[head.length]? = some unit)
    (quiet : ∀ worker ∈ head ++ tail, worker.isActive = false)
    (reached : Reaches job start ⟨⟨world, true, collected⟩, head ++ .waiting :: tail, caller⟩) :
    ∃ last : Worker, last.hasEnded = true
      ∧ Reaches job start ⟨⟨world, true, collected⟩, head ++ last :: tail, caller⟩ := by
  have checked := Service.checkCancelled_outcome job.service world
  split at checked
  · have raising := reaches_work asked quiet reached (.stop checked)
    exact ⟨_, rfl, reaches_work asked quiet raising .abort⟩
  · have cleared := reaches_work asked quiet reached (.clear checked)
    exact ⟨_, rfl, reaches_work asked quiet cleared (.skip rfl)⟩

end OneWorker

def waitingFor (units : List UnitOperand) : List Worker := units.map fun _ => .waiting

theorem isActive_of_hasEnded {worker : Worker} (ended : worker.hasEnded = true) : worker.isActive = false := by
  cases worker <;> first | rfl | cases ended

theorem quiet_waitingFor {head : List Worker} {units : List UnitOperand}
    (ended : ∀ worker ∈ head, worker.hasEnded = true) :
    ∀ worker ∈ head ++ waitingFor units, worker.isActive = false := by
  intro worker listed
  rcases List.mem_append.mp listed with early | late
  · exact isActive_of_hasEnded (ended worker early)
  · obtain ⟨unit, _, rfl⟩ := List.mem_map.mp late
    rfl

theorem asked_of_parted {done rest : List UnitOperand} {unit : UnitOperand} {head : List Worker}
    (parted : job.units = done ++ unit :: rest) (counted : head.length = done.length) :
    job.units[head.length]? = some unit := by
  rw [parted, counted]
  simp

theorem ended_snoc {head : List Worker} {last : Worker} (ended : ∀ worker ∈ head, worker.hasEnded = true)
    (settled : last.hasEnded = true) : ∀ worker ∈ head ++ [last], worker.hasEnded = true := by
  intro worker listed
  rcases List.mem_append.mp listed with early | late
  · exact ended worker early
  · cases List.mem_singleton.mp late
    exact settled

theorem reaches_raised {done rest : List UnitOperand} {head : List Worker} {world : World}
    {collected : List (List FileDependencies)} {fault : Fault} (parted : job.units = done ++ rest)
    (counted : head.length = done.length) (ended : ∀ worker ∈ head, worker.hasEnded = true)
    (reached : Reaches job start ⟨⟨world, true, collected⟩, head ++ waitingFor rest, .leaving fault⟩) :
    ∃ workers, Reaches job start ⟨⟨world, true, collected⟩, workers, .raised fault⟩ := by
  -- One worker after another ends; `head` holds those that have.
  induction rest generalizing done head with
  | nil =>
    refine ⟨_, reaches_caller reached (.leave rfl ?_)⟩
    intro worker listed
    rw [waitingFor, List.map_nil, List.append_nil] at listed
    exact ended worker listed
  | cons unit rest ih =>
    obtain ⟨last, settled, later⟩ := reaches_ended (asked_of_parted parted counted) (quiet_waitingFor ended) reached
    have reparted : job.units = (done ++ [unit]) ++ rest := by simp [parted]
    have recounted : (head ++ [last]).length = (done ++ [unit]).length := by simp [counted]
    exact ih reparted recounted (ended_snoc ended settled) (by simpa using later)

def Caller.ended : Except Fault Graph → Caller
  | .ok graph => .returned graph
  | .error fault => .raised fault

/-- The caller and the workers of the units done so far, each of which gave its part. -/
def Between (place : String) (world : World) (parts : List (List FileDependencies)) (rest : List UnitOperand) : State :=
  ⟨⟨world, false, parts⟩, parts.map .finished ++ waitingFor rest, .awaiting place parts.length⟩

theorem ended_finished (parts : List (List FileDependencies)) :
    ∀ worker ∈ parts.map Worker.finished, worker.hasEnded = true := by
  intro worker listed
  obtain ⟨results, _, rfl⟩ := List.mem_map.mp listed
  rfl

def Continues (job : Job) (start : World) (place : String) (parts : List (List FileDependencies)) (after : World) :
    Except Fault (List (List FileDependencies)) → Prop
  | .ok more => Reaches job start (Between place after (parts ++ more) []) ∧ (parts ++ more).length = job.units.length
  | .error fault => ∃ collected workers, Reaches job start ⟨⟨after, true, collected⟩, workers, .raised fault⟩

/-- The units that are left are analysed one by one, until one of them fails. -/
theorem reaches_mapM {place : String} {world after : World} {done rest : List UnitOperand}
    {parts : List (List FileDependencies)} (parted : job.units = done ++ rest) (counted : parts.length = done.length)
    {outcome : Except Fault (List (List FileDependencies))}
    (ran : (rest.mapM (job.service.analyzeUnit job.host)).outcome world = (outcome, after))
    (reached : Reaches job start (Between place world parts rest)) :
    Continues job start place parts after outcome := by
  -- The caller has seen the workers of the units before `rest`, so that it waits for the first of them.
  induction rest generalizing world done parts outcome with
  | nil =>
    cases ran
    show Reaches job start (Between place after (parts ++ []) []) ∧ (parts ++ []).length = job.units.length
    rw [parted, List.append_nil, List.append_nil]
    exact ⟨reached, counted⟩
  | cons unit rest ih =>
    have asked : job.units[(parts.map Worker.finished).length]? = some unit :=
      asked_of_parted parted (by simpa using counted)
    have quiet : ∀ worker ∈ parts.map Worker.finished ++ waitingFor rest, worker.isActive = false :=
      quiet_waitingFor (ended_finished parts)
    have reparted : job.units = (done ++ [unit]) ++ rest := by simp [parted]
    rw [List.mapM_cons, outcome_bind] at ran
    rcases first : (job.service.analyzeUnit job.host unit).outcome world with ⟨fault | results, middle⟩
    · rw [first] at ran
      cases ran
      have failed := reaches_failed asked quiet first reached
      have found : (parts.map Worker.finished ++ .failed fault :: waitingFor rest)[parts.length]? =
          some (.failed fault) := by simp
      have leaving := reaches_caller failed (.notice rfl found)
      have recounted : (parts.map Worker.finished ++ [Worker.failed fault]).length = (done ++ [unit]).length := by
        simp [counted]
      obtain ⟨workers, raised⟩ := reaches_raised reparted recounted (ended_snoc (ended_finished parts) rfl)
        (by simpa using leaving)
      exact ⟨_, workers, raised⟩
    · rw [first] at ran
      have finished := reaches_finished asked quiet first reached
      have found : (parts.map Worker.finished ++ .finished results :: waitingFor rest)[parts.length]? =
          some (.finished results) := by simp
      have next := reaches_caller finished (.next rfl found rfl)
      have between : Reaches job start (Between place middle (parts ++ [results]) rest) := by
        simpa [Between] using next
      have recounted : (parts ++ [results]).length = (done ++ [unit]).length := by simp [counted]
      simp only [outcome_bind] at ran
      rcases later : (rest.mapM (job.service.analyzeUnit job.host)).outcome middle with ⟨fault | others, last⟩
      · rw [later] at ran
        cases ran
        exact ih reparted recounted later between
      · rw [later] at ran
        cases ran
        have ended := ih reparted recounted later between
        simpa [Continues] using ended

/-- A build that takes the units one after another is one of the builds with workers. -/
theorem reaches_build (job : Job) (world : World) :
    ∃ state, Reaches job world state ∧ ∃ outcome,
      (job.service.build job.host job.root (some job.units)).outcome world = (outcome, state.world)
        ∧ state.caller = .ended outcome := by
  have started : Reaches job world { world } := ⟨[], List.not_mem_nil, .start⟩
  rw [Service.build_eq, outcome_bind]
  rcases entered : (Service.enter job.host job.root job.units).outcome world with ⟨fault | place, middle⟩
  · exact ⟨_, reaches_caller started (.refuse rfl entered), .error fault, rfl, rfl⟩
  · have inside := reaches_caller started (.enter rfl entered)
    simp only [outcome_bind]
    rcases checked : job.service.checkCancelled.outcome middle with ⟨fault | ⟨⟩, later⟩
    · exact ⟨_, reaches_caller inside (.stop rfl checked), .error fault, rfl, rfl⟩
    · by_cases idle : job.units = []
      · refine ⟨_, reaches_caller inside (.nothing rfl checked idle), .ok Graph.empty, ?_, rfl⟩
        simp [idle, outcome_pure]
      · have between := reaches_caller inside (.submit rfl checked idle)
        have busy : ¬job.units.isEmpty = true := by rwa [List.isEmpty_iff]
        have parted : job.units = [] ++ job.units := rfl
        have counted : ([] : List (List FileDependencies)).length = ([] : List UnitOperand).length := rfl
        simp only [if_neg busy, outcome_bind]
        rcases ran : (job.units.mapM (job.service.analyzeUnit job.host)).outcome later with ⟨fault | parts, last⟩
        · obtain ⟨collected, workers, raised⟩ := reaches_mapM parted counted ran between
          exact ⟨_, raised, .error fault, rfl, rfl⟩
        · obtain ⟨analysed, counted⟩ := reaches_mapM parted counted ran between
          rw [List.nil_append] at analysed counted
          have awaiting : (Between place last parts []).caller = .awaiting place job.units.length := by
            rw [Between, counted]
          simp only
          rcases concluded : (Service.conclude job.host place job.units parts).outcome last with ⟨fault | graph, final⟩
          · exact ⟨_, reaches_caller analysed (.spoil awaiting concluded), .error fault, rfl, rfl⟩
          · exact ⟨_, reaches_caller analysed (.conclude awaiting concluded), .ok graph, rfl, rfl⟩

end DeclGraph.Parallel
