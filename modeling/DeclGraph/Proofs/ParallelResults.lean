import DeclGraph.Proofs.SequentialBuild

/-!
What a build comes to. A build that returns a graph returns the one of all units, in whatever order the workers
came to their ends. Where a worker raised something the build raises it too, the first of the units counting.
Every build comes to an end.
-/

namespace DeclGraph

theorem Graph.filter_of_located {host : Host} {root : Document} {place : String}
    (located : GraphStore.locateRoot host root = .ok place) (graph : Graph) :
    filter host graph root = filter host graph (.text place) := by
  have given : root.isNull = false := by
    rw [GraphStore.locateRoot] at located
    split at located
    · cases located
    · next given => exact Bool.eq_false_iff.mpr given
  have again : host.locateValue (.text place) = .ok place :=
    Service.locateValue_of_located (Service.locateRoot_text (Service.canonical_of_locateRoot located))
  simp only [filter, given, Service.locateValue_of_located located, again]
  rfl

namespace Parallel

variable {job : Job} {tree : FileTree}

def Gives (job : Job) (tree : FileTree) (unit : UnitOperand) (results : List FileDependencies) : Prop :=
  ∀ world : World, world.tree = tree → ((job.service.examine job.host unit).outcome world).1 = .ok results

/-- The graph of the direct dependencies that are found in all units, filtered by the root. -/
def IsWhole (job : Job) (tree : FileTree) (graph : Graph) : Prop :=
  ∃ parts, List.Forall₂ (Gives job tree) job.units parts
    ∧ (Graph.ofDirect job.host parts.flatten >>= fun whole => Graph.filter job.host whole job.root) = .ok graph

/-- A build in the tree can return this graph. -/
def Returns (job : Job) (tree : FileTree) (graph : Graph) : Prop :=
  ∃ world events state, world.tree = tree ∧ Runs job world events state ∧ state.caller = .returned graph

theorem gives_iff {unit : UnitOperand} {results : List FileDependencies} :
    Gives job tree unit results ↔ Service.resultsOf job.host job.service tree unit = .ok results := by
  constructor
  · intro gives
    rcases examined : (job.service.examine job.host unit).outcome { tree } with ⟨result, after⟩
    have given := gives { tree } rfl
    rw [examined] at given
    exact (Service.examine_inv examined).1.trans given
  · rintro found world rfl
    rcases examined : (job.service.examine job.host unit).outcome world with ⟨result, after⟩
    exact (Service.examine_inv examined).1.symm.trans found

def Found (job : Job) (tree : FileTree) (result : FileDependencies) : Prop :=
  ∃ unit ∈ job.units, ∃ results, Service.resultsOf job.host job.service tree unit = .ok results ∧ result ∈ results

section Returning

variable {state : State} {graph : Graph}

theorem finished_of_passed (coherent : Coherent job tree state.toShared state.workers)
    (counted : state.workers.length = job.units.length) (passed : Passed state.workers job.units.length) :
    ∀ unit ∈ job.units, ∃ results ∈ state.collected,
      Service.resultsOf job.host job.service tree unit = .ok results := by
  have free : state.aborted = false := by
    rw [Bool.eq_false_iff]
    intro aborted
    obtain ⟨fault, listed⟩ := coherent.aborted aborted
    rw [← counted] at passed
    cases passed_all passed _ listed
  intro unit listed
  obtain ⟨number, bound, rfl⟩ := List.mem_iff_getElem.mp listed
  obtain ⟨worker, placed, well⟩ := passed number bound
  have fits := coherent.fits number _ worker (List.getElem?_eq_getElem bound) placed
  cases worker with
  | finished results => exact ⟨results, fits.2, fits.1⟩
  | skipped =>
    rw [Fits, free] at fits
    cases fits
  | _ => cases well

theorem mem_flatten_iff {lists : List (List FileDependencies)}
    (given : ∀ results ∈ lists, ∃ unit ∈ job.units,
      Service.resultsOf job.host job.service tree unit = .ok results)
    (each : ∀ unit ∈ job.units, ∃ results ∈ lists,
      Service.resultsOf job.host job.service tree unit = .ok results) (result : FileDependencies) :
    result ∈ lists.flatten ↔ Found job tree result := by
  rw [List.mem_flatten]
  constructor
  · rintro ⟨results, listed, member⟩
    obtain ⟨unit, asked, found⟩ := given results listed
    exact ⟨unit, asked, results, found, member⟩
  · rintro ⟨unit, asked, results, found, member⟩
    obtain ⟨others, listed, also⟩ := each unit asked
    cases found.symm.trans also
    exact ⟨results, listed, member⟩

theorem shows_of_returned (sound : Sound job tree state) (returned : state.caller = .returned graph) :
    ∃ place results, GraphStore.locateRoot job.host job.root = .ok place
      ∧ (∀ result, result ∈ results ↔ Found job tree result) ∧ Graph.ShowsBelow place results graph := by
  have phase := sound.phase
  rw [returned] at phase
  obtain ⟨counted, passed, place, located, assembled⟩ := phase
  obtain ⟨whole, given, shows⟩ := assemble_collected sound.coherent counted located
  cases assembled.symm.trans given
  refine ⟨place, _, located, ?_, shows⟩
  exact mem_flatten_iff (unit_of_collected sound.coherent counted) (finished_of_passed sound.coherent counted passed)

theorem whole_of_returned (sound : Sound job tree state) (returned : state.caller = .returned graph) :
    ∃ whole, IsWhole job tree whole ∧ graph.same whole = true := by
  obtain ⟨place, results, located, members, shows⟩ := shows_of_returned sound returned
  have phase := sound.phase
  rw [returned] at phase
  obtain ⟨counted, passed, _⟩ := phase
  obtain ⟨parts, pairs⟩ := exists_forall₂ fun unit asked =>
    (finished_of_passed sound.coherent counted passed unit asked).imp fun _ found => found.2
  have parted (result : FileDependencies) : result ∈ parts.flatten ↔ Found job tree result :=
    mem_flatten_iff (fun _ listed => exists_of_mem_right pairs listed) (fun _ asked => exists_of_mem_left pairs asked) result
  have canonical : ∀ result ∈ parts.flatten, Graph.CanonicalResult job.host result := by
    intro result member
    obtain ⟨unit, _, found, given, inside⟩ := (parted result).mp member
    exact Builder.canonical_of_there (Service.there_of_resultsOf given result inside)
  have fixed := Service.locateRoot_text (Service.canonical_of_locateRoot located)
  obtain ⟨whole, made, below⟩ := Graph.direct_showsBelow fixed canonical
  refine ⟨whole, ⟨parts, pairs.imp fun _ _ found => gives_iff.mpr found, ?_⟩, ?_⟩
  · simp only [Graph.filter_of_located located]
    exact made
  · apply Graph.same_of_showsBelow shows below
    intro result
    rw [members, parted]

theorem shows_of_returns (returns : Returns job tree graph) :
    ∃ place results, GraphStore.locateRoot job.host job.root = .ok place
      ∧ (∀ result, result ∈ results ↔ Found job tree result) ∧ Graph.ShowsBelow place results graph := by
  obtain ⟨world, events, state, rfl, runs, returned⟩ := returns
  exact shows_of_returned (sound_runs runs) returned

/-- Neither the order of the units counts nor how often one is given. -/
theorem same_of_returns {others : List UnitOperand} {other : Graph}
    (members : ∀ unit, unit ∈ job.units ↔ unit ∈ others) (returns : Returns job tree graph)
    (again : Returns { job with units := others } tree other) : graph.same other = true := by
  obtain ⟨place, results, located, found, shows⟩ := shows_of_returns returns
  obtain ⟨_, more, relocated, refound, below⟩ := shows_of_returns again
  cases located.symm.trans relocated
  apply Graph.same_of_showsBelow shows below
  intro result
  rw [found, refound, Found, Found]
  simp only [members]

theorem merge_of_returns {first second : List UnitOperand} {left right : Graph}
    (parted : ∀ unit, unit ∈ job.units ↔ unit ∈ first ∨ unit ∈ second) (returns : Returns job tree graph)
    (early : Returns { job with units := first } tree left) (late : Returns { job with units := second } tree right) :
    graph.same (left.merge right) = true := by
  obtain ⟨place, results, located, found, shows⟩ := shows_of_returns returns
  obtain ⟨_, ones, relocated, foundFirst, showsLeft⟩ := shows_of_returns early
  cases located.symm.trans relocated
  obtain ⟨_, others, relocated, foundSecond, showsRight⟩ := shows_of_returns late
  cases located.symm.trans relocated
  apply Graph.same_of_showsBelow shows (Graph.merge_showsBelow showsLeft showsRight)
  intro result
  rw [List.mem_append, found, foundFirst, foundSecond]
  simp only [Found, parted, or_and_right, exists_or]

end Returning

section Raising

variable {state : State}

theorem firstFault_of_passed (passed : Passed state.workers state.workers.length) : state.firstFault = none := by
  rw [State.firstFault, List.findSome?_eq_none_iff]
  intro worker listed
  have well := passed_all passed worker listed
  cases worker <;> first | rfl | cases well

theorem firstFault_of_fails {fault : Fault} (fails : Fails state.workers fault) : state.firstFault = some fault := by
  obtain ⟨number, passed, failed⟩ := fails
  obtain ⟨bound, same⟩ := List.getElem?_eq_some_iff.mp failed
  have split : state.workers = state.workers.take number ++ .failed fault :: state.workers.drop (number + 1) := by
    rw [← same, List.getElem_cons_drop, List.take_append_drop]
  have none : (state.workers.take number).findSome? Worker.fault? = none := by
    rw [List.findSome?_eq_none_iff]
    intro worker listed
    obtain ⟨other, less, rfl⟩ := List.mem_take_iff_getElem.mp listed
    obtain ⟨found, placed, well⟩ := passed other (by omega)
    rw [List.getElem?_eq_getElem (by omega)] at placed
    cases placed
    generalize state.workers[other] = worker at well
    cases worker <;> first | rfl | cases well
  rw [State.firstFault, split, List.findSome?_append, none]
  rfl

theorem over_outcome (sound : Sound job tree state) (closed : state.isOver = true) :
    (∃ graph, state.caller = .returned graph ∧ state.firstFault = none)
      ∨ ∃ fault, state.caller = .raised fault
        ∧ (state.firstFault = some fault
          ∨ (state.workers = [] ∧ Refused job state.toShared fault)) := by
  have phase := sound.phase
  rw [State.isOver] at closed
  split at closed
  · next graph returned =>
    rw [returned] at phase
    obtain ⟨counted, passed, _⟩ := phase
    rw [← counted] at passed
    exact Or.inl ⟨graph, returned, firstFault_of_passed passed⟩
  · next fault raised =>
    rw [raised] at phase
    obtain ⟨_, refused | ⟨_, fails⟩⟩ := phase
    · exact Or.inr ⟨fault, raised, Or.inr refused⟩
    · exact Or.inr ⟨fault, raised, Or.inl (firstFault_of_fails fails)⟩
  · cases closed
  · cases closed
  · cases closed
  · cases closed

theorem blames_of_fails (sound : Sound job tree state) (counted : state.workers.length = job.units.length)
    {fault : Fault} (fails : Fails state.workers fault) :
    ∃ unit ∈ job.units, Blames job tree state.world unit fault := by
  obtain ⟨number, _, failed⟩ := fails
  obtain ⟨bound, _⟩ := List.getElem?_eq_some_iff.mp failed
  rw [counted] at bound
  exact ⟨_, List.getElem_mem bound, (sound.coherent.fits number _ _ (List.getElem?_eq_getElem bound) failed).1⟩

/-- What is raised is the failure of a unit or of the first look at root and units, or else there was a request
to stop. -/
theorem reason_of_raised (sound : Sound job tree state) {fault : Fault} (raised : state.caller = .raised fault) :
    (fault = .cancelled ∧ job.service.number ∈ state.world.cancelled)
      ∨ Service.entry job.host job.root job.units tree = .error fault
      ∨ ∃ unit ∈ job.units, Service.resultsOf job.host job.service tree unit = .error fault := by
  have phase := sound.phase
  rw [raised] at phase
  obtain ⟨_, ⟨_, refused | requested⟩ | ⟨counted, fails⟩⟩ := phase
  · rw [sound.coherent.sameTree] at refused
    exact Or.inr (Or.inl refused)
  · exact Or.inl requested
  · obtain ⟨unit, asked, own | requested⟩ := blames_of_fails sound counted fails
    · exact Or.inr (Or.inr ⟨unit, asked, own⟩)
    · exact Or.inl requested

theorem requested_of_raised (sound : Sound job tree state) (never : job.service.builder.frontend.NeverCancels)
    (raised : state.caller = .raised .cancelled) : job.service.number ∈ state.world.cancelled := by
  rcases reason_of_raised sound raised with ⟨_, requested⟩ | refused | ⟨unit, _, failed⟩
  · exact requested
  · exact absurd refused (Service.uncancelled_entry _ _ _ _)
  · exact absurd failed (Service.uncancelled_resultsOf never _ _ _)

/-- Nothing keeps a build from returning a graph if all units give something and nobody asks to stop. -/
theorem returned_of_over {world : World} {events : List Event} (runs : Runs job world events state)
    (closed : state.isOver = true) {place : String}
    (entered : Service.entry job.host job.root job.units world.tree = .ok place)
    (found : ∀ unit ∈ job.units, ∃ results, Service.resultsOf job.host job.service world.tree unit = .ok results)
    (free : job.service.number ∉ world.cancelled) (left : .cancel ∉ events) :
    ∃ graph, state.caller = .returned graph := by
  have sound := sound_runs runs
  rcases over_outcome sound closed with ⟨graph, returned, _⟩ | ⟨fault, raised, _⟩
  · exact ⟨graph, returned⟩
  · exfalso
    rcases reason_of_raised sound raised with ⟨_, requested⟩ | refused | ⟨unit, asked, failed⟩
    · rcases cancelled_of_runs runs requested with early | made
      · exact free early
      · exact left made
    · cases entered.symm.trans refused
    · obtain ⟨results, given⟩ := found unit asked
      cases given.symm.trans failed

end Raising

section Ending

variable {state next : State} {event : Event}

theorem remaining_waiting (units : List UnitOperand) :
    Worker.allRemaining (units.map fun _ => .waiting) = 4 * units.length := by
  induction units with
  | nil => rfl
  | cons unit rest ih =>
    have one : Worker.allRemaining ((unit :: rest).map fun _ => .waiting) =
      4 + Worker.allRemaining (rest.map fun _ => .waiting) := rfl
    rw [one, ih, List.length_cons]
    omega

/-- Each step but a request to stop brings the build closer to its end. -/
theorem remaining_step (sound : Sound job tree state) (stepped : Step job state event next) :
    (event = .cancel ∧ next.remaining job.units.length = state.remaining job.units.length)
      ∨ next.remaining job.units.length < state.remaining job.units.length := by
  have phase := sound.phase
  cases stepped with
  | cancel => exact Or.inl ⟨rfl, rfl⟩
  | worker asked found place moved =>
    right
    exact Nat.add_lt_add_left (remaining_set found (remaining_of_work moved)) _
  | submit entered checked busy =>
    right
    rw [entered] at phase
    obtain ⟨_, unstarted, _⟩ := phase
    simp only [State.remaining, entered, unstarted, remaining_waiting, Caller.remaining]
    omega
  | next awaiting found passed =>
    right
    rw [awaiting] at phase
    obtain ⟨_, counted, _, _⟩ := phase
    obtain ⟨bound, _⟩ := List.getElem?_eq_some_iff.mp found
    simp [State.remaining, awaiting, Caller.remaining]
    omega
  | enter called => simp [State.remaining, called, Caller.remaining]
  | refuse called => simp [State.remaining, called, Caller.remaining]
  | stop entered => simp [State.remaining, entered, Caller.remaining]
  | nothing entered => simp [State.remaining, entered, Caller.remaining]
  | notice awaiting => simp [State.remaining, awaiting, Caller.remaining]
  | leave leaving => simp [State.remaining, leaving, Caller.remaining]
  | conclude awaiting => simp [State.remaining, awaiting, Caller.remaining]
  | spoil awaiting => simp [State.remaining, awaiting, Caller.remaining]

theorem remaining_runs {world : World} {events : List Event} (runs : Runs job world events state) :
    events.countP (· ≠ .cancel) + state.remaining job.units.length ≤ 5 * job.units.length + 4 := by
  induction runs with
  | start => simp [State.remaining, Caller.remaining, Worker.allRemaining]
  | @step events state next event before stepped ih =>
    rw [List.countP_append]
    rcases remaining_step (sound_runs before) stepped with ⟨rfl, same⟩ | less
    · rw [same]
      exact ih
    · have one : [event].countP (· ≠ .cancel) ≤ 1 := List.countP_le_length
      omega

theorem workers_pos (host : Host) (service : Service) (units : Int) : 0 < Service.workers host service units := by
  rw [Service.workers]
  omega

theorem exists_worker_step (counted : state.workers.length = job.units.length)
    (going : ∃ worker ∈ state.workers, worker.hasEnded = false) :
    ∃ number next, Step job state (.worker number) next := by
  have steps {worker : Worker} (listed : worker ∈ state.workers) (unended : worker.hasEnded = false)
      (place : worker = .waiting →
        (state.workers.countP Worker.isActive : Int) < Service.workers job.host job.service job.units.length) :
      ∃ number next, Step job state (.worker number) next := by
    obtain ⟨number, found⟩ := List.mem_iff_getElem?.mp listed
    obtain ⟨bound, _⟩ := List.getElem?_eq_some_iff.mp found
    rw [counted] at bound
    obtain ⟨shared, after, moved⟩ := exists_work job job.units[number] state.toShared unended
    exact ⟨number, _, .worker (List.getElem?_eq_getElem bound) found place moved⟩
  -- A worker at work needs no place; if none is at work, there is a place for one that waits.
  by_cases active : ∃ worker ∈ state.workers, worker.isActive = true
  · obtain ⟨worker, listed, busy⟩ := active
    apply steps listed
    · cases worker <;> first | rfl | cases busy
    · rintro rfl
      cases busy
  · obtain ⟨worker, listed, unended⟩ := going
    apply steps listed unended
    intro _
    have none : state.workers.countP Worker.isActive = 0 := by
      rw [List.countP_eq_zero]
      exact fun worker member busy => active ⟨worker, member, busy⟩
    rw [none]
    exact workers_pos _ _ _

theorem exists_step (sound : Sound job tree state) (going : state.isOver = false) :
    ∃ event next, event ≠ .cancel ∧ Step job state event next := by
  have phase := sound.phase
  cases progress : state.caller with
  | called =>
    rcases entered : (Service.enter job.host job.root job.units).outcome state.world with ⟨fault | place, world⟩
    · exact ⟨.caller, _, nofun, .refuse progress entered⟩
    · exact ⟨.caller, _, nofun, .enter progress entered⟩
  | entered place =>
    rcases checked : job.service.checkCancelled.outcome state.world with ⟨fault | ⟨⟩, world⟩
    · exact ⟨.caller, _, nofun, .stop progress checked⟩
    · by_cases idle : job.units = []
      · exact ⟨.caller, _, nofun, .nothing progress checked idle⟩
      · exact ⟨.caller, _, nofun, .submit progress checked idle⟩
  | awaiting place number =>
    rw [progress] at phase
    obtain ⟨_, counted, bound, _⟩ := phase
    rcases Nat.lt_or_eq_of_le bound with less | rfl
    · -- Either the worker that is waited for has ended and the caller goes on, or some worker has a step to take.
      rw [← counted] at less
      have found := List.getElem?_eq_getElem less
      by_cases unended : state.workers[number].hasEnded = false
      · obtain ⟨other, next, stepped⟩ := exists_worker_step counted ⟨_, List.getElem_mem less, unended⟩
        exact ⟨.worker other, next, nofun, stepped⟩
      · by_cases passed : state.workers[number].hasPassed = true
        · exact ⟨.caller, _, nofun, .next progress found passed⟩
        · obtain ⟨fault, failed⟩ : ∃ fault, state.workers[number] = .failed fault := by
            generalize state.workers[number] = worker at unended passed
            cases worker <;> simp_all [Worker.hasEnded, Worker.hasPassed]
          rw [failed] at found
          exact ⟨.caller, _, nofun, .notice progress found⟩
    · rcases concluded : (Service.conclude job.host place job.units state.collected).outcome state.world
        with ⟨fault | graph, world⟩
      · exact ⟨.caller, _, nofun, .spoil progress concluded⟩
      · exact ⟨.caller, _, nofun, .conclude progress concluded⟩
  | leaving fault =>
    rw [progress] at phase
    by_cases ended : ∀ worker ∈ state.workers, worker.hasEnded = true
    · exact ⟨.caller, _, nofun, .leave progress ended⟩
    · simp only [not_forall, Bool.not_eq_true] at ended
      obtain ⟨worker, listed, unended⟩ := ended
      obtain ⟨other, next, stepped⟩ := exists_worker_step phase.1 ⟨worker, listed, unended⟩
      exact ⟨.worker other, next, nofun, stepped⟩
  | returned graph =>
    rw [State.isOver, progress] at going
    cases going
  | raised fault =>
    rw [State.isOver, progress] at going
    cases going

end Ending

theorem isOver_of_ended {state : State} {outcome : Except Fault Graph} (ended : state.caller = .ended outcome) :
    state.isOver = true := by
  rw [State.isOver, ended]
  cases outcome <;> rfl

theorem returns_of_found {world : World} {place : String}
    (entered : Service.entry job.host job.root job.units world.tree = .ok place)
    (found : ∀ unit ∈ job.units, ∃ results, Service.resultsOf job.host job.service world.tree unit = .ok results)
    (free : job.service.number ∉ world.cancelled) : ∃ graph, Returns job world.tree graph := by
  obtain ⟨state, ⟨events, left, runs⟩, outcome, _, ended⟩ := reaches_build job world
  obtain ⟨graph, returned⟩ := returned_of_over runs (isOver_of_ended ended) entered found free left
  exact ⟨graph, world, events, state, rfl, runs, returned⟩

/-- Building with workers is all or nothing, in whatever order workers and caller take their steps and whenever
the service is asked to stop. A graph that is returned is that of all units. If a worker raised something no graph
is returned, and in the end the build raises what the first of these units raised. Cancellations are raised on
request only. A build that is not over can go on, and it takes a bounded number of steps. Building parts of the
units and merging is building them all, neither the order of the units nor repetitions count, and taking one unit
after another is one of the orders. -/
theorem build_all_or_nothing (job : Job) :
    (∀ (world : World) (events : List Event) (state : State), Runs job world events state →
      (∀ graph, state.caller = .returned graph → ∃ whole, IsWhole job world.tree whole ∧ graph.same whole = true)
      ∧ (∀ fault, state.firstFault = some fault → (∀ graph, state.caller ≠ .returned graph)
        ∧ (state.isOver = true → state.caller = .raised fault))
      ∧ (job.service.builder.frontend.NeverCancels → state.caller = .raised .cancelled →
        job.service.number ∈ world.cancelled ∨ .cancel ∈ events)
      ∧ (state.isOver = false → ∃ event next, event ≠ .cancel ∧ Step job state event next)
      ∧ events.countP (· ≠ .cancel) ≤ 5 * job.units.length + 4)
    ∧ (∀ (tree : FileTree) (first second : List UnitOperand) (graph left right : Graph),
      Returns { job with units := first ++ second } tree graph → Returns { job with units := first } tree left →
      Returns { job with units := second } tree right → graph.same (left.merge right) = true)
    ∧ (∀ (tree : FileTree) (others : List UnitOperand) (graph other : Graph),
      (∀ unit, unit ∈ job.units ↔ unit ∈ others) → Returns job tree graph →
      Returns { job with units := others } tree other → graph.same other = true)
    ∧ ∀ world : World, ∃ events state outcome, Runs job world events state
      ∧ (job.service.build job.host job.root (some job.units)).outcome world = (outcome, state.world)
      ∧ state.caller = .ended outcome := by
  refine ⟨?_, ?_, ?_, ?_⟩
  · intro world events state runs
    have sound := sound_runs runs
    refine ⟨fun graph returned => whole_of_returned sound returned, ?_, ?_, exists_step sound, ?_⟩
    · intro fault first
      constructor
      · intro graph returned
        have closed : state.isOver = true := by rw [State.isOver, returned]
        rcases over_outcome sound closed with ⟨_, _, none⟩ | ⟨_, raised, _⟩
        · rw [none] at first
          cases first
        · cases returned.symm.trans raised
      · intro closed
        rcases over_outcome sound closed with ⟨_, _, none⟩ | ⟨other, raised, same | ⟨idle, _⟩⟩
        · rw [none] at first
          cases first
        · cases same.symm.trans first
          exact raised
        · rw [State.firstFault, idle] at first
          cases first
    · intro never raised
      exact cancelled_of_runs runs (requested_of_raised sound never raised)
    · exact Nat.le_of_add_right_le (remaining_runs runs)
  · intro tree first second graph left right returns early late
    exact merge_of_returns (fun unit => List.mem_append) returns early late
  · intro tree others graph other members returns again
    exact same_of_returns members returns again
  · intro world
    obtain ⟨state, ⟨events, _, runs⟩, outcome, ran, ended⟩ := reaches_build job world
    exact ⟨events, state, outcome, runs, ran, ended⟩

def sampleJob : Job where
  host := Saved.sampleHost
  service := { Service.sampleService with builder := ⟨Builder.sampleFrontend, [], none⟩ }
  root := .text "."
  units := [.unit Builder.sampleUnit, .unit Builder.sampleUnit]

theorem neverCancels_sampleFrontend : Builder.sampleFrontend.NeverCancels :=
  ⟨fun _ => nofun, fun _ _ => nofun, fun _ _ => nofun, fun _ _ => nofun, fun _ => nofun⟩

theorem found_sampleUnit : ∃ results,
    Service.resultsOf sampleJob.host sampleJob.service Saved.sampleTree (.unit Builder.sampleUnit) = .ok results := by
  let context : Builder.Context :=
    ⟨⟨Builder.sampleFrontend, [], none⟩, Saved.sampleHost, Saved.sampleTree, Builder.sampleUnit, FileSet.ofList []⟩
  obtain ⟨progress, ran⟩ : ∃ progress, context.analyze ["a"] = .ok progress := by
    apply (Builder.Context.analyze_isOk_iff Builder.wellTyped_sampleTable Builder.distinctIds_sampleTable
      Builder.answers_sampleFrontend).mpr
    intro _ _ _ _ _ target _
    exact Builder.externality_sampleTable target
  refine ⟨progress.results, ?_⟩
  exact bind_eq_ok.mpr ⟨_, rfl, bind_eq_ok.mpr ⟨_, rfl, bind_eq_ok.mpr ⟨progress, ran, rfl⟩⟩⟩

theorem returns_sampleJob {units : List UnitOperand} (only : ∀ unit ∈ units, unit = .unit Builder.sampleUnit)
    (entered : (Service.entry Saved.sampleHost (.text ".") units Saved.sampleTree).toOption = some "/w") :
    ∃ graph, Returns { sampleJob with units } Saved.sampleTree graph := by
  have found : ∀ unit ∈ units, ∃ results,
      Service.resultsOf sampleJob.host sampleJob.service Saved.sampleTree unit = .ok results := by
    intro unit listed
    rw [only unit listed]
    exact found_sampleUnit
  have returns : ∃ graph, Returns { sampleJob with units } Saved.sampleWorld.tree graph :=
    returns_of_found (eq_ok_of_toOption entered) found List.not_mem_nil
  exact returns

def brokenJob : Job := { sampleJob with units := [.unit Builder.sampleUnit, .other (.nat 1)] }

/-- Builds that return, one with a unit that fails, and one that was asked to stop before it started. -/
theorem build_all_or_nothing_sample :
    (∃ graph left right whole, Returns sampleJob Saved.sampleTree graph ∧ IsWhole sampleJob Saved.sampleTree whole
      ∧ graph.same whole = true ∧ graph.same (left.merge right) = true ∧ graph.same left = true)
    ∧ (∃ events state fault, Runs brokenJob Saved.sampleWorld events state ∧ state.firstFault = some fault
      ∧ state.caller = .raised fault)
    ∧ ∃ events state, Runs sampleJob Saved.sampleWorld events state ∧ state.caller = .raised .cancelled
      ∧ (sampleJob.service.number ∈ Saved.sampleWorld.cancelled ∨ .cancel ∈ events) := by
  refine ⟨?_, ?_, ?_⟩
  · obtain ⟨graph, returns⟩ : ∃ graph, Returns sampleJob Saved.sampleTree graph :=
      returns_sampleJob (by simp) (by decide +kernel)
    obtain ⟨half, again⟩ : ∃ graph, Returns { sampleJob with units := [.unit Builder.sampleUnit] } Saved.sampleTree graph :=
      returns_sampleJob (by simp) (by decide +kernel)
    obtain ⟨runs, united, permuted, _⟩ := build_all_or_nothing sampleJob
    obtain ⟨world, events, state, same, ran, returned⟩ := returns
    obtain ⟨whole, isWhole, equal⟩ := (runs world events state ran).1 graph returned
    rw [same] at isWhole
    have returns : Returns sampleJob Saved.sampleTree graph := ⟨world, events, state, same, ran, returned⟩
    have merged := united _ [.unit Builder.sampleUnit] [.unit Builder.sampleUnit] _ _ _ returns again again
    exact ⟨graph, half, half, whole, returns, isWhole, equal, merged,
      permuted _ _ _ _ (by simp [sampleJob]) returns again⟩
  · obtain ⟨state, ⟨events, left, ran⟩, outcome, _, ended⟩ := reaches_build brokenJob Saved.sampleWorld
    have closed := isOver_of_ended ended
    obtain ⟨runs, _⟩ := build_all_or_nothing brokenJob
    obtain ⟨returning, raising, _⟩ := runs _ events state ran
    have entered : Service.entry brokenJob.host brokenJob.root brokenJob.units Saved.sampleTree = .ok "/w" :=
      eq_ok_of_toOption (by decide +kernel)
    rcases over_outcome (sound_runs ran) closed with ⟨graph, returned, _⟩ | ⟨fault, _, first | ⟨_, refused | ⟨_, requested⟩⟩⟩
    · -- The number gives nothing, so no graph is that of all units.
      obtain ⟨whole, ⟨parts, gives, _⟩, _⟩ := returning graph returned
      obtain ⟨results, _, given⟩ := exists_of_mem_left gives (List.mem_cons_of_mem _ List.mem_cons_self)
      cases gives_iff.mp given
    · exact ⟨events, state, fault, ran, first, (raising fault first).2 closed⟩
    · rw [(sound_runs ran).coherent.sameTree] at refused
      cases entered.symm.trans refused
    · rcases cancelled_of_runs ran requested with early | made
      · cases early
      · exact absurd made left
  · have entered (world : World) (same : world.tree = Saved.sampleTree) :
        (Service.enter sampleJob.host sampleJob.root sampleJob.units).outcome world = (.ok "/w", world) := by
      have found : Service.entry sampleJob.host sampleJob.root sampleJob.units Saved.sampleTree = .ok "/w" :=
        eq_ok_of_toOption (by decide +kernel)
      rw [Service.enter_outcome, same, found]
    have asked : Runs sampleJob Saved.sampleWorld ([] ++ [.cancel]) _ := Runs.start.step .cancel
    have inside := asked.step (.enter rfl (entered _ rfl))
    have stopped := inside.step (.stop rfl (Service.checkCancelled_outcome _ _))
    obtain ⟨runs, _⟩ := build_all_or_nothing sampleJob
    exact ⟨_, _, stopped, rfl, (runs _ _ _ stopped).2.2.1 neverCancels_sampleFrontend rfl⟩

end Parallel

end DeclGraph
