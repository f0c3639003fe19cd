import DeclGraph.Proofs.ParallelBuild

/-!
What holds whenever a build is interrupted. Workers leave the file tree as it is, so what each of them finds is
what its unit gives in that tree. The common list holds just what the finished workers found, a worker is passed
over only if another one failed, and the caller raises only what the first failing worker in the order of the
units raised.
-/

namespace DeclGraph

open Run

namespace Service

variable {host : Host} {service : Service}

def entry (host : Host) (root : Document) (units : List UnitOperand) (tree : FileTree) : Except Fault String :=
  GraphStore.locateRoot host root >>= fun place =>
    if !tree.isDirectory place then .error (.rootMissing root)
    else if units.any UnitOperand.isNull then .error (.absentMember "units")
    else .ok place

theorem enter_outcome (host : Host) (root : Document) (units : List UnitOperand) (world : World) :
    (enter host root units).outcome world = (entry host root units world.tree, world) := by
  rw [enter, locateRoot, entry]
  simp only [outcome_bind, outcome_ofExcept, outcome_tree]
  cases GraphStore.locateRoot host root with
  | error fault => rfl
  | ok place =>
    simp only [bind, Except.bind]
    by_cases directory : world.tree.isDirectory place = true
    · by_cases null : units.any UnitOperand.isNull = true
      · simp [directory, null, outcome_pure, outcome_throw]
      · simp [directory, null, outcome_pure]
    · simp [directory, outcome_throw]

theorem uncancelled_entry (host : Host) (root : Document) (units : List UnitOperand) (tree : FileTree) :
    Uncancelled (entry host root units tree) := by
  apply uncancelled_bind
  · rw [GraphStore.locateRoot]
    split
    · exact uncancelled_error (by simp)
    · exact Host.uncancelled_locateValue host root
  · intro place
    split
    · exact uncancelled_error (by simp)
    · split
      · exact uncancelled_error (by simp)
      · exact uncancelled_ok place

theorem locateRoot_of_entry {root : Document} {units : List UnitOperand} {tree : FileTree} {place : String}
    (entered : entry host root units tree = .ok place) : GraphStore.locateRoot host root = .ok place := by
  obtain ⟨found, located, rest⟩ := bind_eq_ok.mp entered
  split at rest
  · cases rest
  · split at rest
    · cases rest
    · cases rest
      exact located

theorem conclude_inv {root : String} {units : List UnitOperand} {parts : List (List FileDependencies)}
    {world after : World} {result : Except Fault Graph}
    (concluded : (conclude host root units parts).outcome world = (result, after)) :
    assemble host root parts = result ∧ ∃ journal, after = { world with journal } := by
  rw [conclude, outcome_bind, outcome_ofExcept] at concluded
  cases assembled : assemble host root parts with
  | error fault =>
    rw [assembled] at concluded
    obtain ⟨given, same⟩ := Prod.mk.inj concluded
    exact ⟨given, _, same.symm⟩
  | ok graph =>
    rw [assembled] at concluded
    obtain ⟨given, same⟩ := Prod.mk.inj concluded
    exact ⟨given, _, same.symm⟩

end Service

namespace Parallel

variable {job : Job} {tree : FileTree}

/-- A unit is to blame for a failure, or the request to stop is. -/
def Blames (job : Job) (tree : FileTree) (world : World) (unit : UnitOperand) (fault : Fault) : Prop :=
  Service.resultsOf job.host job.service tree unit = .error fault
    ∨ (fault = .cancelled ∧ job.service.number ∈ world.cancelled)

/-- How far a worker is, is borne out by its unit and by what is shared. -/
def Fits (job : Job) (tree : FileTree) (shared : Shared) (unit : UnitOperand) : Worker → Prop
  | .waiting | .cleared | .analysing => True
  | .holding results => Service.resultsOf job.host job.service tree unit = .ok results
  | .raising fault => Blames job tree shared.world unit fault
  | .skipped => shared.aborted = true
  | .finished results =>
    Service.resultsOf job.host job.service tree unit = .ok results ∧ results ∈ shared.collected
  | .failed fault => Blames job tree shared.world unit fault ∧ shared.aborted = true

/-- Nothing that is shared is taken back. -/
structure Leads (job : Job) (before after : Shared) : Prop where
  tree : after.world.tree = before.world.tree
  cancelled : job.service.number ∈ before.world.cancelled → job.service.number ∈ after.world.cancelled
  aborted : before.aborted = true → after.aborted = true
  collected : ∀ results ∈ before.collected, results ∈ after.collected

theorem fits_leads {before after : Shared} (leads : Leads job before after) {unit : UnitOperand} {worker : Worker}
    (fits : Fits job tree before unit worker) : Fits job tree after unit worker := by
  have blames {fault : Fault} (blamed : Blames job tree before.world unit fault) :
      Blames job tree after.world unit fault := by
    rcases blamed with own | ⟨same, requested⟩
    · exact Or.inl own
    · exact Or.inr ⟨same, leads.cancelled requested⟩
  cases worker with
  | waiting => trivial
  | cleared => trivial
  | analysing => trivial
  | holding results => exact fits
  | raising fault => exact blames fits
  | skipped => exact leads.aborted fits
  | finished results => exact ⟨fits.1, leads.collected results fits.2⟩
  | failed fault => exact ⟨blames fits.1, leads.aborted fits.2⟩

section Working

variable {unit : UnitOperand} {before after : Worker} {shared next : Shared}

theorem world_of_work (moved : Work job unit shared before next after) :
    ∃ calls journal, next.world = { shared.world with calls, journal } := by
  cases moved with
  | clear checked => exact ⟨_, _, Service.world_of_checkCancelled checked⟩
  | stop checked => exact ⟨_, _, Service.world_of_checkCancelled checked⟩
  | find examined => exact (Service.examine_inv examined).2
  | miss examined => exact (Service.examine_inv examined).2
  | _ => exact ⟨_, _, rfl⟩

theorem leads_of_work (moved : Work job unit shared before next after) : Leads job shared next := by
  obtain ⟨calls, journal, world⟩ := world_of_work moved
  refine ⟨by rw [world], by rw [world]; exact id, ?_, ?_⟩
  · cases moved with
    | abort => exact fun _ => rfl
    | _ => exact id
  · cases moved with
    | append => exact fun _ => List.mem_append_left _
    | _ => exact fun _ => id

theorem fits_of_work (moved : Work job unit shared before next after) (same : shared.world.tree = tree)
    (fits : Fits job tree shared unit before) : Fits job tree next unit after := by
  cases moved with
  | clear checked => trivial
  | stop checked =>
    obtain rfl := Service.world_of_checkCancelled checked
    exact Or.inr (Service.requested_of_checkCancelled checked)
  | proceed free => trivial
  | skip aborted => exact aborted
  | find examined =>
    rw [← same]
    exact (Service.examine_inv examined).1
  | miss examined =>
    left
    rw [← same]
    exact (Service.examine_inv examined).1
  | append => exact ⟨fits, List.mem_append_right _ List.mem_cons_self⟩
  | abort => exact ⟨fits, rfl⟩

theorem not_ended_of_work (moved : Work job unit shared before next after) : before.hasEnded = false := by
  cases moved <;> rfl

theorem remaining_of_work (moved : Work job unit shared before next after) : after.remaining < before.remaining := by
  cases moved <;> simp [Worker.remaining]

theorem exists_work (job : Job) (unit : UnitOperand) (shared : Shared) (going : before.hasEnded = false) :
    ∃ next after, Work job unit shared before next after := by
  cases before with
  | waiting =>
    rcases checked : job.service.checkCancelled.outcome shared.world with ⟨fault | ⟨⟩, world⟩
    · exact ⟨_, _, .stop checked⟩
    · exact ⟨_, _, .clear checked⟩
  | cleared =>
    cases aborted : shared.aborted with
    | false => exact ⟨_, _, .proceed aborted⟩
    | true => exact ⟨_, _, .skip aborted⟩
  | analysing =>
    rcases examined : (job.service.examine job.host unit).outcome shared.world with ⟨fault | results, world⟩
    · exact ⟨_, _, .miss examined⟩
    · exact ⟨_, _, .find examined⟩
  | holding results => exact ⟨_, _, .append⟩
  | raising fault => exact ⟨_, _, .abort⟩
  | skipped => cases going
  | finished results => cases going
  | failed fault => cases going

end Working

/-- What is shared and how far the workers are bear each other out. -/
structure Coherent (job : Job) (tree : FileTree) (shared : Shared) (workers : List Worker) : Prop where
  sameTree : shared.world.tree = tree
  fits : ∀ (number : Nat) (unit : UnitOperand) (worker : Worker), job.units[number]? = some unit →
    workers[number]? = some worker → Fits job tree shared unit worker
  collected : ∀ results ∈ shared.collected, .finished results ∈ workers
  aborted : shared.aborted = true → ∃ fault, .failed fault ∈ workers

theorem coherent_leads {before after : Shared} {workers : List Worker} (coherent : Coherent job tree before workers)
    (leads : Leads job before after) (collected : after.collected = before.collected)
    (aborted : after.aborted = before.aborted) : Coherent job tree after workers where
  sameTree := leads.tree.trans coherent.sameTree
  fits number unit worker asked found := fits_leads leads (coherent.fits number unit worker asked found)
  collected := collected ▸ coherent.collected
  aborted := aborted ▸ coherent.aborted

section Settling

variable {workers : List Worker} {number : Nat} {before after : Worker}

theorem stays (found : workers[number]? = some before) (going : before.hasEnded = false) {other : Nat}
    {worker : Worker} (placed : workers[other]? = some worker) (ended : worker.hasEnded = true) :
    (workers.set number after)[other]? = some worker := by
  rw [List.getElem?_set_ne]
  · exact placed
  · rintro rfl
    rw [found] at placed
    cases placed
    rw [going] at ended
    cases ended

theorem mem_stays (found : workers[number]? = some before) (going : before.hasEnded = false) {worker : Worker}
    (listed : worker ∈ workers) (ended : worker.hasEnded = true) : worker ∈ workers.set number after := by
  obtain ⟨other, placed⟩ := List.mem_iff_getElem?.mp listed
  exact List.mem_iff_getElem?.mpr ⟨other, stays found going placed ended⟩

theorem mem_set (found : workers[number]? = some before) : after ∈ workers.set number after := by
  obtain ⟨bound, _⟩ := List.getElem?_eq_some_iff.mp found
  exact List.mem_set bound after

theorem remaining_set (found : workers[number]? = some before) (less : after.remaining < before.remaining) :
    Worker.allRemaining (workers.set number after) < Worker.allRemaining workers := by
  induction workers generalizing number with
  | nil => cases found
  | cons worker rest ih =>
    cases number with
    | zero =>
      cases found
      exact Nat.add_lt_add_right less _
    | succ previous => exact Nat.add_lt_add_left (ih found) _

end Settling

theorem coherent_work {shared next : Shared} {workers : List Worker} (coherent : Coherent job tree shared workers)
    {number : Nat} {unit : UnitOperand} {before after : Worker} (asked : job.units[number]? = some unit)
    (found : workers[number]? = some before) (moved : Work job unit shared before next after) :
    Coherent job tree next (workers.set number after) := by
  have leads := leads_of_work moved
  have going := not_ended_of_work moved
  refine ⟨leads.tree.trans coherent.sameTree, ?_, ?_, ?_⟩
  · intro other given worker posed placed
    by_cases same : number = other
    · subst same
      cases asked.symm.trans posed
      obtain ⟨bound, _⟩ := List.getElem?_eq_some_iff.mp found
      rw [List.getElem?_set_self bound] at placed
      cases placed
      exact fits_of_work moved coherent.sameTree (coherent.fits number unit before asked found)
    · rw [List.getElem?_set_ne same] at placed
      exact fits_leads leads (coherent.fits other given worker posed placed)
  · -- Only a worker that ends adds to the list, and it adds what it found.
    have old {results : List FileDependencies} (listed : results ∈ shared.collected) :
        .finished results ∈ workers.set number after :=
      mem_stays found going (coherent.collected results listed) rfl
    cases moved with
    | append =>
      intro results listed
      rcases List.mem_append.mp listed with early | late
      · exact old early
      · cases List.mem_singleton.mp late
        exact mem_set found
    | _ => exact fun results listed => old listed
  · have old (aborted : shared.aborted = true) : ∃ fault, .failed fault ∈ workers.set number after := by
      obtain ⟨fault, listed⟩ := coherent.aborted aborted
      exact ⟨fault, mem_stays found going listed rfl⟩
    -- Only a worker that ends with a failure tells the others.
    cases moved with
    | abort => exact fun _ => ⟨_, mem_set found⟩
    | _ => exact old

def Passed (workers : List Worker) (number : Nat) : Prop :=
  ∀ other < number, ∃ worker, workers[other]? = some worker ∧ worker.hasPassed = true

def Fails (workers : List Worker) (fault : Fault) : Prop :=
  ∃ number, Passed workers number ∧ workers[number]? = some (.failed fault)

/-- There was a reason to raise this before any worker started. -/
def Refused (job : Job) (shared : Shared) (fault : Fault) : Prop :=
  Service.entry job.host job.root job.units shared.world.tree = .error fault
    ∨ (fault = .cancelled ∧ job.service.number ∈ shared.world.cancelled)

/-- How far the caller is, is borne out by the workers. -/
def Phase (job : Job) (shared : Shared) (workers : List Worker) : Caller → Prop
  | .called => workers = [] ∧ shared.collected = []
  | .entered place => GraphStore.locateRoot job.host job.root = .ok place ∧ workers = [] ∧ shared.collected = []
  | .awaiting place number => GraphStore.locateRoot job.host job.root = .ok place
    ∧ workers.length = job.units.length ∧ number ≤ job.units.length ∧ Passed workers number
  | .leaving fault => workers.length = job.units.length ∧ Fails workers fault
  | .returned graph => workers.length = job.units.length ∧ Passed workers job.units.length
    ∧ ∃ place, GraphStore.locateRoot job.host job.root = .ok place
      ∧ Service.assemble job.host place shared.collected = .ok graph
  | .raised fault => (∀ worker ∈ workers, worker.hasEnded = true)
    ∧ ((workers = [] ∧ Refused job shared fault) ∨ (workers.length = job.units.length ∧ Fails workers fault))

theorem phase_leads {before after : Shared} (leads : Leads job before after)
    (collected : after.collected = before.collected) {workers : List Worker} {caller : Caller}
    (phase : Phase job before workers caller) : Phase job after workers caller := by
  cases caller with
  | called => exact ⟨phase.1, collected.trans phase.2⟩
  | entered place => exact ⟨phase.1, phase.2.1, collected.trans phase.2.2⟩
  | awaiting place number => exact phase
  | leaving fault => exact phase
  | returned graph =>
    obtain ⟨counted, passed, place, located, assembled⟩ := phase
    exact ⟨counted, passed, place, located, by rw [collected, assembled]⟩
  | raised fault =>
    obtain ⟨ended, ⟨none, own | ⟨same, requested⟩⟩ | fails⟩ := phase
    · exact ⟨ended, Or.inl ⟨none, Or.inl (leads.tree.symm ▸ own)⟩⟩
    · exact ⟨ended, Or.inl ⟨none, Or.inr ⟨same, leads.cancelled requested⟩⟩⟩
    · exact ⟨ended, Or.inr fails⟩

structure Sound (job : Job) (tree : FileTree) (state : State) : Prop where
  coherent : Coherent job tree state.toShared state.workers
  phase : Phase job state.toShared state.workers state.caller

theorem hasEnded_of_hasPassed {worker : Worker} (passed : worker.hasPassed = true) : worker.hasEnded = true := by
  cases worker <;> first | rfl | cases passed

theorem passed_set {workers : List Worker} {number count : Nat} {before after : Worker}
    (found : workers[number]? = some before) (going : before.hasEnded = false) (passed : Passed workers count) :
    Passed (workers.set number after) count := by
  intro other less
  obtain ⟨worker, placed, well⟩ := passed other less
  exact ⟨worker, stays found going placed (hasEnded_of_hasPassed well), well⟩

theorem passed_succ {workers : List Worker} {number : Nat} {worker : Worker} (passed : Passed workers number)
    (found : workers[number]? = some worker) (well : worker.hasPassed = true) : Passed workers (number + 1) := by
  intro other less
  rcases Nat.lt_succ_iff_lt_or_eq.mp less with early | rfl
  · exact passed other early
  · exact ⟨worker, found, well⟩

theorem fails_set {workers : List Worker} {number : Nat} {before after : Worker} {fault : Fault}
    (found : workers[number]? = some before) (going : before.hasEnded = false) (fails : Fails workers fault) :
    Fails (workers.set number after) fault := by
  obtain ⟨first, passed, failed⟩ := fails
  exact ⟨first, passed_set found going passed, stays found going failed rfl⟩

theorem passed_all {workers : List Worker} (passed : Passed workers workers.length) :
    ∀ worker ∈ workers, worker.hasPassed = true := by
  intro worker listed
  obtain ⟨number, bound, rfl⟩ := List.mem_iff_getElem.mp listed
  obtain ⟨other, placed, well⟩ := passed number bound
  rw [List.getElem?_eq_getElem bound] at placed
  cases placed
  exact well

theorem unit_of_collected {shared : Shared} {workers : List Worker} (coherent : Coherent job tree shared workers)
    (counted : workers.length = job.units.length) :
    ∀ results ∈ shared.collected, ∃ unit ∈ job.units,
      Service.resultsOf job.host job.service tree unit = .ok results := by
  intro results listed
  obtain ⟨number, placed⟩ := List.mem_iff_getElem?.mp (coherent.collected results listed)
  obtain ⟨bound, _⟩ := List.getElem?_eq_some_iff.mp placed
  rw [counted] at bound
  have asked := List.getElem?_eq_getElem bound
  exact ⟨_, List.getElem_mem bound, (coherent.fits number _ _ asked placed).1⟩

theorem assemble_collected {shared : Shared} {workers : List Worker} (coherent : Coherent job tree shared workers)
    (counted : workers.length = job.units.length) {place : String}
    (located : GraphStore.locateRoot job.host job.root = .ok place) :
    ∃ graph, Service.assemble job.host place shared.collected = .ok graph
      ∧ Graph.ShowsBelow place shared.collected.flatten graph := by
  apply Service.assemble_showsBelow (Service.locateRoot_text (Service.canonical_of_locateRoot located))
  intro results listed result member
  obtain ⟨unit, _, found⟩ := unit_of_collected coherent counted results listed
  exact Builder.canonical_of_there (Service.there_of_resultsOf found result member)

theorem sound_start {world : World} (same : world.tree = tree) : Sound job tree { world } where
  coherent := ⟨same, by simp, by simp, by simp⟩
  phase := ⟨rfl, rfl⟩

theorem phase_work {shared next : Shared} {workers : List Worker} {caller : Caller}
    (phase : Phase job shared workers caller) {number : Nat} {unit : UnitOperand} {before after : Worker}
    (found : workers[number]? = some before) (moved : Work job unit shared before next after) :
    Phase job next (workers.set number after) caller := by
  have going := not_ended_of_work moved
  have listed : before ∈ workers := List.mem_of_getElem? found
  -- Where all workers have ended, none of them can be the one that takes a step.
  have unfinished (ended : ∀ worker ∈ workers, worker.hasEnded = true) : False := by
    have done := ended before listed
    rw [going] at done
    cases done
  cases caller with
  | called =>
    rw [phase.1] at listed
    cases listed
  | entered place =>
    rw [phase.2.1] at listed
    cases listed
  | awaiting place count =>
    obtain ⟨located, counted, bound, passed⟩ := phase
    exact ⟨located, List.length_set.trans counted, bound, passed_set found going passed⟩
  | leaving fault => exact ⟨List.length_set.trans phase.1, fails_set found going phase.2⟩
  | returned graph =>
    obtain ⟨counted, passed, _⟩ := phase
    rw [← counted] at passed
    exact absurd (fun worker member => hasEnded_of_hasPassed (passed_all passed worker member)) unfinished
  | raised fault => exact absurd phase.1 unfinished

theorem sound_caller {state : State} (sound : Sound job tree state) {world : World} {caller : Caller}
    (same : ∃ calls journal, world = { state.world with calls, journal })
    (phase : Phase job state.toShared state.workers caller) : Sound job tree { state with world, caller } := by
  obtain ⟨calls, journal, rfl⟩ := same
  have leads : Leads job state.toShared { state.toShared with world := { state.world with calls, journal } } :=
    ⟨rfl, id, id, fun _ => id⟩
  exact ⟨coherent_leads sound.coherent leads rfl rfl, phase_leads leads rfl phase⟩

theorem coherent_submitted {before after : Shared} (coherent : Coherent job tree before []) (same : after.world.tree = before.world.tree)
    (collected : after.collected = before.collected) (bare : before.collected = []) (aborted : after.aborted = before.aborted) :
    Coherent job tree after (job.units.map fun _ => .waiting) := by
  refine ⟨same.trans coherent.sameTree, ?_, ?_, ?_⟩
  · intro number unit worker asked found
    rw [List.getElem?_map, asked] at found
    cases found
    trivial
  · rw [collected, bare]
    exact nofun
  · intro stopped
    obtain ⟨_, listed⟩ := coherent.aborted (aborted ▸ stopped)
    cases listed

/-- The workers and the caller keep what is known of them, whichever of them takes the step. -/
theorem sound_step {state next : State} {event : Event} (sound : Sound job tree state)
    (stepped : Step job state event next) : Sound job tree next := by
  have phase := sound.phase
  have coherent := sound.coherent
  cases stepped with
  | cancel =>
    have leads : Leads job state.toShared
        { state.toShared with world := ((Run.cancel job.service.number).outcome state.world).2 } :=
      ⟨rfl, fun _ => List.mem_cons_self, id, fun _ => id⟩
    exact ⟨coherent_leads coherent leads rfl rfl, phase_leads leads rfl phase⟩
  | worker asked found place moved =>
    exact ⟨coherent_work coherent asked found moved, phase_work phase found moved⟩
  | enter called entered =>
    rw [Service.enter_outcome] at entered
    obtain ⟨given, rfl⟩ := Prod.mk.inj entered
    rw [called] at phase
    exact sound_caller sound ⟨_, _, rfl⟩ ⟨Service.locateRoot_of_entry given, phase⟩
  | refuse called refused =>
    rw [Service.enter_outcome] at refused
    obtain ⟨given, rfl⟩ := Prod.mk.inj refused
    rw [called] at phase
    exact sound_caller sound ⟨_, _, rfl⟩ ⟨by simp [phase.1], Or.inl ⟨phase.1, Or.inl given⟩⟩
  | stop entered checked =>
    obtain rfl := Service.world_of_checkCancelled checked
    rw [entered] at phase
    apply sound_caller sound ⟨_, _, rfl⟩
    exact ⟨by simp [phase.2.1], Or.inl ⟨phase.2.1, Or.inr (Service.requested_of_checkCancelled checked)⟩⟩
  | nothing entered checked idle =>
    obtain rfl := Service.world_of_checkCancelled checked
    rw [entered] at phase
    obtain ⟨located, unstarted, bare⟩ := phase
    apply sound_caller sound ⟨_, _, rfl⟩
    refine ⟨by simp [unstarted, idle], by simp [Passed, idle], _, located, ?_⟩
    rw [bare]
    rfl
  | submit entered checked busy =>
    obtain rfl := Service.world_of_checkCancelled checked
    rw [entered] at phase
    obtain ⟨located, unstarted, bare⟩ := phase
    rw [unstarted] at coherent
    exact ⟨coherent_submitted coherent rfl rfl bare rfl, located, List.length_map _, Nat.zero_le _, by simp [Passed]⟩
  | next awaiting found passed =>
    rw [awaiting] at phase
    obtain ⟨located, counted, _, before⟩ := phase
    obtain ⟨less, _⟩ := List.getElem?_eq_some_iff.mp found
    exact sound_caller sound ⟨_, _, rfl⟩ ⟨located, counted, counted ▸ less, passed_succ before found passed⟩
  | notice awaiting found =>
    rw [awaiting] at phase
    obtain ⟨located, counted, bound, before⟩ := phase
    exact sound_caller sound ⟨_, _, rfl⟩ ⟨counted, _, before, found⟩
  | leave leaving ended =>
    rw [leaving] at phase
    exact sound_caller sound ⟨_, _, rfl⟩ ⟨ended, Or.inr phase⟩
  | conclude awaiting concluded =>
    rw [awaiting] at phase
    obtain ⟨located, counted, _, passed⟩ := phase
    obtain ⟨assembled, journal, rfl⟩ := Service.conclude_inv concluded
    exact sound_caller sound ⟨_, _, rfl⟩ ⟨counted, passed, _, located, assembled⟩
  | spoil awaiting concluded =>
    -- Putting the results together does not fail.
    rw [awaiting] at phase
    obtain ⟨located, counted, _, passed⟩ := phase
    obtain ⟨failed, _⟩ := Service.conclude_inv concluded
    obtain ⟨graph, assembled, _⟩ := assemble_collected coherent counted located
    cases assembled.symm.trans failed

theorem sound_runs {world : World} {events : List Event} {state : State} (runs : Runs job world events state) :
    Sound job world.tree state := by
  induction runs with
  | start => exact sound_start rfl
  | step before stepped ih => exact sound_step ih stepped

theorem world_of_step {state next : State} {event : Event} (stepped : Step job state event next) :
    event = .cancel ∨ ∃ calls journal, next.world = { state.world with calls, journal } := by
  cases stepped with
  | cancel => exact Or.inl rfl
  | worker asked found place moved => exact Or.inr (world_of_work moved)
  | enter called entered =>
    rw [Service.enter_outcome] at entered
    exact Or.inr ⟨_, _, (Prod.mk.inj entered).2.symm⟩
  | refuse called refused =>
    rw [Service.enter_outcome] at refused
    exact Or.inr ⟨_, _, (Prod.mk.inj refused).2.symm⟩
  | stop entered checked => exact Or.inr ⟨_, _, Service.world_of_checkCancelled checked⟩
  | nothing entered checked => exact Or.inr ⟨_, _, Service.world_of_checkCancelled checked⟩
  | submit entered checked => exact Or.inr ⟨_, _, Service.world_of_checkCancelled checked⟩
  | conclude awaiting concluded =>
    obtain ⟨_, journal, same⟩ := Service.conclude_inv concluded
    exact Or.inr ⟨_, journal, same⟩
  | spoil awaiting concluded =>
    obtain ⟨_, journal, same⟩ := Service.conclude_inv concluded
    exact Or.inr ⟨_, journal, same⟩
  | _ => exact Or.inr ⟨_, _, rfl⟩

theorem cancelled_of_runs {world : World} {events : List Event} {state : State} (runs : Runs job world events state)
    (requested : job.service.number ∈ state.world.cancelled) :
    job.service.number ∈ world.cancelled ∨ .cancel ∈ events := by
  induction runs with
  | start => exact Or.inl requested
  | @step events state next event before stepped ih =>
    rcases world_of_step stepped with rfl | ⟨calls, journal, same⟩
    · exact Or.inr (by simp)
    · rw [same] at requested
      rcases ih requested with early | made
      · exact Or.inl early
      · exact Or.inr (List.mem_append_left _ made)

end Parallel

end DeclGraph
