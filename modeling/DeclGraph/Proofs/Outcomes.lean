import Mathlib.Data.List.Forall2
import DeclGraph.Run

/-!
How computations that can fail come to a result. A chain of steps gives a value when each step does,
and a computation in the surroundings is run step by step from one world to the next.
-/

namespace DeclGraph

section Failing

variable {ε α β : Type}

theorem bind_eq_ok {first : Except ε α} {next : α → Except ε β} {result : β} :
    first >>= next = .ok result ↔ ∃ value, first = .ok value ∧ next value = .ok result := by
  cases first with
  | error fault => simp [bind, Except.bind]
  | ok value => simp [bind, Except.bind]

theorem bind_eq_error {first : Except ε α} {next : α → Except ε β} {fault : ε} :
    first >>= next = .error fault ↔ first = .error fault ∨ ∃ value, first = .ok value ∧ next value = .error fault := by
  cases first with
  | error other => simp [bind, Except.bind]
  | ok value => simp [bind, Except.bind]

theorem eq_ok_of_toOption {computed : Except ε α} {value : α} (found : computed.toOption = some value) :
    computed = .ok value := by
  cases computed with
  | error fault => simp [Except.toOption] at found
  | ok other => simpa [Except.toOption] using found

theorem mapM_eq_ok {f : α → Except ε β} {values : List α} {results : List β} :
    values.mapM f = .ok results ↔ List.Forall₂ (fun value result => f value = .ok result) values results := by
  induction values generalizing results with
  | nil =>
    rw [List.mapM_nil, List.forall₂_nil_left_iff]
    constructor
    · exact fun same => (Except.ok.inj same).symm
    · rintro rfl
      rfl
  | cons value rest ih =>
    simp only [List.mapM_cons, bind_eq_ok, ih]
    constructor
    · rintro ⟨first, found, others, tail, same⟩
      cases same
      exact .cons found tail
    · rintro (_ | ⟨found, tail⟩)
      exact ⟨_, found, _, tail, rfl⟩

theorem mapM_of_each {f : α → Except ε β} {image : α → β} {values : List α}
    (each : ∀ value ∈ values, f value = .ok (image value)) : values.mapM f = .ok (values.map image) := by
  rw [mapM_eq_ok, List.forall₂_map_right_iff, List.forall₂_same]
  exact each

theorem mapM_of_first {f : α → Except ε β} {before after : List α} {value : α} {fault : ε}
    (earlier : ∀ other ∈ before, ∃ result, f other = .ok result) (failed : f value = .error fault) :
    (before ++ value :: after).mapM f = .error fault := by
  induction before with
  | nil => rw [List.nil_append, List.mapM_cons, failed]; rfl
  | cons other rest ih =>
    obtain ⟨result, found⟩ := earlier other List.mem_cons_self
    rw [List.cons_append, List.mapM_cons, bind_eq_error]
    refine Or.inr ⟨result, found, bind_eq_error.mpr (Or.inl (ih fun next later => ?_))⟩
    exact earlier next (List.mem_cons_of_mem _ later)

theorem exists_of_mem_right {related : α → β → Prop} {values : List α} {results : List β}
    (pairs : List.Forall₂ related values results) {result : β} (member : result ∈ results) :
    ∃ value ∈ values, related value result := by
  induction pairs with
  | nil => simp at member
  | cons head _ ih =>
    rcases List.mem_cons.mp member with rfl | later
    · exact ⟨_, List.mem_cons_self, head⟩
    · obtain ⟨value, listed, holds⟩ := ih later
      exact ⟨value, List.mem_cons_of_mem _ listed, holds⟩

theorem exists_of_mem_left {related : α → β → Prop} {values : List α} {results : List β}
    (pairs : List.Forall₂ related values results) {value : α} (member : value ∈ values) :
    ∃ result ∈ results, related value result :=
  exists_of_mem_right pairs.flip member

theorem exists_at {related : α → β → Prop} {values : List α} {results : List β}
    (pairs : List.Forall₂ related values results) {index : Nat} {value : α} (there : values[index]? = some value) :
    ∃ result, results[index]? = some result ∧ related value result := by
  induction pairs generalizing index with
  | nil => cases there
  | cons head _ ih =>
    cases index with
    | zero =>
      cases there
      exact ⟨_, rfl, head⟩
    | succ index => exact ih there

theorem exists_at_zipIdx {related : α × Nat → β → Prop} {values : List α} {results : List β}
    (pairs : List.Forall₂ related values.zipIdx results) {index : Nat} {value : α} (there : values[index]? = some value) :
    ∃ result, results[index]? = some result ∧ related (value, index) result := by
  refine exists_at pairs ?_
  rw [List.getElem?_zipIdx, there, Option.map_some, Nat.zero_add]

theorem exists_mem_zipIdx {values : List α} {value : α} (member : value ∈ values) : ∃ index, (value, index) ∈ values.zipIdx := by
  obtain ⟨index, there⟩ := List.mem_iff_getElem?.mp member
  exact ⟨index, List.mem_zipIdx_iff_getElem?.mpr there⟩

theorem exists_forall₂ {related : α → β → Prop} {values : List α}
    (each : ∀ value ∈ values, ∃ result, related value result) : ∃ results, List.Forall₂ related values results := by
  induction values with
  | nil => exact ⟨[], .nil⟩
  | cons value rest ih =>
    obtain ⟨result, holds⟩ := each value List.mem_cons_self
    obtain ⟨results, pairs⟩ := ih fun other listed => each other (List.mem_cons_of_mem _ listed)
    exact ⟨result :: results, .cons holds pairs⟩

/-- Steps that succeed and keep an invariant can be taken one after another. -/
theorem foldlM_isOk {step : β → α → Except ε β} (kept : β → Prop) {values : List α} {start : β}
    (each : ∀ value ∈ values, ∀ state, kept state → ∃ next, step state value = .ok next ∧ kept next)
    (first : kept start) : ∃ final, values.foldlM step start = .ok final ∧ kept final := by
  induction values generalizing start with
  | nil => exact ⟨start, rfl, first⟩
  | cons value rest ih =>
    obtain ⟨next, stepped, still⟩ := each value List.mem_cons_self start first
    obtain ⟨final, ran, last⟩ := ih (fun value member => each value (List.mem_cons_of_mem _ member)) still
    refine ⟨final, ?_, last⟩
    rw [List.foldlM_cons, stepped]
    exact ran

end Failing

namespace Run

variable {α β : Type}

theorem outcome_pure (value : α) (world : World) : (pure value : Run α).outcome world = (.ok value, world) :=
  rfl

theorem outcome_bind (first : Run α) (next : α → Run β) (world : World) :
    (first >>= next).outcome world =
      match first.outcome world with
      | (.ok value, after) => (next value).outcome after
      | (.error fault, after) => (.error fault, after) := by
  change (ExceptT.run (first >>= next)).run world = _
  rw [ExceptT.run_bind, StateT.run_bind]
  have ran : StateT.run (ExceptT.run first) world = first.outcome world := rfl
  rw [ran]
  rcases first.outcome world with ⟨fault | value, after⟩ <;> rfl

theorem outcome_bind_eq_ok {first : Run α} {next : α → Run β} {world after : World} {result : β} :
    (first >>= next).outcome world = (.ok result, after) ↔ ∃ value middle,
      first.outcome world = (.ok value, middle) ∧ (next value).outcome middle = (.ok result, after) := by
  rw [outcome_bind]
  rcases first.outcome world with ⟨fault | value, middle⟩
  · simp
  · simp

theorem outcome_bind_eq_error {first : Run α} {next : α → Run β} {world after : World} {fault : Fault} :
    (first >>= next).outcome world = (.error fault, after) ↔ first.outcome world = (.error fault, after)
      ∨ ∃ value middle, first.outcome world = (.ok value, middle)
        ∧ (next value).outcome middle = (.error fault, after) := by
  rw [outcome_bind]
  rcases first.outcome world with ⟨fault | value, middle⟩
  · simp
  · simp

theorem outcome_refuse {condition : Prop} [Decidable condition] (fault : Fault) (rest : Unit → Run α)
    (world : World) : (if condition then throw fault >>= rest else rest ()).outcome world =
      if condition then (.error fault, world) else (rest ()).outcome world := by
  by_cases refused : condition
  · rw [if_pos refused, if_pos refused]
    rfl
  · rw [if_neg refused, if_neg refused]

theorem outcome_ofExcept (result : Except Fault α) (world : World) :
    (ofExcept result).outcome world = (result, world) := by
  cases result <;> rfl

theorem outcome_tree (world : World) : Run.tree.outcome world = (.ok world.tree, world) := rfl

theorem outcome_throw (fault : Fault) (world : World) :
    (throw fault : Run α).outcome world = (.error fault, world) := rfl

theorem outcome_setTree (tree : FileTree) (world : World) :
    (setTree tree).outcome world = (.ok (), { world with tree }) := rfl

theorem outcome_isCancelled (service : Nat) (world : World) :
    (isCancelled service).outcome world = (.ok (decide (service ∈ world.cancelled)), world) := rfl

theorem outcome_log (channel : String) (level : LogLevel) (message : String) (world : World) :
    (log channel level message).outcome world =
      (.ok (), { world with journal := world.journal ++ [{ channel, level, message }] }) := rfl

theorem outcome_onTree (path : String) (result : Except TreeFault α) (world : World) :
    (onTree path result).outcome world =
      (match result with | .ok value => .ok value | .error cause => .error (.tree cause path), world) := by
  cases result <;> rfl

theorem outcome_writeText (path text : String) (world : World) :
    (writeText path text).outcome world =
      match Text.toBytes text with
      | .error flaw => (.error (.unencodable flaw), world)
      | .ok bytes => match world.tree.writeFile path bytes with
        | .error cause => (.error (.tree cause path), world)
        | .ok written => (.ok (), { world with tree := written }) := by
  rw [writeText]
  cases Text.toBytes text with
  | error flaw => rfl
  | ok bytes =>
    simp only [outcome_bind, outcome_tree, outcome_onTree]
    cases world.tree.writeFile path bytes with
    | error cause => rfl
    | ok written => rfl

/-- What is run after a failure starts from the surroundings that the failure left. -/
theorem outcome_onFailure (run : Run α) (cleanUp : Run Unit) (world : World) :
    (run.onFailure cleanUp).outcome world =
      match run.outcome world with
      | (.ok value, after) => (.ok value, after)
      | (.error fault, after) => match cleanUp.outcome after with
        | (.ok (), cleaned) => (.error fault, cleaned)
        | (.error other, cleaned) => (.error other, cleaned) := by
  have caught (handle : Fault → Run α) : (tryCatch run handle).outcome world =
      match run.outcome world with
      | (.ok value, after) => (.ok value, after)
      | (.error fault, after) => (handle fault).outcome after := by
    change (ExceptT.run (tryCatch run handle)).run world = _
    simp only [tryCatch, tryCatchThe, MonadExceptOf.tryCatch, ExceptT.tryCatch, ExceptT.run, ExceptT.mk, StateT.run_bind]
    have ran : StateT.run run world = run.outcome world := rfl
    rw [ran]
    rcases run.outcome world with ⟨fault | value, after⟩
    · rfl
    · rfl
  rw [onFailure, caught]
  rcases run.outcome world with ⟨fault | value, after⟩
  · simp only [outcome_bind, outcome_throw]
    rcases cleanUp.outcome after with ⟨other | done, cleaned⟩
    · rfl
    · rfl
  · rfl

theorem outcome_makeDirectories (cwd : String) (trail : Path.Trail) (world : World) :
    (makeDirectories cwd trail).outcome world =
      match FileTree.makeDirectories cwd trail.root trail.names world.tree with
      | (.ok (), made) => (.ok (), { world with tree := made })
      | (.error cause, made) => (.error (.tree cause trail.text), { world with tree := made }) := by
  rw [makeDirectories, outcome_bind, outcome_tree]
  simp only [outcome_bind, outcome_setTree, outcome_onTree]
  rcases FileTree.makeDirectories cwd trail.root trail.names world.tree with ⟨fault | done, made⟩
  · rfl
  · rfl

theorem outcome_note (call : FrontendCall) (world : World) :
    (note call).outcome world = (.ok (), { world with calls := world.calls ++ [call] }) := rfl

theorem outcome_record (entry : LogRecord) (world : World) :
    (record entry).outcome world = (.ok (), { world with journal := world.journal ++ [entry] }) := rfl

section Keeping

variable {γ : Type} {view : World → γ}

/-- A part of the surroundings is the same after a computation, whether or not it fails. -/
def Keeps (view : World → γ) (run : Run α) : Prop := ∀ world, view (run.outcome world).2 = view world

namespace Keeps

theorem pure (value : α) : Keeps view (Pure.pure value : Run α) := fun _ => rfl

theorem throw (fault : Fault) : Keeps view (MonadExcept.throw fault : Run α) := fun _ => rfl

theorem ofExcept (result : Except Fault α) : Keeps view (Run.ofExcept result) := by
  intro world
  rw [outcome_ofExcept]

theorem tree : Keeps view Run.tree := fun _ => rfl

theorem isCancelled (service : Nat) : Keeps view (Run.isCancelled service) := fun _ => rfl

theorem onTree (path : String) (result : Except TreeFault α) : Keeps view (Run.onTree path result) := by
  intro world
  rw [outcome_onTree]

theorem bind {first : Run α} {next : α → Run β} (head : Keeps view first)
    (tail : ∀ value, Keeps view (next value)) : Keeps view (first >>= next) := by
  intro world
  rw [outcome_bind]
  have kept := head world
  rcases ran : first.outcome world with ⟨fault | value, after⟩
  · rw [ran] at kept
    exact kept
  · rw [ran] at kept
    exact (tail value after).trans kept

theorem refuse {condition : Prop} [Decidable condition] {fault : Fault} {rest : Unit → Run α}
    (goesOn : Keeps view (rest ())) :
    Keeps view (if condition then MonadExcept.throw fault >>= rest else rest ()) := by
  intro world
  rw [outcome_refuse]
  split
  · rfl
  · exact goesOn world

theorem mapM {step : β → Run α} {values : List β} (each : ∀ value ∈ values, Keeps view (step value)) :
    Keeps view (values.mapM step) := by
  induction values with
  | nil => exact pure []
  | cons value rest ih =>
    rw [List.mapM_cons]
    apply bind (each value List.mem_cons_self)
    intro first
    apply bind (ih fun value member => each value (List.mem_cons_of_mem _ member))
    intro others
    exact pure _

theorem record (apart : ∀ world journal, view { world with journal } = view world) (entry : LogRecord) :
    Keeps view (Run.record entry) := fun _ => apart _ _

theorem log (apart : ∀ world journal, view { world with journal } = view world) (channel : String)
    (level : LogLevel) (message : String) : Keeps view (Run.log channel level message) := fun _ => apart _ _

theorem note (call : FrontendCall) : Keeps World.tree (Run.note call) := fun _ => rfl

end Keeps

end Keeping

end Run

end DeclGraph
