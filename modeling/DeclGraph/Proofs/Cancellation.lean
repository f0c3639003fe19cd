import DeclGraph.Manifest.Frontend
import DeclGraph.Proofs.BuiltGraphs
import DeclGraph.Proofs.VisitParts

/-!
Where the report of a cancelled analysis comes from. Looking things up and walking a table have failures of
their own, so an analysis reports that it was cancelled only if its frontend says so.
-/

namespace DeclGraph

section Failing

variable {α β : Type}

/-- A computation does not report that it was cancelled. -/
def Uncancelled (result : Except Fault α) : Prop := result ≠ .error .cancelled

theorem uncancelled_ok (value : α) : Uncancelled (.ok value) := by simp [Uncancelled]

theorem uncancelled_error {fault : Fault} (other : fault ≠ .cancelled) : Uncancelled (.error fault : Except Fault α) := by
  intro same
  exact other (Except.error.inj same)

theorem uncancelled_bind {first : Except Fault α} {next : α → Except Fault β} (head : Uncancelled first)
    (tail : ∀ value, Uncancelled (next value)) : Uncancelled (first >>= next) := by
  cases first with
  | error fault => exact fun same => head (congrArg Except.error (Except.error.inj same))
  | ok value => exact tail value

theorem uncancelled_foldlM {step : β → α → Except Fault β} {values : List α} {start : β}
    (each : ∀ value ∈ values, ∀ state, Uncancelled (step state value)) : Uncancelled (values.foldlM step start) := by
  induction values generalizing start with
  | nil => exact uncancelled_ok start
  | cons value rest ih =>
    rw [List.foldlM_cons]
    apply uncancelled_bind (each value List.mem_cons_self start)
    intro state
    exact ih fun value member => each value (List.mem_cons_of_mem _ member)

end Failing

theorem Host.uncancelled_locate (host : Host) (path : String) : Uncancelled (host.locate path) := by
  rw [Host.locate]
  split
  · exact uncancelled_error (by simp)
  · exact uncancelled_ok _

theorem Host.uncancelled_locateValue (host : Host) (value : Document) : Uncancelled (host.locateValue value) := by
  unfold Host.locateValue
  split
  · exact uncancelled_error (by simp)
  · exact Host.uncancelled_locate host _
  · exact uncancelled_error (by simp)

namespace SymbolTable

variable {table : SymbolTable}

def Spares (agenda : List Visit) : Prop := ∀ fault, .fail fault ∈ agenda → fault ≠ .cancelled

theorem spares_append {agenda rest : List Visit} (head : Spares agenda) (tail : Spares rest) :
    Spares (agenda ++ rest) := by
  intro fault listed
  rcases List.mem_append.mp listed with early | late
  · exact head fault early
  · exact tail fault late

/-- No visit leads to a cancellation: what it leads to fails only over symbols that are not what they should be. -/
theorem spares_partsOf (visit : Visit) : Spares (table.partsOf visit) := by
  intro fault listed
  cases refuses_of_belongs (owns_partsOf visit _ listed) <;> simp

theorem uncancelled_externalityWithin (steps : Nat) (ref : TypeRef) :
    Uncancelled (table.externalityWithin steps ref) := by
  fun_induction table.externalityWithin steps ref with
  | case1 => exact uncancelled_error (by simp)
  | case5 _ _ _ _ _ _ _ _ ih => exact ih
  | _ => exact uncancelled_ok _

theorem uncancelled_fileOf (visit : Visit) : Uncancelled (table.fileOf visit) := by
  unfold fileOf
  split
  · exact uncancelled_bind (uncancelled_externalityWithin _ _) fun _ => uncancelled_ok _
  · exact uncancelled_ok none

theorem uncancelled_addFile (found : Reported) (file : Option Document) : Uncancelled (addFile found file) := by
  unfold addFile
  split
  · exact uncancelled_ok found
  · split
    · exact uncancelled_error (by simp)
    · exact uncancelled_ok _

theorem uncancelled_walk {unmarked : List Mark} {agenda : List Visit} {found : Reported} (spared : Spares agenda) :
    Uncancelled (table.walk unmarked agenda found) := by
  fun_induction table.walk unmarked agenda found with
  | case1 => exact uncancelled_ok _
  | case2 _ _ fault rest => exact uncancelled_error (spared fault List.mem_cons_self)
  | case3 _ _ _ _ _ _ ih => exact ih fun fault later => spared fault (List.mem_cons_of_mem _ later)
  | case4 => exact uncancelled_error (by simp)
  | case5 _ found visit _ _ _ _ _ _ _ _ fault failed =>
    have added : Uncancelled (table.fileOf visit >>= addFile found) :=
      uncancelled_bind (uncancelled_fileOf visit) (uncancelled_addFile found)
    rw [failed] at added
    exact fun same => added (congrArg Except.error (Except.error.inj same))
  | case6 _ _ _ _ _ _ _ _ _ _ _ _ _ ih =>
    apply ih
    apply spares_append (spares_partsOf _)
    exact fun fault later => spared fault (List.mem_cons_of_mem _ later)
  | case7 _ _ _ _ _ _ _ _ _ _ _ ih => exact ih fun fault later => spared fault (List.mem_cons_of_mem _ later)

theorem uncancelled_dependencies (ref : TypeRef) : Uncancelled (table.dependencies ref) := by
  apply uncancelled_walk
  simp [Spares]

end SymbolTable

structure Frontend.NeverCancels (frontend : Frontend) : Prop where
  sourceFiles : ∀ unit, Uncancelled (frontend.sourceFiles unit)
  declarations : ∀ unit file, Uncancelled (frontend.declarations unit file)
  symbolOf : ∀ unit declaration, Uncancelled (frontend.symbolOf unit declaration)
  markers : ∀ unit path, Uncancelled (frontend.markers unit path)
  markupFiles : ∀ unit, Uncancelled (frontend.markupFiles unit)

/-- What reading a manifest fails with is never a request to stop. -/
theorem Manifest.neverCancels_frontend (host : Host) : (frontend host).NeverCancels := by
  have opened (unit : CompilationUnit) : Uncancelled (unitOf unit) := by
    rw [unitOf]
    split
    · exact uncancelled_ok _
    · exact uncancelled_error (by simp)
  refine ⟨?_, ?_, ?_, ?_, ?_⟩
  · exact fun unit => uncancelled_bind (opened unit) fun _ => uncancelled_ok _
  · intro unit file
    apply uncancelled_bind (opened unit)
    intro manifest
    apply uncancelled_bind
    · exact uncancelled_bind (Host.uncancelled_locateValue host _) fun _ => uncancelled_ok _
    · exact fun ids => uncancelled_ok _
  · intro unit declaration
    apply uncancelled_bind (opened unit)
    intro manifest
    rw [declaredSymbol]
    split
    · exact uncancelled_error (by simp)
    · exact uncancelled_ok _
  · intro unit file
    apply uncancelled_bind (opened unit)
    intro manifest
    exact uncancelled_bind (Host.uncancelled_locateValue host _) fun _ => uncancelled_ok _
  · exact fun unit => uncancelled_bind (opened unit) fun _ => uncancelled_ok _

namespace Builder

namespace Context

variable {context : Context}

theorem uncancelled_resolve (never : context.builder.frontend.NeverCancels) (path : String) :
    Uncancelled (context.resolve path) := by
  rw [resolve]
  apply uncancelled_bind (Host.uncancelled_locate _ path)
  intro place
  split
  · exact uncancelled_ok _
  · rw [markupSource]
    apply uncancelled_bind (Host.uncancelled_locate _ _)
    intro unitPath
    exact uncancelled_bind (never.markers _ path) fun _ => uncancelled_ok _

theorem uncancelled_resolveValue (never : context.builder.frontend.NeverCancels) (cache : PathCache)
    (value : Document) : Uncancelled (context.resolveValue cache value) := by
  unfold resolveValue
  split
  · unfold resolveCached
    split
    · exact uncancelled_ok _
    · exact uncancelled_bind (uncancelled_resolve never _) fun _ => uncancelled_ok _
  · split
    · exact uncancelled_error (by simp)
    · exact uncancelled_bind (Host.uncancelled_locateValue _ _) fun _ => uncancelled_ok _

theorem uncancelled_resolveAll (never : context.builder.frontend.NeverCancels) (file : String) (cache : PathCache)
    (reported : List Document) : Uncancelled (context.resolveAll file cache reported) := by
  induction reported generalizing cache with
  | nil => exact uncancelled_ok _
  | cons path rest ih =>
    rw [resolveAll]
    apply uncancelled_bind (uncancelled_resolveValue never cache path)
    rintro ⟨found, next⟩
    apply uncancelled_bind (ih next)
    rintro ⟨files, last⟩
    cases found with
    | none => exact uncancelled_ok _
    | some dependency => exact uncancelled_ok _

theorem uncancelled_addDeclaration (never : context.builder.frontend.NeverCancels) (progress : Progress)
    (declaration : TypeDeclaration) : Uncancelled (context.addDeclaration progress declaration) := by
  rw [addDeclaration]
  apply uncancelled_bind
  · rw [analyzeDeclaration]
    apply uncancelled_bind (never.symbolOf _ declaration)
    rintro (_ | ref)
    · exact uncancelled_ok _
    · apply uncancelled_bind (uncancelled_resolveValue never _ _)
      rintro ⟨_ | file, cache⟩
      · exact uncancelled_ok _
      · apply uncancelled_bind (SymbolTable.uncancelled_dependencies ref)
        intro reported
        exact uncancelled_bind (uncancelled_resolveAll never file cache reported) fun _ => uncancelled_ok _
  · rintro ⟨_ | result, cache⟩
    · exact uncancelled_ok _
    · exact uncancelled_ok _

theorem uncancelled_analyze (never : context.builder.frontend.NeverCancels) (files : List String) :
    Uncancelled (context.analyze files) := by
  apply uncancelled_foldlM
  intro file _ progress
  rw [addFile]
  split
  · exact uncancelled_ok _
  · apply uncancelled_bind (never.declarations _ file)
    intro declarations
    exact uncancelled_foldlM fun declaration _ progress => uncancelled_addDeclaration never progress declaration

end Context

theorem uncancelled_resultsOf {builder : Builder} (never : builder.frontend.NeverCancels) (host : Host)
    (tree : FileTree) (unit : CompilationUnit) : Uncancelled (builder.resultsOf host tree unit) := by
  rw [resultsOf]
  apply uncancelled_bind
  · rw [knownMarkup]
    split
    · exact uncancelled_ok _
    · exact uncancelled_bind (never.markupFiles unit) fun _ => uncancelled_ok _
  · intro markup
    apply uncancelled_bind (never.sourceFiles unit)
    intro files
    exact uncancelled_bind (Context.uncancelled_analyze never files) fun _ => uncancelled_ok _

end Builder

theorem Service.uncancelled_resultsOf {service : Service} (never : service.builder.frontend.NeverCancels)
    (host : Host) (tree : FileTree) (unit : UnitOperand) : Uncancelled (resultsOf host service tree unit) := by
  cases unit with
  | unit value => exact Builder.uncancelled_resultsOf never host tree value
  | other value => exact uncancelled_error (by simp)

end DeclGraph
