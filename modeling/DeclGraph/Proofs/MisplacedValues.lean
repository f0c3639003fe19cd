import DeclGraph.Proofs.ManifestReruns
import DeclGraph.Proofs.NestedDocuments

/-!
Values of the wrong shape in a manifest, and the failures that are not reported as those of a malformed manifest. Every
operation of reading is described twice over: it succeeds only if nothing that it reads is misplaced, and it fails only
with a report or for a value that is.
-/

namespace DeclGraph.Manifest

open Document (Nesting)

section Misplaced

def Reference.many : Reference → Option String × List Reference
  | .generic _ instead arguments _ => (instead, arguments)
  | .tuple instead elements => (instead, elements)
  | .functionPointer _ instead parameters => (instead, parameters)
  | _ => (none, [])

/-- A reference that is neither resolved nor refused: the empty id, something else than a list of references, or a list in
which one is absent. -/
inductive Reference.Misplaced : Reference → Fault → Prop
  | empty : Misplaced (.named "") .emptyId
  | single {reference : Reference} {kind : String} (stands : reference.many.1 = some kind) :
      Misplaced reference (.notIterable kind)
  | absent {reference : Reference} (listed : .absent ∈ reference.many.2) :
      Misplaced reference (.lacks Document.null.kindWord "symbol_id")
  | part {reference inner : Reference} {fault : Fault} (listed : inner ∈ reference.parts) (misplaced : Misplaced inner fault) :
      Misplaced reference fault

/-- A value that is set and no list stands where a list should, or an element of the list is misplaced. -/
inductive MisplacedIn (element : Document → Fault → Prop) (value : Document) : Fault → Prop
  | single (set : value.isSet = true) (single : value.elements? = none) :
    MisplacedIn element value (.notIterable value.kindWord)
  | element {inner : Document} {fault : Fault} (listed : inner ∈ looped value) (misplaced : element inner fault) :
      MisplacedIn element value fault

def MisplacedType (value : Document) : Fault → Prop := (Reference.ofDocument value).Misplaced

inductive MisplacedParameter (entry : Document) : Fault → Prop
  | part {name : String} {fault : Fault} (mapping : entry.entries?.isSome = true) (among : name ∈ ["type", "default"])
      (misplaced : MisplacedType (entry.field name) fault) : MisplacedParameter entry fault
  | type {fault : Fault} (single : entry.entries? = none) (misplaced : MisplacedType entry fault) :
      MisplacedParameter entry fault

inductive MisplacedTypeParameter (parameter : Document) : Fault → Prop
  | id (unnamed : (parameterId parameter).key? = none) :
      MisplacedTypeParameter parameter (.notName (parameterId parameter).kindWord)
  | constraint {fault : Fault} (constraining : Constraining parameter)
      (misplaced : MisplacedIn MisplacedType (parameter.field "constraints") fault) : MisplacedTypeParameter parameter fault

inductive MisplacedMethodParameter (parameter : Document) : Fault → Prop
  | shape (neither : ¬ Load.Parametric parameter) : MisplacedMethodParameter parameter (.lacks parameter.kindWord "get")
  | part {fault : Fault} (misplaced : MisplacedTypeParameter parameter fault) : MisplacedMethodParameter parameter fault

inductive MisplacedMethod : Document → Fault → Prop
  | typeParameters {method : Document} {fault : Fault}
      (misplaced : MisplacedIn MisplacedMethodParameter (method.field "type_parameters") fault) : MisplacedMethod method fault
  | body {method : Document} {fault : Fault}
      (misplaced : MisplacedIn (fun reference => MisplacedType (reference.field "type")) (method.field "body") fault) :
      MisplacedMethod method fault
  | inner {method reference : Document} {fault : Fault} (listed : reference ∈ looped (method.field "body"))
      (nests : Nests reference) (misplaced : MisplacedMethod (innerMethod reference) fault) : MisplacedMethod method fault
  | returnType {method : Document} {fault : Fault} (misplaced : MisplacedType (method.field "return_type") fault) :
      MisplacedMethod method fault
  | parameters {method : Document} {fault : Fault}
      (misplaced : MisplacedIn MisplacedParameter (method.field "parameters") fault) : MisplacedMethod method fault
  | attributes {method : Document} {fault : Fault}
      (misplaced : MisplacedIn MisplacedType (method.field "attributes") fault) : MisplacedMethod method fault

/-- In a member of a type, without its attributes. What is read depends on the kind of the member. -/
def MisplacedShape (member : Document) (fault : Fault) : Prop :=
  match (member.field "kind").text? with
  | some "field" | some "event" | some "nested_type" => MisplacedType (member.field "type") fault
  | some "property" =>
    MisplacedType (member.field "type") fault ∨ MisplacedIn MisplacedParameter (member.field "parameters") fault
  | some "method" => MisplacedMethod member fault
  | _ => False

inductive MisplacedMember (member : Document) : Fault → Prop
  | attributes {fault : Fault} (misplaced : MisplacedIn MisplacedType (member.field "attributes") fault) :
      MisplacedMember member fault
  | shape {fault : Fault} (misplaced : MisplacedShape member fault) : MisplacedMember member fault

inductive MisplacedEntry (entry : Document) : Fault → Prop
  | id (set : (entry.field "id").isSet = true) (unnamed : (entry.field "id").key? = none) :
      MisplacedEntry entry (.notName (entry.field "id").kindWord)
  | base {fault : Fault} (misplaced : MisplacedType (entry.field "base") fault) : MisplacedEntry entry fault
  | types {name : String} {fault : Fault} (among : name ∈ ["interfaces", "type_arguments", "attributes"])
      (misplaced : MisplacedIn MisplacedType (entry.field name) fault) : MisplacedEntry entry fault
  | typeParameters {fault : Fault} (misplaced : MisplacedIn MisplacedTypeParameter (entry.field "type_parameters") fault) :
      MisplacedEntry entry fault
  | members {fault : Fault} (misplaced : MisplacedIn MisplacedMember (entry.field "members") fault) :
    MisplacedEntry entry fault

/-- In a manifest: a value of a shape that reading neither uses nor refuses, and the failure that comes of it. -/
inductive Misplaced (data : Document) : Fault → Prop
  | entry {types : List Document} {entry : Document} {fault : Fault} (given : Load.entriesIn data = some types)
      (listed : entry ∈ types) (misplaced : MisplacedEntry entry fault) : Misplaced data fault
  | rows {name : String} (among : name ∈ ["declarations", "original_file_markers"]) (set : (data.field name).isSet = true)
      (single : (data.field name).entries? = none) : Misplaced data (.lacks (data.field name).kindWord "items")
  | files (given : data.field "files" ≠ .null) (single : (data.field "files").elements? = none) :
      Misplaced data (.notIterable (data.field "files").kindWord)
  | markupFiles (set : (data.field "markup_files").isSet = true) (single : (data.field "markup_files").elements? = none) :
      Misplaced data (.notIterable (data.field "markup_files").kindWord)

end Misplaced

namespace Load

/-- A failure that is reported as that of a malformed manifest; if `hidden`, an integer may have been too long to report. -/
def Reported (hidden : Prop) (fault : Fault) : Prop :=
  fault.kind = .malformedManifest ∨ hidden ∧ fault = .numeral .tooLongToWrite

/-- An operation that succeeds only if nothing is misplaced, and fails only with a report or for something that is. -/
structure Checks (hidden : Prop) {α : Type} (before : Loading) (op : Load α) (misplaced : Fault → Prop) : Prop where
  clear : ∀ value after, op.run before = .ok (value, after) → ∀ fault, ¬ misplaced fault
  fails : ∀ fault, op.run before = .error fault → Reported hidden fault ∨ misplaced fault

section Checking

variable {hidden : Prop} {α β : Type} {before after : Loading} {op : Load α} {next : α → Load β} {p q : Fault → Prop}

theorem bind_error {fault : Fault} : (op >>= next).run before = .error fault ↔ op.run before = .error fault
    ∨ ∃ value middle, op.run before = .ok (value, middle) ∧ (next value).run middle = .error fault := by
  rw [StateT.run_bind, bind_eq_error]
  constructor
  · rintro (failed | ⟨⟨value, middle⟩, ran, failed⟩)
    · exact Or.inl failed
    · exact Or.inr ⟨value, middle, ran, failed⟩
  · rintro (failed | ⟨value, middle, ran, failed⟩)
    · exact Or.inl failed
    · exact Or.inr ⟨(value, middle), ran, failed⟩

theorem Checks.congr (checks : Checks hidden before op p) (same : ∀ fault, q fault ↔ p fault) :
    Checks hidden before op q where
  clear value after ran fault misplaced := checks.clear value after ran fault ((same fault).mp misplaced)
  fails fault failed := (checks.fails fault failed).imp_right (same fault).mpr

theorem checks_bind (first : Checks hidden before op p)
    (rest : ∀ value middle, op.run before = .ok (value, middle) → Checks hidden middle (next value) q) :
    Checks hidden before (op >>= next) fun fault => p fault ∨ q fault where
  clear value after ran fault misplaced := by
    obtain ⟨given, middle, start, ran⟩ := bind_run.mp ran
    rcases misplaced with early | late
    · exact first.clear given middle start fault early
    · exact (rest given middle start).clear value after ran fault late
  fails fault failed := by
    rcases bind_error.mp failed with early | ⟨given, middle, start, late⟩
    · exact (first.fails fault early).imp_right Or.inl
    · exact ((rest given middle start).fails fault late).imp_right Or.inr

theorem checks_of_succeeds (succeeds : ∃ value after, op.run before = .ok (value, after)) :
    Checks hidden before op fun _ => False where
  clear _ _ _ _ := not_false
  fails fault failed := by
    obtain ⟨value, after, ran⟩ := succeeds
    cases ran.symm.trans failed

theorem checks_pure (value : α) : Checks hidden before (pure value : Load α) fun _ => False :=
  checks_of_succeeds ⟨value, before, rfl⟩

theorem checks_of_fails {fault : Fault} (failed : op.run before = .error fault) (misplaced : p fault) :
    Checks hidden before op p where
  clear _ _ ran := nomatch ran.symm.trans failed
  fails other also := by
    cases failed.symm.trans also
    exact Or.inr misplaced

theorem checks_map {f : α → β} (checks : Checks hidden before op p) : Checks hidden before (f <$> op) p where
  clear value after ran := by
    obtain ⟨given, ran, _⟩ := map_run.mp ran
    exact checks.clear given after ran
  fails fault failed := by
    rw [map_eq_pure_bind] at failed
    rcases bind_error.mp failed with failed | ⟨_, _, _, failed⟩
    · exact checks.fails fault failed
    · cases failed

theorem checks_next (first : Checks hidden before op fun _ => False)
    (rest : ∀ value middle, op.run before = .ok (value, middle) → Checks hidden middle (next value) q) :
    Checks hidden before (op >>= next) q :=
  (checks_bind first rest).congr fun _ => iff_of_eq (false_or _).symm

theorem checks_after (succeeds : ∃ value middle, op.run before = .ok (value, middle))
    (rest : ∀ value middle, op.run before = .ok (value, middle) → Checks hidden middle (next value) q) :
    Checks hidden before (op >>= next) q :=
  checks_next (checks_of_succeeds succeeds) rest

theorem checks_before (checks : Checks hidden before op p)
    (rest : ∀ value middle, op.run before = .ok (value, middle) → Checks hidden middle (next value) fun _ => False) :
    Checks hidden before (op >>= next) p :=
  (checks_bind checks rest).congr fun _ => iff_of_eq (or_false _).symm

theorem checkShowable_error {value : Document} {fault : Fault} :
    (checkShowable value).run before = .error fault ↔ value.isShowable = false ∧ fault = .numeral .tooLongToWrite := by
  unfold checkShowable
  split
  · next shows => exact ⟨nofun, fun ⟨hides, _⟩ => nomatch shows.symm.trans hides⟩
  · next hides =>
    refine ⟨fun failed => ?_, fun ⟨_, same⟩ => same ▸ rfl⟩
    cases failed
    exact ⟨Bool.eq_false_iff.mpr hides, rfl⟩

theorem showable_run {value : Document} (ran : (checkShowable value).run before = .ok ((), after)) :
    value.isShowable = true ∧ before = after := by
  unfold checkShowable at ran
  split at ran
  · next shows => exact ⟨shows, (pure_run.mp ran).2⟩
  · exact absurd ran throw_run

theorem checks_showable {value : Document} (shown : value.isShowable = true ∨ hidden) :
    Checks hidden before (checkShowable value) fun _ => False where
  clear _ _ _ _ := not_false
  fails fault failed := by
    obtain ⟨hides, rfl⟩ := checkShowable_error.mp failed
    exact Or.inl (Or.inr ⟨shown.resolve_left (Bool.eq_false_iff.mp hides), rfl⟩)

theorem checks_textOf {value : Document} (shown : value.isShowable = true ∨ hidden) :
    Checks hidden before (textOf value) fun _ => False :=
  checks_before (checks_showable shown) fun _ _ _ => checks_pure _

theorem checks_refuse {defect : Defect} (shown : ∀ value ∈ defect.values, value.isShowable = true ∨ hidden) :
    Checks hidden before (refuse defect : Load α) p where
  clear _ _ ran := absurd ran refuse_run
  fails fault failed := by
    refine Or.inl ?_
    have reports (values : List Document) (within : ∀ value ∈ values, value.isShowable = true ∨ hidden)
        (failed : (values.forM checkShowable).run before = .error fault) : Reported hidden fault := by
      induction values with
      | nil => cases failed
      | cons value rest ih =>
        rcases bind_error.mp (show (checkShowable value >>= fun _ => rest.forM checkShowable).run before = _ from failed) with
          failed | ⟨_, _, ran, failed⟩
        · exact ((checks_showable (within value List.mem_cons_self)).fails fault failed).resolve_right not_false
        · obtain ⟨_, rfl⟩ : _ ∧ _ := showable_run ran
          exact ih (fun other later => within other (List.mem_cons_of_mem _ later)) failed
    rcases bind_error.mp failed with failed | ⟨_, _, _, failed⟩
    · exact reports _ shown failed
    · rcases bind_error.mp failed with failed | ⟨_, _, _, failed⟩
      · cases failed
      · cases failed
        exact Or.inl rfl

theorem checks_mapM {f : α → Load β} {values : List α} (kept : Loading → Prop) {r : α → Fault → Prop}
    (start : kept before) (each : ∀ value ∈ values, ∀ loading, kept loading → Checks hidden loading (f value) (r value))
    (keeps : ∀ value ∈ values, ∀ loading result after, kept loading → (f value).run loading = .ok (result, after) →
      kept after) :
    Checks hidden before (values.mapM f) fun fault => ∃ value ∈ values, r value fault := by
  induction values generalizing before with
  | nil => exact (checks_pure []).congr (by simp)
  | cons value rest ih =>
    rw [List.mapM_cons]
    refine (checks_bind (each value List.mem_cons_self before start) fun result middle ran =>
      checks_before (ih (keeps value List.mem_cons_self before result middle start ran)
        (fun other later => each other (List.mem_cons_of_mem _ later))
        fun other later => keeps other (List.mem_cons_of_mem _ later)) fun _ _ _ => checks_pure _).congr (by simp)

theorem checks_forM {f : α → Load Unit} {values : List α} (kept : Loading → Prop) {r : α → Fault → Prop}
    (start : kept before) (each : ∀ value ∈ values, ∀ loading, kept loading → Checks hidden loading (f value) (r value))
    (keeps : ∀ value ∈ values, ∀ loading after, kept loading → (f value).run loading = .ok ((), after) → kept after) :
    Checks hidden before (values.forM f) fun fault => ∃ value ∈ values, r value fault := by
  induction values generalizing before with
  | nil => exact (checks_pure ()).congr (by simp)
  | cons value rest ih =>
    show Checks hidden before (f value >>= fun _ => rest.forM f) _
    exact (checks_bind (each value List.mem_cons_self before start) fun _ middle ran =>
      ih (keeps value List.mem_cons_self before middle start ran)
        (fun other later => each other (List.mem_cons_of_mem _ later))
        fun other later => keeps other (List.mem_cons_of_mem _ later)).congr (by simp)

theorem checks_foldlM {f : β → α → Load β} {values : List α} {start : β} (kept : Loading → Prop) (first : kept before)
    (each : ∀ value ∈ values, ∀ state loading, kept loading → Checks hidden loading (f state value) fun _ => False)
    (keeps : ∀ value ∈ values, ∀ state loading result after, kept loading → (f state value).run loading = .ok (result, after) →
      kept after) :
    Checks hidden before (values.foldlM f start) fun _ => False := by
  induction values generalizing before start with
  | nil => exact checks_pure start
  | cons value rest ih =>
    rw [List.foldlM_cons]
    exact checks_next (each value List.mem_cons_self start before first) fun state middle ran =>
      ih (keeps value List.mem_cons_self start before state middle first ran)
        (fun other later => each other (List.mem_cons_of_mem _ later))
        fun other later => keeps other (List.mem_cons_of_mem _ later)

theorem checks_loop_bind {value : Document} {next : List Document → Load β} {r : Document → Fault → Prop}
    (rest : Checks hidden before (next (looped value)) fun fault => (∃ element ∈ looped value, r element fault) ∨ q fault) :
    Checks hidden before (loop value >>= next) fun fault => MisplacedIn r value fault ∨ q fault := by
  have listed (fault : Fault) : (∃ element ∈ looped value, r element fault) → MisplacedIn r value fault :=
    fun ⟨_, among, wrong⟩ => .element among wrong
  constructor
  · intro result after ran fault wrong
    obtain ⟨_, _, met, ran⟩ := bind_run.mp ran
    obtain ⟨rfl, loops, rfl⟩ := loop_run.mp met
    rcases wrong with (⟨set, single⟩ | ⟨among, wrong⟩) | wrong
    · exact nomatch single ▸ loops set
    · exact rest.clear result after ran fault (Or.inl ⟨_, among, wrong⟩)
    · exact rest.clear result after ran fault (Or.inr wrong)
  · intro fault failed
    by_cases loops : value.isSet = true → value.elements?.isSome = true
    · rcases bind_error.mp failed with failed | ⟨_, _, met, failed⟩
      · exact nomatch (loop_run.mpr ⟨rfl, loops, rfl⟩ : (loop value).run before = .ok (_, before)).symm.trans failed
      · obtain ⟨rfl, _, rfl⟩ := loop_run.mp met
        exact (rest.fails fault failed).imp_right (Or.imp_left (listed fault))
    · rw [Classical.not_imp, Option.isSome_iff_ne_none, ne_eq, not_not] at loops
      rw [loop, loops.1, loops.2] at failed
      cases failed
      exact Or.inr (Or.inl (.single loops.1 loops.2))

theorem checks_loop {value : Document} {next : List Document → Load β} {r : Document → Fault → Prop}
    (rest : Checks hidden before (next (looped value)) fun fault => ∃ element ∈ looped value, r element fault) :
    Checks hidden before (loop value >>= next) (MisplacedIn r value) :=
  (checks_loop_bind (q := fun _ => False) (rest.congr fun _ => iff_of_eq (or_false _))).congr fun _ =>
    iff_of_eq (or_false _).symm

theorem checks_each {f : Document → Load β} {value : Document} {r : Document → Fault → Prop} (kept : Loading → Prop)
    (start : kept before)
    (each : ∀ element ∈ looped value, ∀ loading, kept loading → Checks hidden loading (f element) (r element))
    (keeps : ∀ element ∈ looped value, ∀ loading result after, kept loading → (f element).run loading = .ok (result, after) →
      kept after) :
    Checks hidden before (do (← loop value).mapM f) (MisplacedIn r value) :=
  checks_loop (checks_mapM kept start each keeps)

end Checking

section References

variable {host : Host} {types : List Document} {hidden : Prop} {before after : Loading}

theorem misplaced_iff {reference : Reference} {fault : Fault} : reference.Misplaced fault ↔
    (reference = .named "" ∧ fault = .emptyId) ∨ (∃ kind, reference.many.1 = some kind ∧ fault = .notIterable kind)
      ∨ (∃ inner ∈ reference.parts, inner.Misplaced fault)
      ∨ .absent ∈ reference.many.2 ∧ fault = .lacks Document.null.kindWord "symbol_id" := by
  constructor
  · rintro (_ | stands | listed | ⟨listed, misplaced⟩)
    · exact Or.inl ⟨rfl, rfl⟩
    · exact Or.inr (Or.inl ⟨_, stands, rfl⟩)
    · exact Or.inr (Or.inr (Or.inr ⟨listed, rfl⟩))
    · exact Or.inr (Or.inr (Or.inl ⟨_, listed, misplaced⟩))
  · rintro (⟨rfl, rfl⟩ | ⟨_, stands, rfl⟩ | ⟨_, listed, misplaced⟩ | ⟨listed, rfl⟩)
    · exact .empty
    · exact .single stands
    · exact .part listed misplaced
    · exact .absent listed

theorem checks_listed (instead : Option String) : Checks hidden before (checkListed instead) fun fault =>
    ∃ kind, instead = some kind ∧ fault = .notIterable kind := by
  cases instead with
  | none => exact (checks_pure ()).congr (by simp)
  | some kind => exact checks_of_fails rfl ⟨kind, rfl, rfl⟩

theorem checks_idsOf (good : Good host types before) {references : List Reference} {links : List (Option TypeRef)}
    (stand : List.Forall₂ (Stands before.ids) references links) : Checks hidden before (idsOf links) fun fault =>
      .absent ∈ references ∧ fault = .lacks Document.null.kindWord "symbol_id" := by
  induction stand with
  | nil => exact (checks_pure []).congr (by simp)
  | @cons reference link rest _ head _ ih =>
    cases head with
    | absent => exact checks_of_fails rfl ⟨List.mem_cons_self, rfl⟩
    | known named found present =>
      have different : Reference.absent ≠ reference := by
        rintro rfl
        cases named
      have stands := Stands.known named found present
      rw [idsOf]
      refine (checks_after (q := fun fault => .absent ∈ rest ∧ fault = .lacks Document.null.kindWord "symbol_id")
        ⟨_, before, (idOf_run good stands).mpr ⟨named, rfl⟩⟩ fun id middle ran => ?_).congr ?_
      · obtain ⟨_, rfl⟩ := (idOf_run good stands).mp ran
        exact checks_before ih fun _ _ _ => checks_pure _
      · exact fun fault => by rw [List.mem_cons, or_iff_right different]

theorem checks_library (good : Good host types before) (id : String) : Checks hidden before (library id) fun fault =>
    id = "" ∧ fault = .emptyId := by
  unfold library
  refine checks_after ⟨_, before, find?_run.mpr ⟨rfl, rfl⟩⟩ fun found middle ran => ?_
  obtain ⟨known, rfl⟩ := find?_run.mp ran
  split
  · exact (checks_pure _).congr fun _ => iff_of_false (fun empty => name_of_lookup good known empty.1) not_false
  · by_cases empty : id = ""
    · rw [if_pos empty]
      exact checks_of_fails rfl ⟨empty, rfl⟩
    · rw [if_neg empty]
      exact (checks_of_succeeds ⟨_, _, enter_run.mpr ⟨rfl, rfl⟩⟩).congr fun _ =>
        iff_of_false (fun also => empty also.1) not_false

theorem checks_built (id : String) (symbol : TypeSymbol) : Checks hidden before (built id symbol) fun _ => False :=
  checks_of_succeeds (built_succeeds id symbol before)

theorem wrapped_succeeds (good : Good host types before) {element : Option TypeRef} {kind : TypeKind} {ending : String}
    {source : Document} {inner : Reference} {id : String} (stands : Stands before.ids inner element)
    (named : inner.name? = some id) : ∃ link after, (wrapped element kind ending source).run before = .ok (link, after) := by
  obtain ⟨target, rfl⟩ := exists_ref stands named
  obtain ⟨made, after, interned⟩ :=
    built_succeeds (id ++ ending) { id := .null, name := .null, kind, element := some target } before
  have known := (idOf_run good stands).mpr ⟨named, rfl⟩
  exact ⟨some made, after, wrapped_run.mpr ⟨target, id, before, made, rfl, known, interned, rfl⟩⟩

theorem checks_wrapped (good : Good host types before) {element : Option TypeRef} {kind : TypeKind} {ending : String}
    {source : Document} {inner : Reference} (stands : Stands before.ids inner element)
    (shown : source.isShowable = true ∨ hidden) :
    Checks hidden before (wrapped element kind ending source) fun _ => False := by
  cases stands with
  | absent => exact checks_refuse (List.forall_mem_singleton.mpr shown)
  | known named found present =>
    exact checks_of_succeeds (wrapped_succeeds good (.known named found present) named)

def MisplacedAmong (instead : Option String) (references : List Reference) (fault : Fault) : Prop :=
  (∃ kind, instead = some kind ∧ fault = .notIterable kind) ∨ (∃ reference ∈ references, reference.Misplaced fault)
    ∨ .absent ∈ references ∧ fault = .lacks Document.null.kindWord "symbol_id"

theorem checks_many {β : Type} {instead : Option String} {references : List Reference}
    {next : List (Option TypeRef) → Load β} (good : Good host types before)
    (within : ∀ reference ∈ references, RefersWithin types reference)
    (all : Checks hidden before (resolveAll references) fun fault => ∃ reference ∈ references, reference.Misplaced fault)
    (rest : ∀ links middle, Steps host types before middle → List.Forall₂ (Stands middle.ids) references links →
      Checks hidden middle (next links) fun fault =>
        .absent ∈ references ∧ fault = .lacks Document.null.kindWord "symbol_id") :
    Checks hidden before (do checkListed instead; next (← resolveAll references)) (MisplacedAmong instead references) := by
  refine checks_bind (checks_listed instead) fun _ middle ran => ?_
  obtain ⟨_, rfl⟩ := checkListed_run.mp ran
  refine checks_bind all fun links later ran => ?_
  obtain ⟨steps, stand⟩ := resolveAll_steps good within ran
  exact rest links later steps stand

theorem checks_generic {definition : Reference} {instead : Option String} {arguments : List Reference} {source : Document}
    (good : Good host types before) (within : RefersWithin types (.generic definition instead arguments source))
    (shown : source.isShowable = true ∨ hidden) (defining : Checks hidden before (resolve definition) definition.Misplaced)
    (all : ∀ middle, Good host types middle → Checks hidden middle (resolveAll arguments) fun fault =>
      ∃ argument ∈ arguments, argument.Misplaced fault) :
    Checks hidden before (resolve (.generic definition instead arguments source))
      (Reference.generic definition instead arguments source).Misplaced := by
  have inside : ∀ argument ∈ arguments, argument ∈ (Reference.generic definition instead arguments source).parts :=
    fun _ among => List.mem_cons_of_mem _ among
  rw [resolve]
  refine (checks_bind (q := MisplacedAmong instead arguments) defining fun first middle ran => ?_).congr fun fault =>
    misplaced_iff.trans (by simp [Reference.many, Reference.parts, MisplacedAmong, or_assoc, or_left_comm])
  obtain ⟨start, stands⟩ := resolve_steps good (.part within List.mem_cons_self) ran
  cases stands with
  | absent => exact checks_refuse (List.forall_mem_singleton.mpr shown)
  | known named found present =>
    refine checks_many (good.steps start) (fun _ among => .part within (inside _ among)) (all middle (good.steps start))
      fun links later more stand => ?_
    have still := (good.steps start).steps more
    have kept := (Stands.known named found present).grows (grows_of_steps more)
    refine checks_after ⟨_, _, (idOf_run still kept).mpr ⟨named, rfl⟩⟩ fun id last ran => ?_
    obtain ⟨_, rfl⟩ := (idOf_run still kept).mp ran
    exact checks_before (checks_idsOf still stand) fun _ _ _ => checks_map (checks_built _ _)

theorem checks_functionPointer {returnType : Reference} {instead : Option String} {parameters : List Reference}
    (good : Good host types before) (within : RefersWithin types (.functionPointer returnType instead parameters))
    (giving : Checks hidden before (resolve returnType) returnType.Misplaced)
    (all : ∀ middle, Good host types middle → Checks hidden middle (resolveAll parameters) fun fault =>
      ∃ parameter ∈ parameters, parameter.Misplaced fault) :
    Checks hidden before (resolve (.functionPointer returnType instead parameters))
      (Reference.functionPointer returnType instead parameters).Misplaced := by
  have inside : ∀ parameter ∈ parameters, parameter ∈ (Reference.functionPointer returnType instead parameters).parts :=
    fun _ among => List.mem_cons_of_mem _ among
  rw [resolve_functionPointer]
  refine (checks_bind (q := MisplacedAmong instead parameters) giving fun returned middle ran => ?_).congr fun fault =>
    misplaced_iff.trans (by simp [Reference.many, Reference.parts, MisplacedAmong, or_assoc, or_left_comm])
  obtain ⟨start, stands⟩ := resolve_steps good (.part within List.mem_cons_self) ran
  refine checks_many (good.steps start) (fun _ among => .part within (inside _ among)) (all middle (good.steps start))
    fun links later more stand => ?_
  have still := (good.steps start).steps more
  have kept := stands.grows (grows_of_steps more)
  refine checks_before (checks_idsOf still stand) fun ids last ran => ?_
  obtain ⟨_, rfl⟩ := (idsOf_run still stand).mp ran
  exact checks_after ⟨_, _, (resultOf_run still kept).mpr ⟨rfl, rfl⟩⟩ fun _ last _ =>
    checks_of_succeeds (signed_succeeds _ _ _ last)

theorem checks_tuple {instead : Option String} {elements : List Reference} (good : Good host types before)
    (within : RefersWithin types (.tuple instead elements))
    (all : Checks hidden before (resolveAll elements) fun fault => ∃ element ∈ elements, element.Misplaced fault) :
    Checks hidden before (resolve (.tuple instead elements)) (Reference.tuple instead elements).Misplaced := by
  have inside : ∀ element ∈ elements, element ∈ (Reference.tuple instead elements).parts := fun _ among => among
  rw [resolve]
  refine (checks_many good (fun _ among => .part within (inside _ among)) all fun links middle steps stand => ?_).congr
    fun fault => misplaced_iff.trans (by simp [Reference.many, Reference.parts, MisplacedAmong])
  exact checks_before (checks_idsOf (good.steps steps) stand) fun _ _ _ => checks_map (checks_built _ _)

mutual

theorem checks_resolve {before : Loading} (good : Good host types before) {reference : Reference}
    (within : RefersWithin types reference) (ends : reference.Ends hidden) :
    Checks hidden before (resolve reference) reference.Misplaced := by
  match reference with
  | .absent =>
    rw [resolve]
    exact (checks_pure none).congr fun _ => misplaced_iff.trans (by simp [Reference.many, Reference.parts])
  | .named id =>
    rw [resolve]
    exact (checks_map (checks_library good id)).congr fun _ =>
      misplaced_iff.trans (by simp [Reference.many, Reference.parts])
  | .defective defect =>
    rw [resolve]
    exact checks_refuse (ends _ .self).2
  | .endless => exact absurd rfl (ends _ .self).1
  | .generic definition instead arguments source =>
    have defining := checks_resolve good (.part within List.mem_cons_self) (ends.part List.mem_cons_self)
    exact checks_generic good within ((ends _ .self).2 source List.mem_cons_self) defining fun middle good =>
      checks_resolveAll good (fun _ among => .part within (List.mem_cons_of_mem _ among))
        fun _ among => ends.part (List.mem_cons_of_mem _ among)
  | .array element source =>
    rw [resolve]
    refine (checks_before (checks_resolve good (.part within List.mem_cons_self) (ends.part List.mem_cons_self))
      fun link middle ran => ?_).congr fun _ => misplaced_iff.trans (by simp [Reference.many, Reference.parts])
    obtain ⟨start, stands⟩ := resolve_steps good (.part within List.mem_cons_self) ran
    exact checks_wrapped (good.steps start) stands ((ends _ .self).2 source List.mem_cons_self)
  | .pointer element source =>
    rw [resolve]
    refine (checks_before (checks_resolve good (.part within List.mem_cons_self) (ends.part List.mem_cons_self))
      fun link middle ran => ?_).congr fun _ => misplaced_iff.trans (by simp [Reference.many, Reference.parts])
    obtain ⟨start, stands⟩ := resolve_steps good (.part within List.mem_cons_self) ran
    exact checks_wrapped (good.steps start) stands ((ends _ .self).2 source List.mem_cons_self)
  | .tuple instead elements =>
    exact checks_tuple good within (checks_resolveAll good (fun _ among => .part within among) fun _ among => ends.part among)
  | .functionPointer returnType instead parameters =>
    have giving := checks_resolve good (.part within List.mem_cons_self) (ends.part List.mem_cons_self)
    exact checks_functionPointer good within giving fun middle good =>
      checks_resolveAll good (fun _ among => .part within (List.mem_cons_of_mem _ among))
        fun _ among => ends.part (List.mem_cons_of_mem _ among)

theorem checks_resolveAll {before : Loading} (good : Good host types before) {references : List Reference}
    (within : ∀ reference ∈ references, RefersWithin types reference)
    (ends : ∀ reference ∈ references, reference.Ends hidden) :
    Checks hidden before (resolveAll references) fun fault => ∃ reference ∈ references, reference.Misplaced fault := by
  match references with
  | [] =>
    rw [resolveAll]
    exact (checks_pure []).congr (by simp)
  | reference :: others =>
    rw [resolveAll]
    have head := checks_resolve good (within reference List.mem_cons_self) (ends reference List.mem_cons_self)
    refine (checks_bind (q := fun fault => ∃ reference ∈ others, reference.Misplaced fault) head
      fun link middle ran => ?_).congr (by simp)
    obtain ⟨steps, _⟩ := resolve_steps good (within reference List.mem_cons_self) ran
    exact checks_before (checks_resolveAll (good.steps steps) (fun other among => within other (List.mem_cons_of_mem _ among))
      fun other among => ends other (List.mem_cons_of_mem _ among)) fun _ _ _ => checks_pure _

end

end References

end Load

end DeclGraph.Manifest
