import DeclGraph.Proofs.ManifestReruns
import DeclGraph.Proofs.ReorderedUnits

/-!
Which symbol a reference of a manifest is resolved to. Whatever is written as a reference was resolved while the
manifest was read, and so was each of its parts. It was resolved to one symbol each time, and the finished table gives
the same one.
-/

namespace DeclGraph.Manifest

open Load

namespace Load

section Reached

variable {host : Host} {types : List Document} {fuel : Nat}

def AllRan (host : Host) (types : List Document) (references : List Reference) : Prop :=
  ∀ reference ∈ references, Ran host types (resolve reference)

theorem ran_typesOf {value : Document} (within : ∀ reference ∈ refersIn value, RefersWithin types reference)
    (ran : Ran host types (typesOf value)) : AllRan host types (refersIn value) := by
  obtain ⟨_, each⟩ := ran_each (fun element among _ _ _ good ran =>
    (resolve_steps good (within _ (List.mem_map_of_mem among)) ran).1) ran
  intro reference among
  obtain ⟨element, listed, rfl⟩ := List.mem_map.mp among
  exact each element listed

theorem ran_parametersOf {value : Document} (within : ∀ reference ∈ parameterRefs value, RefersWithin types reference)
    (ran : Ran host types (parametersOf value)) : AllRan host types (parameterRefs value) := by
  obtain ⟨_, each⟩ := ran_each (fun element among _ _ _ good ran => (parameterOf_steps good within among ran).1)
    (show Ran host types (do (← loop value).mapM parameterOf) from ran)
  intro reference among
  obtain ⟨entry, listed, inside⟩ := List.mem_flatMap.mp among
  have all := fun reference inside => within reference (List.mem_flatMap.mpr ⟨entry, listed, inside⟩)
  have ran := each entry listed
  unfold parameterOf at ran
  split at ran
  · next entries mapping =>
    simp only [mapping] at all inside
    obtain ⟨typed, _, ran⟩ := ran_bind ran fun _ _ _ good ran => (resolve_steps good (all _ List.mem_cons_self) ran).1
    obtain ⟨defaulted, _⟩ := ran_bind ran fun _ _ _ good ran =>
      (resolve_steps good (all _ (List.mem_cons_of_mem _ List.mem_cons_self)) ran).1
    simp only [List.mem_cons, List.not_mem_nil, or_false] at inside
    rcases inside with rfl | rfl
    · exact typed
    · exact defaulted
  · next single =>
    simp only [single] at all inside
    obtain ⟨typed, _⟩ := ran_bind ran fun _ _ _ good ran => (resolve_steps good (all _ List.mem_cons_self) ran).1
    cases List.mem_singleton.mp inside
    exact typed

theorem ran_constraints {parameter : Document} (within : ParameterWithin types parameter)
    (constraining : Constraining parameter) (ran : Ran host types (linkParameter parameter)) :
    AllRan host types (refersIn (parameter.field "constraints")) :=
  ran_typesOf (fun _ among => .constraint within constraining among) (constraints_ran constraining ran)

theorem ran_methodParameters {value : Document} (within : ∀ parameter ∈ looped value, ParameterWithin types parameter)
    (ran : Ran host types (methodParameters value)) :
    ∀ parameter ∈ looped value, Ran host types (linkParameter parameter) := by
  obtain ⟨_, each⟩ := ran_each (fun element among _ _ _ good ran =>
    (methodParameter_steps good (within element among) ran).1)
    (show Ran host types (do (← loop value).mapM methodParameter) from ran)
  intro parameter among
  obtain ⟨before, _, after, good, ran⟩ := each parameter among
  obtain ⟨_, key, middle, ref, _, entering, linked, _⟩ := methodParameter_run.mp ran
  rcases entering with ⟨_, declared⟩ | ⟨_, rfl⟩
  · exact ⟨middle, ref, after, good.steps (declareParameter_steps (within parameter among) declared), linked⟩
  · exact ⟨middle, ref, after, good, linked⟩

structure MethodRan (host : Host) (types : List Document) (fuel : Nat) (entry : Document) : Prop where
  references : AllRan host types (methodRefs entry)
  parameters : ∀ parameter ∈ looped (entry.field "type_parameters"), Ran host types (linkParameter parameter)
  inner : ∀ reference ∈ looped (entry.field "body"), Nests reference →
    ∃ id, Ran host types (method fuel (innerMethod reference) id)

theorem ran_bodyReference {outer entry id : Document} {index : Nat} (within : MethodWithin types outer)
    (listed : entry ∈ looped (outer.field "body")) (ran : Ran host types (bodyReference fuel entry id index)) :
    Ran host types (typeOf (entry.field "type"))
      ∧ (Nests entry → ∃ given, Ran host types (method fuel (innerMethod entry) given)) := by
  have typed := RefersWithin.occurrence within listed
  rw [bodyReference_eq] at ran
  split at ran
  · exact absurd ran not_ran_refuse
  · next kind known =>
    split at ran
    · next nests =>
      split at ran
      · obtain ⟨_, given, ran⟩ := ran_bind ran fun _ _ _ _ ran => (innerIdOf_run.mp ran).2.2 ▸ .refl
        obtain ⟨read, _, ran⟩ := ran_bind ran fun _ _ _ good ran => by
          obtain ⟨_, ran, _⟩ := map_run.mp ran
          exact (method_steps fuel _ _ _ _ _ good (within.inner listed nests) ran).1
        obtain ⟨resolved, _⟩ := ran_bind ran fun _ _ _ good ran => (resolve_steps good typed ran).1
        exact ⟨resolved, fun _ => ⟨given, ran_map read⟩⟩
      · exact absurd ran not_ran_refuse
    · next plain =>
      obtain ⟨resolved, _⟩ := ran_bind ran fun _ _ _ good ran => (resolve_steps good typed ran).1
      exact ⟨resolved, fun nests => absurd nests plain⟩

theorem ran_bodyOf {outer id : Document} (within : MethodWithin types outer)
    (ran : Ran host types (bodyOf fuel (outer.field "body") id)) : ∀ entry ∈ looped (outer.field "body"),
      Ran host types (typeOf (entry.field "type"))
        ∧ (Nests entry → ∃ given, Ran host types (method fuel (innerMethod entry) given)) := by
  rw [bodyOf] at ran
  obtain ⟨before, _, _, good, ran⟩ := ran
  obtain ⟨_, _, met, ran⟩ := bind_run.mp ran
  obtain ⟨rfl, _, rfl⟩ := loop_run.mp met
  have each := ran_mapM good (fun (pair : Document × Nat) among _ _ _ good ran =>
    (bodyReference_steps (method_steps fuel) good within (List.fst_mem_of_mem_zipIdx among) ran).1) ran
  intro entry listed
  obtain ⟨index, among⟩ := exists_mem_zipIdx listed
  exact ran_bodyReference within listed (each (entry, index) among)

theorem ran_methodBody {outer id : Document} (within : MethodWithin types outer)
    (ran : Ran host types (methodBody fuel outer id)) : ∀ entry ∈ looped (outer.field "body"),
      Ran host types (typeOf (entry.field "type"))
        ∧ (Nests entry → ∃ given, Ran host types (method fuel (innerMethod entry) given)) := by
  unfold methodBody at ran
  split at ran
  · exact ran_bodyOf within (ran_map ran)
  · next bodyless =>
    rw [field_of_bodyless bodyless, looped_null]
    exact fun _ impossible => nomatch impossible

theorem ran_method {entry id : Document} (within : MethodWithin types entry)
    (ran : Ran host types (method (fuel + 1) entry id)) : MethodRan host types fuel entry := by
  have returns := RefersWithin.returnType within
  have takes := RefersWithin.parameters within
  have marked := RefersWithin.methodAttributes within
  rw [method_succ] at ran
  obtain ⟨parametersRan, _, ran⟩ := ran_bind ran fun _ _ _ good ran =>
    (methodParameters_steps good (fun _ among => .method within among) ran).1
  obtain ⟨read, _, ran⟩ := ran_bind ran fun _ _ _ good ran => (methodBody_steps (method_steps fuel) good within ran).1
  have bodyRan := ran_methodBody within read
  obtain ⟨one, _, ran⟩ := ran_bind ran fun _ _ _ good ran => (resolve_steps good returns ran).1
  obtain ⟨two, _, ran⟩ := ran_bind ran fun _ _ _ good ran => (parametersOf_steps good takes ran).1
  obtain ⟨three, _⟩ := ran_bind ran fun _ _ _ good ran => (typesOf_steps good marked ran).1
  refine ⟨fun reference among => ?_, ran_methodParameters (fun _ among => .method within among) parametersRan,
    fun reference listed => (bodyRan reference listed).2⟩
  simp only [methodRefs, List.cons_append, List.mem_cons, List.mem_append, List.mem_map] at among
  rcases among with rfl | (parameter | mark) | ⟨occurrence, listed, rfl⟩
  · exact one
  · exact ran_parametersOf takes two reference parameter
  · exact ran_typesOf marked three reference mark
  · exact (bodyRan occurrence listed).1

theorem methodRan_of_ran {entry id : Document} (within : MethodWithin types entry)
    (ran : Ran host types (method fuel entry id)) : ∃ fuel, MethodRan host types fuel entry := by
  cases fuel with
  | zero =>
    rw [method] at ran
    exact absurd ran not_ran_throw
  | succ fuel => exact ⟨fuel, ran_method within ran⟩

theorem ran_member {owner entry : Document} {index : Nat} (within : MemberWithin types entry)
    (ran : Ran host types (member fuel owner entry index)) : AllRan host types (refersIn (entry.field "attributes"))
      ∧ AllRan host types (memberRefs entry)
      ∧ ((entry.field "kind").text? = some "method" → ∃ id, Ran host types (method fuel entry id)) := by
  have marked := RefersWithin.memberAttributes within
  rw [member] at ran
  split at ran
  · obtain ⟨_, id, ran⟩ := ran_bind ran fun _ _ _ _ ran => (memberId_run ran).2 ▸ .refl
    obtain ⟨attributesRan, attributes, ran⟩ := ran_bind ran fun _ _ _ good ran => (typesOf_steps good marked ran).1
    refine ⟨ran_typesOf marked attributesRan, ?_⟩
    -- Most members have a type alone, and it is read first.
    have single {next : Option TypeRef → Load Member} (same : memberRefs entry = [.ofDocument (entry.field "type")])
        (ran : Ran host types (typeOf (entry.field "type") >>= next)) : AllRan host types (memberRefs entry) := by
      have typed : RefersWithin types (.ofDocument (entry.field "type")) := .member within (by simp [same])
      obtain ⟨resolved, _⟩ := ran_bind ran fun _ _ _ good ran => (resolve_steps good typed ran).1
      rw [same]
      exact List.forall_mem_singleton.mpr resolved
    dsimp only at ran
    split at ran
    · next kind => exact ⟨single (by simp only [memberRefs, kind]) ran, by simp [kind]⟩
    · next kind =>
      have typed := RefersWithin.memberType within kind (by simp)
      have takes := RefersWithin.indices within kind
      obtain ⟨typeRan, _, ran⟩ := ran_bind ran fun _ _ _ good ran => (resolve_steps good typed ran).1
      obtain ⟨parametersRan, _⟩ := ran_bind ran fun _ _ _ good ran => (parametersOf_steps good takes ran).1
      refine ⟨?_, by simp [kind]⟩
      simp only [memberRefs, kind]
      exact List.forall_mem_cons.mpr ⟨typeRan, ran_parametersOf takes parametersRan⟩
    · next kind => exact ⟨single (by simp only [memberRefs, kind]) ran, by simp [kind]⟩
    · next kind => exact ⟨by simp [memberRefs, kind, AllRan], fun _ => ⟨id, ran_map ran⟩⟩
    · next kind => exact ⟨single (by simp only [memberRefs, kind]) ran, by simp [kind]⟩
    · exact absurd ran not_ran_refuse
  · exact absurd ran not_ran_refuse

theorem ran_resolveAll {references : List Reference} (within : ∀ reference ∈ references, RefersWithin types reference)
    (ran : Ran host types (resolveAll references)) : AllRan host types references := by
  induction references with
  | nil => simp [AllRan]
  | cons reference rest ih =>
    rw [resolveAll] at ran
    obtain ⟨first, _, ran⟩ := ran_bind ran fun _ _ _ good ran => (resolve_steps good (within _ List.mem_cons_self) ran).1
    obtain ⟨others, _⟩ := ran_bind ran fun _ _ _ good ran =>
      (resolveAll_steps good (fun other among => within other (List.mem_cons_of_mem _ among)) ran).1
    exact List.forall_mem_cons.mpr ⟨first, ih (fun other among => within other (List.mem_cons_of_mem _ among)) others⟩

theorem ran_parts {reference : Reference} (within : RefersWithin types reference)
    (ran : Ran host types (resolve reference)) : AllRan host types reference.parts := by
  have inside : ∀ part ∈ reference.parts, RefersWithin types part := fun _ among => .part within among
  obtain ⟨before, link, after, good, ran⟩ := ran
  cases resolution_of_run ran with
  | generic head tail =>
    obtain ⟨first, rest⟩ := List.forall_mem_cons.mp inside
    have start := (resolve_steps good first head).1
    exact List.forall_mem_cons.mpr ⟨⟨_, _, _, good, head⟩, ran_resolveAll rest ⟨_, _, _, good.steps start, tail⟩⟩
  | array inner => exact List.forall_mem_singleton.mpr ⟨_, _, _, good, inner⟩
  | pointer inner => exact List.forall_mem_singleton.mpr ⟨_, _, _, good, inner⟩
  | tuple filled => exact ran_resolveAll inside ⟨_, _, _, good, filled⟩
  | functionPointer gives takes =>
    obtain ⟨first, rest⟩ := List.forall_mem_cons.mp inside
    have start := (resolve_steps good first gives).1
    exact List.forall_mem_cons.mpr ⟨⟨_, _, _, good, gives⟩, ran_resolveAll rest ⟨_, _, _, good.steps start, takes⟩⟩
  | _ => simp [AllRan, Reference.parts]

variable (parts : ∀ entry ∈ types, PartsRan host types fuel entry)
include parts

theorem memberRan_of_within {entry : Document} (within : MemberWithin types entry) :
    ∃ owner index, Ran host types (member fuel owner entry index) := by
  obtain ⟨type, listed, among⟩ := within
  obtain ⟨index, inside⟩ := exists_mem_zipIdx among
  exact ⟨_, index, (parts type listed).members (entry, index) inside⟩

theorem methodRan_of_within {entry : Document} (within : MethodWithin types entry) :
    ∃ depth, MethodRan host types depth entry := by
  obtain ⟨member, memberWithin, kind, under⟩ := within
  induction under with
  | self =>
    obtain ⟨_, _, ran⟩ := memberRan_of_within parts memberWithin
    obtain ⟨_, _, method⟩ := ran_member memberWithin ran
    obtain ⟨id, ran⟩ := method kind
    exact methodRan_of_ran ⟨member, memberWithin, kind, .self⟩ ran
  | inner around listed nests ih =>
    obtain ⟨depth, outer⟩ := ih
    obtain ⟨id, ran⟩ := outer.inner _ listed nests
    exact methodRan_of_ran ⟨member, memberWithin, kind, .inner around listed nests⟩ ran

theorem parameterRan_of_within {parameter : Document} (within : ParameterWithin types parameter) :
    Ran host types (linkParameter parameter) := by
  cases within with
  | type listed among => exact (parts _ listed).parameters parameter among
  | method inside among =>
    obtain ⟨_, read⟩ := methodRan_of_within parts inside
    exact read.parameters parameter among

/-- Each reference of a manifest was resolved. -/
theorem ran_of_within {reference : Reference} (within : RefersWithin types reference) :
    Ran host types (resolve reference) := by
  induction within with
  | @head entry reference listed among =>
    have read := parts entry listed
    rcases mem_headRefs.mp among with rfl | interface | argument | mark
    · exact read.base
    · exact ran_typesOf (RefersWithin.interfaces listed) read.interfaces reference interface
    · exact ran_typesOf (RefersWithin.typeArguments listed) read.typeArguments reference argument
    · exact ran_typesOf (RefersWithin.attributes listed) read.attributes reference mark
  | marked inside among =>
    obtain ⟨_, _, ran⟩ := memberRan_of_within parts inside
    exact (ran_member inside ran).1 _ among
  | member inside among =>
    obtain ⟨_, _, ran⟩ := memberRan_of_within parts inside
    exact (ran_member inside ran).2.1 _ among
  | method inside among =>
    obtain ⟨_, read⟩ := methodRan_of_within parts inside
    exact read.references _ among
  | constraint inside constraining among =>
    exact ran_constraints inside constraining (parameterRan_of_within parts inside) _ among
  | part around listed ih => exact ran_parts around ih _ listed

end Reached

end Load

section Resolved

variable {host : Host} {types : List Document} {loading : Loading} {fuel : Nat}

/-- The table of a manifest once all of it is read, with as many ids made up. -/
def finished (manifest : ManifestUnit) (madeUp : Nat) : Loading :=
  ⟨manifest.path, manifest.table, manifest.ids, madeUp⟩

/-- A reference of a manifest is resolved to a symbol, or to none. -/
structure ResolvesTo (host : Host) (types : List Document) (manifest : ManifestUnit) (reference : Reference)
    (link : Option TypeRef) : Prop where
  /-- The finished table gives it. -/
  again : ∀ madeUp, ∃ after, (resolve reference).run (finished manifest madeUp) = .ok (link, after)
  /-- Every table on the way to the finished one gave it. -/
  given : ∀ before first after madeUp, Steps host types { path := manifest.path } before →
    (resolve reference).run before = .ok (first, after) → Steps host types after (finished manifest madeUp) → first = link

/-- A unit with the manifest that it was opened from, and the table once all types are read. -/
structure Opened (host : Host) (given : Document) (tree : FileTree) (unit : CompilationUnit) (data : Document)
    (types : List Document) (manifest : ManifestUnit) (loading : Loading) : Prop where
  read : ReadFrom host given tree data
  entries : entriesIn data = some types
  handle : unit.handle = .manifest manifest
  /-- The types were entered, and then linked. -/
  run : ∃ fuel middle, (types.forM (declareType host)).run { path := manifest.path } = .ok ((), middle)
    ∧ (types.forM (linkType fuel)).run middle = .ok ((), loading)
  same : loading = finished manifest loading.madeUp

theorem exists_opened {given : Document} {opening opened : World} {unit : CompilationUnit}
    (ran : (openUnit host given).outcome opening = (.ok unit, opened)) :
    ∃ data types manifest loading, Opened host given opening.tree unit data types manifest loading := by
  obtain ⟨path, bytes, data, manifest, name, read, loaded, _, opens, rfl⟩ := openUnit_eq_ok.mp ran
  obtain ⟨types, middle, loading, listed, entries, entered, linked, shown⟩ := load_eq_ok.mp loaded
  have path := shown.path.trans (types_reading entered linked).2
  exact ⟨data, types, manifest, loading,
    { read := ⟨_, bytes, read⟩
      entries
      handle := by rw [opens]
      run := ⟨_, middle, by rw [path]; exact entered, linked⟩
      same := by rw [finished, shown.path, shown.table, shown.ids] }⟩

theorem Opened.reading {given : Document} {tree : FileTree} {unit : CompilationUnit} {data : Document}
    {manifest : ManifestUnit} (opened : Opened host given tree unit data types manifest loading) :
    Reading host types loading := by
  obtain ⟨_, _, entered, linked⟩ := opened.run
  exact (types_reading entered linked).1

theorem Opened.parts {given : Document} {tree : FileTree} {unit : CompilationUnit} {data : Document}
    {manifest : ManifestUnit} (opened : Opened host given tree unit data types manifest loading) :
    ∃ fuel, ∀ entry ∈ types, PartsRan host types fuel entry := by
  obtain ⟨fuel, _, entered, linked⟩ := opened.run
  exact ⟨fuel, types_ran entered linked⟩

theorem Opened.ids {given : Document} {tree : FileTree} {unit : CompilationUnit} {data : Document}
    {manifest : ManifestUnit} (opened : Opened host given tree unit data types manifest loading) :
    loading.ids = manifest.ids := congrArg Loading.ids opened.same

theorem Opened.table {given : Document} {tree : FileTree} {unit : CompilationUnit} {data : Document}
    {manifest : ManifestUnit} (opened : Opened host given tree unit data types manifest loading) :
    loading.table = manifest.table := congrArg Loading.table opened.same

theorem Good.recounted (good : Good host types loading) (madeUp : Nat) : Good host types { loading with madeUp } := by
  have grows : Grows loading { loading with madeUp } :=
    ⟨rfl, fun _ _ found => found, fun _ _ found => found, fun _ symbol found => ⟨symbol, found, .refl symbol⟩⟩
  refine ⟨fun key ref found => ?_, good.entered, good.earlier, fun method listed => (good.methods method listed).grows grows⟩
  obtain ⟨fresh, symbol, there, arises⟩ := good.arises key ref found
  exact ⟨fresh, symbol, there, arises.grows grows⟩

theorem Stands.unique {ids : Ids} {first second : Reference} {link other : Option TypeRef} (stands : Stands ids first link)
    (also : Stands ids second other) (same : first.name? = second.name?) : link = other := by
  cases stands with
  | absent =>
    cases also with
    | absent => rfl
    | known named => cases same.trans named
  | known named found =>
    cases also with
    | absent => cases same.symm.trans named
    | known otherNamed otherFound =>
      cases (named.symm.trans same).trans otherNamed
      exact found.symm.trans otherFound

theorem absent_or_named {reference : Reference} (within : RefersWithin types reference)
    (ran : Ran host types (resolve reference)) : reference = .absent ∨ ∃ id, reference.name? = some id := by
  obtain ⟨_, _, _, good, ran⟩ := ran
  cases (resolve_steps good within ran).2 with
  | absent => exact Or.inl rfl
  | known named => exact Or.inr ⟨_, named⟩

theorem stands_of_within (reading : Reading host types loading) {reference : Reference}
    (within : RefersWithin types reference) (ran : Ran host types (resolve reference)) :
    ∃ link, Stands loading.ids reference link := by
  rcases absent_or_named within ran with rfl | ⟨id, named⟩
  · exact ⟨none, .absent⟩
  · have present := present_of_within reading within
    obtain ⟨ref, found⟩ := present _ .self id named
    exact ⟨some ref, .known named found present⟩

/-- A reference is resolved to the symbol of its id. -/
theorem resolvesTo_iff {given : Document} {tree : FileTree} {unit : CompilationUnit} {data : Document}
    {manifest : ManifestUnit} (opened : Opened host given tree unit data types manifest loading) {reference : Reference}
    (within : RefersWithin types reference) {link : Option TypeRef} :
    ResolvesTo host types manifest reference link ↔ Stands loading.ids reference link := by
  obtain ⟨fuel, parts⟩ := opened.parts
  have ran := ran_of_within parts within
  have good (madeUp : Nat) : Good host types (finished manifest madeUp) := by
    have good := opened.reading.good.recounted madeUp
    rwa [opened.same] at good
  have resolves {link : Option TypeRef} (stands : Stands loading.ids reference link) :
      ResolvesTo host types manifest reference link := by
    rw [opened.ids] at stands
    constructor
    · intro madeUp
      obtain ⟨_, _, _, first, was⟩ := ran
      obtain ⟨other, after, now⟩ := resolve_again first within was (good madeUp) within
      obtain ⟨steps, also⟩ := resolve_steps (good madeUp) within now
      obtain rfl := (stands.grows (grows_of_steps steps)).unique also rfl
      exact ⟨after, now⟩
    · intro before first after madeUp start was rest
      obtain ⟨_, also⟩ := resolve_steps ((good_start _).steps start) within was
      exact (also.grows (grows_of_steps rest)).unique stands rfl
  refine ⟨fun found => ?_, resolves⟩
  obtain ⟨other, stands⟩ := stands_of_within opened.reading within ran
  obtain ⟨_, one⟩ := found.again 0
  obtain ⟨_, two⟩ := (resolves stands).again 0
  cases one.symm.trans two
  exact stands

theorem resolves_iff_stand {given : Document} {tree : FileTree} {unit : CompilationUnit} {data : Document}
    {manifest : ManifestUnit} (opened : Opened host given tree unit data types manifest loading)
    {references : List Reference} {links : List (Option TypeRef)}
    (within : ∀ reference ∈ references, RefersWithin types reference) :
    List.Forall₂ (ResolvesTo host types manifest) references links ↔ List.Forall₂ (Stands loading.ids) references links := by
  constructor
  · intro resolves
    exact ((List.forall₂_and_left _ _).mpr ⟨within, resolves⟩).imp fun _ _ both => (resolvesTo_iff opened both.1).mp both.2
  · intro stand
    exact ((List.forall₂_and_left _ _).mpr ⟨within, stand⟩).imp fun _ _ both => (resolvesTo_iff opened both.1).mpr both.2

theorem Stands.name_eq (good : Good host types loading) {first second : Reference} {link : Option TypeRef}
    (stands : Stands loading.ids first link) (also : Stands loading.ids second link) : first.name? = second.name? := by
  cases stands with
  | absent =>
    cases also with
    | absent => rfl
  | known named found =>
    cases also with
    | known otherNamed otherFound =>
      rw [named, otherNamed, Key.text.inj (good.key_unique found otherFound)]

/-- References are resolved to the same symbols as others just when they have the same ids. -/
theorem stand_iff_names {given : Document} {tree : FileTree} {unit : CompilationUnit} {data : Document}
    {manifest : ManifestUnit} (opened : Opened host given tree unit data types manifest loading)
    {references others : List Reference} {links : List (Option TypeRef)}
    (within : ∀ reference ∈ references, RefersWithin types reference)
    (stand : List.Forall₂ (Stands loading.ids) others links) :
    List.Forall₂ (Stands loading.ids) references links ↔ references.map Reference.name? = others.map Reference.name? := by
  induction stand generalizing references with
  | nil => simp
  | @cons other link rest links head _ ih =>
    cases references with
    | nil => simp
    | cons reference more =>
      obtain ⟨first, later⟩ := List.forall_mem_cons.mp within
      rw [List.forall₂_cons, List.map_cons, List.map_cons, List.cons.injEq, ih later]
      refine and_congr_left fun _ => ⟨fun stands => stands.name_eq opened.reading.good head, fun same => ?_⟩
      obtain ⟨_, parts⟩ := opened.parts
      obtain ⟨found, stands⟩ := stands_of_within opened.reading first (ran_of_within parts first)
      obtain rfl := stands.unique head same
      exact stands

end Resolved

end DeclGraph.Manifest
