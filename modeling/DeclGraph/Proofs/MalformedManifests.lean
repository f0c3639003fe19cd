import DeclGraph.Proofs.FiledEntries
import DeclGraph.Proofs.MisplacedValues

/-!
Manifests that are malformed. Opening one fails with a report of that, except where a value is misplaced.
-/

namespace DeclGraph.Manifest

open Document (Nesting)

namespace Load

section Parts

variable {host : Host} {types : List Document} {hidden : Prop} {before after : Loading} {depth : Nat}

theorem checks_typeOf (good : Good host types before) {value : Document} (within : RefersWithin types (.ofDocument value))
    (nested : Nesting hidden depth value) : Checks hidden before (typeOf value) (MisplacedType value) :=
  checks_resolve good within (Reference.ends_ofDocument nested)

theorem checks_typesOf (good : Good host types before) {value : Document}
    (within : ∀ reference ∈ refersIn value, RefersWithin types reference) (nested : Nesting hidden depth value) :
    Checks hidden before (typesOf value) (MisplacedIn MisplacedType value) :=
  have inside : ∀ element ∈ looped value, RefersWithin types (.ofDocument element) :=
    fun _ among => within _ (List.mem_map_of_mem among)
  checks_each (Good host types) good
    (fun element among _ good => checks_typeOf good (inside element among) (nested.looped element among))
    fun element among _ _ _ good ran => good.steps (resolve_steps good (inside element among) ran).1

theorem checks_parameterOf (good : Good host types before) {entry value : Document}
    (within : ∀ reference ∈ parameterRefs value, RefersWithin types reference) (among : entry ∈ looped value)
    (nested : Nesting hidden depth entry) : Checks hidden before (parameterOf entry) (MisplacedParameter entry) := by
  have all := fun reference inside => within reference (List.mem_flatMap.mpr ⟨entry, among, inside⟩)
  unfold parameterOf
  cases mapping : entry.entries? with
  | some entries =>
    simp only [mapping] at all
    have typed := checks_typeOf good (all _ List.mem_cons_self) (nested.field "type")
    refine (checks_bind (q := MisplacedType (entry.field "default")) typed fun type middle ran => ?_).congr fun fault => ?_
    · have steps := (resolve_steps good (all _ List.mem_cons_self) ran).1
      exact checks_before (checks_typeOf (good.steps steps) (all _ (List.mem_cons_of_mem _ List.mem_cons_self))
        (nested.field "default")) fun _ _ _ => checks_pure _
    · constructor
      · rintro (⟨_, among, wrong⟩ | ⟨single, _⟩)
        · rcases List.mem_pair.mp among with rfl | rfl
          · exact Or.inl wrong
          · exact Or.inr wrong
        · exact nomatch mapping.symm.trans single
      · have given : entry.entries?.isSome = true := by rw [mapping]; rfl
        rintro (wrong | wrong)
        · exact .part given List.mem_cons_self wrong
        · exact .part given (List.mem_cons_of_mem _ List.mem_cons_self) wrong
  | none =>
    simp only [mapping] at all
    have typed := checks_typeOf good (all _ List.mem_cons_self) nested
    refine (checks_before typed fun _ _ _ => checks_pure _).congr fun fault => ?_
    constructor
    · rintro (⟨given, _⟩ | ⟨_, wrong⟩)
      · exact nomatch mapping ▸ given
      · exact wrong
    · exact .type mapping

theorem checks_parametersOf (good : Good host types before) {value : Document}
    (within : ∀ reference ∈ parameterRefs value, RefersWithin types reference) (nested : Nesting hidden depth value) :
    Checks hidden before (parametersOf value) (MisplacedIn MisplacedParameter value) := by
  rw [parametersOf_eq]
  exact checks_each (Good host types) good
    (fun entry among _ good => checks_parameterOf good within among (nested.looped entry among))
    fun _ among _ _ _ good ran => good.steps (parameterOf_steps good within among ran).1

def MisplacedId (parameter : Document) (fault : Fault) : Prop :=
  (parameterId parameter).key? = none ∧ fault = .notName (parameterId parameter).kindWord

def MisplacedConstraint (parameter : Document) (fault : Fault) : Prop :=
  Constraining parameter ∧ MisplacedIn MisplacedType (parameter.field "constraints") fault

theorem checks_keyOf (id : Document) : Checks hidden before (keyOf id) fun fault =>
    id.key? = none ∧ fault = .notName id.kindWord := by
  unfold keyOf
  cases keyed : id.key? with
  | some key => exact (checks_pure key).congr (by simp)
  | none => exact checks_of_fails rfl ⟨rfl, rfl⟩

theorem nested_parameterEntry {parameter : Document} (nested : Nesting hidden depth parameter) :
    (parameterEntry parameter).isShowable = true ∨ hidden := by
  unfold parameterEntry
  split
  · exact Or.inl rfl
  · exact nested.isShowable

theorem nested_parameterId {parameter : Document} (nested : Nesting hidden depth parameter) :
    Nesting hidden depth (parameterId parameter) := by
  unfold parameterId
  split
  · exact nested
  · exact nested.field "id"

theorem checks_declareParameter {parameter : Document} (nested : Nesting hidden depth parameter) :
    Checks hidden before (declareParameter parameter) (MisplacedId parameter) := by
  rw [declareParameter, givenId?, field_parameterEntry]
  cases given : (parameterId parameter).ifSet with
  | none => exact checks_refuse (List.forall_mem_singleton.mpr (nested_parameterEntry nested))
  | some id =>
    rw [Document.ifSet, Option.ite_none_right_eq_some, Option.some.injEq] at given
    obtain ⟨_, rfl⟩ := given
    refine checks_before (checks_keyOf _) fun key middle _ => ?_
    refine checks_after ⟨_, middle, find?_run.mpr ⟨rfl, rfl⟩⟩ fun found last _ => ?_
    split
    · rw [refuse_bind]
      exact checks_refuse (List.forall_mem_singleton.mpr (nested_parameterId nested).isShowable)
    · exact checks_after ⟨_, _, enter_run.mpr ⟨rfl, rfl⟩⟩ fun _ _ _ => checks_pure _

theorem checks_linkParameter (good : Good host types before) {parameter : Document} (within : ParameterWithin types parameter)
    (nested : Nesting hidden depth parameter) {key : Key} {ref : TypeRef} (keyed : (parameterId parameter).key? = some key)
    (found : before.ids.lookup key = some ref) :
    Checks hidden before (linkParameter parameter) (MisplacedConstraint parameter) := by
  unfold linkParameter
  split
  · next id =>
    exact (checks_of_succeeds ⟨ref, before, known_run.mpr ⟨⟨key, keyed, found⟩, rfl⟩⟩).congr fun _ =>
      iff_of_false (fun wrong => wrong.1 id rfl) not_false
  · next constraining =>
    rw [parameterId_of_constraining constraining] at keyed
    have known := known_run.mpr ⟨⟨key, keyed, found⟩, rfl⟩
    refine (checks_after (q := MisplacedIn MisplacedType (parameter.field "constraints")) ⟨ref, before, known⟩
      fun place middle ran => ?_).congr fun _ => and_iff_right constraining
    obtain ⟨_, rfl⟩ := known_run.mp ran
    have read := checks_typesOf good (fun _ among => .constraint within constraining among) (nested.field "constraints")
    exact checks_before read fun constraints last _ =>
      checks_of_succeeds ⟨place, _, bind_run.mpr ⟨(), _, update_run.mpr rfl, pure_run.mpr ⟨rfl, rfl⟩⟩⟩

theorem misplacedTypeParameter_iff {parameter : Document} {fault : Fault} :
    MisplacedTypeParameter parameter fault ↔ MisplacedId parameter fault ∨ MisplacedConstraint parameter fault := by
  constructor
  · rintro (unnamed | ⟨constraining, wrong⟩)
    · exact Or.inl ⟨unnamed, rfl⟩
    · exact Or.inr ⟨constraining, wrong⟩
  · rintro (⟨unnamed, rfl⟩ | ⟨constraining, wrong⟩)
    · exact .id unnamed
    · exact .constraint constraining wrong

def enteredParameter (parameter : Document) : Load (Option TypeRef) := do
  let key ← keyOf (parameterId parameter)
  if (← find? key).isNone then declareParameter parameter
  some <$> linkParameter parameter

theorem checks_enteredParameter (good : Good host types before) {parameter : Document}
    (within : ParameterWithin types parameter) (nested : Nesting hidden depth parameter) :
    Checks hidden before (enteredParameter parameter) (MisplacedTypeParameter parameter) := by
  refine Checks.congr (checks_bind (checks_keyOf (parameterId parameter)) fun key middle ran => ?_) fun _ =>
    misplacedTypeParameter_iff
  obtain ⟨keyed, rfl⟩ := keyOf_run.mp ran
  refine checks_after ⟨_, before, find?_run.mpr ⟨rfl, rfl⟩⟩ fun found middle ran => ?_
  obtain ⟨rfl, rfl⟩ := find?_run.mp ran
  cases found : before.ids.lookup key with
  | some ref => exact checks_map (checks_linkParameter good within nested keyed found)
  | none =>
    refine (checks_bind (checks_declareParameter nested) fun _ middle ran => ?_).congr fun _ =>
      (or_iff_right fun wrong => Option.some_ne_none key (keyed.symm.trans wrong.1)).symm
    have steps : Steps host types before middle := declareParameter_steps within ran
    obtain ⟨other, ref, _, same, there, _⟩ := declareParameter_entered ran
    exact checks_map (checks_linkParameter (good.steps steps) within nested same there)

theorem methodParameter_cases {parameter : Document} (nested : Nesting hidden depth parameter) :
    Parametric parameter ∧ methodParameter parameter = enteredParameter parameter
      ∨ ¬ Parametric parameter ∧ methodParameter parameter = throw (.lacks parameter.kindWord "get") := by
  have single : ∀ {value : Document}, (∀ id, value ≠ .text id) → value.entries?.isSome = false → ¬ Parametric value := by
    rintro value noText noMap (⟨id, rfl⟩ | mapping)
    · exact noText id rfl
    · exact nomatch noMap.symm.trans mapping
  cases nested with
  | @scalar _ value =>
    cases value with
    | text id => exact Or.inl ⟨Or.inl ⟨id, rfl⟩, rfl⟩
    | _ => exact Or.inr ⟨single nofun rfl, rfl⟩
  | map => exact Or.inl ⟨Or.inr rfl, rfl⟩
  | _ => exact Or.inr ⟨single nofun rfl, rfl⟩

theorem checks_methodParameter (good : Good host types before) {parameter : Document}
    (within : ParameterWithin types parameter) (nested : Nesting hidden depth parameter) :
    Checks hidden before (methodParameter parameter) (MisplacedMethodParameter parameter) := by
  rcases methodParameter_cases nested with ⟨parametric, same⟩ | ⟨neither, same⟩
  · rw [same]
    refine (checks_enteredParameter good within nested).congr fun fault => ⟨?_, .part⟩
    rintro (neither | wrong)
    · exact absurd parametric neither
    · exact wrong
  · exact checks_of_fails (by rw [same]; rfl) (.shape neither)

theorem checks_methodParameters (good : Good host types before) {value : Document}
    (within : ∀ parameter ∈ looped value, ParameterWithin types parameter) (nested : Nesting hidden depth value) :
    Checks hidden before (methodParameters value) (MisplacedIn MisplacedMethodParameter value) := by
  rw [methodParameters_eq]
  exact checks_each (Good host types) good
    (fun parameter among _ good => checks_methodParameter good (within parameter among) (nested.looped parameter among))
    fun parameter among _ _ _ good ran => good.steps (methodParameter_steps good (within parameter among) ran).1

end Parts

section Methods

variable {host : Host} {types : List Document} {hidden : Prop} {before after : Loading} {depth : Nat}

def MisplacedReference (reference : Document) (fault : Fault) : Prop :=
  MisplacedType (reference.field "type") fault ∨ Nests reference ∧ MisplacedMethod (innerMethod reference) fault

/-- Reading a method with this much fuel, if it is not nested deeper, fails as it should. -/
def ChecksMethods (host : Host) (types : List Document) (hidden : Prop) (fuel : Nat) : Prop :=
  ∀ before entry id depth, Good host types before → MethodWithin types entry → Nesting hidden depth entry → depth ≤ 2 * fuel →
    id.isShowable = true ∨ hidden → Checks hidden before (method fuel entry id) (MisplacedMethod entry)

theorem innerId_isShowable {id reference : Document} {index : Nat} {kind : ReferenceKind}
    (nested : Nesting hidden depth (innerMethod reference)) :
    (innerId id reference index kind).isShowable = true ∨ hidden := by
  unfold innerId
  cases given : ((innerMethod reference).field "id").ifSet with
  | none => exact Or.inl rfl
  | some other => exact ((nested.field "id").ifSet given).isShowable

theorem checks_innerIdOf {id reference : Document} {index : Nat} {kind : ReferenceKind}
    (shown : id.isShowable = true ∨ hidden) : Checks hidden before (innerIdOf id reference index kind) fun _ => False := by
  unfold innerIdOf
  split
  · exact checks_pure _
  · exact checks_before (checks_textOf shown) fun _ _ _ => checks_pure _

theorem checks_bodyReference {fuel : Nat} (reads : ChecksMethods host types hidden fuel) (good : Good host types before)
    {outer entry id : Document} {index : Nat} (within : MethodWithin types outer) (nested : Nesting hidden depth outer)
    (enough : depth ≤ 2 * (fuel + 1)) (listed : entry ∈ looped (outer.field "body"))
    (shown : id.isShowable = true ∨ hidden) :
    Checks hidden before (bodyReference fuel entry id index) (MisplacedReference entry) := by
  have typed := RefersWithin.occurrence within listed
  have inside := (nested.field "body").looped entry listed
  have ending (loading : Loading) (good : Good host types loading) (kind : ReferenceKind) (inner : Option MethodRef) :
      Checks hidden loading (referenceEnd entry kind inner) (MisplacedType (entry.field "type")) :=
    checks_before (checks_typeOf good typed (inside.field "type")) fun _ _ _ => checks_pure _
  rw [bodyReference_eq]
  split
  · exact checks_refuse (List.forall_mem_cons.mpr ⟨shown, List.forall_mem_singleton.mpr inside.isShowable⟩)
  · next kind known =>
    split
    · next nests =>
      obtain ⟨less, fewer, inner⟩ := nested_innerMethod nested listed nests
      split
      · refine checks_next (checks_innerIdOf shown) fun given middle named => ?_
        obtain ⟨_, rfl, rfl⟩ := innerIdOf_run.mp named
        have read := reads before (innerMethod entry) (innerId id entry index kind) less good (within.inner listed nests) inner
          (by omega) (innerId_isShowable inner)
        refine (checks_bind (q := MisplacedType (entry.field "type")) (checks_map read) fun nested middle ran => ?_).congr
          fun fault => ?_
        · obtain ⟨ref, taken, rfl⟩ := map_run.mp ran
          have steps := method_steps fuel _ _ _ _ _ good (within.inner listed nests) taken
          exact ending middle (good.steps steps.1) kind (some ref)
        · rw [MisplacedReference, and_iff_right nests, or_comm]
      · exact checks_refuse (List.forall_mem_singleton.mpr shown)
    · next plain =>
      refine (ending before good kind none).congr fun fault => ?_
      rw [MisplacedReference, or_iff_left fun wrong => plain wrong.1]

theorem exists_zipIdx {α : Type} {values : List α} {holds : α → Prop} :
    (∃ pair ∈ values.zipIdx, holds pair.1) ↔ ∃ value ∈ values, holds value := by
  constructor
  · rintro ⟨pair, among, held⟩
    exact ⟨pair.1, List.fst_mem_of_mem_zipIdx among, held⟩
  · rintro ⟨value, among, held⟩
    obtain ⟨index, place⟩ := exists_mem_zipIdx among
    exact ⟨(value, index), place, held⟩

theorem checks_bodyOf {fuel : Nat} (reads : ChecksMethods host types hidden fuel) (good : Good host types before)
    {outer id : Document} (within : MethodWithin types outer) (nested : Nesting hidden depth outer)
    (enough : depth ≤ 2 * (fuel + 1)) (shown : id.isShowable = true ∨ hidden) :
    Checks hidden before (bodyOf fuel (outer.field "body") id) (MisplacedIn MisplacedReference (outer.field "body")) := by
  rw [bodyOf]
  have among {pair : Document × Nat} (place : pair ∈ (looped (outer.field "body")).zipIdx) :
      pair.1 ∈ looped (outer.field "body") :=
    List.fst_mem_of_mem_zipIdx place
  exact checks_loop ((checks_mapM (r := fun pair : Document × Nat => MisplacedReference pair.1) (Good host types) good
    (fun _ place _ good => checks_bodyReference reads good within nested enough (among place) shown)
    fun _ place _ _ _ good ran => good.steps (bodyReference_steps (method_steps fuel) good within (among place) ran).1).congr
      fun _ => exists_zipIdx.symm)

theorem not_misplacedIn_null {r : Document → Fault → Prop} (fault : Fault) : ¬ MisplacedIn r .null fault := by
  rintro (set | listed)
  · cases set
  · cases listed

theorem checks_methodBody {fuel : Nat} (reads : ChecksMethods host types hidden fuel) (good : Good host types before)
    {outer id : Document} (within : MethodWithin types outer) (nested : Nesting hidden depth outer)
    (enough : depth ≤ 2 * (fuel + 1)) (shown : id.isShowable = true ∨ hidden) :
    Checks hidden before (methodBody fuel outer id) (MisplacedIn MisplacedReference (outer.field "body")) := by
  unfold methodBody
  split
  · exact checks_map (checks_bodyOf reads good within nested enough shown)
  · next bodyless =>
    refine (checks_pure none).congr fun fault => iff_of_false ?_ not_false
    rw [field_of_bodyless bodyless]
    exact not_misplacedIn_null fault

theorem checks_methodEnd (good : Good host types before) {entry id : Document} {typeParameters : List (Option TypeRef)}
    {body : Option (List BodyReference)} (within : MethodWithin types entry) (nested : Nesting hidden depth entry) :
    Checks hidden before (methodEnd entry id typeParameters body) fun fault =>
      MisplacedType (entry.field "return_type") fault ∨ MisplacedIn MisplacedParameter (entry.field "parameters") fault
        ∨ MisplacedIn MisplacedType (entry.field "attributes") fault := by
  have returns := RefersWithin.returnType within
  have takes := RefersWithin.parameters within
  have marks := RefersWithin.methodAttributes within
  refine checks_bind (checks_typeOf good returns (nested.field "return_type")) fun returnType second ran => ?_
  have secondGood := good.steps (resolve_steps good returns ran).1
  refine checks_bind (checks_parametersOf secondGood takes (nested.field "parameters")) fun parameters third ran => ?_
  have thirdGood := secondGood.steps (parametersOf_steps secondGood takes ran).1
  exact checks_before (checks_typesOf thirdGood marks (nested.field "attributes")) fun attributes last _ =>
    checks_of_succeeds ⟨_, _, enterMethod_run.mpr ⟨rfl, rfl⟩⟩

theorem misplacedMethod_iff {method : Document} {fault : Fault} : MisplacedMethod method fault ↔
    MisplacedIn MisplacedMethodParameter (method.field "type_parameters") fault
      ∨ MisplacedIn MisplacedReference (method.field "body") fault ∨ MisplacedType (method.field "return_type") fault
      ∨ MisplacedIn MisplacedParameter (method.field "parameters") fault
      ∨ MisplacedIn MisplacedType (method.field "attributes") fault := by
  constructor
  · intro misplaced
    cases misplaced with
    | typeParameters wrong => exact Or.inl wrong
    | body wrong =>
      refine Or.inr (Or.inl ?_)
      cases wrong with
      | single set single => exact .single set single
      | element listed wrong => exact .element listed (Or.inl wrong)
    | inner listed nests wrong => exact Or.inr (Or.inl (.element listed (Or.inr ⟨nests, wrong⟩)))
    | returnType wrong => exact Or.inr (Or.inr (Or.inl wrong))
    | parameters wrong => exact Or.inr (Or.inr (Or.inr (Or.inl wrong)))
    | attributes wrong => exact Or.inr (Or.inr (Or.inr (Or.inr wrong)))
  · rintro (wrong | wrong | wrong | wrong | wrong)
    · exact .typeParameters wrong
    · cases wrong with
      | single set single => exact .body (.single set single)
      | element listed wrong =>
        rcases wrong with wrong | ⟨nests, wrong⟩
        · exact .body (.element listed wrong)
        · exact .inner listed nests wrong
    · exact .returnType wrong
    · exact .parameters wrong
    · exact .attributes wrong

theorem checks_method (fuel : Nat) : ChecksMethods host types hidden fuel := by
  induction fuel with
  | zero =>
    intro before entry id depth _ _ nested enough
    exact absurd nested.pos (Nat.not_lt.mpr enough)
  | succ fuel ih =>
    intro before entry id depth good within nested enough shown
    rw [method_succ]
    refine Checks.congr (checks_bind (checks_methodParameters good (fun _ among => .method within among)
      (nested.field "type_parameters")) fun typeParameters second ran => ?_) fun _ => misplacedMethod_iff
    have secondGood := good.steps (methodParameters_steps good (fun _ among => .method within among) ran).1
    refine checks_bind (checks_methodBody ih secondGood within nested enough shown) fun body third ran => ?_
    exact checks_methodEnd (secondGood.steps (methodBody_steps (method_steps fuel) secondGood within ran).1) within nested

end Methods

section Members

variable {host : Host} {types : List Document} {hidden : Prop} {before after : Loading} {depth : Nat}

theorem checks_memberId {owner entry : Document} {index : Nat} (nested : Nesting hidden depth entry)
    (shown : owner.isShowable = true ∨ hidden) (counted : (Document.nat index).isShowable = true ∨ hidden) :
    Checks hidden before (memberId owner entry index) fun _ => False := by
  unfold memberId
  split
  · exact checks_pure _
  · refine checks_next (checks_textOf shown) fun _ _ _ => checks_before (checks_textOf ?_) fun _ _ _ => checks_pure _
    cases given : (entry.field "name").ifSet with
    | none => exact counted
    | some name => exact ((nested.field "name").ifSet given).isShowable

theorem memberId_isShowable {owner entry : Document} {index : Nat} (nested : Nesting hidden depth entry) :
    (memberIdOf owner entry index).isShowable = true ∨ hidden := by
  unfold memberIdOf
  cases given : (entry.field "id").ifSet with
  | none => exact Or.inl rfl
  | some id => exact ((nested.field "id").ifSet given).isShowable

theorem misplacedMember_iff {member : Document} {fault : Fault} : MisplacedMember member fault ↔
    MisplacedIn MisplacedType (member.field "attributes") fault ∨ MisplacedShape member fault := by
  constructor
  · rintro (wrong | wrong)
    · exact Or.inl wrong
    · exact Or.inr wrong
  · rintro (wrong | wrong)
    · exact .attributes wrong
    · exact .shape wrong

theorem checks_member {fuel : Nat} (good : Good host types before) {owner entry : Document} {index : Nat}
    (within : MemberWithin types entry) (nested : Nesting hidden depth entry) (enough : depth ≤ 2 * fuel)
    (shown : owner.isShowable = true ∨ hidden) (counted : (Document.nat index).isShowable = true ∨ hidden) :
    Checks hidden before (member fuel owner entry index) (MisplacedMember entry) := by
  rw [member]
  split
  · refine Checks.congr ?_ fun _ => misplacedMember_iff
    refine checks_next (checks_memberId nested shown counted) fun id middle ran => ?_
    obtain ⟨rfl, rfl⟩ := memberId_run ran
    have marks := RefersWithin.memberAttributes within
    refine checks_bind (checks_typesOf good marks (nested.field "attributes")) fun attributes middle ran => ?_
    have middleGood := good.steps (typesOf_steps good marks ran).1
    have reads (typed : RefersWithin types (.ofDocument (entry.field "type"))) :
        Checks hidden middle (typeOf (entry.field "type")) (MisplacedType (entry.field "type")) :=
      checks_typeOf middleGood typed (nested.field "type")
    dsimp only
    split
    · next kind =>
      have typed := RefersWithin.memberType within kind (by simp)
      exact (checks_before (reads typed) fun _ _ _ => checks_pure _).congr fun _ => by simp only [MisplacedShape, kind]
    · next kind =>
      have typed := RefersWithin.memberType within kind (by simp)
      have takes := RefersWithin.indices within kind
      refine (checks_bind (q := MisplacedIn MisplacedParameter (entry.field "parameters")) (reads typed)
        fun type last ran => ?_).congr fun _ => by simp only [MisplacedShape, kind]
      have lastGood := middleGood.steps (resolve_steps middleGood typed ran).1
      exact checks_before (checks_parametersOf lastGood takes (nested.field "parameters")) fun _ _ _ => checks_pure _
    · next kind =>
      have typed := RefersWithin.memberType within kind (by simp)
      exact (checks_before (reads typed) fun _ _ _ => checks_pure _).congr fun _ => by simp only [MisplacedShape, kind]
    · next kind =>
      exact (checks_map (checks_method fuel _ _ _ depth middleGood ⟨entry, within, kind, .self⟩ nested enough
        (memberId_isShowable nested))).congr fun _ => by simp only [MisplacedShape, kind]
    · next kind =>
      have typed := RefersWithin.memberType within kind (by simp)
      refine (checks_before (reads typed) fun link last _ => ?_).congr fun _ => by simp only [MisplacedShape, kind]
      split
      · exact checks_pure _
      · exact checks_refuse (List.forall_mem_singleton.mpr shown)
    · exact checks_refuse (List.forall_mem_cons.mpr ⟨(nested.field "kind").isShowable, List.forall_mem_singleton.mpr shown⟩)
  · exact checks_refuse (List.forall_mem_cons.mpr ⟨shown, List.forall_mem_singleton.mpr nested.isShowable⟩)

end Members

section Types

variable {host : Host} {types : List Document} {hidden : Prop} {before after : Loading} {depth : Nat}

theorem checks_pathOf {value : Document} (shown : value.isShowable = true ∨ hidden) :
    Checks hidden before (pathOf host value) fun _ => False := by
  unfold pathOf
  split
  · split
    · exact checks_refuse (List.forall_mem_singleton.mpr shown)
    · exact checks_of_succeeds ⟨_, before, rfl⟩
  · exact checks_refuse (List.forall_mem_singleton.mpr shown)

def MisplacedIds (entry : Document) (fault : Fault) : Prop :=
  ((entry.field "id").isSet = true ∧ (entry.field "id").key? = none ∧ fault = .notName (entry.field "id").kindWord)
    ∨ MisplacedIn MisplacedId (entry.field "type_parameters") fault

theorem checks_declareType {entry : Document} (nested : Nesting hidden depth entry) :
    Checks hidden before (declareType host entry) (MisplacedIds entry) := by
  have rest (loading : Loading) (key : Key) (symbol : TypeSymbol) : Checks hidden loading (do
      let _ ← enter key symbol
      (← loop (entry.field "type_parameters")).forM declareParameter)
      (MisplacedIn MisplacedId (entry.field "type_parameters")) :=
    checks_after ⟨_, _, enter_run.mpr ⟨rfl, rfl⟩⟩ fun _ middle _ =>
      checks_loop (checks_forM (fun _ => True) trivial
        (fun parameter among _ _ => checks_declareParameter ((nested.field "type_parameters").looped parameter among))
        fun _ _ _ _ _ _ => trivial)
  rw [declareType, givenId?]
  cases given : (entry.field "id").ifSet with
  | none => exact checks_refuse (List.forall_mem_singleton.mpr nested.isShowable)
  | some id =>
    rw [Document.ifSet, Option.ite_none_right_eq_some, Option.some.injEq] at given
    obtain ⟨set, rfl⟩ := given
    refine Checks.congr (checks_bind (checks_keyOf (entry.field "id")) fun key middle _ => ?_) fun _ =>
      or_congr_left (and_iff_right set)
    refine checks_after ⟨_, middle, find?_run.mpr ⟨rfl, rfl⟩⟩ fun found last _ => ?_
    dsimp only
    by_cases taken : found.isSome = true
    · rw [if_pos taken, refuse_bind]
      exact checks_refuse (List.forall_mem_singleton.mpr (nested.field "id").isShowable)
    · rw [if_neg taken]
      cases given : (entry.field "file").ifSet with
      | none => exact checks_after ⟨_, _, pure_run.mpr ⟨rfl, rfl⟩⟩ fun _ _ _ => rest _ _ _
      | some file =>
        exact checks_next (checks_map (checks_pathOf ((nested.field "file").ifSet given).isShowable)) fun _ _ _ => rest _ _ _

theorem checks_linked {α : Type} (link : Link) {entry : Document} {key : Key} {ref : TypeRef} {op : Load α}
    {change : α → TypeSymbol → TypeSymbol} {next : α → Load Unit} {p q : Fault → Prop} (listed : entry ∈ types)
    (keyed : (entry.field "id").key? = some key) (ready : Ready host types before)
    (found : before.ids.lookup key = some ref) (checks : Checks hidden before op p)
    (sets : ∀ value symbol, Sets link symbol (change value symbol))
    (reads : ∀ value middle, op.run before = .ok (value, middle) →
      Steps host types before middle ∧ ∀ symbol, link.Is middle entry (change value symbol))
    (rest : ∀ value middle, Ready host types middle → middle.ids.lookup key = some ref →
      Checks hidden middle (next value) q) :
    Checks hidden before (op >>= fun value => update ref (change value) >>= fun _ => next value) fun fault =>
      p fault ∨ q fault := by
  refine checks_bind checks fun value first ran => ?_
  obtain ⟨one, is⟩ := reads value first ran
  have still := (grows_of_steps one).ids key ref found
  refine checks_after ⟨(), _, update_run.mpr rfl⟩ fun _ second updated => ?_
  obtain ⟨two, _⟩ := update_steps link (ready.good.steps one) listed keyed still updated (sets value) is
  exact rest value second (ready.steps (one.trans two)) ((grows_of_steps two).ids key ref still)

/-- What is misplaced in the entry of a type, apart from the ids that it gives. -/
def MisplacedLink (entry : Document) (fault : Fault) : Prop :=
  MisplacedType (entry.field "base") fault ∨ MisplacedIn MisplacedType (entry.field "interfaces") fault
    ∨ MisplacedIn MisplacedConstraint (entry.field "type_parameters") fault
    ∨ MisplacedIn MisplacedType (entry.field "type_arguments") fault
    ∨ MisplacedIn MisplacedType (entry.field "attributes") fault ∨ MisplacedIn MisplacedMember (entry.field "members") fault

theorem checks_linkParameters (ready : Ready host types before) {entry : Document} (listed : entry ∈ types)
    (nested : Nesting hidden depth entry) :
    Checks hidden before ((looped (entry.field "type_parameters")).mapM linkParameter) fun fault =>
      ∃ parameter ∈ looped (entry.field "type_parameters"), MisplacedConstraint parameter fault :=
  checks_mapM (Ready host types) ready
    (fun parameter among loading ready => by
      obtain ⟨key, ref, _, keyed, found, _⟩ := ready.entered entry listed parameter among
      have parametric := (nested.field "type_parameters").looped parameter among
      exact checks_linkParameter ready.good (.type listed among) parametric keyed
        found)
    fun _ among _ _ _ ready ran => ready.steps (linkParameter_steps ready.good (.type listed among) ran).1

theorem checks_members {fuel : Nat} (good : Good host types before) {entry : Document} (listed : entry ∈ types)
    (nested : Nesting hidden depth entry) (enough : depth ≤ 2 * fuel)
    (counted : ∀ index < (looped (entry.field "members")).length, (Document.nat index).isShowable = true ∨ hidden) :
    Checks hidden before ((looped (entry.field "members")).zipIdx.mapM fun (member, index) =>
      Load.member fuel (entry.field "id") member index) fun fault =>
        ∃ member ∈ looped (entry.field "members"), MisplacedMember member fault := by
  have within {pair : Document × Nat} (place : pair ∈ (looped (entry.field "members")).zipIdx) : MemberWithin types pair.1 :=
    ⟨entry, listed, List.fst_mem_of_mem_zipIdx place⟩
  refine (checks_mapM (r := fun pair : Document × Nat => MisplacedMember pair.1) (Good host types) good
    (fun pair place _ good => ?_) fun _ place _ _ _ good ran => good.steps (member_steps good (within place) ran).1).congr
      fun _ => exists_zipIdx.symm
  have inside := (nested.field "members").looped pair.1 (List.fst_mem_of_mem_zipIdx place)
  exact checks_member good (within place) inside enough (nested.field "id").isShowable
    (counted pair.2 (List.snd_lt_of_mem_zipIdx place))

theorem checks_linkType {fuel : Nat} (ready : Ready host types before) {entry : Document} (listed : entry ∈ types)
    (nested : Nesting hidden depth entry) (enough : depth ≤ 2 * fuel)
    (counted : ∀ index < (looped (entry.field "members")).length, (Document.nat index).isShowable = true ∨ hidden) :
    Checks hidden before (linkType fuel entry) (MisplacedLink entry) := by
  have base := RefersWithin.base listed
  have interfaces := RefersWithin.interfaces listed
  have typeArguments := RefersWithin.typeArguments listed
  have attributes := RefersWithin.attributes listed
  obtain ⟨key, ref, _, _, _, keyed, _, found, _, _⟩ := ready.declared entry listed
  have known := known_run.mpr ⟨⟨key, keyed, found⟩, rfl⟩
  refine checks_after ⟨ref, before, known⟩ fun place middle ran => ?_
  obtain ⟨⟨other, also, there⟩, rfl⟩ := known_run.mp ran
  cases keyed.symm.trans also
  cases found.symm.trans there
  refine checks_linked .base listed keyed ready found (checks_typeOf ready.good base (nested.field "base")) sets_base
    (fun _ _ ran => (resolve_steps ready.good base ran).imp_right fun stands _ => stands) fun _ first ready found => ?_
  refine checks_linked .interfaces listed keyed ready found
    (checks_typesOf ready.good interfaces (nested.field "interfaces")) sets_interfaces
    (fun _ _ ran => (typesOf_steps ready.good interfaces ran).imp_right fun lists _ => lists) fun _ second ready found => ?_
  refine checks_loop_bind ?_
  refine checks_linked .typeParameters listed keyed ready found (checks_linkParameters ready listed nested)
    (fun _ => sets_typeParameters _)
    (fun _ _ ran => (linkParameters_steps ready.good (fun _ among => .type listed among) ran).imp_right fun are _ => are)
    fun _ third ready found => ?_
  refine checks_linked .typeArguments listed keyed ready found
    (checks_typesOf ready.good typeArguments (nested.field "type_arguments")) sets_typeArguments
    (fun _ _ ran => (typesOf_steps ready.good typeArguments ran).imp_right fun lists _ => lists) fun _ fourth ready found => ?_
  refine checks_linked .attributes listed keyed ready found
    (checks_typesOf ready.good attributes (nested.field "attributes")) sets_attributes
    (fun _ _ ran => (typesOf_steps ready.good attributes ran).imp_right fun lists _ => lists) fun _ fifth ready found => ?_
  exact checks_loop (checks_before (checks_members ready.good listed nested enough counted) fun _ _ _ =>
    checks_of_succeeds ⟨(), _, update_run.mpr rfl⟩)

end Types

section Whole

variable {host : Host} {types : List Document} {hidden : Prop} {before after : Loading} {depth : Nat} {data : Document}

theorem nested_mapped {value : Document} (nested : Nesting hidden depth value) :
    ∀ entry ∈ mapped value, (entry.1.isShowable = true ∨ hidden) ∧ Nesting hidden depth entry.2 := by
  obtain ⟨less, rfl⟩ := Nat.exists_eq_add_one.mpr nested.pos
  unfold mapped
  split
  · cases mapping : value.entries? with
    | none => exact nofun
    | some entries =>
      exact fun entry listed => (nested.entries mapping entry listed).imp_right fun inner => inner.mono (Nat.le_succ _)
  · exact nofun

def MisplacedRows (value : Document) (fault : Fault) : Prop :=
  value.isSet = true ∧ value.entries? = none ∧ fault = .lacks value.kindWord "items"

theorem checks_rows {β : Type} {value : Document} {step : β → Scalar × Document → Load β} {start : β}
    (each : ∀ entry ∈ mapped value, ∀ state loading, Checks hidden loading (step state entry) fun _ => False) :
    Checks hidden before (do (← entriesOf value).foldlM step start) (MisplacedRows value) := by
  by_cases mapping : value.isSet = true → value.entries?.isSome = true
  · have given : (entriesOf value).run before = .ok (mapped value, before) := entriesOf_run.mpr ⟨rfl, mapping, rfl⟩
    refine (checks_after (q := fun _ => False) ⟨_, before, given⟩ fun entries middle ran => ?_).congr fun fault => ?_
    · obtain ⟨rfl, _, rfl⟩ := entriesOf_run.mp ran
      exact checks_foldlM (fun _ => True) trivial (fun entry listed state loading _ => each entry listed state loading)
        fun _ _ _ _ _ _ _ _ => trivial
    · exact iff_of_false (fun wrong => nomatch wrong.2.1 ▸ mapping wrong.1) not_false
  · rw [Classical.not_imp, Option.isSome_iff_ne_none, ne_eq, not_not] at mapping
    refine checks_of_fails ?_ ⟨mapping.1, mapping.2, rfl⟩
    rw [bind_error, entriesOf, mapping.1, mapping.2]
    exact Or.inl rfl

theorem checks_texts {values : List Document} (shown : ∀ value ∈ values, value.isShowable = true ∨ hidden) :
    Checks hidden before (values.mapM textOf) fun _ => False :=
  (checks_mapM (r := fun _ _ => False) (fun _ => True) trivial (fun value among _ _ => checks_textOf (shown value among))
    fun _ _ _ _ _ _ _ => trivial).congr (by simp)

theorem checks_listedDeclarations {value : Document} (nested : Nesting hidden depth value) :
    Checks hidden before (listedDeclarations host value) (MisplacedRows value) := by
  refine checks_rows fun entry listed rows loading => ?_
  obtain ⟨key, inner⟩ := nested_mapped nested entry listed
  dsimp only
  cases ids : entry.2.items? with
  | none => exact checks_refuse (List.forall_mem_singleton.mpr key)
  | some texts =>
    have shown := fun text among => (inner.items ids text among).isShowable
    exact checks_next (checks_texts shown) fun _ _ _ => checks_before (checks_pathOf key) fun _ _ _ => checks_pure _

theorem checks_markersOf {value : Document} (nested : Nesting hidden depth value) :
    Checks hidden before (markersOf host value) (MisplacedRows value) := by
  refine checks_rows fun entry listed rows loading => ?_
  obtain ⟨key, inner⟩ := nested_mapped nested entry listed
  have shown : ∀ text ∈ entry.2.items?.getD [entry.2], text.isShowable = true ∨ hidden := by
    cases ids : entry.2.items? with
    | none => exact List.forall_mem_singleton.mpr inner.isShowable
    | some texts => exact fun text among => (inner.items ids text among).isShowable
  exact checks_next (checks_texts shown) fun _ _ _ => checks_before (checks_pathOf key) fun _ _ _ => checks_pure _

theorem checks_paths {values : List Document} (shown : ∀ value ∈ values, value.isShowable = true ∨ hidden) :
    Checks hidden before (values.mapM (pathOf host)) fun _ => False :=
  (checks_mapM (r := fun _ _ => False) (fun _ => True) trivial (fun value among _ _ => checks_pathOf (shown value among))
    fun _ _ _ _ _ _ _ => trivial).congr (by simp)

theorem checks_sourcesOf {files : Document} {rows : List (String × List Document)} (nested : Nesting hidden depth files) :
    Checks hidden before (sourcesOf host files rows) fun fault =>
      files ≠ .null ∧ files.elements? = none ∧ fault = .notIterable files.kindWord := by
  unfold sourcesOf
  split
  · exact (checks_pure _).congr fun _ => iff_of_false (fun wrong => wrong.1 rfl) not_false
  · next given =>
    cases met : files.elements? with
    | none => exact checks_of_fails rfl ⟨given, rfl, rfl⟩
    | some elements =>
      exact (checks_paths fun element listed => (nested.elements met element listed).isShowable).congr fun _ =>
        iff_of_false (fun wrong => nomatch wrong.2.1) not_false

theorem checks_pathsIn {value : Document} (nested : Nesting hidden depth value) :
    Checks hidden before (pathsIn host value) (MisplacedIn (fun _ _ => False) value) :=
  checks_loop ((checks_paths fun element listed => (nested.looped element listed).isShowable).congr (by simp))

theorem checks_declarationsOf (ready : Ready host types before) (listed : List (String × List Document)) :
    Checks hidden before (declarationsOf types listed) fun _ => False := by
  unfold declarationsOf
  split
  · rw [ownDeclarations_eq]
    refine checks_foldlM (· = before) rfl (fun entry among rows loading same => ?_)
      fun entry _ rows loading result after same ran => (still_addOwn rows entry loading result after ran).symm.trans same
    obtain ⟨key, ref, _, _, symbol, keyed, _, found, there, _⟩ := ready.declared entry among
    subst same
    exact checks_of_succeeds ⟨_, _, addOwn_run.mpr ⟨key, ref, symbol, keyed, found, there, rfl, rfl⟩⟩
  · exact checks_pure _

theorem misplacedIn_or {r s t : Document → Fault → Prop} {value : Document} {fault : Fault}
    (either : ∀ value fault, r value fault ↔ s value fault ∨ t value fault) :
    MisplacedIn r value fault ↔ MisplacedIn s value fault ∨ MisplacedIn t value fault := by
  constructor
  · rintro (⟨set, single⟩ | ⟨listed, wrong⟩)
    · exact Or.inl (.single set single)
    · exact ((either _ fault).mp wrong).imp (.element listed) (.element listed)
  · rintro ((⟨set, single⟩ | ⟨listed, wrong⟩) | (⟨set, single⟩ | ⟨listed, wrong⟩))
    · exact .single set single
    · exact .element listed ((either _ fault).mpr (Or.inl wrong))
    · exact .single set single
    · exact .element listed ((either _ fault).mpr (Or.inr wrong))

theorem misplacedEntry_iff {entry : Document} {fault : Fault} :
    MisplacedEntry entry fault ↔ MisplacedIds entry fault ∨ MisplacedLink entry fault := by
  have parameters : MisplacedIn MisplacedTypeParameter (entry.field "type_parameters") fault ↔ _ :=
    misplacedIn_or fun _ _ => misplacedTypeParameter_iff
  constructor
  · intro wrong
    cases wrong with
    | id set unnamed => exact Or.inl (Or.inl ⟨set, unnamed, rfl⟩)
    | base wrong => exact Or.inr (Or.inl wrong)
    | types among wrong =>
      simp only [List.mem_cons, List.not_mem_nil, or_false] at among
      rcases among with rfl | rfl | rfl
      · exact Or.inr (Or.inr (Or.inl wrong))
      · exact Or.inr (Or.inr (Or.inr (Or.inr (Or.inl wrong))))
      · exact Or.inr (Or.inr (Or.inr (Or.inr (Or.inr (Or.inl wrong)))))
    | typeParameters wrong =>
      rcases parameters.mp wrong with wrong | wrong
      · exact Or.inl (Or.inr wrong)
      · exact Or.inr (Or.inr (Or.inr (Or.inl wrong)))
    | members wrong => exact Or.inr (Or.inr (Or.inr (Or.inr (Or.inr (Or.inr wrong)))))
  · rintro ((⟨set, unnamed, rfl⟩ | wrong) | wrong | wrong | wrong | wrong | wrong | wrong)
    · exact .id set unnamed
    · exact .typeParameters (parameters.mpr (Or.inl wrong))
    · exact .base wrong
    · exact .types (by simp) wrong
    · exact .typeParameters (parameters.mpr (Or.inr wrong))
    · exact .types (by simp) wrong
    · exact .types (by simp) wrong
    · exact .members wrong

/-- The place of each member of a type can be written, unless `hidden`. -/
def Counted (hidden : Prop) (entry : Document) : Prop :=
  ∀ index < (looped (entry.field "members")).length, (Document.nat index).isShowable = true ∨ hidden

theorem nested_entriesIn (nested : Nesting hidden depth data) (given : entriesIn data = some types) :
    ∀ entry ∈ types, Nesting hidden depth entry := by
  unfold entriesIn at given
  cases listed : (data.field "types").ifSet with
  | none =>
    rw [listed] at given
    cases given
    exact List.forall_mem_nil _
  | some value =>
    rw [listed] at given
    exact ((nested.field "types").ifSet listed).items given

theorem ready_of_declared {path : String} (entered : (types.forM (declareType host)).run { path } = .ok ((), after)) :
    Apart types ∧ Ready host types after := by
  have start : Good host types { path } := good_start path
  obtain ⟨steps, declared, _, pairs⟩ := declareTypes_steps start (fun _ among => among) entered
  exact ⟨apart_of_pairwise pairs, start.steps steps, fun entry listed => (declared entry listed).1,
    fun entry listed => (declared entry listed).2⟩

/-- What is misplaced outside of the types. -/
def MisplacedRest (data : Document) (fault : Fault) : Prop :=
  MisplacedRows (data.field "declarations") fault
    ∨ (data.field "files" ≠ .null ∧ (data.field "files").elements? = none ∧ fault = .notIterable (data.field "files").kindWord)
    ∨ MisplacedIn (fun _ _ => False) (data.field "markup_files") fault
    ∨ MisplacedRows (data.field "original_file_markers") fault

theorem misplaced_data_iff (given : entriesIn data = some types) {fault : Fault} : Misplaced data fault ↔
    (∃ entry ∈ types, MisplacedIds entry fault) ∨ (∃ entry ∈ types, MisplacedLink entry fault) ∨ MisplacedRest data fault := by
  constructor
  · intro wrong
    cases wrong with
    | entry also listed wrong =>
      cases given.symm.trans also
      rcases misplacedEntry_iff.mp wrong with wrong | wrong
      · exact Or.inl ⟨_, listed, wrong⟩
      · exact Or.inr (Or.inl ⟨_, listed, wrong⟩)
    | rows among set single =>
      rcases List.mem_pair.mp among with rfl | rfl
      · exact Or.inr (Or.inr (Or.inl ⟨set, single, rfl⟩))
      · exact Or.inr (Or.inr (Or.inr (Or.inr (Or.inr ⟨set, single, rfl⟩))))
    | files there single => exact Or.inr (Or.inr (Or.inr (Or.inl ⟨there, single, rfl⟩)))
    | markupFiles set single => exact Or.inr (Or.inr (Or.inr (Or.inr (Or.inl (.single set single)))))
  · rintro (⟨_, listed, wrong⟩ | ⟨_, listed, wrong⟩ | wrong | wrong | wrong | wrong)
    · exact .entry given listed (misplacedEntry_iff.mpr (Or.inl wrong))
    · exact .entry given listed (misplacedEntry_iff.mpr (Or.inr wrong))
    · obtain ⟨set, single, rfl⟩ := wrong
      exact .rows List.mem_cons_self set single
    · obtain ⟨there, single, rfl⟩ := wrong
      exact .files there single
    · cases wrong with
      | single set single => exact .markupFiles set single
      | element _ wrong => exact wrong.elim
    · obtain ⟨set, single, rfl⟩ := wrong
      exact .rows (List.mem_cons_of_mem _ List.mem_cons_self) set single

theorem checks_unit {fuel : Nat} {path : String} (nested : Nesting hidden depth data) (enough : depth ≤ 2 * fuel)
    (counted : ∀ types, entriesIn data = some types → ∀ entry ∈ types, Counted hidden entry) :
    Checks hidden { path } (unit host fuel data) (Misplaced data) := by
  rw [unit_eq]
  cases given : entriesIn data with
  | none => exact checks_refuse nofun
  | some types =>
    have each := nested_entriesIn nested given
    refine Checks.congr (checks_bind (checks_forM (fun _ => True) trivial
      (fun entry listed _ _ => checks_declareType (each entry listed)) fun _ _ _ _ _ _ => trivial)
      fun _ middle entered => ?_) fun _ => misplaced_data_iff given
    obtain ⟨apart, ready⟩ := ready_of_declared entered
    have kept : ∀ entry ∈ types, ∀ loading after, Ready host types loading →
        (linkType fuel entry).run loading = .ok ((), after) → Ready host types after :=
      fun entry listed _ _ ready ran => ready.steps (linkType_steps ready.good apart listed ran).1
    refine checks_bind (checks_forM (Ready host types) ready
      (fun entry listed _ ready => checks_linkType ready listed (each entry listed) enough (counted types given entry listed))
      kept) fun _ loading linked => ?_
    have ready : Ready host types loading :=
      ready.steps (forM_steps (fun _ _ => True) ready.good (fun _ _ _ _ _ _ => trivial)
        (fun entry listed _ _ good ran => ⟨(linkType_steps good apart listed ran).1, trivial⟩) linked).1
    refine checks_bind (checks_listedDeclarations (nested.field "declarations")) fun listed first ran => ?_
    obtain rfl := still_listedDeclarations host _ _ _ _ ran
    refine checks_next (checks_declarationsOf ready listed) fun declarations second _ => ?_
    refine checks_bind (checks_sourcesOf (nested.field "files")) fun sourceFiles third _ => ?_
    refine checks_bind (checks_pathsIn (nested.field "markup_files")) fun markupFiles last _ => ?_
    exact checks_before (checks_markersOf (nested.field "original_file_markers")) fun _ loading _ =>
      checks_of_succeeds ⟨_, loading, rfl⟩

end Whole

end Load

end DeclGraph.Manifest
