import DeclGraph.Proofs.ManifestReferences
import DeclGraph.Proofs.StableRelations

/-!
The type parameters of a manifest in the order in which they are linked. Type parameters with one id share a symbol, and
linking one of them sets the constraints of the symbol. Nothing else sets them, so in the end they are those of the type
parameter that is linked last.
-/

namespace DeclGraph.Manifest

open Load

section Order

theorem methodUnder_of_mem {depth : Nat} {method inner : Document} (inside : inner ∈ methodsDown depth method) :
    MethodUnder method inner := by
  induction depth generalizing method with
  | zero => cases inside
  | succ depth ih =>
    rw [methodsDown, List.mem_cons, List.mem_flatMap] at inside
    rcases inside with rfl | ⟨reference, listed, deeper⟩
    · exact .self
    · split at deeper
      · next nests => exact (MethodUnder.inner .self listed nests).trans (ih deeper)
      · cases deeper

def parametersDown (depth : Nat) (method : Document) : List Document :=
  (methodsDown depth method).flatMap fun inner => looped (inner.field "type_parameters")

def innerParameters (depth : Nat) (reference : Document) : List Document :=
  if Nests reference then parametersDown depth (innerMethod reference) else []

theorem parametersDown_succ (depth : Nat) (method : Document) : parametersDown (depth + 1) method =
    looped (method.field "type_parameters") ++ (looped (method.field "body")).flatMap (innerParameters depth) := by
  rw [parametersDown, methodsDown, List.flatMap_cons, List.flatMap_assoc]
  congr 2
  funext reference
  unfold innerParameters
  split
  · rfl
  · rfl

def memberParameters (depth : Nat) (member : Document) : List Document :=
  if (member.field "kind").text? = some "method" then parametersDown depth member else []

/-- The type parameters of a manifest as they are linked: those of a type before those of its methods, and those of a
method before those of the methods in its body. -/
def linkingOrder (depth : Nat) (types : List Document) : List Document :=
  types.flatMap fun entry =>
    looped (entry.field "type_parameters") ++ (looped (entry.field "members")).flatMap (memberParameters depth)

def constrains (key : Key) : Document → Bool
  | .scalar (.text _) => false
  | parameter => (parameter.field "id").key? = some key

theorem constrains_iff {key : Key} {parameter : Document} :
    constrains key parameter = true ↔ Constraining parameter ∧ (parameterId parameter).key? = some key := by
  unfold constrains
  split
  · next id => simp [Constraining]
  · next other =>
    have constraining : Constraining parameter := fun id same => other id same
    rw [parameterId_of_constraining constraining]
    simp [constraining]

/-- The last of several type parameters that says what the symbol of a key is constrained to. -/
def lastFor? (key : Key) (parameters : List Document) : Option Document := parameters.reverse.find? (constrains key)

theorem lastFor?_append (key : Key) (parameters more : List Document) :
    lastFor? key (parameters ++ more) = (lastFor? key more).or (lastFor? key parameters) := by
  rw [lastFor?, lastFor?, lastFor?, List.reverse_append, List.find?_append]

theorem lastFor?_singleton {key : Key} {parameter last : Document} (found : lastFor? key [parameter] = some last) :
    parameter = last ∧ Constraining parameter ∧ (parameterId parameter).key? = some key := by
  have among := List.mem_of_find?_eq_some found
  obtain rfl := List.mem_singleton.mp among
  exact ⟨rfl, constrains_iff.mp (List.find?_some found)⟩

end Order

section Constraints

def constraintsAt (loading : Loading) (key : Key) : List (Option TypeRef) :=
  (((loading.ids.lookup key).bind fun ref => loading.table.types[ref]?).map (·.constraints)).getD []

theorem constraintsAt_of_found {loading : Loading} {key : Key} {ref : TypeRef} {symbol : TypeSymbol}
    (found : loading.ids.lookup key = some ref) (there : loading.table.types[ref]? = some symbol) :
    constraintsAt loading key = symbol.constraints := by
  rw [constraintsAt, found, Option.bind_some, there]
  rfl

theorem constraintsAt_entered {loading : Loading} {key : Key} {symbol : TypeSymbol} (free : symbol.constraints = [])
    (other : Key) : constraintsAt (loading.entered key symbol) other = constraintsAt loading other := by
  have pushed (ref : TypeRef) : (((loading.entered key symbol).table.types[ref]?).map (·.constraints)).getD [] =
      ((loading.table.types[ref]?).map (·.constraints)).getD [] := by
    rw [Loading.entered, Array.getElem?_push]
    split
    · next same => simp [same, free]
    · rfl
  rw [constraintsAt, constraintsAt, lookup_entered]
  cases loading.ids.lookup other with
  | some ref => exact pushed ref
  | none =>
    split
    · refine (pushed _).trans ?_
      simp
    · rfl

theorem constraintsAt_changed {loading : Loading} {ref : TypeRef} {change : TypeSymbol → TypeSymbol} {key : Key}
    (kept : loading.ids.lookup key = some ref → ∀ symbol, (change symbol).constraints = symbol.constraints) :
    constraintsAt (loading.changed ref change) key = constraintsAt loading key := by
  rw [constraintsAt, constraintsAt, show (loading.changed ref change).ids = loading.ids from rfl]
  cases found : loading.ids.lookup key with
  | none => rfl
  | some place =>
    rw [Option.bind_some, Option.bind_some, types_changed]
    split
    · next same =>
      subst same
      rw [Option.map_map]
      exact congrArg (Option.getD · []) (Option.map_congr fun symbol _ => kept found symbol)
    · rfl

theorem constraintsAt_set {loading : Loading} {key : Key} {ref : TypeRef} {symbol : TypeSymbol}
    {change : TypeSymbol → TypeSymbol} (found : loading.ids.lookup key = some ref)
    (there : loading.table.types[ref]? = some symbol) :
    constraintsAt (loading.changed ref change) key = (change symbol).constraints := by
  rw [constraintsAt, show (loading.changed ref change).ids = loading.ids from rfl, found, Option.bind_some, types_changed,
    if_pos rfl, there]
  rfl

end Constraints

namespace Load

section Unbinding

variable {before middle after : Loading}

/-- The table has grown, and all symbols are constrained to what they were. -/
structure Unbound (before after : Loading) : Prop where
  grows : Grows before after
  same : ∀ key, constraintsAt after key = constraintsAt before key

theorem Unbound.trans (first : Unbound before middle) (second : Unbound middle after) : Unbound before after :=
  ⟨first.grows.trans second.grows, fun key => (second.same key).trans (first.same key)⟩

theorem stable_unbound : Stable Unbound where
  refl _ := ⟨.refl _, fun _ => rfl⟩
  trans := Unbound.trans
  entered free _ := ⟨grows_entered _ _ _, constraintsAt_entered free⟩
  joined _ _ := ⟨grows_joined _ _, fun _ => rfl⟩
  signed _ free _ := ⟨(grows_joined _ _).trans (grows_entered _ _ _), constraintsAt_entered free⟩
  counted _ := ⟨grows_counted _, fun _ => rfl⟩
  changed sets := ⟨grows_changed _ fun symbol => (sets symbol).frozen,
    fun _ => constraintsAt_changed fun _ symbol => (sets symbol).constraints⟩

end Unbinding

section Writing

variable {α β : Type} {host : Host} {types : List Document} {before middle after : Loading}

/-- The symbols of these type parameters have been constrained, to what the last of them says. -/
structure Writes (parameters : List Document) (before after : Loading) : Prop where
  grows : Grows before after
  last : ∀ key parameter, lastFor? key parameters = some parameter →
    Lists after.ids (parameter.field "constraints") (constraintsAt after key)
  rest : ∀ key, lastFor? key parameters = none → constraintsAt after key = constraintsAt before key

theorem Unbound.writes (unbound : Unbound before after) : Writes [] before after :=
  ⟨unbound.grows, fun _ _ impossible => (nomatch impossible), fun key _ => unbound.same key⟩

theorem Writes.append {parameters more : List Document} (first : Writes parameters before middle)
    (second : Writes more middle after) : Writes (parameters ++ more) before after where
  grows := first.grows.trans second.grows
  last key parameter found := by
    rw [lastFor?_append] at found
    cases later : lastFor? key more with
    | some other =>
      rw [later] at found
      cases found
      exact second.last key parameter later
    | none =>
      rw [later, Option.none_or] at found
      rw [second.rest key later]
      exact (first.last key parameter found).grows second.grows
  rest key none := by
    rw [lastFor?_append, Option.or_eq_none_iff] at none
    rw [second.rest key none.1, first.rest key none.2]

/-- An operation that links these type parameters in this order. -/
def Writing (host : Host) (types : List Document) (op : Load α) (parameters : List Document) : Prop :=
  ∀ before value after, Good host types before → op.run before = .ok (value, after) → Writes parameters before after

variable {op : Load α} {next : α → Load β} {parameters more : List Document}

theorem Keeps.writing (keeps : Keeps Unbound op) : Writing host types op [] :=
  fun before value after _ ran => (keeps before value after ran).writes

theorem writing_bind (first : Writing host types op parameters) (steps : ∀ before value after, Good host types before →
    op.run before = .ok (value, after) → Steps host types before after)
    (rest : ∀ value, Writing host types (next value) more) : Writing host types (op >>= next) (parameters ++ more) := by
  intro before result after good ran
  obtain ⟨value, middle, start, ran⟩ := bind_run.mp ran
  exact (first before value middle good start).append
    (rest value middle result after (good.steps (steps before value middle good start)) ran)

theorem writing_then_keeps (first : Writing host types op parameters) (keeps : ∀ value, Keeps Unbound (next value)) :
    Writing host types (op >>= next) parameters := by
  intro before result after good ran
  obtain ⟨value, middle, start, ran⟩ := bind_run.mp ran
  have writes := (first before value middle good start).append (keeps value middle result after ran).writes
  rwa [List.append_nil] at writes

theorem keeps_then_writing (keeps : Keeps Unbound op) (steps : ∀ before value after, Good host types before →
    op.run before = .ok (value, after) → Steps host types before after)
    (rest : ∀ value, Writing host types (next value) more) : Writing host types (op >>= next) more :=
  writing_bind keeps.writing steps rest

theorem still_then_writing (still : Still op) (rest : ∀ value, Writing host types (next value) more) :
    Writing host types (op >>= next) more :=
  keeps_then_writing (stable_unbound.still still) (fun before value after _ ran => still before value after ran ▸ .refl) rest

theorem writing_map {f : α → β} (first : Writing host types op parameters) : Writing host types (f <$> op) parameters := by
  intro before result after good ran
  obtain ⟨value, ran, _⟩ := map_run.mp ran
  exact first before value after good ran

theorem writing_refuse {defect : Defect} : Writing host types (refuse defect : Load α) parameters :=
  fun _ _ _ _ ran => absurd ran refuse_run

theorem writing_mapM {f : α → Load β} {given : α → List Document} {values : List α}
    (each : ∀ value ∈ values, Writing host types (f value) (given value))
    (steps : ∀ value ∈ values, ∀ before result after, Good host types before → (f value).run before = .ok (result, after) →
      Steps host types before after) : Writing host types (values.mapM f) (values.flatMap given) := by
  induction values with
  | nil =>
    rw [List.mapM_nil]
    exact (stable_unbound.pure []).writing
  | cons value rest ih =>
    rw [List.mapM_cons, List.flatMap_cons]
    exact writing_bind (each value List.mem_cons_self) (steps value List.mem_cons_self) fun _ =>
      writing_then_keeps (ih (fun other among => each other (List.mem_cons_of_mem _ among))
        fun other among => steps other (List.mem_cons_of_mem _ among)) fun _ => stable_unbound.pure _

theorem writing_each {f : Document → Load β} (each : ∀ parameter ∈ parameters, Writing host types (f parameter) [parameter])
    (steps : ∀ parameter ∈ parameters, ∀ before result after, Good host types before →
      (f parameter).run before = .ok (result, after) → Steps host types before after) :
    Writing host types (parameters.mapM f) parameters := by
  have writes := writing_mapM each steps
  rwa [List.flatMap_singleton'] at writes

theorem writing_forM {f : α → Load Unit} {given : α → List Document} {values : List α}
    (each : ∀ value ∈ values, Writing host types (f value) (given value))
    (steps : ∀ value ∈ values, ∀ before result after, Good host types before → (f value).run before = .ok (result, after) →
      Steps host types before after) : Writing host types (values.forM f) (values.flatMap given) := by
  induction values with
  | nil => exact (stable_unbound.pure ()).writing
  | cons value rest ih =>
    rw [List.flatMap_cons]
    exact writing_bind (each value List.mem_cons_self) (steps value List.mem_cons_self) fun _ =>
      ih (fun other among => each other (List.mem_cons_of_mem _ among))
        fun other among => steps other (List.mem_cons_of_mem _ among)

theorem writing_linkParameter {parameter : Document} (within : ParameterWithin types parameter) :
    Writing host types (linkParameter parameter) [parameter] := by
  intro before ref after good ran
  have grows := grows_of_steps (linkParameter_steps good within ran).1
  obtain ⟨key, keyed, found, ⟨plain, rfl⟩ | ⟨constraining, constraints, middle, resolved, rfl⟩⟩ := linkParameter_run.mp ran
  · refine ⟨grows, fun key last found => ?_, fun _ _ => rfl⟩
    exact absurd (lastFor?_singleton found).2.1 plain
  · obtain ⟨steps, lists⟩ := typesOf_steps good (fun _ among => .constraint within constraining among) resolved
    have middleGood := good.steps steps
    have still := (grows_of_steps steps).ids key ref found
    refine ⟨grows, fun other last lastFound => ?_, fun other none => ?_⟩
    · obtain ⟨rfl, _, also⟩ := lastFor?_singleton lastFound
      cases keyed.symm.trans also
      obtain ⟨symbol, there, _⟩ := middleGood.found still
      rw [constraintsAt_set still there]
      exact lists
    · rw [constraintsAt_changed, (stable_unbound.typesOf _ _ _ _ resolved).same]
      intro sameSymbol
      obtain rfl := middleGood.key_unique still sameSymbol
      have itself : lastFor? key [parameter] = some parameter :=
        List.find?_cons_of_pos (constrains_iff.mpr ⟨constraining, keyed⟩)
      cases itself.symm.trans none

theorem writing_methodParameter {parameter : Document} (within : ParameterWithin types parameter) :
    Writing host types (methodParameter parameter) [parameter] := by
  intro before link after good ran
  obtain ⟨_, _, middle, ref, _, entering, linked, _⟩ := methodParameter_run.mp ran
  rcases entering with ⟨_, declared⟩ | ⟨_, rfl⟩
  · exact (stable_unbound.declareParameter _ _ _ _ declared).writes.append
      (writing_linkParameter within _ _ _ (good.steps (declareParameter_steps within declared)) linked)
  · exact writing_linkParameter within _ _ _ good linked

theorem writing_methodParameters {value : Document} (within : ∀ parameter ∈ looped value, ParameterWithin types parameter) :
    Writing host types (methodParameters value) (looped value) := by
  rw [methodParameters_eq]
  intro before links after good ran
  obtain ⟨_, _, met, ran⟩ := bind_run.mp ran
  obtain ⟨rfl, _, rfl⟩ := loop_run.mp met
  exact writing_each (fun parameter among => writing_methodParameter (within parameter among))
    (fun parameter among _ _ _ good ran => (methodParameter_steps good (within parameter among) ran).1) _ _ _ good ran

theorem flatMap_zipIdx {values : List α} {given : α → List β} (start : Nat) :
    ((values.zipIdx start).flatMap fun pair => given pair.1) = values.flatMap given := by
  rw [← List.flatMap_map, List.zipIdx_map_fst]

/-- Reading a method links its type parameters, and then those of the methods in its body. -/
def WritesMethod (host : Host) (types : List Document) (fuel depth : Nat) : Prop :=
  ∀ entry id, MethodWithin types entry → Writing host types (method fuel entry id) (parametersDown depth entry)

theorem writing_bodyReference {fuel depth : Nat} (writes : WritesMethod host types fuel depth) {outer entry id : Document}
    {index : Nat} (within : MethodWithin types outer) (listed : entry ∈ looped (outer.field "body")) :
    Writing host types (bodyReference fuel entry id index) (innerParameters depth entry) := by
  rw [bodyReference_eq, innerParameters]
  split
  · exact writing_refuse
  · next kind known =>
    split
    · next nests =>
      split
      · exact still_then_writing (still_innerIdOf _ _ _ _) fun given =>
          writing_then_keeps (writing_map (writes _ given (within.inner listed nests))) fun _ =>
            stable_unbound.referenceEnd entry kind _
      · exact writing_refuse
    · exact (stable_unbound.referenceEnd entry kind none).writing

theorem writing_bodyOf {fuel depth : Nat} (writes : WritesMethod host types fuel depth) {entry id : Document}
    (within : MethodWithin types entry) : Writing host types (bodyOf fuel (entry.field "body") id)
      ((looped (entry.field "body")).flatMap (innerParameters depth)) := by
  rw [bodyOf]
  intro before body after good ran
  obtain ⟨_, _, met, ran⟩ := bind_run.mp ran
  obtain ⟨rfl, _, rfl⟩ := loop_run.mp met
  rw [← flatMap_zipIdx 0]
  exact writing_mapM (fun pair among => writing_bodyReference writes within (List.fst_mem_of_mem_zipIdx among))
    (fun pair among _ _ _ good ran => (bodyReference_steps (method_steps fuel) good within
      (List.fst_mem_of_mem_zipIdx among) ran).1) _ _ _ good ran

theorem writing_methodBody {fuel depth : Nat} (writes : WritesMethod host types fuel depth) {entry id : Document}
    (within : MethodWithin types entry) : Writing host types (methodBody fuel entry id)
      ((looped (entry.field "body")).flatMap (innerParameters depth)) := by
  unfold methodBody
  split
  · exact writing_map (writing_bodyOf writes within)
  · next bodyless =>
    rw [field_of_bodyless bodyless, looped_null, List.flatMap_nil]
    exact (stable_unbound.pure none).writing

theorem writing_method {fuel depth : Nat} (deeper : fuel ≤ depth) : WritesMethod host types fuel depth := by
  induction fuel generalizing depth with
  | zero =>
    intro entry id _ before ref after _ ran
    rw [method] at ran
    exact absurd ran throw_run
  | succ fuel ih =>
    obtain ⟨depth, rfl⟩ : ∃ less, depth = less + 1 := Nat.exists_eq_succ_of_ne_zero (Nat.ne_of_gt (Nat.lt_of_lt_of_le
      (Nat.succ_pos fuel) deeper))
    have writes : WritesMethod host types fuel depth := ih (Nat.le_of_succ_le_succ deeper)
    intro entry id within
    rw [method_succ, parametersDown_succ]
    refine writing_bind (writing_methodParameters fun _ among => .method within among)
      (fun _ _ _ good ran => (methodParameters_steps good (fun _ among => .method within among) ran).1) fun typeParameters => ?_
    exact writing_then_keeps (writing_methodBody writes within) fun body =>
      stable_unbound.methodEnd entry id typeParameters body

theorem writing_member {fuel depth : Nat} (deeper : fuel ≤ depth) {owner entry : Document} {index : Nat}
    (within : MemberWithin types entry) :
    Writing host types (member fuel owner entry index) (memberParameters depth entry) := by
  have marked := RefersWithin.memberAttributes within
  rw [member]
  split
  · refine still_then_writing (still_memberId owner entry index) fun id => ?_
    refine keeps_then_writing (stable_unbound.typesOf _)
      (fun _ _ _ good ran => (typesOf_steps good marked ran).1) fun attributes => ?_
    dsimp only
    split
    · next kind =>
      rw [memberParameters, kind, if_neg (by decide)]
      exact (stable_unbound.bind (stable_unbound.resolve _) fun _ => stable_unbound.pure _).writing
    · next kind =>
      rw [memberParameters, kind, if_neg (by decide)]
      exact (stable_unbound.bind (stable_unbound.resolve _) fun _ =>
        stable_unbound.bind (stable_unbound.parametersOf _) fun _ => stable_unbound.pure _).writing
    · next kind =>
      rw [memberParameters, kind, if_neg (by decide)]
      exact (stable_unbound.bind (stable_unbound.resolve _) fun _ => stable_unbound.pure _).writing
    · next kind =>
      rw [memberParameters, kind, if_pos rfl]
      exact writing_map (writing_method deeper entry id ⟨entry, within, kind, .self⟩)
    · next kind =>
      rw [memberParameters, kind, if_neg (by decide)]
      refine (stable_unbound.bind (stable_unbound.resolve _) fun link => ?_).writing
      cases link with
      | none => exact keeps_refuse
      | some ref => exact stable_unbound.pure _
    · exact writing_refuse
  · exact writing_refuse

theorem linked_writes (link : Link) (good : Good host types before) {entry : Document} {key : Key} {ref : TypeRef}
    {change : α → TypeSymbol → TypeSymbol} {next : α → Load Unit} {result : Unit} (listed : entry ∈ types)
    (keyed : (entry.field "id").key? = some key) (found : before.ids.lookup key = some ref)
    (writing : Writing host types op parameters)
    (ran : (op >>= fun value => update ref (change value) >>= fun _ => next value).run before = .ok (result, after))
    (sets : ∀ value symbol, Sets link symbol (change value symbol))
    (reads : ∀ value middle, op.run before = .ok (value, middle) →
      Steps host types before middle ∧ ∀ symbol, link.Is middle entry (change value symbol))
    (rest : ∀ value middle, Good host types middle → middle.ids.lookup key = some ref →
      (next value).run middle = .ok (result, after) → Writes more middle after) : Writes (parameters ++ more) before after := by
  obtain ⟨value, first, read, ran⟩ := bind_run.mp ran
  obtain ⟨_, second, updated, ran⟩ := bind_run.mp ran
  obtain ⟨one, is⟩ := reads value first read
  have placed := (grows_of_steps one).ids key ref found
  obtain ⟨two, _⟩ := update_steps link (good.steps one) listed keyed placed updated (sets value) is
  have head := (writing before value first good read).append (stable_unbound.update (sets value) _ _ _ updated).writes
  rw [List.append_nil] at head
  exact head.append (rest value second (good.steps (one.trans two)) ((grows_of_steps two).ids key ref placed) ran)

theorem writing_linkType {fuel depth : Nat} (deeper : fuel ≤ depth) {entry : Document} (listed : entry ∈ types) :
    Writing host types (linkType fuel entry) (looped (entry.field "type_parameters")
      ++ (looped (entry.field "members")).flatMap (memberParameters depth)) := by
  intro before result after good ran
  obtain ⟨ref, _, asked, ran⟩ := bind_run.mp ran
  obtain ⟨⟨key, keyed, found⟩, rfl⟩ := known_run.mp asked
  -- Of the links that are set, only those to type parameters link any.
  show Writes ([] ++ ([] ++ (looped (entry.field "type_parameters") ++ ([] ++ ([] ++
    (looped (entry.field "members")).flatMap (memberParameters depth)))))) before after
  refine linked_writes .base good listed keyed found (stable_unbound.resolve _).writing ran sets_base
    (fun _ _ ran => (resolve_steps good (.base listed) ran).imp_right fun stands _ => stands)
    fun _ one good found ran => ?_
  refine linked_writes .interfaces good listed keyed found (stable_unbound.typesOf _).writing ran sets_interfaces
    (fun _ _ ran => (typesOf_steps good (RefersWithin.interfaces listed) ran).imp_right fun lists _ => lists)
    fun _ two good found ran => ?_
  obtain ⟨_, _, met, ran⟩ := bind_run.mp ran
  obtain ⟨rfl, _, rfl⟩ := loop_run.mp met
  have within : ∀ parameter ∈ looped (entry.field "type_parameters"), ParameterWithin types parameter :=
    fun _ among => .type listed among
  have parameters : Writing host types ((looped (entry.field "type_parameters")).mapM linkParameter)
      (looped (entry.field "type_parameters")) :=
    writing_each (fun parameter among => writing_linkParameter (within parameter among))
      fun parameter among _ _ _ good ran => (linkParameter_steps good (within parameter among) ran).1
  refine linked_writes .typeParameters good listed keyed found parameters ran (fun _ => sets_typeParameters _)
    (fun _ _ ran => (linkParameters_steps good within ran).imp_right fun are _ => are) fun _ three good found ran => ?_
  refine linked_writes .typeArguments good listed keyed found (stable_unbound.typesOf _).writing ran sets_typeArguments
    (fun _ _ ran => (typesOf_steps good (RefersWithin.typeArguments listed) ran).imp_right fun lists _ => lists)
    fun _ four good found ran => ?_
  refine linked_writes .attributes good listed keyed found (stable_unbound.typesOf _).writing ran sets_attributes
    (fun _ _ ran => (typesOf_steps good (RefersWithin.attributes listed) ran).imp_right fun lists _ => lists)
    fun _ five good found ran => ?_
  obtain ⟨_, _, met, ran⟩ := bind_run.mp ran
  obtain ⟨rfl, _, rfl⟩ := loop_run.mp met
  rw [← flatMap_zipIdx 0]
  refine writing_then_keeps (writing_mapM (fun pair among => writing_member deeper
    ⟨entry, listed, List.fst_mem_of_mem_zipIdx among⟩) fun pair among _ _ _ good ran =>
      (member_steps good ⟨entry, listed, List.fst_mem_of_mem_zipIdx among⟩ ran).1) (fun members => ?_) _ _ _ good ran
  exact stable_unbound.update (sets_members _)

end Writing

section Whole

variable {host : Host} {types : List Document} {fuel depth : Nat}

/-- Once all types are read, each symbol is constrained to what the type parameter says that was linked last for it. -/
theorem constraintsAt_of_read {path : String} {middle after : Loading} {first second : Unit}
    (entered : (types.forM (declareType host)).run { path } = .ok (first, middle))
    (linked : (types.forM (linkType fuel)).run middle = .ok (second, after)) (deeper : fuel ≤ depth) (key : Key) :
    match lastFor? key (linkingOrder depth types) with
    | some parameter => Lists after.ids (parameter.field "constraints") (constraintsAt after key)
    | none => constraintsAt after key = [] := by
  have start : Good host types { path } := good_start path
  obtain ⟨steps, _, _, pairs⟩ := declareTypes_steps start (fun _ among => among) entered
  have apart := apart_of_pairwise pairs
  have writes := writing_forM (fun entry listed => writing_linkType deeper listed)
    (fun entry listed _ _ _ good ran => (linkType_steps good apart listed ran).1) _ _ _ (start.steps steps) linked
  split
  · next parameter last => exact writes.last key parameter last
  · next none =>
    rw [writes.rest key none, (stable_unbound.forM (stable_unbound.declareType host) _ _ _ _ entered).same]
    rfl

theorem mem_methodsDown_of_ran {entry id inner : Document} (within : MethodWithin types entry)
    (ran : Ran host types (method fuel entry id)) (under : MethodUnder entry inner) : inner ∈ methodsDown fuel entry := by
  induction fuel generalizing entry id with
  | zero =>
    rw [method] at ran
    exact absurd ran not_ran_throw
  | succ fuel ih =>
    rw [methodsDown, List.mem_cons, List.mem_flatMap]
    rcases methodUnder_cases under with rfl | ⟨reference, listed, nests, below⟩
    · exact Or.inl rfl
    · obtain ⟨given, read⟩ := (ran_method within ran).inner reference listed nests
      exact Or.inr ⟨reference, listed, by rw [if_pos nests]; exact ih (within.inner listed nests) read below⟩

theorem mem_linkingOrder (parts : ∀ entry ∈ types, PartsRan host types fuel entry) {parameter : Document} :
    ParameterWithin types parameter ↔ parameter ∈ linkingOrder fuel types := by
  constructor
  · intro within
    cases within with
    | type listed among => exact List.mem_flatMap.mpr ⟨_, listed, List.mem_append_left _ among⟩
    | method within among =>
      obtain ⟨member, ⟨type, listed, memberIn⟩, kind, under⟩ := within
      obtain ⟨index, pair⟩ := exists_mem_zipIdx memberIn
      obtain ⟨_, _, read⟩ := ran_member ⟨type, listed, memberIn⟩ ((parts type listed).members (member, index) pair)
      obtain ⟨id, ran⟩ := read kind
      have inside := mem_methodsDown_of_ran ⟨member, ⟨type, listed, memberIn⟩, kind, .self⟩ ran under
      refine List.mem_flatMap.mpr ⟨type, listed, List.mem_append_right _ (List.mem_flatMap.mpr ⟨member, memberIn, ?_⟩)⟩
      rw [memberParameters, if_pos kind]
      exact List.mem_flatMap.mpr ⟨_, inside, among⟩
  · intro inside
    obtain ⟨type, listed, either⟩ := List.mem_flatMap.mp inside
    rcases List.mem_append.mp either with own | below
    · exact .type listed own
    · obtain ⟨member, memberIn, down⟩ := List.mem_flatMap.mp below
      unfold memberParameters at down
      split at down
      · next kind =>
        obtain ⟨method, methodIn, among⟩ := List.mem_flatMap.mp down
        exact .method ⟨member, ⟨type, listed, memberIn⟩, kind, methodUnder_of_mem methodIn⟩ among
      · cases down

end Whole

end Load

end DeclGraph.Manifest
