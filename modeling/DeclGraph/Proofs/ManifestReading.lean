import DeclGraph.Proofs.ManifestRuns

/-!
What is known of the symbols of a manifest once all of it is read: each type of the manifest stands under its id, in
its file, and its links and members are what its entry says.
-/

namespace DeclGraph.Manifest

namespace Load

section Methods

variable {host : Host} {types : List Document} {before after : Loading}

theorem textOf_run {value : Document} {text : String} : (textOf value).run before = .ok (text, after) ↔
    value.isShowable = true ∧ value.display = text ∧ before = after := by
  rw [textOf, checkShowable]
  split
  · next showable => exact ⟨fun ran => ⟨showable, pure_run.mp ran⟩, fun ⟨_, same⟩ => pure_run.mpr same⟩
  · next hidden =>
    constructor
    · intro ran
      obtain ⟨_, _, impossible, _⟩ := bind_run.mp ran
      exact absurd impossible throw_run
    · exact fun ⟨showable, _⟩ => absurd showable hidden

/-- The type parameters of a method, and of those in its body, are linked to their constraints. -/
def AllMet (types : List Document) (loading : Loading) (method : Document) : Prop :=
  ∀ inner, MethodUnder method inner → ∀ parameter ∈ looped (inner.field "type_parameters"),
    Constraining parameter → Met types loading parameter

theorem allMet_steps {method : Document} (good : Good host types before) (steps : Steps host types before after)
    (met : AllMet types before method) : AllMet types after method :=
  fun inner under parameter listed constraining => met_steps good steps (met inner under parameter listed constraining)

/-- Reading a method with this much fuel gives a method as the entry says. -/
def ReadsMethod (host : Host) (types : List Document) (fuel : Nat) : Prop :=
  ∀ before after entry id ref, Good host types before → MethodWithin types entry →
    (method fuel entry id).run before = .ok (ref, after) →
    Steps host types before after ∧ MethodIs after fuel entry id ref ∧ AllMet types after entry

theorem ofValue?_word (kind : ReferenceKind) : ReferenceKind.ofValue? (.text kind.word) = some kind := by
  cases kind <;> decide

theorem nests_iff {entry : Document} {kind : ReferenceKind} (known : ReferenceKind.ofValue? (entry.field "kind") = some kind) :
    Nests entry ↔ kind = .localFunction ∨ kind = .lambda := by
  rw [Nests, known, Option.some.injEq, Option.some.injEq]

theorem bodiesWithin_of_methodIs {loading : Loading} {depth : Nat} {entry id : Document} {ref : MethodRef}
    (is : MethodIs loading depth entry id ref) : BodiesWithin depth entry := by
  induction depth generalizing entry id ref with
  | zero => exact is.elim
  | succ depth ih =>
    obtain ⟨symbol, _, looks⟩ := is
    intro reference listed nests
    obtain ⟨index, among⟩ := exists_mem_zipIdx listed
    obtain ⟨_, _, kind, known, _, _, nested⟩ := exists_of_mem_left looks.body among
    rw [if_pos ((nests_iff known).mp nests)] at nested
    obtain ⟨_, _, inner⟩ := nested
    exact ih inner

theorem field_of_entries {value : Document} {entries : Entries} (mapping : value.entries? = some entries) (name : String) :
    value.field name = entries.get name := by
  rw [Document.field, mapping]

theorem looped_null : looped .null = [] := rfl

def innerIdOf (id reference : Document) (index : Nat) (kind : ReferenceKind) : Load Document :=
  match ((innerMethod reference).field "id").ifSet with
  | some given => pure given
  | none => do pure (.text ((← textOf id) ++ "#" ++ kind.word ++ toString index))

theorem innerIdOf_run {id reference given : Document} {index : Nat} {kind : ReferenceKind} :
    (innerIdOf id reference index kind).run before = .ok (given, after) ↔
      ((((innerMethod reference).field "id").ifSet).isSome = true ∨ id.isShowable = true)
        ∧ innerId id reference index kind = given ∧ before = after := by
  rw [innerIdOf, innerId]
  cases ((innerMethod reference).field "id").ifSet with
  | some other => exact ⟨fun ran => ⟨Or.inl rfl, pure_run.mp ran⟩, fun both => pure_run.mpr both.2⟩
  | none =>
    constructor
    · intro ran
      obtain ⟨text, _, shown, ran⟩ := bind_run.mp ran
      obtain ⟨showable, rfl, rfl⟩ := textOf_run.mp shown
      exact ⟨Or.inr showable, pure_run.mp ran⟩
    · rintro ⟨known, same⟩
      have showable : id.isShowable = true := known.resolve_left Bool.false_ne_true
      exact bind_run.mpr ⟨_, _, textOf_run.mpr ⟨showable, rfl, rfl⟩, pure_run.mpr same⟩

def referenceEnd (entry : Document) (kind : ReferenceKind) (nested : Option MethodRef) : Load BodyReference := do
  let type ← typeOf (entry.field "type")
  pure ⟨.text kind.word, type, nested⟩

theorem refuse_bind {α β : Type} {defect : Defect} (next : α → Load β) : refuse defect >>= next = refuse defect := by
  rw [refuse, bind_assoc]
  rfl

/-- What a body reference is read as depends on its kind. -/
theorem bodyReference_eq (fuel : Nat) (entry id : Document) (index : Nat) : bodyReference fuel entry id index =
    match ReferenceKind.ofValue? (entry.field "kind") with
    | none => refuse (.invalidBodyReference id entry)
    | some kind =>
      if Nests entry then
        if (innerMethod entry).entries?.isSome then do
          let given ← innerIdOf id entry index kind
          let nested ← some <$> method fuel (innerMethod entry) given
          referenceEnd entry kind nested
        else refuse (.invalidBodyMethod kind.word id)
      else referenceEnd entry kind none := by
  rw [bodyReference]
  cases mapping : entry.entries? with
  | none =>
    have empty : entry.field "kind" = .null := by rw [Document.field, mapping]
    rw [empty]
    rfl
  | some entries =>
    cases known : ReferenceKind.ofValue? (entry.field "kind") with
    | none => rfl
    | some kind =>
      dsimp only
      by_cases nests : Nests entry
      · rw [if_pos nests, if_pos ((nests_iff known).mp nests), ← innerMethod, innerIdOf]
        cases (innerMethod entry).entries? with
        | none =>
          rw [Option.isSome_none, if_neg Bool.false_ne_true]
          exact refuse_bind _
        | some inner =>
          rw [Option.isSome_some, if_pos rfl]
          cases ((innerMethod entry).field "id").ifSet with
          | none =>
            rw [bind_assoc]
            rfl
          | some given => rfl
      · rw [if_neg nests, if_neg fun brings => nests ((nests_iff known).mpr brings)]
        rfl

theorem bodyReference_steps {fuel : Nat} (reads : ReadsMethod host types fuel) (good : Good host types before)
    {outer entry id : Document} {index : Nat} {reference : BodyReference} (within : MethodWithin types outer)
    (listed : entry ∈ looped (outer.field "body"))
    (ran : (bodyReference fuel entry id index).run before = .ok (reference, after)) :
    Steps host types before after ∧ Occurs after.ids (MethodIs after fuel) id (entry, index) reference
      ∧ (Nests entry → AllMet types after (innerMethod entry)) := by
  have typed := RefersWithin.occurrence within listed
  rw [bodyReference_eq] at ran
  split at ran
  · exact absurd ran refuse_run
  · next kind known =>
    split at ran
    · next nests =>
      split at ran
      · obtain ⟨_, _, named, ran⟩ := bind_run.mp ran
        obtain ⟨_, rfl, rfl⟩ := innerIdOf_run.mp named
        obtain ⟨nested, middle, given, ran⟩ := bind_run.mp ran
        obtain ⟨ref, read, rfl⟩ := map_run.mp given
        obtain ⟨type, last, resolved, ran⟩ := bind_run.mp ran
        obtain ⟨rfl, rfl⟩ := pure_run.mp ran
        obtain ⟨start, is, met⟩ := reads _ _ _ _ _ good (within.inner listed nests) read
        obtain ⟨more, stands⟩ := resolve_steps (good.steps start) typed resolved
        refine ⟨start.trans more, ⟨kind, known, rfl, stands, ?_⟩, fun _ => allMet_steps (good.steps start) more met⟩
        rw [if_pos ((nests_iff known).mp nests)]
        exact ⟨ref, rfl, is.grows (grows_of_steps more)⟩
      · exact absurd ran refuse_run
    · next plain =>
      obtain ⟨type, last, resolved, ran⟩ := bind_run.mp ran
      obtain ⟨rfl, rfl⟩ := pure_run.mp ran
      obtain ⟨steps, stands⟩ := resolve_steps good typed resolved
      refine ⟨steps, ⟨kind, known, rfl, stands, ?_⟩, fun nests => absurd nests plain⟩
      rw [if_neg fun brings => plain ((nests_iff known).mpr brings)]

theorem bodyOf_steps {fuel : Nat} (reads : ReadsMethod host types fuel) (good : Good host types before)
    {outer id : Document} {body : List BodyReference} (within : MethodWithin types outer)
    (ran : (bodyOf fuel (outer.field "body") id).run before = .ok (body, after)) :
    Steps host types before after
      ∧ List.Forall₂ (Occurs after.ids (MethodIs after fuel) id) (looped (outer.field "body")).zipIdx body
      ∧ ∀ entry ∈ looped (outer.field "body"), Nests entry → AllMet types after (innerMethod entry) := by
  rw [bodyOf] at ran
  obtain ⟨elements, _, met, ran⟩ := bind_run.mp ran
  obtain ⟨rfl, _, rfl⟩ := loop_run.mp met
  obtain ⟨steps, all⟩ := mapM_steps (fun loading (entry : Document × Nat) reference =>
      Occurs loading.ids (MethodIs loading fuel) id entry reference
        ∧ (Nests entry.1 → AllMet types loading (innerMethod entry.1)))
    good
    (fun _ _ good steps _ _ held => ⟨held.1.grows (grows_of_steps steps) fun _ _ _ is => is.grows (grows_of_steps steps),
      fun nests => allMet_steps good steps (held.2 nests)⟩)
    (fun entry among _ _ _ good ran =>
      bodyReference_steps reads good within (List.fst_mem_of_mem_zipIdx among) ran) ran
  refine ⟨steps, all.imp fun _ _ held => held.1, fun entry listed nests => ?_⟩
  obtain ⟨index, among⟩ := exists_mem_zipIdx listed
  obtain ⟨_, _, _, met⟩ := exists_of_mem_left all among
  exact met nests

def HasBody (entry : Document) : Prop := (entry.entries?).any (Entries.has · "body") = true

instance (entry : Document) : Decidable (HasBody entry) := inferInstanceAs (Decidable (_ = _))

theorem field_of_bodyless {entry : Document} (bodyless : ¬ HasBody entry) : entry.field "body" = .null := by
  rw [Document.field]
  cases mapping : entry.entries? with
  | none => rfl
  | some entries =>
    have without : Entries.has entries "body" = false := by
      rw [HasBody, mapping] at bodyless
      exact Bool.not_eq_true _ ▸ bodyless
    rw [Entries.has, Option.isSome_eq_false_iff, Option.isNone_iff_eq_none] at without
    show Entries.get entries "body" = .null
    rw [Entries.get, without, Option.getD_none]

def methodBody (fuel : Nat) (entry id : Document) : Load (Option (List BodyReference)) :=
  if HasBody entry then some <$> bodyOf fuel (entry.field "body") id else pure none

def methodEnd (entry id : Document) (typeParameters : List (Option TypeRef)) (body : Option (List BodyReference)) :
    Load MethodRef := do
  let returnType ← typeOf (entry.field "return_type")
  let parameters ← parametersOf (entry.field "parameters")
  let attributes ← typesOf (entry.field "attributes")
  enterMethod
    { id, name := displayName id (entry.field "name"), returnType, parameters, typeParameters
      body, attributes }

theorem method_succ (fuel : Nat) (entry id : Document) : method (fuel + 1) entry id = (do
    let typeParameters ← methodParameters (entry.field "type_parameters")
    let body ← methodBody fuel entry id
    methodEnd entry id typeParameters body) := by
  rw [method]
  congr 1
  funext typeParameters
  cases mapping : entry.entries? with
  | none =>
    have bodyless : ¬ HasBody entry := by simp [HasBody, mapping]
    rw [methodBody, if_neg bodyless]
    rfl
  | some entries =>
    by_cases has : Entries.has entries "body" = true
    · have whole : HasBody entry := by simp [HasBody, mapping, has]
      rw [methodBody, if_pos whole]
      dsimp only
      rw [if_pos has, ← field_of_entries mapping]
      rfl
    · have bodyless : ¬ HasBody entry := by simp [HasBody, mapping, has]
      rw [methodBody, if_neg bodyless]
      dsimp only
      rw [if_neg has]
      rfl

theorem methodBody_steps {fuel : Nat} (reads : ReadsMethod host types fuel) (good : Good host types before)
    {outer id : Document} {body : Option (List BodyReference)} (within : MethodWithin types outer)
    (ran : (methodBody fuel outer id).run before = .ok (body, after)) :
    Steps host types before after
      ∧ List.Forall₂ (Occurs after.ids (MethodIs after fuel) id) (looped (outer.field "body")).zipIdx (body.getD [])
      ∧ ∀ entry ∈ looped (outer.field "body"), Nests entry → AllMet types after (innerMethod entry) := by
  unfold methodBody at ran
  split at ran
  · obtain ⟨references, read, rfl⟩ := map_run.mp ran
    exact bodyOf_steps reads good within read
  · next bodyless =>
    obtain ⟨rfl, rfl⟩ := pure_run.mp ran
    rw [field_of_bodyless bodyless, looped_null]
    exact ⟨.refl, .nil, fun _ impossible => nomatch impossible⟩

theorem joined_steps (host : Host) (types : List Document) {fuel : Nat} {entry id : Document} {symbol : MethodSymbol}
    {ref : MethodRef} (looks : Looks before.ids (MethodIs before fuel) entry id symbol)
    (ran : (enterMethod symbol).run before = .ok (ref, after)) :
    Steps host types before after ∧ MethodIs after (fuel + 1) entry id ref := by
  obtain ⟨rfl, rfl⟩ := enterMethod_run.mp ran
  have fits : Fits before symbol := by
    refine ⟨fun link listed => ?_, fun reference listed => ?_⟩
    · obtain ⟨parameter, _, key, ref, _, found, same⟩ := exists_of_mem_right looks.typeParameters listed
      exact ⟨key, ref, found, same⟩
    · obtain ⟨entry, _, kind, _, same, _⟩ := exists_of_mem_right looks.body listed
      rw [same, ofValue?_word]
      rfl
  have step : Step host types before (before.joined symbol) := .joined fits
  refine ⟨.single step, symbol, ?_, looks.grows (grows_of_step step) fun _ _ _ is => is.grows (grows_of_step step)⟩
  rw [Loading.joined, Array.getElem?_push_size]

theorem method_steps (fuel : Nat) : ReadsMethod host types fuel := by
  induction fuel with
  | zero =>
    intro before after entry id ref _ _ ran
    rw [method] at ran
    exact absurd ran throw_run
  | succ fuel ih =>
    intro before after entry id ref good within ran
    rw [method_succ] at ran
    obtain ⟨typeParameters, first, linked, ran⟩ := bind_run.mp ran
    obtain ⟨one, known⟩ := methodParameters_steps good (fun _ among => .method within among) linked
    have known' : ∀ parameter ∈ looped (entry.field "type_parameters"), Constraining parameter →
        Met types first parameter := by
      intro parameter listed
      obtain ⟨_, _, _, met⟩ := exists_of_mem_left known listed
      exact met
    have parameters := known.imp fun _ _ known => known.1
    obtain ⟨body, middle, read, ran⟩ := bind_run.mp ran
    obtain ⟨two, occurs, inner⟩ := methodBody_steps ih (good.steps one) within read
    have middleGood := good.steps (one.trans two)
    obtain ⟨returnType, third, resolved, ran⟩ := bind_run.mp ran
    obtain ⟨three, returns⟩ := resolve_steps middleGood (.returnType within) resolved
    obtain ⟨taken, fourth, resolved, ran⟩ := bind_run.mp ran
    obtain ⟨four, takes⟩ := parametersOf_steps (middleGood.steps three) (RefersWithin.parameters within) resolved
    obtain ⟨attributes, fifth, resolved, ran⟩ := bind_run.mp ran
    obtain ⟨five, marked⟩ :=
      typesOf_steps (middleGood.steps (three.trans four)) (RefersWithin.methodAttributes within) resolved
    have later := three.trans (four.trans five)
    have looks : Looks fifth.ids (MethodIs fifth fuel) entry id
        { id, name := displayName id (entry.field "name"), returnType, parameters := taken, typeParameters, body
          attributes } :=
      { id := rfl
        returnType := returns.grows (grows_of_steps (four.trans five))
        parameters := takes.imp fun _ _ takes => takes.grows (grows_of_steps five)
        typeParameters := parameters.imp fun _ _ is => is.grows (grows_of_steps (two.trans later))
        body := occurs.imp fun _ _ occurs =>
          occurs.grows (grows_of_steps later) fun _ _ _ is => is.grows (grows_of_steps later)
        attributes := marked }
    obtain ⟨last, is⟩ := joined_steps host types looks ran
    refine ⟨one.trans (two.trans (later.trans last)), is, fun method under => ?_⟩
    rcases methodUnder_cases under with rfl | ⟨reference, listed, nests, under⟩
    · intro parameter listed constraining
      exact met_steps (good.steps one) (two.trans (later.trans last)) (known' parameter listed constraining)
    · exact allMet_steps middleGood (later.trans last) (inner reference listed nests) method under

end Methods

section Members

variable {host : Host} {types : List Document} {before after : Loading}

theorem memberId_run {owner entry : Document} {index : Nat} {id : Document}
    (ran : (memberId owner entry index).run before = .ok (id, after)) : id = memberIdOf owner entry index ∧ before = after := by
  rw [memberId] at ran
  unfold memberIdOf
  split at ran
  · next given set =>
    obtain ⟨rfl, rfl⟩ := pure_run.mp ran
    rw [set]
    exact ⟨rfl, rfl⟩
  · next unset =>
    obtain ⟨text, _, shown, ran⟩ := bind_run.mp ran
    obtain ⟨_, rfl, rfl⟩ := textOf_run.mp shown
    obtain ⟨last, _, shown, ran⟩ := bind_run.mp ran
    obtain ⟨_, rfl, rfl⟩ := textOf_run.mp shown
    obtain ⟨rfl, rfl⟩ := pure_run.mp ran
    rw [unset]
    exact ⟨rfl, rfl⟩

theorem member_steps {fuel : Nat} (good : Good host types before) {owner entry : Document} {index : Nat} {given : Member}
    (within : MemberWithin types entry) (ran : (member fuel owner entry index).run before = .ok (given, after)) :
    Steps host types before after ∧ MemberIs after fuel owner entry index given
      ∧ ((entry.field "kind").text? = some "method" → AllMet types after entry) := by
  rw [member] at ran
  split at ran
  · obtain ⟨id, _, named, ran⟩ := bind_run.mp ran
    obtain ⟨rfl, rfl⟩ := memberId_run named
    obtain ⟨attributes, first, resolved, ran⟩ := bind_run.mp ran
    obtain ⟨one, marked⟩ := typesOf_steps good (RefersWithin.memberAttributes within) resolved
    have firstGood := good.steps one
    dsimp only at ran
    split at ran
    · next kind =>
      have typed := RefersWithin.memberType within kind (by simp)
      obtain ⟨type, second, resolved, ran⟩ := bind_run.mp ran
      obtain ⟨rfl, rfl⟩ := pure_run.mp ran
      obtain ⟨two, stands⟩ := resolve_steps firstGood typed resolved
      exact ⟨one.trans two, .field kind stands (marked.grows (grows_of_steps two)), by simp [kind]⟩
    · next kind =>
      have typed := RefersWithin.memberType within kind (by simp)
      obtain ⟨type, second, resolved, ran⟩ := bind_run.mp ran
      obtain ⟨two, stands⟩ := resolve_steps firstGood typed resolved
      obtain ⟨parameters, third, taken, ran⟩ := bind_run.mp ran
      obtain ⟨rfl, rfl⟩ := pure_run.mp ran
      obtain ⟨three, takes⟩ := parametersOf_steps (firstGood.steps two) (RefersWithin.indices within kind) taken
      exact ⟨one.trans (two.trans three), .property kind (stands.grows (grows_of_steps three)) takes
        (marked.grows (grows_of_steps (two.trans three))), by simp [kind]⟩
    · next kind =>
      have typed := RefersWithin.memberType within kind (by simp)
      obtain ⟨type, second, resolved, ran⟩ := bind_run.mp ran
      obtain ⟨rfl, rfl⟩ := pure_run.mp ran
      obtain ⟨two, stands⟩ := resolve_steps firstGood typed resolved
      exact ⟨one.trans two, .event kind stands (marked.grows (grows_of_steps two)), by simp [kind]⟩
    · next kind =>
      obtain ⟨ref, read, rfl⟩ := map_run.mp ran
      obtain ⟨two, is, met⟩ := method_steps fuel _ _ _ _ _ firstGood ⟨entry, within, kind, .self⟩ read
      exact ⟨one.trans two, .method kind is, fun _ => met⟩
    · next kind =>
      have typed := RefersWithin.memberType within kind (by simp)
      obtain ⟨type, second, resolved, ran⟩ := bind_run.mp ran
      obtain ⟨two, stands⟩ := resolve_steps firstGood typed resolved
      split at ran
      · obtain ⟨rfl, rfl⟩ := pure_run.mp ran
        exact ⟨one.trans two, .nested kind stands ⟨_, marked.grows (grows_of_steps two)⟩, by simp [kind]⟩
      · exact absurd ran refuse_run
    · exact absurd ran refuse_run
  · exact absurd ran refuse_run

end Members

section Declaring

variable {host : Host} {types : List Document} {before after : Loading}

theorem pathOf_run {value : Document} {path : String} : (pathOf host value).run before = .ok (path, after) ↔
    placeOf? host before.path value = some path ∧ before = after := by
  unfold pathOf placeOf?
  split
  · next text =>
    by_cases empty : text = ""
    · simp only [empty, if_true]
      exact ⟨fun ran => absurd ran refuse_run, fun ⟨impossible, _⟩ => nomatch impossible⟩
    · simp only [empty, if_false, Option.some.injEq]
      rw [bind_run]
      constructor
      · rintro ⟨_, _, got, ran⟩
        cases got
        exact pure_run.mp ran
      · rintro ⟨rfl, rfl⟩
        exact ⟨_, _, rfl, rfl⟩
  · exact ⟨fun ran => absurd ran refuse_run, by simp⟩

def typeSymbol (entry file : Document) : TypeSymbol :=
  { id := entry.field "id", name := displayName (entry.field "id") (entry.field "name"), file
    external := .bool (entry.field "external").isSet }

theorem enterType_run {entry file : Document} {key : Key} : (do
      let _ ← enter key (typeSymbol entry file)
      (← loop (entry.field "type_parameters")).forM declareParameter : Load Unit).run before = .ok ((), after) ↔
    ((entry.field "type_parameters").isSet = true → (entry.field "type_parameters").elements?.isSome = true)
      ∧ ((looped (entry.field "type_parameters")).forM declareParameter).run (before.entered key (typeSymbol entry file)) =
        .ok ((), after) := by
  simp only [bind_run, enter_run, loop_run]
  constructor
  · rintro ⟨_, _, ⟨rfl, rfl⟩, _, _, ⟨rfl, listed, rfl⟩, ran⟩
    exact ⟨listed, ran⟩
  · rintro ⟨listed, ran⟩
    exact ⟨_, _, ⟨rfl, rfl⟩, _, _, ⟨rfl, listed, rfl⟩, ran⟩

theorem declareType_run {entry : Document} {result : Unit} :
    (declareType host entry).run before = .ok (result, after) ↔ ∃ key file, (entry.field "id").isSet = true
      ∧ (entry.field "id").key? = some key ∧ before.ids.lookup key = none ∧ FileOf host before.path entry file
      ∧ ((entry.field "type_parameters").isSet = true → (entry.field "type_parameters").elements?.isSome = true)
      ∧ ((looped (entry.field "type_parameters")).forM declareParameter).run (before.entered key (typeSymbol entry file)) =
        .ok ((), after) := by
  rw [declareType, givenId?, Document.ifSet]
  by_cases set : (entry.field "id").isSet = true
  · rw [set, if_pos rfl]
    constructor
    · intro ran
      obtain ⟨key, _, named, ran⟩ := bind_run.mp ran
      obtain ⟨keyed, rfl⟩ := keyOf_run.mp named
      obtain ⟨_, _, asked, ran⟩ := bind_run.mp ran
      obtain ⟨rfl, rfl⟩ := find?_run.mp asked
      cases free : before.ids.lookup key with
      | some other =>
        rw [free] at ran
        obtain ⟨_, _, refused, _⟩ := bind_run.mp ran
        exact absurd refused refuse_run
      | none =>
        rw [free] at ran
        simp only [Option.isSome_none, Bool.false_eq_true, if_false] at ran
        split at ran
        · next without =>
          obtain ⟨_, _, none, ran⟩ := bind_run.mp ran
          obtain ⟨rfl, rfl⟩ := pure_run.mp none
          exact ⟨key, .null, rfl, keyed, free, Or.inl ⟨by simpa [Document.ifSet] using without, rfl⟩, enterType_run.mp ran⟩
        · next file given =>
          rw [Document.ifSet, Option.ite_none_right_eq_some, Option.some.injEq] at given
          obtain ⟨fileSet, rfl⟩ := given
          obtain ⟨_, _, located, entered⟩ := bind_run.mp ran
          obtain ⟨path, asked, rfl⟩ := map_run.mp located
          obtain ⟨placed, rfl⟩ := pathOf_run.mp asked
          exact ⟨key, .text path, rfl, keyed, free, Or.inr ⟨fileSet, path, placed, rfl⟩, enterType_run.mp entered⟩
    · rintro ⟨key, file, _, keyed, free, located, ran⟩
      refine bind_run.mpr ⟨key, before, keyOf_run.mpr ⟨keyed, rfl⟩, bind_run.mpr ⟨_, before, find?_run.mpr ⟨rfl, rfl⟩, ?_⟩⟩
      rw [free]
      dsimp only [Option.isSome_none, Bool.false_eq_true]
      rcases located with ⟨unset, rfl⟩ | ⟨fileSet, path, placed, rfl⟩
      · rw [Document.ifSet, unset]
        exact bind_run.mpr ⟨_, before, pure_run.mpr ⟨rfl, rfl⟩, enterType_run.mpr ran⟩
      · rw [Document.ifSet, fileSet]
        exact bind_run.mpr ⟨_, before, map_run.mpr ⟨path, pathOf_run.mpr ⟨placed, rfl⟩, rfl⟩, enterType_run.mpr ran⟩
  · simp only [set, Bool.false_eq_true, if_false, false_and, exists_false, iff_false]
    exact refuse_run

def Declared (host : Host) (loading : Loading) (entry : Document) : Prop :=
  ∃ key ref name file symbol, (entry.field "id").key? = some key ∧ FileOf host loading.path entry file
    ∧ loading.ids.lookup key = some ref ∧ loading.table.types[ref]? = some symbol
    ∧ Frozen { id := entry.field "id", name, file, external := .bool (entry.field "external").isSet } symbol

def Entered (loading : Loading) (parameter : Document) : Prop :=
  ∃ key ref symbol, (parameterId parameter).key? = some key ∧ loading.ids.lookup key = some ref
    ∧ loading.table.types[ref]? = some symbol ∧ symbol.kind = .typeParameter

theorem declared_grows (grows : Grows before after) {entry : Document} (declared : Declared host before entry) :
    Declared host after entry := by
  obtain ⟨key, ref, name, file, symbol, keyed, located, found, there, frozen⟩ := declared
  obtain ⟨later, still, more⟩ := grows.types ref symbol there
  exact ⟨key, ref, name, file, later, keyed, grows.path ▸ located, grows.ids key ref found, still, frozen.trans more⟩

theorem entered_grows (grows : Grows before after) {parameter : Document} (entered : Entered before parameter) :
    Entered after parameter := by
  obtain ⟨key, ref, symbol, keyed, found, there, kind⟩ := entered
  obtain ⟨later, still, more⟩ := grows.types ref symbol there
  exact ⟨key, ref, later, keyed, grows.ids key ref found, still, by rw [more.kind, kind]⟩

theorem declareParameter_entered {parameter : Document} {result : Unit}
    (ran : (declareParameter parameter).run before = .ok (result, after)) : Entered after parameter := by
  obtain ⟨key, _, keyed, new, rfl⟩ := declareParameter_run.mp ran
  refine ⟨key, before.table.types.size, parameterSymbol parameter, keyed, ?_, ?_, rfl⟩
  · rw [lookup_entered, new]
    simp
  · rw [Loading.entered, Array.getElem?_push_size]

theorem declareType_steps (good : Good host types before) {entry : Document} {result : Unit} (listed : entry ∈ types)
    (ran : (declareType host entry).run before = .ok (result, after)) :
    Steps host types before after ∧ (∀ key, (entry.field "id").key? = some key → before.ids.lookup key = none)
      ∧ Declared host after entry ∧ ∀ parameter ∈ looped (entry.field "type_parameters"), Entered after parameter := by
  obtain ⟨key, file, set, keyed, free, located, _, ran⟩ := declareType_run.mp ran
  have first : Step host types before (before.entered key (typeSymbol entry file)) :=
    .entered free (.declared listed set keyed located)
  obtain ⟨more, entered⟩ := forM_steps Entered (good.step first)
    (fun _ _ _ steps _ entered => entered_grows (grows_of_steps steps) entered)
    (fun parameter among _ _ _ ran =>
      ⟨declareParameter_steps (.type listed among) ran, declareParameter_entered ran⟩) ran
  refine ⟨.head first more, fun other also => ?_, declared_grows (grows_of_steps more) ?_, entered⟩
  · cases keyed.symm.trans also
    exact free
  · refine ⟨key, before.table.types.size, _, file, typeSymbol entry file, keyed, located, ?_, ?_, .refl _⟩
    · rw [lookup_entered, free]
      simp
    · rw [Loading.entered, Array.getElem?_push_size]

theorem declareTypes_steps (good : Good host types before) {entries : List Document} {result : Unit}
    (listed : ∀ entry ∈ entries, entry ∈ types) (ran : (entries.forM (declareType host)).run before = .ok (result, after)) :
    Steps host types before after
      ∧ (∀ entry ∈ entries, Declared host after entry
        ∧ ∀ parameter ∈ looped (entry.field "type_parameters"), Entered after parameter)
      ∧ (∀ entry ∈ entries, ∀ key, (entry.field "id").key? = some key → before.ids.lookup key = none)
      ∧ entries.Pairwise fun entry other =>
        ∀ key, (entry.field "id").key? = some key → (other.field "id").key? ≠ some key := by
  induction entries generalizing before with
  | nil =>
    obtain ⟨_, rfl⟩ := pure_run.mp ran
    exact ⟨.refl, by simp, by simp, .nil⟩
  | cons entry rest ih =>
    obtain ⟨_, middle, first, later⟩ := bind_run.mp
      (show (declareType host entry >>= fun _ => rest.forM (declareType host)).run before = _ from ran)
    obtain ⟨start, free, declared, entered⟩ := declareType_steps good (listed entry List.mem_cons_self) first
    obtain ⟨more, others, new, apart⟩ := ih (good.steps start) (fun other among => listed other (List.mem_cons_of_mem _ among)) later
    have grows := grows_of_steps more
    refine ⟨start.trans more, fun other among => ?_, fun other among key keyed => ?_, .cons (fun other among key keyed also => ?_) apart⟩
    · rcases List.mem_cons.mp among with rfl | among
      · exact ⟨declared_grows grows declared, fun parameter inside => entered_grows grows (entered parameter inside)⟩
      · exact others other among
    · rcases List.mem_cons.mp among with rfl | among
      · exact free key keyed
      · by_contra taken
        obtain ⟨ref, found⟩ := Option.ne_none_iff_exists'.mp taken
        exact nomatch ((grows_of_steps start).ids key ref found).symm.trans (new other among key keyed)
    · obtain ⟨_, ref, _, _, _, same, _, found, _⟩ := declared
      cases keyed.symm.trans same
      exact nomatch found.symm.trans (new other among key also)

theorem apart_of_pairwise (pairs : types.Pairwise fun entry other =>
    ∀ key, (entry.field "id").key? = some key → (other.field "id").key? ≠ some key) : Apart types := by
  induction pairs with
  | nil => simp [Apart]
  | cons first _ ih =>
    intro entry listed other among key keyed also
    rcases List.mem_cons.mp listed with rfl | later
    · rcases List.mem_cons.mp among with rfl | inside
      · rfl
      · exact absurd also (first other inside key keyed)
    · rcases List.mem_cons.mp among with rfl | inside
      · exact absurd keyed (first entry later key also)
      · exact ih entry later other inside key keyed also

end Declaring

section Linking

variable {host : Host} {types : List Document} {before after : Loading}

/-- One link of a declared type is set, and all else stays. -/
structure Sets (link : Link) (before after : TypeSymbol) : Prop where
  frozen : Frozen before after
  constraints : after.constraints = before.constraints
  others : ∀ other, other ≠ link → other.Same before after

theorem sets_base (base : Option TypeRef) (symbol : TypeSymbol) : Sets .base symbol { symbol with base } where
  frozen := ⟨rfl, rfl, rfl, rfl, rfl, rfl, rfl, rfl⟩
  constraints := rfl
  others other different := by cases other <;> first | rfl | exact absurd rfl different

theorem sets_interfaces (interfaces : List (Option TypeRef)) (symbol : TypeSymbol) :
    Sets .interfaces symbol { symbol with interfaces } where
  frozen := ⟨rfl, rfl, rfl, rfl, rfl, rfl, rfl, rfl⟩
  constraints := rfl
  others other different := by cases other <;> first | rfl | exact absurd rfl different

theorem sets_typeParameters (typeParameters : List (Option TypeRef)) (symbol : TypeSymbol) :
    Sets .typeParameters symbol { symbol with typeParameters } where
  frozen := ⟨rfl, rfl, rfl, rfl, rfl, rfl, rfl, rfl⟩
  constraints := rfl
  others other different := by cases other <;> first | rfl | exact absurd rfl different

theorem sets_typeArguments (typeArguments : List (Option TypeRef)) (symbol : TypeSymbol) :
    Sets .typeArguments symbol { symbol with typeArguments } where
  frozen := ⟨rfl, rfl, rfl, rfl, rfl, rfl, rfl, rfl⟩
  constraints := rfl
  others other different := by cases other <;> first | rfl | exact absurd rfl different

theorem sets_attributes (attributes : List (Option TypeRef)) (symbol : TypeSymbol) :
    Sets .attributes symbol { symbol with attributes } where
  frozen := ⟨rfl, rfl, rfl, rfl, rfl, rfl, rfl, rfl⟩
  constraints := rfl
  others other different := by cases other <;> first | rfl | exact absurd rfl different

theorem sets_members (members : List (Option Member)) (symbol : TypeSymbol) : Sets .members symbol { symbol with members } where
  frozen := ⟨rfl, rfl, rfl, rfl, rfl, rfl, rfl, rfl⟩
  constraints := rfl
  others other different := by cases other <;> first | rfl | exact absurd rfl different

theorem update_steps (link : Link) (good : Good host types before) {entry : Document} {key : Key} {ref : TypeRef}
    {change : TypeSymbol → TypeSymbol} {result : Unit} (listed : entry ∈ types)
    (keyed : (entry.field "id").key? = some key) (found : before.ids.lookup key = some ref)
    (ran : (update ref change).run before = .ok (result, after)) (sets : ∀ symbol, Sets link symbol (change symbol))
    (is : ∀ symbol, link.Is before entry (change symbol)) :
    Steps host types before after ∧ Settled after entry link := by
  obtain rfl := update_run.mp ran
  have follows (symbol : TypeSymbol) : Follows before entry symbol (change symbol) := by
    refine ⟨(sets symbol).frozen, (sets symbol).constraints, fun other => ?_⟩
    by_cases same : other = link
    · exact Or.inr (same ▸ is symbol)
    · exact Or.inl ((sets symbol).others other same)
  have step : Step host types before (before.changed ref change) := .changed found (.linked listed keyed follows)
  obtain ⟨symbol, there, _⟩ := good.found found
  refine ⟨.single step, key, ref, change symbol, keyed, found, ?_, (is symbol).grows (grows_of_step step)⟩
  rw [types_changed, if_pos rfl, there, Option.map_some]

/-- An operation that has run from some table of a manifest. -/
def Ran (host : Host) (types : List Document) {α : Type} (op : Load α) : Prop :=
  ∃ before value after, Good host types before ∧ op.run before = .ok (value, after)

theorem linked_run {α : Type} (link : Link) (good : Good host types before) {entry : Document} {key : Key} {ref : TypeRef}
    {op : Load α} {change : α → TypeSymbol → TypeSymbol} {next : α → Load Unit} {result : Unit} (listed : entry ∈ types)
    (keyed : (entry.field "id").key? = some key) (found : before.ids.lookup key = some ref)
    (ran : (op >>= fun value => update ref (change value) >>= fun _ => next value).run before = .ok (result, after))
    (sets : ∀ value symbol, Sets link symbol (change value symbol))
    (reads : ∀ value middle, op.run before = .ok (value, middle) →
      Steps host types before middle ∧ ∀ symbol, link.Is middle entry (change value symbol)) :
    ∃ value middle, Ran host types op ∧ Good host types middle ∧ Steps host types before middle
      ∧ middle.ids.lookup key = some ref ∧ Settled middle entry link ∧ (next value).run middle = .ok (result, after) := by
  obtain ⟨value, first, read, ran⟩ := bind_run.mp ran
  obtain ⟨one, is⟩ := reads value first read
  obtain ⟨_, second, updated, ran⟩ := bind_run.mp ran
  obtain ⟨two, settled⟩ := update_steps link (good.steps one) listed keyed ((grows_of_steps one).ids key ref found) updated
    (sets value) is
  have steps := one.trans two
  exact ⟨value, second, ⟨before, value, first, good, read⟩, good.steps steps, steps,
    (grows_of_steps steps).ids key ref found, settled, ran⟩

structure EntryRead (types : List Document) (loading : Loading) (entry : Document) : Prop where
  links : ∀ link, Settled loading entry link
  parameters : ∀ parameter ∈ looped (entry.field "type_parameters"), Constraining parameter → Met types loading parameter
  methods : ∀ member ∈ looped (entry.field "members"), (member.field "kind").text? = some "method" →
    AllMet types loading member

structure PartsRan (host : Host) (types : List Document) (fuel : Nat) (entry : Document) : Prop where
  base : Ran host types (typeOf (entry.field "base"))
  interfaces : Ran host types (typesOf (entry.field "interfaces"))
  parameters : ∀ parameter ∈ looped (entry.field "type_parameters"), Ran host types (linkParameter parameter)
  typeArguments : Ran host types (typesOf (entry.field "type_arguments"))
  attributes : Ran host types (typesOf (entry.field "attributes"))
  members : ∀ member ∈ (looped (entry.field "members")).zipIdx,
    Ran host types (Load.member fuel (entry.field "id") member.1 member.2)
  membersListed : (entry.field "members").isSet = true → (entry.field "members").elements?.isSome = true

theorem entryRead_steps (good : Good host types before) (apart : Apart types) (steps : Steps host types before after)
    {entry : Document} (listed : entry ∈ types) (read : EntryRead types before entry) : EntryRead types after entry where
  links link := settled_steps good apart steps listed (read.links link)
  parameters parameter among constraining := met_steps good steps (read.parameters parameter among constraining)
  methods member among kind := allMet_steps good steps (read.methods member among kind)

theorem members_steps {fuel : Nat} (good : Good host types before) {entry : Document} {key : Key} {ref : TypeRef}
    {result : Unit} (listed : entry ∈ types) (keyed : (entry.field "id").key? = some key)
    (found : before.ids.lookup key = some ref)
    (ran : (do
      let members ← (looped (entry.field "members")).zipIdx.mapM fun (member, index) =>
        Load.member fuel (entry.field "id") member index
      update ref fun symbol => { symbol with members := members.map some } : Load Unit).run before = .ok (result, after)) :
    Steps host types before after ∧ Settled after entry .members
      ∧ (∀ member ∈ looped (entry.field "members"), (member.field "kind").text? = some "method" →
        AllMet types after member)
      ∧ ∀ member ∈ (looped (entry.field "members")).zipIdx,
        Ran host types (Load.member fuel (entry.field "id") member.1 member.2) := by
  obtain ⟨members, middle, read, ran⟩ := bind_run.mp ran
  obtain ⟨one, are⟩ := mapM_steps (fun loading (member : Document × Nat) given =>
      MemberIs loading fuel (entry.field "id") member.1 member.2 given
        ∧ ((member.1.field "kind").text? = some "method" → AllMet types loading member.1)
        ∧ Ran host types (Load.member fuel (entry.field "id") member.1 member.2))
    good (fun _ _ good steps _ _ held =>
      ⟨held.1.grows (grows_of_steps steps), fun kind => allMet_steps good steps (held.2.1 kind), held.2.2⟩)
    (fun member among first second given good ran => by
      obtain ⟨steps, is, met⟩ := member_steps good ⟨entry, listed, List.fst_mem_of_mem_zipIdx among⟩ ran
      exact ⟨steps, is, met, first, given, second, good, ran⟩) read
  have membersAre : MembersAre middle entry (members.map some) :=
    ⟨fuel, List.forall₂_map_right_iff.mpr (are.imp fun _ given held => ⟨given, rfl, held.1⟩)⟩
  obtain ⟨two, settled⟩ := update_steps .members (good.steps one) listed keyed ((grows_of_steps one).ids key ref found) ran
    (sets_members _) (fun _ => membersAre)
  refine ⟨one.trans two, settled, fun member among kind => ?_, fun member among => ?_⟩
  · obtain ⟨index, pair⟩ := exists_mem_zipIdx among
    obtain ⟨_, _, _, met, _⟩ := exists_of_mem_left are pair
    exact allMet_steps (good.steps one) two (met kind)
  · obtain ⟨_, _, _, _, ran⟩ := exists_of_mem_left are among
    exact ran

theorem linkParameters_run (good : Good host types before) {entry : Document} {key : Key} {ref : TypeRef}
    {next : List TypeRef → Load Unit} {result : Unit} (listed : entry ∈ types) (keyed : (entry.field "id").key? = some key)
    (found : before.ids.lookup key = some ref)
    (ran : ((looped (entry.field "type_parameters")).mapM linkParameter >>= fun parameters =>
      update ref (fun symbol => { symbol with typeParameters := parameters.map some }) >>= fun _ => next parameters).run before =
        .ok (result, after)) :
    ∃ middle, Good host types middle ∧ Steps host types before middle ∧ middle.ids.lookup key = some ref
      ∧ Settled middle entry .typeParameters
      ∧ (∀ parameter ∈ looped (entry.field "type_parameters"), Constraining parameter → Met types middle parameter)
      ∧ (∀ parameter ∈ looped (entry.field "type_parameters"), Ran host types (linkParameter parameter))
      ∧ ∃ parameters, (next parameters).run middle = .ok (result, after) := by
  obtain ⟨parameters, first, linked, ran⟩ := bind_run.mp ran
  obtain ⟨one, all⟩ := mapM_steps (fun loading parameter link =>
      Known types loading parameter (some link) ∧ Ran host types (linkParameter parameter))
    good (fun _ _ good steps _ _ held => ⟨known_steps good steps held.1, held.2⟩)
    (fun parameter among first second link good ran => by
      obtain ⟨steps, known⟩ := linkParameter_steps good (.type listed among) ran
      exact ⟨steps, known, first, link, second, good, ran⟩) linked
  have are : List.Forall₂ (ParameterIs first.ids) (looped (entry.field "type_parameters")) (parameters.map some) :=
    List.forall₂_map_right_iff.mpr (all.imp fun _ _ held => held.1.1)
  obtain ⟨_, second, updated, ran⟩ := bind_run.mp ran
  obtain ⟨two, settled⟩ := update_steps .typeParameters (good.steps one) listed keyed ((grows_of_steps one).ids key ref found)
    updated (sets_typeParameters _) (fun _ => are)
  have steps := one.trans two
  refine ⟨second, good.steps steps, steps, (grows_of_steps steps).ids key ref found, settled, fun parameter among constraining =>
    ?_, fun parameter among => ?_, parameters, ran⟩
  · obtain ⟨_, _, ⟨_, met⟩, _⟩ := exists_of_mem_left all among
    exact met_steps (good.steps one) two (met constraining)
  · obtain ⟨_, _, _, ran⟩ := exists_of_mem_left all among
    exact ran

theorem linkType_steps {fuel : Nat} (good : Good host types before) (apart : Apart types) {entry : Document} {result : Unit}
    (listed : entry ∈ types) (ran : (linkType fuel entry).run before = .ok (result, after)) :
    Steps host types before after ∧ EntryRead types after entry ∧ PartsRan host types fuel entry := by
  obtain ⟨ref, _, asked, ran⟩ := bind_run.mp ran
  obtain ⟨⟨key, keyed, found⟩, rfl⟩ := known_run.mp asked
  -- The links are set one after another, and each stays once it is set.
  obtain ⟨_, _, baseRan, oneGood, one, oneFound, base, ran⟩ :=
    linked_run .base good listed keyed found ran sets_base
      (fun _ _ ran => (resolve_steps good (.base listed) ran).imp_right fun stands _ => stands)
  obtain ⟨_, _, interfacesRan, twoGood, two, twoFound, interfaces, ran⟩ :=
    linked_run .interfaces oneGood listed keyed oneFound ran sets_interfaces
      (fun _ _ ran => (typesOf_steps oneGood (RefersWithin.interfaces listed) ran).imp_right fun lists _ => lists)
  obtain ⟨_, _, met, ran⟩ := bind_run.mp ran
  obtain ⟨rfl, _, rfl⟩ := loop_run.mp met
  obtain ⟨_, fourGood, three, fourFound, typeParameters, parametersMet, parametersRan, _, ran⟩ :=
    linkParameters_run twoGood listed keyed twoFound ran
  obtain ⟨_, _, typeArgumentsRan, fiveGood, five, fiveFound, typeArguments, ran⟩ :=
    linked_run .typeArguments fourGood listed keyed fourFound ran sets_typeArguments
      (fun _ _ ran => (typesOf_steps fourGood (RefersWithin.typeArguments listed) ran).imp_right fun lists _ => lists)
  obtain ⟨_, _, attributesRan, sixGood, six, sixFound, attributes, ran⟩ :=
    linked_run .attributes fiveGood listed keyed fiveFound ran sets_attributes
      (fun _ _ ran => (typesOf_steps fiveGood (RefersWithin.attributes listed) ran).imp_right fun lists _ => lists)
  obtain ⟨_, _, met, ran⟩ := bind_run.mp ran
  obtain ⟨rfl, membersListed, rfl⟩ := loop_run.mp met
  obtain ⟨seven, members, methodsMet, membersRan⟩ := members_steps sixGood listed keyed sixFound ran
  have afterFive := six.trans seven
  have afterFour := five.trans afterFive
  have afterTwo := three.trans afterFour
  have partsRan : PartsRan host types fuel entry :=
    { base := baseRan
      interfaces := interfacesRan
      parameters := parametersRan
      typeArguments := typeArgumentsRan
      attributes := attributesRan
      members := membersRan
      membersListed }
  refine ⟨one.trans (two.trans afterTwo), ⟨fun link => ?_, fun parameter among constraining => ?_, methodsMet⟩, partsRan⟩
  · cases link with
    | base => exact settled_steps oneGood apart (two.trans afterTwo) listed base
    | interfaces => exact settled_steps twoGood apart afterTwo listed interfaces
    | typeParameters => exact settled_steps fourGood apart afterFour listed typeParameters
    | typeArguments => exact settled_steps fiveGood apart afterFive listed typeArguments
    | attributes => exact settled_steps sixGood apart seven listed attributes
    | members => exact members
  · exact met_steps fourGood afterFour (parametersMet parameter among constraining)

end Linking

section Whole

variable {α β : Type}

/-- An operation that only looks at the symbol table. -/
def Still (op : Load α) : Prop := ∀ before value after, op.run before = .ok (value, after) → before = after

theorem still_pure (value : α) : Still (pure value : Load α) := fun _ _ _ ran => (pure_run.mp ran).2

theorem still_bind {first : Load α} {next : α → Load β} (head : Still first) (tail : ∀ value, Still (next value)) :
    Still (first >>= next) := by
  intro before result after ran
  obtain ⟨value, middle, start, rest⟩ := bind_run.mp ran
  exact (head before value middle start).trans (tail value middle result after rest)

theorem still_refuse {defect : Defect} : Still (refuse defect : Load α) := fun _ _ _ ran => absurd ran refuse_run

theorem still_throw {fault : Fault} : Still (throw fault : Load α) := fun _ _ _ ran => absurd ran throw_run

theorem still_mapM {f : α → Load β} (each : ∀ value, Still (f value)) (values : List α) : Still (values.mapM f) := by
  induction values with
  | nil =>
    rw [List.mapM_nil]
    exact still_pure []
  | cons value rest ih =>
    rw [List.mapM_cons]
    exact still_bind (each value) fun _ => still_bind ih fun _ => still_pure _

theorem still_foldlM {f : β → α → Load β} (each : ∀ state value, Still (f state value)) (values : List α) (start : β) :
    Still (values.foldlM f start) := by
  induction values generalizing start with
  | nil =>
    rw [List.foldlM_nil]
    exact still_pure start
  | cons value rest ih =>
    rw [List.foldlM_cons]
    exact still_bind (each start value) fun next => ih next

theorem still_textOf (value : Document) : Still (textOf value) := fun _ _ _ ran => (textOf_run.mp ran).2.2

theorem still_pathOf (host : Host) (value : Document) : Still (pathOf host value) := fun _ _ _ ran => (pathOf_run.mp ran).2

theorem still_loop (value : Document) : Still (loop value) := fun _ _ _ ran => (loop_run.mp ran).2.2

theorem still_entriesOf (value : Document) : Still (entriesOf value) := by
  unfold entriesOf
  split
  · exact still_pure _
  · split
    · exact still_pure _
    · exact still_throw

theorem still_listedDeclarations (host : Host) (value : Document) : Still (listedDeclarations host value) := by
  refine still_bind (still_entriesOf value) fun entries => still_foldlM (fun rows entry => ?_) entries []
  split
  split
  · exact still_bind (still_mapM still_textOf _) fun _ => still_bind (still_pathOf host _) fun _ => still_pure _
  · exact still_refuse

def withOwn (rows : List (String × List Document)) (symbol : TypeSymbol) : List (String × List Document) :=
  match symbol.file.text? with
  | none => rows
  | some file => if symbol.external.isSet then rows else Rows.append rows file symbol.id

def addOwn (rows : List (String × List Document)) (entry : Document) : Load (List (String × List Document)) := do
  let symbol ← symbolAt (← known (entry.field "id"))
  match symbol.file.text? with
  | none => pure rows
  | some file => if symbol.external.isSet then pure rows else pure (Rows.append rows file symbol.id)

theorem ownDeclarations_eq (entries : List Document) : ownDeclarations entries = entries.foldlM addOwn [] := rfl

theorem addOwn_run {rows next : List (String × List Document)} {entry : Document} {before after : Loading} :
    (addOwn rows entry).run before = .ok (next, after) ↔ ∃ key ref symbol, (entry.field "id").key? = some key
      ∧ before.ids.lookup key = some ref ∧ before.table.types[ref]? = some symbol ∧ withOwn rows symbol = next
      ∧ before = after := by
  have rest (symbol : TypeSymbol) : (match symbol.file.text? with
      | none => pure rows
      | some file => if symbol.external.isSet then pure rows else pure (Rows.append rows file symbol.id) : Load _) =
      pure (withOwn rows symbol) := by
    unfold withOwn
    split
    · rfl
    · split
      · rfl
      · rfl
  simp only [addOwn, bind_run, known_run, symbolAt_run, rest, pure_run]
  constructor
  · rintro ⟨ref, _, ⟨⟨key, keyed, found⟩, rfl⟩, symbol, _, ⟨there, rfl⟩, added, rfl⟩
    exact ⟨key, ref, symbol, keyed, found, there, added, rfl⟩
  · rintro ⟨key, ref, symbol, keyed, found, there, added, rfl⟩
    exact ⟨ref, _, ⟨⟨key, keyed, found⟩, rfl⟩, symbol, _, ⟨there, rfl⟩, added, rfl⟩

theorem still_addOwn (rows : List (String × List Document)) (entry : Document) : Still (addOwn rows entry) := by
  intro before next after ran
  obtain ⟨_, _, _, _, _, _, _, same⟩ := addOwn_run.mp ran
  exact same

theorem still_ownDeclarations (entries : List Document) : Still (ownDeclarations entries) :=
  still_foldlM still_addOwn entries []

theorem still_markersOf (host : Host) (value : Document) : Still (markersOf host value) := by
  refine still_bind (still_entriesOf value) fun entries => still_foldlM (fun rows entry => ?_) entries []
  split
  exact still_bind (still_mapM still_textOf _) fun _ => still_bind (still_pathOf host _) fun _ => still_pure _

def entriesIn (data : Document) : Option (List Document) := (((data.field "types").ifSet).getD (.list [])).items?

/-- The declarations of a manifest: those it lists, or those that follow from its types if it lists none. -/
def declarationsOf (types : List Document) (listed : List (String × List Document)) : Load (List (String × List Document)) :=
  if listed.isEmpty then ownDeclarations types else pure listed

/-- The source files of a manifest: those it lists, or those that hold declarations if it lists none. -/
def sourcesOf (host : Host) (files : Document) (rows : List (String × List Document)) : Load (List String) :=
  match files with
  | .scalar .null => pure (rows.map (·.1))
  | files =>
    match files.elements? with
    | some elements => elements.mapM (pathOf host)
    | none => throw (.notIterable files.kindWord)

def pathsIn (host : Host) (value : Document) : Load (List String) := do (← loop value).mapM (pathOf host)

theorem unit_eq (host : Host) (fuel : Nat) (data : Document) : unit host fuel data =
    match entriesIn data with
    | some types => do
      types.forM (declareType host)
      types.forM (linkType fuel)
      let listed ← listedDeclarations host (data.field "declarations")
      let declarations ← declarationsOf types listed
      let sourceFiles ← sourcesOf host (data.field "files") declarations
      let markupFiles ← pathsIn host (data.field "markup_files")
      let markers ← markersOf host (data.field "original_file_markers")
      let loading ← get
      pure
        { path := loading.path, table := loading.table, ids := loading.ids
          sourceFiles, markupFiles, markers, declarations }
    | none => refuse .typesNotList := by
  unfold unit entriesIn
  dsimp only
  cases (((data.field "types").ifSet).getD (.list [])).items? with
  | none => rfl
  | some types =>
    refine bind_congr fun _ => bind_congr fun _ => bind_congr fun listed => ?_
    have sources (rows : List (String × List Document)) {rest : List String → Load ManifestUnit} :
        (match data.field "files" with
          | .scalar .null => pure (rows.map (·.1)) >>= rest
          | files =>
            match files.elements? with
            | some elements => elements.mapM (pathOf host) >>= rest
            | none => throw (.notIterable files.kindWord) >>= rest) =
          sourcesOf host (data.field "files") rows >>= rest := by
      unfold sourcesOf
      split
      · rfl
      · split
        · rfl
        · rfl
    simp only [declarationsOf, pathsIn, bind_assoc, ← sources]
    split
    · rfl
    · rfl

/-- What is known of the symbol table once all types are read. -/
structure Reading (host : Host) (types : List Document) (loading : Loading) : Prop where
  good : Good host types loading
  apart : Apart types
  declared : ∀ entry ∈ types, Declared host loading entry
  entered : ∀ entry ∈ types, ∀ parameter ∈ looped (entry.field "type_parameters"), Entered loading parameter
  read : ∀ entry ∈ types, EntryRead types loading entry

theorem types_reading {host : Host} {types : List Document} {fuel : Nat} {path : String} {middle after : Loading}
    {first second : Unit} (entered : (types.forM (declareType host)).run { path } = .ok (first, middle))
    (linked : (types.forM (linkType fuel)).run middle = .ok (second, after)) :
    Reading host types after ∧ after.path = path := by
  have start : Good host types { path } := good_start path
  obtain ⟨one, declared, _, pairs⟩ := declareTypes_steps start (fun _ among => among) entered
  have apart := apart_of_pairwise pairs
  obtain ⟨two, read⟩ := forM_steps (fun loading entry => entry ∈ types → EntryRead types loading entry) (start.steps one)
    (fun _ _ good steps _ read listed => entryRead_steps good apart steps listed (read listed))
    (fun entry listed _ _ good ran => (linkType_steps good apart listed ran).imp_right fun read _ => read.1) linked
  have reading : Reading host types after :=
    { good := start.steps (one.trans two)
      apart
      declared := fun entry listed => declared_grows (grows_of_steps two) (declared entry listed).1
      entered := fun entry listed parameter among =>
        entered_grows (grows_of_steps two) ((declared entry listed).2 parameter among)
      read := fun entry listed => read entry listed listed }
  exact ⟨reading, (grows_of_steps (one.trans two)).path⟩

theorem types_ran {host : Host} {types : List Document} {fuel : Nat} {path : String} {middle after : Loading}
    {first second : Unit} (entered : (types.forM (declareType host)).run { path } = .ok (first, middle))
    (linked : (types.forM (linkType fuel)).run middle = .ok (second, after)) :
    ∀ entry ∈ types, PartsRan host types fuel entry := by
  have start : Good host types { path } := good_start path
  obtain ⟨one, _, _, pairs⟩ := declareTypes_steps start (fun _ among => among) entered
  exact (forM_steps (fun _ entry => PartsRan host types fuel entry) (start.steps one) (fun _ _ _ _ _ parts => parts)
    (fun entry listed _ _ good ran =>
      (linkType_steps good (apart_of_pairwise pairs) listed ran).imp_right And.right) linked).2

theorem still_declarationsOf (types : List Document) (listed : List (String × List Document)) :
    Still (declarationsOf types listed) := by
  unfold declarationsOf
  split
  · exact still_ownDeclarations types
  · exact still_pure listed

theorem still_sourcesOf (host : Host) (files : Document) (rows : List (String × List Document)) :
    Still (sourcesOf host files rows) := by
  unfold sourcesOf
  split
  · exact still_pure _
  · split
    · exact still_mapM (still_pathOf host) _
    · exact still_throw

theorem still_pathsIn (host : Host) (value : Document) : Still (pathsIn host value) :=
  still_bind (still_loop value) fun _ => still_mapM (still_pathOf host) _

/-- What a unit is read from, once its types are read: everything else only looks at them. -/
structure Shown (host : Host) (types : List Document) (data : Document) (loading : Loading) (manifest : ManifestUnit)
    (rows : List (String × List Document)) : Prop where
  listed : (listedDeclarations host (data.field "declarations")).run loading = .ok (rows, loading)
  declarations : (declarationsOf types rows).run loading = .ok (manifest.declarations, loading)
  sources : (sourcesOf host (data.field "files") manifest.declarations).run loading = .ok (manifest.sourceFiles, loading)
  markup : (pathsIn host (data.field "markup_files")).run loading = .ok (manifest.markupFiles, loading)
  markers : (markersOf host (data.field "original_file_markers")).run loading = .ok (manifest.markers, loading)
  path : manifest.path = loading.path
  table : manifest.table = loading.table
  ids : manifest.ids = loading.ids

theorem unit_run {host : Host} {fuel : Nat} {data : Document} {manifest : ManifestUnit} {before after : Loading} :
    (unit host fuel data).run before = .ok (manifest, after) ↔ ∃ types middle listed, entriesIn data = some types
      ∧ (types.forM (declareType host)).run before = .ok ((), middle)
      ∧ (types.forM (linkType fuel)).run middle = .ok ((), after) ∧ Shown host types data after manifest listed := by
  rw [unit_eq]
  cases entriesIn data with
  | none => exact ⟨fun ran => absurd ran refuse_run, by simp⟩
  | some types =>
    constructor
    · intro ran
      obtain ⟨_, middle, entered, ran⟩ := bind_run.mp ran
      obtain ⟨_, loading, linked, ran⟩ := bind_run.mp ran
      obtain ⟨listed, _, one, ran⟩ := bind_run.mp ran
      obtain rfl := still_listedDeclarations host _ _ _ _ one
      obtain ⟨declarations, _, two, ran⟩ := bind_run.mp ran
      obtain rfl := still_declarationsOf types listed _ _ _ two
      obtain ⟨sourceFiles, _, three, ran⟩ := bind_run.mp ran
      obtain rfl := still_sourcesOf host _ _ _ _ _ three
      obtain ⟨markupFiles, _, four, ran⟩ := bind_run.mp ran
      obtain rfl := still_pathsIn host _ _ _ _ four
      obtain ⟨markers, _, five, ran⟩ := bind_run.mp ran
      obtain rfl := still_markersOf host _ _ _ _ five
      obtain ⟨_, _, got, ran⟩ := bind_run.mp ran
      cases got
      obtain ⟨rfl, rfl⟩ := pure_run.mp ran
      exact ⟨types, middle, listed, rfl, entered, linked, one, two, three, four, five, rfl, rfl, rfl⟩
    · rintro ⟨_, middle, listed, same, entered, linked, shown⟩
      cases same
      have whole : manifest =
          { path := after.path, table := after.table, ids := after.ids, sourceFiles := manifest.sourceFiles
            markupFiles := manifest.markupFiles, markers := manifest.markers, declarations := manifest.declarations } := by
        rw [← shown.path, ← shown.table, ← shown.ids]
      rw [whole]
      exact bind_run.mpr ⟨(), middle, entered, bind_run.mpr ⟨(), after, linked, bind_run.mpr ⟨_, _, shown.listed,
        bind_run.mpr ⟨_, _, shown.declarations, bind_run.mpr ⟨_, _, shown.sources, bind_run.mpr ⟨_, _, shown.markup,
          bind_run.mpr ⟨_, _, shown.markers, bind_run.mpr ⟨after, after, rfl, pure_run.mpr ⟨rfl, rfl⟩⟩⟩⟩⟩⟩⟩⟩⟩

end Whole

end Load

open Load in
/-- A manifest that is read gives the types that it lists, each as its entry says. -/
theorem load_eq_ok {host : Host} {path : String} {fuel : Nat} {data : Document} {manifest : ManifestUnit} :
    load host path fuel data = .ok manifest ↔ ∃ types middle loading listed, entriesIn data = some types
      ∧ (types.forM (declareType host)).run { path } = .ok ((), middle)
      ∧ (types.forM (linkType fuel)).run middle = .ok ((), loading) ∧ Shown host types data loading manifest listed := by
  rw [load, bind_eq_ok]
  constructor
  · rintro ⟨⟨given, loading⟩, ran, same⟩
    cases same
    obtain ⟨types, middle, listed, entries, entered, linked, shown⟩ := unit_run.mp ran
    exact ⟨types, middle, loading, listed, entries, entered, linked, shown⟩
  · rintro ⟨types, middle, loading, listed, entries, entered, linked, shown⟩
    exact ⟨(manifest, loading), unit_run.mpr ⟨types, middle, listed, entries, entered, linked, shown⟩, rfl⟩

end DeclGraph.Manifest
