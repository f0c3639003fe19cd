import DeclGraph.Proofs.ManifestPlaces

/-!
Walks over the symbol tables of one manifest that was read in different orders. A mark belongs to one place of the
manifest, and a type says the same of its file in either table, so that a declared type has the same dependencies.
-/

namespace DeclGraph.Manifest

open Load SymbolTable

section Marking

variable {host : Host} {types others : List Document} {first second loading : Loading}

def Place.mark? : Place → Option Mark
  | .root key => some (.root, key)
  | .type key => some (.type, key)
  | .member entry => (givenKey? entry).map (.member, ·)
  | .memberMethod entry => (givenKey? entry).map (.member, ·)
  | .method entry => (givenKey? entry).map (.method, ·)

theorem givenKey?_of_given {entry id : Document} (given : (entry.field "id").ifSet = some id) : givenKey? entry = id.key? := by
  rw [givenKey?, given, Option.bind_some]

theorem mark?_of_at (good : Good host types loading) (labelled : Labelled types) {place : Place} {visit : Visit}
    (placed : At types loading place visit) : loading.table.mark? visit = place.mark? := by
  cases placed with
  | root found =>
    obtain ⟨symbol, there, keyed⟩ := good.found found
    exact mark?_eq_some.mpr ⟨symbol.id, by simp [markOf, there], keyed⟩
  | type found =>
    obtain ⟨symbol, there, keyed⟩ := good.found found
    exact mark?_eq_some.mpr ⟨symbol.id, by simp [markOf, there], keyed⟩
  | @member entry owner depth index symbol within is =>
    obtain ⟨id, key, given, keyed⟩ := labelled.keyed (Or.inl within)
    have own : symbol.id = id := by cases is <;> rw [memberIdOf, given, Option.getD_some]
    rw [Place.mark?, givenKey?_of_given given, keyed]
    exact mark?_eq_some.mpr ⟨symbol.id, rfl, by rw [own, keyed]⟩
  | memberMethod within kind given is =>
    obtain ⟨_, key, set, keyed⟩ := labelled.keyed (Or.inl within)
    cases given.symm.trans set
    obtain ⟨_, symbol, stored, looks⟩ := looks_of_is is
    rw [Place.mark?, givenKey?_of_given given, keyed]
    exact mark?_eq_some.mpr ⟨symbol.id, by simp [markOf, stored], by rw [looks.id, keyed]⟩
  | method within given is =>
    obtain ⟨_, key, set, keyed⟩ := labelled.keyed (Or.inr within)
    cases given.symm.trans set
    obtain ⟨_, symbol, stored, looks⟩ := looks_of_is is
    rw [Place.mark?, givenKey?_of_given given, keyed]
    exact mark?_eq_some.mpr ⟨symbol.id, by simp [markOf, stored], by rw [looks.id, keyed]⟩

/-- A place of the manifest: a key, or an entry of the right sort. -/
def Place.Within (types : List Document) : Place → Prop
  | .root _ => True
  | .type _ => True
  | .member entry => MemberWithin types entry ∧ (entry.field "kind").text? ≠ some "method"
  | .memberMethod entry => MemberWithin types entry ∧ (entry.field "kind").text? = some "method"
  | .method entry => MethodWithin types entry

theorem within_of_at {place : Place} {visit : Visit} (placed : At types loading place visit) : place.Within types := by
  cases placed with
  | root => trivial
  | type => trivial
  | member within is => exact ⟨within, by cases is <;> simp [*]⟩
  | memberMethod within kind => exact ⟨within, kind⟩
  | method within => exact within

theorem given_of_within (labelled : Labelled types) {entry : Document} (within : EntryWithin types entry) :
    ∃ key, givenKey? entry = some key := by
  obtain ⟨id, key, set, keyed⟩ := labelled.keyed within
  exact ⟨key, by rw [givenKey?_of_given set, keyed]⟩

theorem mark?_isSome (labelled : Labelled types) {place : Place} (within : place.Within types) :
    ∃ mark, place.mark? = some mark := by
  cases place with
  | root key => exact ⟨_, rfl⟩
  | type key => exact ⟨_, rfl⟩
  | member entry =>
    obtain ⟨key, same⟩ := given_of_within labelled (Or.inl within.1)
    exact ⟨_, by rw [Place.mark?, same, Option.map_some]⟩
  | memberMethod entry =>
    obtain ⟨key, same⟩ := given_of_within labelled (Or.inl within.1)
    exact ⟨_, by rw [Place.mark?, same, Option.map_some]⟩
  | method entry =>
    obtain ⟨key, same⟩ := given_of_within labelled (Or.inr within)
    exact ⟨_, by rw [Place.mark?, same, Option.map_some]⟩

/-- A mark belongs to one place. -/
theorem place_unique (labelled : Labelled types) {place other : Place} (within : place.Within types)
    (also : other.Within types) (same : place.mark? = other.mark?) : place = other := by
  -- An entry that is no method and one that is a method have different ids.
  have unique {entry another : Document} {role : Role} (one : EntryWithin types entry) (two : EntryWithin types another)
      (marks : (givenKey? entry).map (role, ·) = (givenKey? another).map (role, ·)) : entry = another :=
    labelled.unique one two (Option.map_injective (Prod.mk_right_injective role) marks)
  cases place with
  | root key =>
    cases other with
    | root other =>
      cases same
      rfl
    | _ => simp [Place.mark?] at same
  | type key =>
    cases other with
    | type other =>
      cases same
      rfl
    | _ => simp [Place.mark?] at same
  | member entry =>
    cases other with
    | member other => rw [unique (Or.inl within.1) (Or.inl also.1) same]
    | memberMethod other =>
      obtain rfl := unique (Or.inl within.1) (Or.inl also.1) same
      exact absurd also.2 within.2
    | _ =>
      obtain ⟨key, given⟩ := given_of_within labelled (Or.inl within.1)
      simp [Place.mark?, given] at same
  | memberMethod entry =>
    cases other with
    | memberMethod other => rw [unique (Or.inl within.1) (Or.inl also.1) same]
    | member other =>
      obtain rfl := unique (Or.inl within.1) (Or.inl also.1) same
      exact absurd within.2 also.2
    | _ =>
      obtain ⟨key, given⟩ := given_of_within labelled (Or.inl within.1)
      simp [Place.mark?, given] at same
  | method entry =>
    cases other with
    | method other => rw [unique (Or.inr within) (Or.inr also) same]
    | _ =>
      obtain ⟨key, given⟩ := given_of_within labelled (Or.inr within)
      simp [Place.mark?, given] at same

/-- What is reached from a declared type is at some place of the manifest. -/
theorem at_of_reaches (twins : Twins host types others first second) {key : Key} {root : TypeRef} {visit : Visit}
    (found : first.ids.lookup key = some root) (reached : first.table.Reaches [.root root] visit) :
    ∃ place, At types first place visit := by
  induction reached with
  | start listed =>
    cases List.mem_singleton.mp listed
    exact ⟨_, .root found⟩
  | step _ listed ih =>
    obtain ⟨_, placed⟩ := ih
    obtain ⟨_, _, place, there, _⟩ := covered_step twins.left placed placed _ listed
    exact ⟨place, there⟩

end Marking

section Files

variable {host : Host} {types others : List Document} {first second loading : Loading} {key : Key} {ref otherRef : TypeRef}
variable {symbol otherSymbol : TypeSymbol}

theorem fileOf_unique {path : String} {entry file other : Document} (located : FileOf host path entry file)
    (also : FileOf host path entry other) : file = other := by
  rcases located with ⟨unset, rfl⟩ | ⟨set, place, placed, rfl⟩
  · rcases also with ⟨_, rfl⟩ | ⟨set, _⟩
    · rfl
    · exact absurd set (by simp [unset])
  · rcases also with ⟨unset, _⟩ | ⟨_, other, otherPlaced, rfl⟩
    · exact absurd set (by simp [unset])
    · cases placed.symm.trans otherPlaced
      rfl

theorem fileOf_same {path : String} {entry other file : Document} (alike : SameEntry entry other)
    (located : FileOf host path other file) : FileOf host path entry file := by
  unfold FileOf at located ⊢
  rwa [alike.fields "file" (by decide) (by decide)] at located

theorem Matched.file (twins : Twins host types others first second)
    (matched : Matched host types others first second symbol otherSymbol) : otherSymbol.file = symbol.file := by
  cases matched with
  | declared listed also alike is otherIs =>
    have located := otherIs.file
    rw [twins.path] at located
    exact fileOf_unique (fileOf_same alike located) is.file
  | hollow bare otherBare => rw [bare.file, otherBare.file]
  | composed bare otherBare => rw [bare.file, otherBare.file]

theorem externalityWithin_hollow {table : SymbolTable} {steps : Nat} (there : table.types[ref]? = some symbol)
    (hollow : Hollow symbol) : table.externalityWithin (steps + 1) ref = .ok (.bool true) := by
  rw [externalityWithin, there]
  rcases hollow.outside with parameter | ⟨named, external⟩
  · simp [parameter]
  · simp [named, external, hollow.definition, DeclGraph.externality, TypeKind.isConstructed, Document.isSet]

theorem definitions_alike {plan : TypeKind × List (Option String)} (composed : Composed first symbol plan)
    (otherComposed : Composed second otherSymbol plan) :
    (plan.1.isConstructed = true ∧ symbol.originalDefinition = none ∧ otherSymbol.originalDefinition = none)
      ∨ (plan.1 = .named ∧ ∃ id place otherPlace, first.ids.lookup (.text id) = some place
        ∧ second.ids.lookup (.text id) = some otherPlace ∧ symbol.originalDefinition = some place
        ∧ otherSymbol.originalDefinition = some otherPlace) := by
  rcases composed.definition with ⟨constructed, none⟩ | ⟨named, id, place, head, placed, defined⟩
  · rcases otherComposed.definition with ⟨_, otherNone⟩ | ⟨named, _⟩
    · exact Or.inl ⟨constructed, none, otherNone⟩
    · rw [named] at constructed
      cases constructed
  · rcases otherComposed.definition with ⟨constructed, _⟩ | ⟨_, otherId, otherPlace, otherHead, otherPlaced, otherDefined⟩
    · rw [named] at constructed
      cases constructed
    · cases head.symm.trans otherHead
      exact Or.inr ⟨named, id, place, otherPlace, placed, otherPlaced, defined, otherDefined⟩

theorem externalityWithin_alike (twins : Twins host types others first second) {steps otherSteps : Nat}
    (found : first.ids.lookup key = some ref) (also : second.ids.lookup key = some otherRef) (enough : ref < steps)
    (otherEnough : otherRef < otherSteps) :
    second.table.externalityWithin otherSteps otherRef = first.table.externalityWithin steps ref := by
  induction steps generalizing otherSteps key ref otherRef with
  | zero => exact absurd enough (Nat.not_lt_zero ref)
  | succ steps ih =>
    obtain ⟨otherSteps, rfl⟩ := Nat.exists_eq_add_one_of_ne_zero (Nat.ne_of_gt (Nat.zero_lt_of_lt otherEnough))
    obtain ⟨symbol, there, _⟩ := twins.one.good.found found
    obtain ⟨otherSymbol, otherThere, _⟩ := twins.two.good.found also
    have matched := matched_of_key twins found there also otherThere
    have file := matched.file twins
    cases matched with
    | declared listed other alike is otherIs =>
      simp [externalityWithin, there, otherThere, is.kind, otherIs.kind, is.definition, otherIs.definition, is.external,
        otherIs.external, file, alike.fields "external" (by decide) (by decide)]
    | hollow bare otherBare hollow otherHollow =>
      rw [externalityWithin_hollow there hollow, externalityWithin_hollow otherThere otherHollow]
    | composed bare otherBare composed otherComposed =>
      simp only [externalityWithin, there, otherThere, composed.kind, otherComposed.kind]
      rcases definitions_alike composed otherComposed with ⟨constructed, _⟩ | ⟨named, defined⟩
      · simp [constructed]
      · obtain ⟨id, place, otherPlace, placed, otherPlaced, defined, otherDefined⟩ := defined
        have earlier := twins.one.good.earlier ref symbol there place defined
        have otherEarlier := twins.two.good.earlier otherRef otherSymbol otherThere otherPlace otherDefined
        simp only [named, defined, otherDefined, Nat.ne_of_lt earlier, Nat.ne_of_lt otherEarlier, if_false]
        rw [ih placed otherPlaced (Nat.lt_of_lt_of_le earlier (Nat.le_of_lt_succ enough))
          (Nat.lt_of_lt_of_le otherEarlier (Nat.le_of_lt_succ otherEnough))]

theorem externality_alike (twins : Twins host types others first second) (found : first.ids.lookup key = some ref)
    (also : second.ids.lookup key = some otherRef) : second.table.externality otherRef = first.table.externality ref :=
  externalityWithin_alike twins found also (Nat.lt_succ_of_lt (twins.one.good.inside found))
    (Nat.lt_succ_of_lt (twins.two.good.inside also))

theorem definitionFile_alike (twins : Twins host types others first second) (found : first.ids.lookup key = some ref)
    (also : second.ids.lookup key = some otherRef) :
    second.table.definitionFile otherRef = first.table.definitionFile ref := by
  obtain ⟨symbol, there, _⟩ := twins.one.good.found found
  obtain ⟨otherSymbol, otherThere, _⟩ := twins.two.good.found also
  have matched := matched_of_key twins found there also otherThere
  have file := matched.file twins
  have own {table : SymbolTable} {ref : TypeRef} {symbol : TypeSymbol} (there : table.types[ref]? = some symbol)
      (none : symbol.originalDefinition = none) : table.definitionFile ref = symbol.file := by
    simp [definitionFile, definition, there, none]
  cases matched with
  | declared listed other alike is otherIs => rw [own there is.definition, own otherThere otherIs.definition, file]
  | hollow bare otherBare hollow otherHollow => rw [own there hollow.definition, own otherThere otherHollow.definition, file]
  | composed bare otherBare composed otherComposed =>
    rcases definitions_alike composed otherComposed with ⟨_, none, otherNone⟩ | ⟨_, defined⟩
    · rw [own there none, own otherThere otherNone, file]
    · obtain ⟨id, place, otherPlace, placed, otherPlaced, defined, otherDefined⟩ := defined
      obtain ⟨target, targetThere, _⟩ := twins.one.good.found placed
      obtain ⟨otherTarget, otherTargetThere, _⟩ := twins.two.good.found otherPlaced
      have same := (matched_of_key twins placed targetThere otherPlaced otherTargetThere).file twins
      simp [definitionFile, definition, there, otherThere, defined, otherDefined, targetThere, otherTargetThere, same]

theorem typeFile_alike (twins : Twins host types others first second) (found : first.ids.lookup key = some ref)
    (also : second.ids.lookup key = some otherRef) : second.table.typeFile otherRef = first.table.typeFile ref := by
  rw [typeFile, typeFile, externality_alike twins found also, definitionFile_alike twins found also]

end Files

section Walks

variable {host : Host} {types others : List Document} {first second loading : Loading} {key : Key} {root otherRoot : TypeRef}

theorem fileOf_plain (good : Good host types loading) (visit : Visit) : ∃ file, loading.table.fileOf visit = .ok file
    ∧ (file = none ∨ ∃ path, path ≠ "" ∧ file = some (.text path)) := by
  cases visit with
  | type ref => exact typeFile_plain good ref
  | _ => exact ⟨none, rfl, Or.inl rfl⟩

/-- A walk from a declared type ends with a result, since it comes only to places of the manifest. -/
theorem dependencies_of_twins (twins : Twins host types others first second) (found : first.ids.lookup key = some root) :
    ∃ result expanded, first.table.dependencies root = .ok result
      ∧ first.table.Expands first.table.marks [.root root] [] result expanded := by
  have linked := linked_of_good twins.one.good
  refine walk_expands (fun visit => first.table.Proper visit ∧ ∃ place, At types first place visit)
    (fun visit holds => ?_) (fun visit holds next listed => ?_) _ _ _ (fun visit listed => ?_) (by simp [AllTexts])
  · obtain ⟨proper, place, placed⟩ := holds
    obtain ⟨mark, marked⟩ := mark?_isSome twins.labelled (within_of_at placed)
    rw [← mark?_of_at twins.one.good twins.labelled placed] at marked
    refine ⟨fun fault failed => ?_, fun role id given => ?_, fileOf_plain twins.one.good visit⟩
    · rw [failed] at proper
      exact proper
    · obtain ⟨_, key⟩ := mark
      obtain ⟨_, same, keyed⟩ := mark?_eq_some.mp marked
      cases given.symm.trans same
      exact ⟨key, keyed, mem_marks proper marked⟩
  · obtain ⟨_, place, placed⟩ := holds
    obtain ⟨_, _, inner, there, _⟩ := covered_step twins.left placed placed next listed
    exact ⟨proper_step linked listed, inner, there⟩
  · cases List.mem_singleton.mp listed
    exact ⟨trivial, _, .root found⟩

theorem mem_expanded_alike (twins : Twins host types others first second) (found : first.ids.lookup key = some root)
    (also : second.ids.lookup key = some otherRoot) {result : Reported} {expanded : List Visit}
    (expands : second.table.Expands second.table.marks [.root otherRoot] [] result expanded) {visit : Visit}
    (reached : first.table.Reaches [.root root] visit) : ∃ other ∈ expanded, Alike types others first second visit other := by
  -- Whatever was expanded for the mark of a place is at that place.
  have expandedAt {place : Place} {visit other : Visit} (placed : At types first place visit)
      (otherPlaced : At others second place other) (proper : second.table.Proper other)
      (carried : ∀ mark ∈ second.table.marks, second.table.mark? other = some mark →
        ∃ next ∈ expanded, second.table.mark? next = some mark) :
      ∃ next ∈ expanded, Alike types others first second visit next := by
    have within := within_of_at otherPlaced
    obtain ⟨mark, marked⟩ := mark?_isSome twins.otherLabelled within
    have given := (mark?_of_at twins.two.good twins.otherLabelled otherPlaced).trans marked
    obtain ⟨next, member, same⟩ := carried mark (mem_marks proper given) given
    obtain ⟨nextPlace, nextPlaced⟩ := at_of_reaches twins.symm also (expands.reached next member)
    rw [mark?_of_at twins.two.good twins.otherLabelled nextPlaced] at same
    obtain rfl := place_unique twins.otherLabelled within (within_of_at nextPlaced) (marked.trans same.symm)
    exact ⟨next, member, place, placed, nextPlaced⟩
  induction reached with
  | start listed =>
    cases List.mem_singleton.mp listed
    exact expandedAt (.root found) (.root also) trivial fun mark free marked =>
      expands.start _ (List.mem_singleton_self _) mark free marked
  | step _ listed ih =>
    obtain ⟨before, member, _, placed, beforePlaced⟩ := ih
    obtain ⟨other, part, place, there, otherPlaced⟩ := covered_step twins placed beforePlaced _ listed
    exact expandedAt there otherPlaced (proper_step (linked_of_good twins.two.good) part) fun mark free marked =>
      expands.step before member other part mark free marked

theorem files_alike (twins : Twins host types others first second) {visit other : Visit}
    (alike : Alike types others first second visit other) : second.table.fileOf other = first.table.fileOf visit := by
  obtain ⟨place, placed, otherPlaced⟩ := alike
  cases placed with
  | type found =>
    cases otherPlaced with
    | type also => exact typeFile_alike twins found also
  | root | member | memberMethod | method =>
    cases otherPlaced
    rfl

theorem dependencies_covered (twins : Twins host types others first second) (found : first.ids.lookup key = some root)
    (also : second.ids.lookup key = some otherRoot) {result otherResult : Reported} {expanded otherExpanded : List Visit}
    (expands : first.table.Expands first.table.marks [.root root] [] result expanded)
    (otherExpands : second.table.Expands second.table.marks [.root otherRoot] [] otherResult otherExpanded) {path : String}
    (listed : .text path ∈ result) : .text path ∈ otherResult := by
  rcases (expands.files path).mp listed with none | ⟨visit, member, gives⟩
  · cases none
  · obtain ⟨other, there, alike⟩ := mem_expanded_alike twins found also otherExpands (expands.reached visit member)
    exact (otherExpands.files path).mpr (Or.inr ⟨other, there, by rw [files_alike twins alike, gives]⟩)

/-- A declared type has the same dependencies in both tables. -/
theorem dependencies_alike (twins : Twins host types others first second) (found : first.ids.lookup key = some root)
    (also : second.ids.lookup key = some otherRoot) : ∃ result otherResult, first.table.dependencies root = .ok result
      ∧ second.table.dependencies otherRoot = .ok otherResult ∧ AllTexts result ∧ AllTexts otherResult
      ∧ ∀ path, .text path ∈ result ↔ .text path ∈ otherResult := by
  obtain ⟨result, expanded, ran, expands⟩ := dependencies_of_twins twins found
  obtain ⟨otherResult, otherExpanded, otherRan, otherExpands⟩ := dependencies_of_twins twins.symm also
  exact ⟨result, otherResult, ran, otherRan, expands.texts, otherExpands.texts, fun path =>
    ⟨dependencies_covered twins found also expands otherExpands,
      dependencies_covered twins.symm also found otherExpands expands⟩⟩

end Walks

end DeclGraph.Manifest
