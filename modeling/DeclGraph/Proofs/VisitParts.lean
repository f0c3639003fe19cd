import DeclGraph.Proofs.Traversal

/-!
What any visit leads to, whatever the table is like: visits of what stands in the table, and failures over links that
lead nowhere and references that are of no kind. Nothing else can make a walk fail, and every visit that is marked has
its mark among those of the table. What a walk reports is contributed by some visit.
-/

namespace DeclGraph.SymbolTable

variable {table : SymbolTable}

/-- What a walk says of symbols that are not what they should be. -/
inductive Refuses : Fault → Prop
  | parameter : Refuses (.lacks Document.null.kindWord "constraint_types")
  | name (word : String) : Refuses (.notName word)
  | reference (kind : Document) : Refuses (.unhandledReference kind)

/-- A visit of what stands in the table, or a failure because something does not. -/
def Belongs (table : SymbolTable) (visit : Visit) : Prop :=
  table.Proper visit ∨ ∃ fault, visit = .fail fault ∧ Refuses fault

def Owns (table : SymbolTable) (agenda : List Visit) : Prop := ∀ visit ∈ agenda, table.Belongs visit

@[simp] theorem owns_nil : table.Owns [] := by simp [Owns]

@[simp] theorem owns_cons {visit : Visit} {rest : List Visit} :
    table.Owns (visit :: rest) ↔ table.Belongs visit ∧ table.Owns rest := by simp [Owns]

@[simp] theorem owns_append {first second : List Visit} :
    table.Owns (first ++ second) ↔ table.Owns first ∧ table.Owns second := by simp [Owns, or_imp, forall_and]

@[simp] theorem owns_flatMap {α : Type} {parts : α → List Visit} {values : List α} :
    table.Owns (values.flatMap parts) ↔ ∀ value ∈ values, table.Owns (parts value) := by
  simp only [Owns, List.mem_flatMap]
  constructor
  · exact fun each value member visit listed => each visit ⟨value, member, listed⟩
  · rintro each visit ⟨value, member, listed⟩
    exact each value member visit listed

@[simp] theorem owns_visitType (ref : Option TypeRef) : table.Owns (visitType ref) := by
  cases ref <;> simp [visitType, Belongs, Proper]

@[simp] theorem owns_visitMethod (ref : Option MethodRef) : table.Owns (visitMethod ref) := by
  cases ref <;> simp [visitMethod, Belongs, Proper]

@[simp] theorem owns_fail {fault : Fault} : table.Owns [.fail fault] ↔ Refuses fault := by simp [Belongs, Proper]

@[simp] theorem owns_visitConstraints (parameter : Option TypeRef) : table.Owns (table.visitConstraints parameter) := by
  rw [visitConstraints]
  split
  · exact owns_fail.mpr .parameter
  · simp

@[simp] theorem owns_referenceParts (reference : BodyReference) : table.Owns (referenceParts reference) := by
  rw [referenceParts]
  split
  · exact owns_fail.mpr (.name _)
  · split
    · exact owns_fail.mpr (.reference _)
    · simp
    · simp
    · simp

theorem owns_visitMember {member : Option Member} (listed : ∀ given, member = some given → table.Lists given) :
    table.Owns (visitMember member) := by
  intro visit inside
  obtain ⟨given, rfl, rfl⟩ := mem_visitMember.mp inside
  cases given with
  | plain symbol => exact Or.inl (listed _ rfl)
  | method ref => exact Or.inl (listed _ rfl)
  | nested ref => exact Or.inl trivial

theorem owns_rootParts {symbol : TypeSymbol} (known : symbol ∈ table.types.toList) :
    table.Owns (table.rootParts symbol) := by
  have members : ∀ member ∈ symbol.members, table.Owns (visitMember member) := by
    intro member listed
    exact owns_visitMember fun given same => ⟨symbol, known, same ▸ listed⟩
  simpa [rootParts] using members

theorem owns_memberParts (symbol : MemberSymbol) : table.Owns (memberParts symbol) := by
  rw [memberParts]
  split <;> simp

theorem owns_methodParts (symbol : MethodSymbol) : table.Owns (table.methodParts symbol) := by
  simp [methodParts]

theorem owns_typeParts (symbol : TypeSymbol) : table.Owns (table.typeParts symbol) := by
  rw [typeParts]
  split
  · simp
  · have signature : table.Owns (table.signatureParts symbol.signature) := by
      rw [signatureParts]
      split <;> simp
    simpa using signature

theorem owns_partsOf (visit : Visit) : table.Owns (table.partsOf visit) := by
  cases visit with
  | root ref =>
    cases found : table.types[ref]? with
    | none => simp [partsOf, found]
    | some symbol => simpa [partsOf, found] using owns_rootParts (mem_types found)
  | member symbol => exact owns_memberParts symbol
  | memberMethod ref =>
    cases found : table.methods[ref]? with
    | none => simp [partsOf, found]
    | some symbol => simp [partsOf, found, Belongs, Proper]
  | method ref =>
    cases found : table.methods[ref]? with
    | none => simp [partsOf, found]
    | some symbol => simpa [partsOf, found] using owns_methodParts symbol
  | type ref =>
    cases found : table.types[ref]? with
    | none => simp [partsOf, found]
    | some symbol => simpa [partsOf, found] using owns_typeParts symbol
  | fail fault => simp [partsOf]

theorem refuses_of_belongs {fault : Fault} (belongs : table.Belongs (.fail fault)) : Refuses fault := by
  simpa [Belongs, Proper] using belongs

theorem proper_of_belongs {visit : Visit} (belongs : table.Belongs visit) {mark : Mark}
    (marked : table.mark? visit = some mark) : table.Proper visit := by
  rcases belongs with proper | ⟨fault, rfl, _⟩
  · exact proper
  · cases marked

theorem proper_of_typeMarks {symbol : TypeSymbol} (known : symbol ∈ table.types.toList) {mark : Mark}
    (listed : mark ∈ table.typeMarks symbol) : ∃ visit, table.Proper visit ∧ table.mark? visit = some mark := by
  obtain ⟨ref, found⟩ := Array.mem_iff_getElem?.mp (Array.mem_toList_iff.mp known)
  rw [typeMarks, List.mem_append, List.mem_flatMap] at listed
  rcases listed with own | ⟨member, among, inside⟩
  · split at own
    next key keyed =>
      rcases List.mem_cons.mp own with rfl | rest
      · exact ⟨.root ref, trivial, mark?_eq_some.mpr ⟨symbol.id, by simp [markOf, found], keyed⟩⟩
      · obtain rfl := List.mem_singleton.mp rest
        exact ⟨.type ref, trivial, mark?_eq_some.mpr ⟨symbol.id, by simp [markOf, found], keyed⟩⟩
    next => cases own
  · rw [memberMarks.eq_def] at inside
    split at inside
    next member =>
      obtain ⟨key, keyed, rfl⟩ := Option.map_eq_some_iff.mp (Option.mem_toList.mp inside)
      exact ⟨.member member, ⟨symbol, known, among⟩, mark?_eq_some.mpr ⟨member.id, rfl, keyed⟩⟩
    next method =>
      split at inside
      next key given =>
        obtain rfl := List.mem_singleton.mp inside
        obtain ⟨methodSymbol, methodFound, keyed⟩ := Option.bind_eq_some_iff.mp given
        exact ⟨.memberMethod method, ⟨symbol, known, among⟩,
          mark?_eq_some.mpr ⟨methodSymbol.id, by simp [markOf, methodFound], keyed⟩⟩
      next => cases inside
    next => cases inside

theorem mem_marks_iff {mark : Mark} : mark ∈ table.marks ↔ ∃ visit, table.Proper visit ∧ table.mark? visit = some mark := by
  constructor
  · intro listed
    rw [marks, List.mem_eraseDups, List.mem_append, List.mem_flatMap, List.mem_filterMap] at listed
    rcases listed with ⟨symbol, known, inside⟩ | ⟨symbol, known, given⟩
    · exact proper_of_typeMarks known inside
    · obtain ⟨ref, found⟩ := Array.mem_iff_getElem?.mp (Array.mem_toList_iff.mp known)
      obtain ⟨key, keyed, rfl⟩ := Option.map_eq_some_iff.mp given
      exact ⟨.method ref, trivial, mark?_eq_some.mpr ⟨symbol.id, by simp [markOf, found], keyed⟩⟩
  · rintro ⟨visit, proper, marked⟩
    exact mem_marks proper marked

theorem mem_of_addFile {found more : Reported} {file : Option Document} (added : addFile found file = .ok more)
    {other : Document} (member : other ∈ more) : other ∈ found ∨ file = some other := by
  cases file with
  | none =>
    cases added
    exact Or.inl member
  | some file =>
    rw [addFile.eq_2] at added
    split at added
    · cases added
    · cases added
      split at member
      · exact Or.inl member
      · rcases List.mem_append.mp member with old | new
        · exact Or.inl old
        · exact Or.inr (congrArg some (List.mem_singleton.mp new).symm)

/-- What a walk reports was reported before, or some visit contributes it. -/
theorem reported_of_walk {unmarked : List Mark} {agenda : List Visit} {found result : Reported}
    (walked : table.walk unmarked agenda found = .ok result) {file : Document} (member : file ∈ result) :
    file ∈ found ∨ ∃ visit, table.fileOf visit = .ok (some file) := by
  fun_induction table.walk unmarked agenda found with
  | case1 =>
    cases walked
    exact Or.inl member
  | case2 => cases walked
  | case3 _ _ _ _ _ _ ih => exact ih walked
  | case4 => cases walked
  | case5 => cases walked
  | case6 _ found visit _ _ _ _ _ _ _ _ more added ih =>
    rcases ih walked with early | late
    · obtain ⟨own, contributed, grown⟩ := bind_eq_ok.mp added
      rcases mem_of_addFile grown early with old | rfl
      · exact Or.inl old
      · exact Or.inr ⟨visit, contributed⟩
    · exact Or.inr late
  | case7 _ _ _ _ _ _ _ _ _ _ _ ih => exact ih walked

theorem reported_of_dependencies {root : TypeRef} {reported : Reported} (walked : table.dependencies root = .ok reported)
    {file : Document} (member : file ∈ reported) : ∃ visit, table.fileOf visit = .ok (some file) := by
  rcases reported_of_walk walked member with none | contributed
  · cases none
  · exact contributed

end DeclGraph.SymbolTable
