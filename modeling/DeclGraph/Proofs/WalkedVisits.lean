import DeclGraph.Proofs.Traversal

/-!
The walk over a symbol table whose symbols may share ids. It expands one visit for each mark that it comes to. What
is reached by another visit with the same mark is passed over, so a visit is sure to be expanded when no other visit
that is reached has its mark.
-/

namespace DeclGraph.SymbolTable

variable {table : SymbolTable}

/-- A visit that cannot go wrong: what marks it is among the marks of the table, and it gives a file with a name or
none. -/
structure Sound (table : SymbolTable) (visit : Visit) : Prop where
  noFault : ∀ fault, visit ≠ .fail fault
  marked : ∀ role id, table.markOf visit = some (role, id) → ∃ key, id.key? = some key ∧ (role, key) ∈ table.marks
  file : ∃ file, table.fileOf visit = .ok file ∧ (file = none ∨ ∃ path, path ≠ "" ∧ file = some (.text path))

/-- What a walk has done when it ends: it has expanded visits that it could come to, one for each mark that was on the
agenda or came up in between, and has found their files. -/
structure Expands (table : SymbolTable) (unmarked : List Mark) (agenda : List Visit) (found : Reported)
    (result : Reported) (expanded : List Visit) : Prop where
  reached : ∀ visit ∈ expanded, table.Reaches agenda visit
  start : ∀ visit ∈ agenda, ∀ mark ∈ unmarked, table.mark? visit = some mark →
    ∃ other ∈ expanded, table.mark? other = some mark
  step : ∀ visit ∈ expanded, ∀ next ∈ table.partsOf visit, ∀ mark ∈ unmarked, table.mark? next = some mark →
    ∃ other ∈ expanded, table.mark? other = some mark
  texts : AllTexts result
  files : ∀ path, .text path ∈ result ↔ .text path ∈ found
    ∨ ∃ visit ∈ expanded, table.fileOf visit = .ok (some (.text path))

theorem reaches_of_parts {visit other : Visit} {rest : List Visit}
    (reached : table.Reaches (table.partsOf visit ++ rest) other) : table.Reaches (visit :: rest) other := by
  induction reached with
  | start listed =>
    rcases List.mem_append.mp listed with part | later
    · exact .step (.start List.mem_cons_self) part
    · exact .start (List.mem_cons_of_mem _ later)
  | step _ listed ih => exact .step ih listed

theorem reaches_of_rest {visit other : Visit} {rest : List Visit} (reached : table.Reaches rest other) :
    table.Reaches (visit :: rest) other := by
  induction reached with
  | start listed => exact .start (List.mem_cons_of_mem _ listed)
  | step _ listed ih => exact .step ih listed

theorem expands_skip {unmarked : List Mark} {visit : Visit} {rest : List Visit} {found result : Reported}
    {expanded : List Visit} (given : ∀ mark, table.mark? visit = some mark → mark ∉ unmarked)
    (expands : table.Expands unmarked rest found result expanded) :
    table.Expands unmarked (visit :: rest) found result expanded where
  reached other member := reaches_of_rest (expands.reached other member)
  start other listed mark free marked := by
    rcases List.mem_cons.mp listed with rfl | later
    · exact absurd free (given mark marked)
    · exact expands.start other later mark free marked
  step := expands.step
  texts := expands.texts
  files := expands.files

theorem expands_visit {unmarked : List Mark} {visit : Visit} {rest : List Visit} {found more result : Reported}
    {expanded : List Visit} {mark : Mark} (marked : table.mark? visit = some mark) {file : Option Document}
    (contributed : table.fileOf visit = .ok file)
    (added : ∀ path, .text path ∈ more ↔ .text path ∈ found ∨ file = some (.text path))
    (expands : table.Expands (unmarked.erase mark) (table.partsOf visit ++ rest) more result expanded) :
    table.Expands unmarked (visit :: rest) found result (visit :: expanded) := by
  -- The mark that is used up is the visit's own; any other is as free as before.
  have either {other : Mark} (free : other ∈ unmarked)
      (later : other ∈ unmarked.erase mark → ∃ next ∈ expanded, table.mark? next = some other) :
      ∃ next ∈ visit :: expanded, table.mark? next = some other := by
    by_cases same : other = mark
    · exact ⟨visit, List.mem_cons_self, same ▸ marked⟩
    · obtain ⟨next, member, carries⟩ := later ((List.mem_erase_of_ne same).mpr free)
      exact ⟨next, List.mem_cons_of_mem _ member, carries⟩
  refine ⟨?_, ?_, ?_, expands.texts, ?_⟩
  · intro other member
    rcases List.mem_cons.mp member with rfl | later
    · exact .start List.mem_cons_self
    · exact reaches_of_parts (expands.reached other later)
  · intro other listed otherMark free carries
    rcases List.mem_cons.mp listed with rfl | later
    · exact ⟨other, List.mem_cons_self, carries⟩
    · exact either free fun still => expands.start other (List.mem_append_right _ later) otherMark still carries
  · intro other member next listed otherMark free carries
    rcases List.mem_cons.mp member with rfl | later
    · exact either free fun still => expands.start next (List.mem_append_left _ listed) otherMark still carries
    · exact either free fun still => expands.step other later next listed otherMark still carries
  · intro path
    rw [expands.files, added, List.exists_mem_cons_iff, contributed, Except.ok.injEq, or_assoc]

/-- A walk whose visits cannot go wrong ends with a result. -/
theorem walk_expands (holds : Visit → Prop) (sound : ∀ visit, holds visit → table.Sound visit)
    (steps : ∀ visit, holds visit → ∀ next ∈ table.partsOf visit, holds next) (unmarked : List Mark)
    (agenda : List Visit) (found : Reported) (each : ∀ visit ∈ agenda, holds visit) (texts : AllTexts found) :
    ∃ result expanded, table.walk unmarked agenda found = .ok result
      ∧ table.Expands unmarked agenda found result expanded := by
  fun_induction table.walk unmarked agenda found with
  | case1 unmarked found => exact ⟨found, [], rfl, by simp, by simp, by simp, texts, by simp⟩
  | case2 unmarked found fault rest => exact absurd rfl ((sound _ (each _ List.mem_cons_self)).noFault fault)
  | case3 unmarked found visit rest _ unknown ih =>
    obtain ⟨result, expanded, ran, expands⟩ := ih (fun other later => each other (List.mem_cons_of_mem _ later)) texts
    refine ⟨result, expanded, ran, expands_skip ?_ expands⟩
    intro mark marked
    simp [mark?, unknown] at marked
  | case4 unmarked found visit rest _ role id given nameless =>
    obtain ⟨key, keyed, _⟩ := (sound visit (each visit List.mem_cons_self)).marked role id given
    cases nameless.symm.trans keyed
  | case5 unmarked found visit rest _ role id given key keyed free fault failed =>
    -- All files found so far are texts, so one more text is added without a comparison that fails.
    obtain ⟨file, contributed, rfl | ⟨path, _, rfl⟩⟩ := (sound visit (each visit List.mem_cons_self)).file
    · rw [contributed] at failed
      cases failed
    · obtain ⟨more, added, _⟩ := addFile_text found texts path
      rw [contributed] at failed
      cases failed.symm.trans added
  | case6 unmarked found visit rest _ role id given key keyed free more added ih =>
    have holding := each visit List.mem_cons_self
    have marked : table.mark? visit = some (role, key) := mark?_eq_some.mpr ⟨id, given, keyed⟩
    obtain ⟨file, contributed, plain⟩ := (sound visit holding).file
    have grown : AllTexts more ∧ ∀ path, .text path ∈ more ↔ .text path ∈ found ∨ file = some (.text path) := by
      rw [contributed] at added
      rcases plain with rfl | ⟨path, _, rfl⟩
      · cases added
        exact ⟨texts, by simp⟩
      · obtain ⟨other, same, kept, members⟩ := addFile_text found texts path
        cases (show addFile found (some (.text path)) = .ok more from added).symm.trans same
        refine ⟨kept, fun other => ?_⟩
        rw [members]
        simp [eq_comm]
    obtain ⟨result, expanded, ran, expands⟩ := ih (by
      intro next listed
      rcases List.mem_append.mp listed with part | later
      · exact steps visit holding next part
      · exact each next (List.mem_cons_of_mem _ later)) grown.1
    exact ⟨result, visit :: expanded, ran, expands_visit marked contributed grown.2 expands⟩
  | case7 unmarked found visit rest _ role id given key keyed taken ih =>
    have marked : table.mark? visit = some (role, key) := mark?_eq_some.mpr ⟨id, given, keyed⟩
    obtain ⟨result, expanded, ran, expands⟩ := ih (fun other later => each other (List.mem_cons_of_mem _ later)) texts
    refine ⟨result, expanded, ran, expands_skip ?_ expands⟩
    intro mark also
    cases marked.symm.trans also
    exact taken

/-- A table that any walk gets through: its links lead somewhere, its ids name something, and each type can say
whether it comes from the sources, and from which file. -/
structure Walkable (table : SymbolTable) : Prop extends table.Linked where
  typeIds : ∀ symbol ∈ table.types.toList, symbol.id.key?.isSome = true
  methodIds : ∀ symbol ∈ table.methods.toList, symbol.id.key?.isSome = true
  memberIds : ∀ symbol, table.Lists (.plain symbol) → symbol.id.key?.isSome = true
  files : ∀ ref, ∃ file, table.typeFile ref = .ok file ∧ (file = none ∨ ∃ path, path ≠ "" ∧ file = some (.text path))

section Dependencies

variable {root : TypeRef} {visit next : Visit} {result : Reported} {expanded : List Visit}

theorem key?_of_walkable (walkable : table.Walkable) (proper : table.Proper visit) {role : Role} {id : Document}
    (marked : table.markOf visit = some (role, id)) : ∃ key, id.key? = some key := by
  apply Option.isSome_iff_exists.mp
  cases visit with
  | member symbol =>
    cases marked
    exact walkable.memberIds symbol proper
  | fail fault => cases marked
  | root ref =>
    obtain ⟨symbol, found, same⟩ := Option.map_eq_some_iff.mp marked
    cases same
    exact walkable.typeIds symbol (mem_types found)
  | type ref =>
    obtain ⟨symbol, found, same⟩ := Option.map_eq_some_iff.mp marked
    cases same
    exact walkable.typeIds symbol (mem_types found)
  | memberMethod ref =>
    obtain ⟨symbol, found, same⟩ := Option.map_eq_some_iff.mp marked
    cases same
    exact walkable.methodIds symbol (mem_methods found)
  | method ref =>
    obtain ⟨symbol, found, same⟩ := Option.map_eq_some_iff.mp marked
    cases same
    exact walkable.methodIds symbol (mem_methods found)

theorem sound_of_proper (walkable : table.Walkable) (proper : table.Proper visit) : table.Sound visit where
  noFault fault := by
    rintro rfl
    exact proper
  marked role id given := by
    obtain ⟨key, keyed⟩ := key?_of_walkable walkable proper given
    exact ⟨key, keyed, mem_marks proper (mark?_eq_some.mpr ⟨id, given, keyed⟩)⟩
  file := by
    cases visit with
    | type ref => exact walkable.files ref
    | _ => exact ⟨none, rfl, Or.inl rfl⟩

theorem dependencies_expands (walkable : table.Walkable) (root : TypeRef) : ∃ result expanded,
    table.dependencies root = .ok result ∧ table.Expands table.marks [.root root] [] result expanded :=
  walk_expands table.Proper (fun _ proper => sound_of_proper walkable proper)
    (fun _ _ _ listed => proper_step walkable.toLinked listed) _ _ _ (by simp [Proper]) (by simp [AllTexts])

/-- No other visit that is reached has the mark of this one. -/
def Alone (table : SymbolTable) (root : TypeRef) (visit : Visit) : Prop :=
  ∀ other, table.Reaches [.root root] other → table.mark? other = table.mark? visit → other = visit

theorem mem_expanded_root (walkable : table.Walkable) (expands : table.Expands table.marks [.root root] [] result expanded)
    (alone : table.Alone root (.root root)) (known : (table.types[root]?).isSome = true) : .root root ∈ expanded := by
  obtain ⟨symbol, found⟩ := Option.isSome_iff_exists.mp known
  obtain ⟨key, keyed⟩ := Option.isSome_iff_exists.mp (walkable.typeIds symbol (mem_types found))
  have marked : table.mark? (.root root) = some (.root, key) :=
    mark?_eq_some.mpr ⟨symbol.id, by simp [markOf, found], keyed⟩
  have listed : (.root, key) ∈ table.marks := mem_marks (show table.Proper (.root root) from trivial) marked
  obtain ⟨other, member, same⟩ := expands.start _ List.mem_cons_self _ listed marked
  rwa [alone other (expands.reached other member) (same.trans marked.symm)] at member

theorem mem_expanded_step (walkable : table.Walkable) (expands : table.Expands table.marks [.root root] [] result expanded)
    (before : visit ∈ expanded) (listed : next ∈ table.partsOf visit) (alone : table.Alone root next) {mark : Mark}
    (marked : table.mark? next = some mark) : next ∈ expanded := by
  have proper := proper_step walkable.toLinked listed
  obtain ⟨other, member, same⟩ := expands.step visit before next listed mark (mem_marks proper marked) marked
  rwa [alone other (expands.reached other member) (same.trans marked.symm)] at member

end Dependencies

theorem walk_of_within {visits : Nat} {unmarked : List Mark} {agenda : List Visit} {found : Reported}
    {result : Except Fault Reported} (ended : table.walkWithin visits unmarked agenda found = some result) :
    table.walk unmarked agenda found = result := by
  fun_induction table.walkWithin visits unmarked agenda found with
  | case1 => cases ended
  | case2 => rw [walk]; exact Option.some.inj ended
  | case3 => rw [walk]; exact Option.some.inj ended
  | case4 visits unmarked visit rest found noFault given ih =>
    rw [walk.eq_3 _ _ _ _ _ noFault]
    simp only [given]
    exact ih ended
  | case5 visits unmarked visit rest found noFault role id given nameless =>
    rw [walk.eq_3 _ _ _ _ _ noFault]
    simp only [given, nameless]
    exact Option.some.inj ended
  | case6 visits unmarked visit rest found noFault role id given key keyed free fault failed =>
    rw [walk.eq_3 _ _ _ _ _ noFault]
    simp only [given, keyed, free, failed, dite_true]
    exact Option.some.inj ended
  | case7 visits unmarked visit rest found noFault role id given key keyed free more added ih =>
    rw [walk.eq_3 _ _ _ _ _ noFault]
    simp only [given, keyed, free, added, dite_true]
    exact ih ended
  | case8 visits unmarked visit rest found noFault role id given key keyed used ih =>
    rw [walk.eq_3 _ _ _ _ _ noFault]
    simp only [given, keyed, used, dite_false]
    exact ih ended

end DeclGraph.SymbolTable
