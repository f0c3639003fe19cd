import Mathlib.Data.List.Perm.Subperm
import Mathlib.Logic.Relation
import DeclGraph.Proofs.VisitParts
import DeclGraph.Proofs.WalkedVisits

/-!
The walk over a symbol table, told as a recursion that calls itself on everything a visit leads to and knows only the
marks it has given so far. Such a recursion has no depth of its own: it ends because each call that goes on gives a mark
of the table which was not given before. It ends on every table, in circles as well, if the chains of generic
definitions end, and it has the same outcome as the walk that counts the marks down.
-/

namespace DeclGraph.SymbolTable

variable {table : SymbolTable}

section Definitions

def nextDefinition (table : SymbolTable) (ref : TypeRef) : Option TypeRef :=
  (table.types[ref]?).bind fun symbol => symbol.originalDefinition.filter (· ≠ ref)

/-- From a type, the links to generic definitions lead to one without such a link, or to one that is its own. -/
inductive DefinitionEnds (table : SymbolTable) : TypeRef → Prop
  | last {ref : TypeRef} (stops : table.nextDefinition ref = none) : DefinitionEnds table ref
  | step {ref next : TypeRef} (follows : table.nextDefinition ref = some next) (ends : DefinitionEnds table next) :
      DefinitionEnds table ref

def Follows (table : SymbolTable) (ref next : TypeRef) : Prop := table.nextDefinition ref = some next

theorem not_circular {ref : TypeRef} (ends : table.DefinitionEnds ref) : ¬ Relation.TransGen table.Follows ref ref := by
  induction ends with
  | last stops =>
    intro circle
    obtain ⟨next, follows, _⟩ := Relation.TransGen.head'_iff.mp circle
    cases stops.symm.trans follows
  | step follows _ ih =>
    intro circle
    obtain ⟨next, also, back⟩ := Relation.TransGen.head'_iff.mp circle
    cases follows.symm.trans also
    exact ih (Relation.TransGen.tail' back follows)

theorem externalityWithin_isOk (ends : ∀ ref, table.DefinitionEnds ref) (steps : Nat) (ref : TypeRef)
    (passed : List TypeRef) (distinct : passed.Nodup) (inside : ∀ before ∈ passed, before < table.types.size)
    (leads : ∀ before ∈ passed, Relation.TransGen table.Follows before ref)
    (enough : table.types.size < steps + passed.length) : ∃ external, table.externalityWithin steps ref = .ok external := by
  -- The types passed on the chain are all different, so there are not more of them than types.
  induction steps generalizing ref passed with
  | zero =>
    have fits : passed.length ≤ (List.range table.types.size).length :=
      (distinct.subperm fun before member => List.mem_range.mpr (inside before member)).length_le
    rw [List.length_range] at fits
    omega
  | succ steps ih =>
    rw [externalityWithin]
    cases found : table.types[ref]? with
    | none => exact ⟨_, rfl⟩
    | some symbol =>
      dsimp only
      split
      · exact ⟨_, rfl⟩
      · split
        next definition given =>
          split
          · exact ⟨_, rfl⟩
          next other =>
            have follows : table.Follows ref definition := by
              simp [Follows, nextDefinition, found, given, Option.filter, other]
            refine ih definition (ref :: passed) ?_ ?_ ?_ ?_
            · exact List.nodup_cons.mpr ⟨fun member => not_circular (ends ref) (leads ref member), distinct⟩
            · simpa using ⟨(Array.getElem?_eq_some_iff.mp found).1, inside⟩
            · rw [List.forall_mem_cons]
              exact ⟨.single follows, fun before member => (leads before member).tail follows⟩
            · rw [List.length_cons]
              omega
        next => exact ⟨_, rfl⟩

theorem externality_isOk (ends : ∀ ref, table.DefinitionEnds ref) (ref : TypeRef) :
    ∃ external, table.externality ref = .ok external :=
  externalityWithin_isOk ends _ ref [] List.nodup_nil (by simp) (by simp) (by simp)

end Definitions

section Recursion

/-- What the recursion has done so far: the marks it has given, the visits it has gone on from, the last one first, and the
files it has found. -/
structure Walked where
  marks : List Mark
  entered : List Visit
  files : Reported

/-- How a call begins: it has nothing to do, it fails, or it goes on with what the visit leads to. -/
inductive Reply where
  | passed
  | refused (fault : Fault) (after : Walked)
  | entered (next : Walked)

/-- A visit is marked before anything else is done, and is passed over if it had its mark. -/
def reply (table : SymbolTable) (state : Walked) : Visit → Reply
  | .fail fault => .refused fault state
  | visit =>
    match table.markOf visit with
    | none => .passed
    | some (role, id) =>
      match id.key? with
      | none => .refused (.notName id.kindWord) state
      | some key =>
        if state.marks.contains (role, key) then .passed
        else
          match table.fileOf visit >>= addFile state.files with
          | .error fault => .refused fault ⟨(role, key) :: state.marks, state.entered, state.files⟩
          | .ok files => .entered ⟨(role, key) :: state.marks, visit :: state.entered, files⟩

/-- The calls for some visits, one after another, from one state to another. A call for a visit is over when those for
what it leads to are; there is no bound on how deep they go. -/
inductive Calls (table : SymbolTable) : Walked → List Visit → Walked → Except Fault Unit → Prop
  | done {state : Walked} : Calls table state [] state (.ok ())
  | passed {state after : Walked} {visit : Visit} {rest : List Visit} {outcome : Except Fault Unit}
      (said : table.reply state visit = .passed) (later : Calls table state rest after outcome) :
      Calls table state (visit :: rest) after outcome
  | refused {state after : Walked} {visit : Visit} {rest : List Visit} {fault : Fault}
      (said : table.reply state visit = .refused fault after) : Calls table state (visit :: rest) after (.error fault)
  | broken {state next after : Walked} {visit : Visit} {rest : List Visit} {fault : Fault}
      (said : table.reply state visit = .entered next) (within : Calls table next (table.partsOf visit) after (.error fault)) :
      Calls table state (visit :: rest) after (.error fault)
  | entered {state next between after : Walked} {visit : Visit} {rest : List Visit} {outcome : Except Fault Unit}
      (said : table.reply state visit = .entered next) (within : Calls table next (table.partsOf visit) between (.ok ()))
      (later : Calls table between rest after outcome) : Calls table state (visit :: rest) after outcome

theorem calls_unique {state after other : Walked} {agenda : List Visit} {outcome result : Except Fault Unit}
    (called : table.Calls state agenda after outcome) (again : table.Calls state agenda other result) :
    other = after ∧ result = outcome := by
  induction called generalizing other result with
  | done =>
    cases again
    exact ⟨rfl, rfl⟩
  | passed said _ ih =>
    cases again with
    | passed _ later => exact ih later
    | refused also => cases said.symm.trans also
    | broken also _ => cases said.symm.trans also
    | entered also _ _ => cases said.symm.trans also
  | refused said =>
    cases again with
    | passed also _ => cases said.symm.trans also
    | refused also =>
      cases said.symm.trans also
      exact ⟨rfl, rfl⟩
    | broken also _ => cases said.symm.trans also
    | entered also _ _ => cases said.symm.trans also
  | broken said _ ih =>
    cases again with
    | passed also _ => cases said.symm.trans also
    | refused also => cases said.symm.trans also
    | broken also within =>
      cases said.symm.trans also
      exact ih within
    | entered also within _ =>
      cases said.symm.trans also
      cases (ih within).2
  | entered said _ _ first second =>
    cases again with
    | passed also _ => cases said.symm.trans also
    | refused also => cases said.symm.trans also
    | broken also within =>
      cases said.symm.trans also
      cases (first within).2
    | entered also within later =>
      cases said.symm.trans also
      obtain ⟨rfl, _⟩ := first within
      exact second later

/-- Calls for the visits of two agendas are those for the first and then, if none failed, those for the second. -/
theorem calls_split {first second : List Visit} {state after : Walked} {outcome : Except Fault Unit}
    (called : table.Calls state (first ++ second) after outcome) :
    (∃ fault, outcome = .error fault ∧ table.Calls state first after (.error fault))
      ∨ ∃ between, table.Calls state first between (.ok ()) ∧ table.Calls between second after outcome := by
  induction first generalizing state with
  | nil => exact Or.inr ⟨state, .done, called⟩
  | cons visit rest ih =>
    cases called with
    | passed said later =>
      rcases ih later with ⟨fault, rfl, failed⟩ | ⟨between, before, after⟩
      · exact Or.inl ⟨fault, rfl, .passed said failed⟩
      · exact Or.inr ⟨between, .passed said before, after⟩
    | refused said => exact Or.inl ⟨_, rfl, .refused said⟩
    | broken said within => exact Or.inl ⟨_, rfl, .broken said within⟩
    | entered said within later =>
      rcases ih later with ⟨fault, rfl, failed⟩ | ⟨between, before, after⟩
      · exact Or.inl ⟨fault, rfl, .entered said within failed⟩
      · exact Or.inr ⟨between, .entered said within before, after⟩

end Recursion

section Answers

/-- All that a call can begin with. A mark is given only if it was not given before, and only then does the call go on. -/
inductive Answers (table : SymbolTable) (state : Walked) (visit : Visit) : Reply → Prop
  | passed : Answers table state visit .passed
  | failed {fault : Fault} (own : visit = .fail fault) : Answers table state visit (.refused fault state)
  | nameless (word : String) : Answers table state visit (.refused (.notName word) state)
  | fileless {mark : Mark} {fault : Fault} (marked : table.mark? visit = some mark) (free : mark ∉ state.marks)
      (failed : (table.fileOf visit >>= addFile state.files) = .error fault) :
      Answers table state visit (.refused fault ⟨mark :: state.marks, state.entered, state.files⟩)
  | entered {mark : Mark} (files : Reported) (marked : table.mark? visit = some mark) (free : mark ∉ state.marks) :
      Answers table state visit (.entered ⟨mark :: state.marks, visit :: state.entered, files⟩)

theorem answers_reply (table : SymbolTable) (state : Walked) (visit : Visit) : table.Answers state visit (table.reply state visit) := by
  unfold reply
  split
  next => exact .failed rfl
  next =>
    split
    next => exact .passed
    next role id given =>
      split
      next => exact .nameless _
      next key keyed =>
        have marked := mark?_eq_some.mpr ⟨id, given, keyed⟩
        split
        next => exact .passed
        next new =>
          have free : (role, key) ∉ state.marks := by simpa using new
          split
          next fault failed => exact .fileless marked free failed
          next files added => exact .entered files marked free

/-- The marks given are marks of the table, each given once, and what was gone on from has these marks. -/
structure Once (table : SymbolTable) (state : Walked) : Prop where
  distinct : state.marks.Nodup
  listed : state.marks ⊆ table.marks
  entered : (state.entered.map table.mark?).Sublist (state.marks.map some)

section Marks

variable {state : Walked} {visit : Visit} (once : table.Once state) (belongs : table.Belongs visit)
include once belongs

theorem listed_given {mark : Mark} (marked : table.mark? visit = some mark) : mark :: state.marks ⊆ table.marks :=
  List.cons_subset.mpr ⟨mem_marks (proper_of_belongs belongs marked) marked, once.listed⟩

theorem once_entered {next : Walked} (said : table.reply state visit = .entered next) : table.Once next := by
  have answers := answers_reply table state visit
  rw [said] at answers
  cases answers with
  | entered files marked free =>
    refine ⟨List.nodup_cons.mpr ⟨free, once.distinct⟩, listed_given once belongs marked, ?_⟩
    simpa [marked] using once.entered

theorem once_refused {fault : Fault} {after : Walked} (said : table.reply state visit = .refused fault after) :
    table.Once after := by
  have answers := answers_reply table state visit
  rw [said] at answers
  cases answers with
  | failed _ => exact once
  | nameless _ => exact once
  | fileless marked free _ =>
    exact ⟨List.nodup_cons.mpr ⟨free, once.distinct⟩, listed_given once belongs marked,
      once.entered.trans (List.sublist_cons_self _ _)⟩

end Marks

theorem once_calls {state after : Walked} {agenda : List Visit} {outcome : Except Fault Unit}
    (called : table.Calls state agenda after outcome) (owns : table.Owns agenda) (once : table.Once state) :
    table.Once after := by
  induction called with
  | done => exact once
  | passed _ _ ih => exact ih (owns_cons.mp owns).2 once
  | refused said => exact once_refused once (owns_cons.mp owns).1 said
  | broken said _ ih => exact ih (owns_partsOf _) (once_entered once (owns_cons.mp owns).1 said)
  | entered said _ _ first second =>
    have between := first (owns_partsOf _) (once_entered once (owns_cons.mp owns).1 said)
    exact second (owns_cons.mp owns).2 between

theorem refuses_contribute (ends : ∀ ref, table.DefinitionEnds ref) {visit : Visit} {found : Reported} {fault : Fault}
    (failed : (table.fileOf visit >>= addFile found) = .error fault) : Refuses fault := by
  have asked : ∃ file, table.fileOf visit = .ok file := by
    cases visit with
    | type ref => exact typeFile_isOk.mpr (externality_isOk ends ref)
    | _ => exact ⟨none, rfl⟩
  obtain ⟨file, contributed⟩ := asked
  rw [contributed] at failed
  cases file with
  | none => cases failed
  | some file =>
    change addFile found (some file) = _ at failed
    rw [addFile.eq_2] at failed
    split at failed
    next =>
      cases failed
      exact .name _
    next => cases failed

theorem refuses_reply (ends : ∀ ref, table.DefinitionEnds ref) {state after : Walked} {visit : Visit} {fault : Fault}
    (belongs : table.Belongs visit) (said : table.reply state visit = .refused fault after) : Refuses fault := by
  have answers := answers_reply table state visit
  rw [said] at answers
  cases answers with
  | failed own =>
    subst own
    exact refuses_of_belongs belongs
  | nameless word => exact .name word
  | fileless _ _ failed => exact refuses_contribute ends failed

theorem refuses_calls (ends : ∀ ref, table.DefinitionEnds ref) {state after : Walked} {agenda : List Visit}
    {outcome : Except Fault Unit} (called : table.Calls state agenda after outcome) (owns : table.Owns agenda) :
    ∀ fault, outcome = .error fault → Refuses fault := by
  induction called with
  | done => exact fun _ same => nomatch same
  | passed _ _ ih => exact ih (owns_cons.mp owns).2
  | refused said =>
    intro fault same
    cases same
    exact refuses_reply ends (owns_cons.mp owns).1 said
  | broken _ _ ih => exact ih (owns_partsOf _)
  | entered _ _ _ _ ih => exact ih (owns_cons.mp owns).2

end Answers

section Endings

structure Remain (table : SymbolTable) (unmarked given : List Mark) : Prop where
  distinct : unmarked.Nodup
  rest : ∀ mark ∈ table.marks, mark ∈ unmarked ↔ mark ∉ given

theorem remain_give {unmarked given : List Mark} (remain : table.Remain unmarked given) (mark : Mark) :
    table.Remain (unmarked.erase mark) (mark :: given) where
  distinct := remain.distinct.erase mark
  rest other listed := by
    rw [remain.distinct.mem_erase_iff, remain.rest other listed, List.mem_cons, not_or]

theorem mem_given_iff {unmarked given : List Mark} (remain : table.Remain unmarked given) {visit : Visit}
    (belongs : table.Belongs visit) {mark : Mark} (marked : table.mark? visit = some mark) :
    mark ∈ given ↔ mark ∉ unmarked := by
  rw [remain.rest mark (mem_marks (proper_of_belongs belongs marked) marked), not_not]

/-- Counting the marks down, a walk comes to an end; so the recursion does, with the same files or the same failure. -/
theorem calls_of_walk (unmarked : List Mark) (agenda : List Visit) (found : Reported) (state : Walked)
    (same : state.files = found) (remain : table.Remain unmarked state.marks) (owns : table.Owns agenda) :
    ∃ after outcome, table.Calls state agenda after outcome
      ∧ table.walk unmarked agenda found = outcome.map fun _ => after.files := by
  -- The walk shrinks what is unmarked with each mark, so its own induction also serves the recursion.
  fun_induction table.walk unmarked agenda found generalizing state with
  | case1 => exact ⟨state, _, .done, by rw [← same]; rfl⟩
  | case2 unmarked found fault rest => exact ⟨state, _, .refused rfl, rfl⟩
  | case3 unmarked found visit rest noFault unknown ih =>
    obtain ⟨after, outcome, called, ran⟩ := ih state same remain (owns_cons.mp owns).2
    have said : table.reply state visit = .passed := by
      rw [reply.eq_2 _ _ _ noFault]
      simp only [unknown]
    exact ⟨after, outcome, .passed said called, ran⟩
  | case4 unmarked found visit rest noFault role id given nameless =>
    have said : table.reply state visit = .refused (.notName id.kindWord) state := by
      rw [reply.eq_2 _ _ _ noFault]
      simp only [given, nameless]
    exact ⟨state, _, .refused said, rfl⟩
  | case5 unmarked found visit rest noFault role id given key keyed free fault failed =>
    have known := mem_given_iff remain (owns_cons.mp owns).1 (mark?_eq_some.mpr ⟨id, given, keyed⟩)
    have said : table.reply state visit = .refused fault ⟨(role, key) :: state.marks, state.entered, state.files⟩ := by
      rw [reply.eq_2 _ _ _ noFault]
      simp [given, keyed, known, free, same, failed]
    exact ⟨_, _, .refused said, rfl⟩
  | case6 unmarked found visit rest noFault role id given key keyed free more added ih =>
    have known := mem_given_iff remain (owns_cons.mp owns).1 (mark?_eq_some.mpr ⟨id, given, keyed⟩)
    have said : table.reply state visit = .entered ⟨(role, key) :: state.marks, visit :: state.entered, more⟩ := by
      rw [reply.eq_2 _ _ _ noFault]
      simp [given, keyed, known, free, same, added]
    obtain ⟨after, outcome, called, ran⟩ := ih ⟨(role, key) :: state.marks, visit :: state.entered, more⟩ rfl
      (remain_give remain _) (owns_append.mpr ⟨owns_partsOf visit, (owns_cons.mp owns).2⟩)
    refine ⟨after, outcome, ?_, ran⟩
    -- What the walk goes on with at once, the recursion does in two calls.
    rcases calls_split called with ⟨fault, rfl, failed⟩ | ⟨between, within, later⟩
    · exact .broken said failed
    · exact .entered said within later
  | case7 unmarked found visit rest noFault role id given key keyed taken ih =>
    have known := mem_given_iff remain (owns_cons.mp owns).1 (mark?_eq_some.mpr ⟨id, given, keyed⟩)
    have said : table.reply state visit = .passed := by
      rw [reply.eq_2 _ _ _ noFault]
      simp [given, keyed, known, taken]
    obtain ⟨after, outcome, called, ran⟩ := ih state same remain (owns_cons.mp owns).2
    exact ⟨after, outcome, .passed said called, ran⟩

theorem walkable_of_ends (typed : table.WellTyped) (ends : ∀ ref, table.DefinitionEnds ref) : table.Walkable where
  toLinked := typed.linked
  typeIds symbol known := by
    obtain ⟨_, _, keyed⟩ := key?_of_text? (typed.typeIds symbol known)
    simp [keyed]
  methodIds symbol known := by
    obtain ⟨_, _, keyed⟩ := key?_of_text? (typed.methodIds symbol known)
    simp [keyed]
  memberIds symbol listed := by
    obtain ⟨type, known, among⟩ := listed
    obtain ⟨_, _, keyed⟩ := key?_of_text? (typed.memberIds type known symbol among)
    simp [keyed]
  files ref := by
    obtain ⟨file, contributed⟩ := typeFile_isOk.mpr (externality_isOk ends ref)
    cases file with
    | none => exact ⟨none, contributed, Or.inl rfl⟩
    | some file =>
      obtain ⟨path, rfl, set⟩ := text_of_fileOf typed (show table.fileOf (.type ref) = .ok (some file) from contributed)
      exact ⟨_, contributed, Or.inr ⟨path, set, rfl⟩⟩

/-- On every table whose chains of generic definitions end, the recursion from any type comes to an end, in circles or
not and however deep: it has one outcome, which is that of the walk, and it fails only over symbols that are not what
they should be. What it goes on from has different marks, all of which symbols of the table have. -/
theorem walk_ends (ends : ∀ ref, table.DefinitionEnds ref) (root : TypeRef) :
    ∃ after outcome, table.Calls ⟨[], [], []⟩ [.root root] after outcome
      ∧ (∀ other result, table.Calls ⟨[], [], []⟩ [.root root] other result → other = after ∧ result = outcome)
      ∧ table.dependencies root = outcome.map (fun _ => after.files)
      ∧ (∀ fault, outcome = .error fault → Refuses fault)
      ∧ (table.WellTyped → outcome = .ok ())
      ∧ (after.entered.map table.mark?).Nodup
      ∧ (∀ visit ∈ after.entered, ∃ mark ∈ table.marks, table.mark? visit = some mark)
      ∧ after.entered.length ≤ table.marks.length ∧ table.marks.Nodup
      ∧ ∀ mark, mark ∈ table.marks ↔ ∃ visit, table.Proper visit ∧ table.mark? visit = some mark := by
  have owns : table.Owns [.root root] := by simp [Belongs, Proper]
  obtain ⟨after, outcome, called, ran⟩ := calls_of_walk table.marks [.root root] [] ⟨[], [], []⟩ rfl
    ⟨nodup_eraseDups _, by simp⟩ owns
  have once : table.Once after := once_calls called owns ⟨List.nodup_nil, List.nil_subset _, .slnil⟩
  refine ⟨after, outcome, called, fun other result again => calls_unique called again, ran,
    refuses_calls ends called owns, fun typed => ?_, ?_, fun visit member => ?_, ?_, nodup_eraseDups _,
    fun mark => mem_marks_iff⟩
  · obtain ⟨result, expanded, given, _⟩ := dependencies_expands (walkable_of_ends typed ends) root
    rw [dependencies, ran] at given
    cases outcome with
    | error fault => cases given
    | ok done => rfl
  · exact once.entered.nodup (once.distinct.map fun _ _ same => Option.some.inj same)
  · obtain ⟨mark, given, same⟩ := List.mem_map.mp (once.entered.subset (List.mem_map_of_mem member))
    exact ⟨mark, once.listed given, same.symm⟩
  · calc after.entered.length
        = (after.entered.map table.mark?).length := (List.length_map _).symm
      _ ≤ (after.marks.map some).length := once.entered.length_le
      _ = after.marks.length := List.length_map _
      _ ≤ table.marks.length := (once.distinct.subperm once.listed).length_le

/-- A type that is its own base, member, constraint, argument and attribute, also through another one that is closed
from it, and a method that is a local function and a lambda of its own. -/
def circles : SymbolTable where
  types := #[
    { id := .text "A", name := .text "A", file := .text "a", base := some 0, typeParameters := [some 0],
      constraints := [some 1], typeArguments := [some 1], originalDefinition := some 0,
      members := [some (.nested 0), some (.plain ⟨.text "A.f", .text "f", .null, .field (some 1), [some 0]⟩),
        some (.method 0)],
      attributes := [some 0] },
    { id := .text "A1", name := .text "A1", typeArguments := [some 1], originalDefinition := some 0,
      element := some 0, signature := some 0 }]
  methods := #[
    { id := .text "A.m", name := .text "m", returnType := some 1,
      body := some [⟨.text "local_function", some 0, some 0⟩, ⟨.text "lambda", none, some 0⟩] }]

theorem wellTyped_circles : circles.WellTyped where
  typeIds := by decide
  methodIds := by decide
  memberIds := by simp [circles, Document.text?]
  files := by decide
  typeParameters := by decide
  methodParameters := by decide
  kinds := by decide

theorem definitionEnds_circles (ref : TypeRef) : circles.DefinitionEnds ref := by
  have first : circles.DefinitionEnds 0 := .last (by decide)
  match ref with
  | 0 => exact first
  | 1 => exact .step (by decide) first
  | ref + 2 => exact .last (by simp [nextDefinition, circles])

theorem walk_ends_circles :
    ∃ after, circles.Calls ⟨[], [], []⟩ [.root 0] after (.ok ()) ∧ after.files = [.text "a"]
      ∧ (after.entered.map circles.mark?).Nodup ∧ after.entered.length ≤ 7 := by
  obtain ⟨after, outcome, called, _, ran, _, succeeds, distinct, _, bounded, _⟩ := walk_ends definitionEnds_circles 0
  obtain rfl := succeeds wellTyped_circles
  have walked : circles.walkWithin 40 circles.marks [.root 0] [] = some (.ok [.text "a"]) := rfl
  have size : circles.marks.length = 7 := by decide +kernel
  have found : circles.dependencies 0 = .ok [.text "a"] := walk_of_within walked
  exact ⟨after, called, Except.ok.inj (ran.symm.trans found), distinct, size ▸ bounded⟩

end Endings

end DeclGraph.SymbolTable
