import DeclGraph.Proofs.Outcomes
import DeclGraph.Proofs.References
import Mathlib.Data.List.Nodup

/-!
The walk over a symbol table finds the files of all that a declared type refers to, and of nothing else.
Each visit is expanded at most once, by its mark. Where symbols do not share ids, a mark stands for one
visit, so what the walk leaves out it has expanded before: from any agenda, the visits it expands are
those that can be reached through marks not yet given.
-/

namespace DeclGraph.SymbolTable

section Marks

variable {table : SymbolTable}

def Lists (table : SymbolTable) (member : Member) : Prop :=
  ∃ symbol ∈ table.types.toList, some member ∈ symbol.members

/-- No two types, no two methods and no two members that are no types share an id. A member can stand in
more than one list. -/
structure DistinctIds (table : SymbolTable) : Prop where
  types : (table.types.toList.map (·.id.key?)).Nodup
  methods : (table.methods.toList.map (·.id.key?)).Nodup
  members : ∀ symbol other, table.Lists (.plain symbol) → table.Lists (.plain other) →
    symbol.id.key? = other.id.key? → symbol = other
  apart : ∀ symbol ref method, table.Lists (.plain symbol) → table.Lists (.method ref) →
    table.methods[ref]? = some method → symbol.id.key? ≠ method.id.key?

def mark? (table : SymbolTable) (visit : Visit) : Option Mark :=
  (table.markOf visit).bind fun mark => mark.2.key?.map fun key => (mark.1, key)

/-- A visit that belongs to the table and does not fail. -/
def Proper (table : SymbolTable) : Visit → Prop
  | .root _ => True
  | .member symbol => table.Lists (.plain symbol)
  | .memberMethod ref => table.Lists (.method ref)
  | .method _ => True
  | .type _ => True
  | .fail _ => False

theorem proper_visitOf {ref : TypeRef} {symbol : TypeSymbol} (found : table.types[ref]? = some symbol)
    {member : Member} (listed : some member ∈ symbol.members) : table.Proper (visitOf member) := by
  have lists : table.Lists member := ⟨symbol, mem_types found, listed⟩
  cases member with
  | plain symbol => exact lists
  | method method => exact lists
  | nested inner => trivial

theorem proper_step (linked : table.Linked) {visit next : Visit} (listed : next ∈ table.partsOf visit) :
    table.Proper next := by
  cases visit with
  | root ref =>
    obtain ⟨symbol, found, inside⟩ := mem_partsOf_root.mp listed
    rcases (mem_rootParts linked found).mp inside with ⟨_, _, rfl⟩ | ⟨member, among, rfl⟩
    · trivial
    · exact proper_visitOf found among
  | member symbol =>
    obtain ⟨_, _, rfl⟩ := mem_memberParts.mp listed
    trivial
  | memberMethod ref =>
    obtain ⟨_, _, rfl | ⟨_, _, rfl⟩⟩ := mem_partsOf_memberMethod.mp listed
    · trivial
    · trivial
  | method ref =>
    obtain ⟨symbol, found, inside⟩ := mem_partsOf_method.mp listed
    rcases (mem_methodParts linked found).mp inside with ⟨_, _, rfl⟩ | ⟨_, _, _, _, rfl⟩
    · trivial
    · trivial
  | type ref =>
    obtain ⟨symbol, _, inside⟩ := mem_partsOf_type.mp listed
    obtain ⟨_, _, _, rfl⟩ := mem_typeParts.mp inside
    trivial
  | fail fault => cases listed

theorem key?_of_text? {id : Document} (isText : id.text?.isSome = true) :
    ∃ text, id = .text text ∧ id.key? = some (.text text) := by
  cases id with
  | scalar value =>
    cases value with
    | text text => exact ⟨text, rfl, rfl⟩
    | _ => simp [Document.text?] at isText
  | _ => simp [Document.text?] at isText

theorem key?_of_markOf (typed : table.WellTyped) {visit : Visit} (proper : table.Proper visit) {role : Role}
    {id : Document} (marked : table.markOf visit = some (role, id)) : ∃ key, id.key? = some key := by
  have isText : id.text?.isSome = true := by
    cases visit with
    | root ref =>
      obtain ⟨symbol, found, same⟩ := Option.map_eq_some_iff.mp marked
      cases same
      exact typed.typeIds symbol (mem_types found)
    | member symbol =>
      cases marked
      obtain ⟨type, listed, among⟩ := proper
      exact typed.memberIds type listed symbol among
    | memberMethod ref =>
      obtain ⟨symbol, found, same⟩ := Option.map_eq_some_iff.mp marked
      cases same
      exact typed.methodIds symbol (mem_methods found)
    | method ref =>
      obtain ⟨symbol, found, same⟩ := Option.map_eq_some_iff.mp marked
      cases same
      exact typed.methodIds symbol (mem_methods found)
    | type ref =>
      obtain ⟨symbol, found, same⟩ := Option.map_eq_some_iff.mp marked
      cases same
      exact typed.typeIds symbol (mem_types found)
    | fail fault => cases marked
  obtain ⟨_, _, keyed⟩ := key?_of_text? isText
  exact ⟨_, keyed⟩

theorem position_unique {α : Type} {ids : α → Document} {symbols : Array α}
    (distinct : (symbols.toList.map fun symbol => (ids symbol).key?).Nodup) {first second : Nat} {role : Role}
    {mark other : Role × Document} (marked : symbols[first]?.map (fun symbol => (role, ids symbol)) = some mark)
    (also : symbols[second]?.map (fun symbol => (role, ids symbol)) = some other)
    (same : mark.2.key? = other.2.key?) : first = second := by
  obtain ⟨symbol, found, rfl⟩ := Option.map_eq_some_iff.mp marked
  obtain ⟨otherSymbol, otherFound, rfl⟩ := Option.map_eq_some_iff.mp also
  let keys := symbols.toList.map fun symbol => (ids symbol).key?
  have one : keys[first]? = some (ids symbol).key? := by simp [keys, found]
  have two : keys[second]? = some (ids symbol).key? := by simp [keys, otherFound, same]
  obtain ⟨inside, _⟩ := List.getElem?_eq_some_iff.mp one
  exact (List.getElem?_inj inside distinct).mp (one.trans two.symm)

theorem mark?_eq_some {visit : Visit} {role : Role} {key : Key} :
    table.mark? visit = some (role, key) ↔ ∃ id, table.markOf visit = some (role, id) ∧ id.key? = some key := by
  rw [mark?, Option.bind_eq_some_iff]
  constructor
  · rintro ⟨⟨given, id⟩, marked, keyed⟩
    obtain ⟨_, keyed, same⟩ := Option.map_eq_some_iff.mp keyed
    cases same
    exact ⟨id, marked, keyed⟩
  · rintro ⟨id, marked, keyed⟩
    exact ⟨(role, id), marked, by simp [keyed]⟩

def roleOf : Visit → Option Role
  | .root _ => some .root
  | .member _ => some .member
  | .memberMethod _ => some .member
  | .method _ => some .method
  | .type _ => some .type
  | .fail _ => none

theorem roleOf_markOf {visit : Visit} {mark : Role × Document} (marked : table.markOf visit = some mark) :
    roleOf visit = some mark.1 := by
  cases visit with
  | member symbol =>
    cases marked
    rfl
  | fail fault => cases marked
  | _ =>
    obtain ⟨symbol, _, rfl⟩ := Option.map_eq_some_iff.mp marked
    rfl

theorem eq_of_mark (distinct : table.DistinctIds) {visit other : Visit} (proper : table.Proper visit)
    (also : table.Proper other) {mark : Mark} (marked : table.mark? visit = some mark)
    (same : table.mark? other = some mark) : visit = other := by
  obtain ⟨role, key⟩ := mark
  obtain ⟨id, given, keyed⟩ := mark?_eq_some.mp marked
  obtain ⟨otherId, otherGiven, otherKeyed⟩ := mark?_eq_some.mp same
  have keys : id.key? = otherId.key? := keyed.trans otherKeyed.symm
  have roles : roleOf visit = roleOf other := (roleOf_markOf given).trans (roleOf_markOf otherGiven).symm
  -- Only members and member methods share a role, and there the ids are apart.
  cases visit with
  | root ref =>
    cases other with
    | root otherRef => rw [position_unique distinct.types given otherGiven keys]
    | _ => cases roles
  | type ref =>
    cases other with
    | type otherRef => rw [position_unique distinct.types given otherGiven keys]
    | _ => cases roles
  | method ref =>
    cases other with
    | method otherRef => rw [position_unique distinct.methods given otherGiven keys]
    | _ => cases roles
  | memberMethod ref =>
    cases other with
    | memberMethod otherRef => rw [position_unique distinct.methods given otherGiven keys]
    | member otherSymbol =>
      obtain ⟨symbol, found, shape⟩ := Option.map_eq_some_iff.mp given
      cases shape
      cases otherGiven
      exact absurd keys.symm (distinct.apart otherSymbol ref symbol also proper found)
    | _ => cases roles
  | member symbol =>
    cases given
    cases other with
    | member otherSymbol =>
      cases otherGiven
      rw [distinct.members symbol otherSymbol proper also keys]
    | memberMethod otherRef =>
      obtain ⟨otherMethod, otherFound, otherShape⟩ := Option.map_eq_some_iff.mp otherGiven
      cases otherShape
      exact absurd keys (distinct.apart symbol otherRef otherMethod proper also otherFound)
    | _ => cases roles
  | fail fault => cases given

theorem mem_marks {visit : Visit} (proper : table.Proper visit) {mark : Mark}
    (marked : table.mark? visit = some mark) : mark ∈ table.marks := by
  obtain ⟨role, key⟩ := mark
  obtain ⟨id, given, keyed⟩ := mark?_eq_some.mp marked
  rw [marks, List.mem_eraseDups, List.mem_append, List.mem_flatMap, List.mem_filterMap]
  cases visit with
  | root ref =>
    obtain ⟨symbol, found, shape⟩ := Option.map_eq_some_iff.mp given
    cases shape
    exact Or.inl ⟨symbol, mem_types found, by simp [typeMarks, keyed]⟩
  | type ref =>
    obtain ⟨symbol, found, shape⟩ := Option.map_eq_some_iff.mp given
    cases shape
    exact Or.inl ⟨symbol, mem_types found, by simp [typeMarks, keyed]⟩
  | method ref =>
    obtain ⟨symbol, found, shape⟩ := Option.map_eq_some_iff.mp given
    cases shape
    exact Or.inr ⟨symbol, mem_methods found, by simp [keyed]⟩
  | member symbol =>
    cases given
    obtain ⟨type, listed, among⟩ := proper
    refine Or.inl ⟨type, listed, List.mem_append_right _ (List.mem_flatMap.mpr ⟨_, among, ?_⟩)⟩
    simp [memberMarks, keyed]
  | memberMethod ref =>
    obtain ⟨symbol, found, shape⟩ := Option.map_eq_some_iff.mp given
    cases shape
    obtain ⟨type, listed, among⟩ := proper
    refine Or.inl ⟨type, listed, List.mem_append_right _ (List.mem_flatMap.mpr ⟨_, among, ?_⟩)⟩
    simp [memberMarks, found, keyed]
  | fail fault => cases given

end Marks

theorem nodup_eraseDups (list : List Mark) : list.eraseDups.Nodup := by
  match list with
  | [] => simp
  | mark :: rest =>
    rw [List.eraseDups_cons, List.nodup_cons]
    refine ⟨?_, nodup_eraseDups _⟩
    rw [List.mem_eraseDups]
    simp
termination_by list.length
decreasing_by exact Nat.lt_succ_of_le (List.length_filter_le _ rest)

section Walk

variable {table : SymbolTable}

/-- The visits that a walk has still to expand: those it can come to through marks not yet given. -/
inductive Pending (table : SymbolTable) (unmarked : List Mark) (agenda : List Visit) : Visit → Prop
  | start {visit : Visit} {mark : Mark} (listed : visit ∈ agenda) (marked : table.mark? visit = some mark)
      (free : mark ∈ unmarked) : Pending table unmarked agenda visit
  | step {visit next : Visit} {mark : Mark} (before : Pending table unmarked agenda visit)
      (listed : next ∈ table.partsOf visit) (marked : table.mark? next = some mark)
      (free : mark ∈ unmarked) : Pending table unmarked agenda next

theorem pending_cons_marked {unmarked : List Mark} {visit : Visit} {rest : List Visit}
    (given : ∀ mark, table.mark? visit = some mark → mark ∉ unmarked) (other : Visit) :
    table.Pending unmarked (visit :: rest) other ↔ table.Pending unmarked rest other := by
  constructor
  · intro pending
    induction pending with
    | start listed marked free =>
      rcases List.mem_cons.mp listed with rfl | later
      · exact absurd free (given _ marked)
      · exact .start later marked free
    | step _ listed marked free ih => exact .step ih listed marked free
  · intro pending
    induction pending with
    | start listed marked free => exact .start (List.mem_cons_of_mem _ listed) marked free
    | step _ listed marked free ih => exact .step ih listed marked free

/-- Expanding a visit uses up its mark and puts its parts on the agenda. What was pending is the visit
itself, or is still pending: a way that comes back to the visit can be cut to its last stretch, because no
other visit has the mark. -/
theorem pending_cons_unmarked (typed : table.WellTyped) (distinct : table.DistinctIds)
    {unmarked : List Mark} (nodup : unmarked.Nodup) {visit : Visit} {rest : List Visit}
    (proper : ∀ other ∈ visit :: rest, table.Proper other) {mark : Mark}
    (marked : table.mark? visit = some mark) (free : mark ∈ unmarked) (other : Visit) :
    table.Pending unmarked (visit :: rest) other ↔
      other = visit ∨ table.Pending (unmarked.erase mark) (table.partsOf visit ++ rest) other := by
  have own := proper visit List.mem_cons_self
  constructor
  · intro pending
    induction pending with
    | @start next nextMark listed nextMarked nextFree =>
      by_cases same : nextMark = mark
      · exact Or.inl (eq_of_mark distinct (proper next listed) own (same ▸ nextMarked) marked)
      · rcases List.mem_cons.mp listed with rfl | later
        · exact absurd (Option.some.inj (nextMarked.symm.trans marked)) same
        · exact Or.inr (.start (List.mem_append_right _ later) nextMarked
            ((nodup.mem_erase_iff).mpr ⟨same, nextFree⟩))
    | @step before next nextMark _ listed nextMarked nextFree ih =>
      -- Where the way comes back to the mark, it comes back to the visit itself.
      by_cases same : nextMark = mark
      · exact Or.inl (eq_of_mark distinct (proper_step typed.linked listed) own (same ▸ nextMarked) marked)
      · have stillFree := (nodup.mem_erase_iff).mpr ⟨same, nextFree⟩
        rcases ih with rfl | still
        · exact Or.inr (.start (List.mem_append_left _ listed) nextMarked stillFree)
        · exact Or.inr (.step still listed nextMarked stillFree)
  · have start : table.Pending unmarked (visit :: rest) visit := .start List.mem_cons_self marked free
    rintro (rfl | pending)
    · exact start
    · induction pending with
      | start listed nextMarked nextFree =>
        have wasFree := List.mem_of_mem_erase nextFree
        rcases List.mem_append.mp listed with part | later
        · exact .step start part nextMarked wasFree
        · exact .start (List.mem_cons_of_mem _ later) nextMarked wasFree
      | step _ listed nextMarked nextFree ih => exact .step ih listed nextMarked (List.mem_of_mem_erase nextFree)

theorem definitionFile_of_fileOf {visit : Visit} {file : Document} (contributed : table.fileOf visit = .ok (some file)) :
    ∃ ref, table.definitionFile ref = file ∧ file.isSet = true := by
  cases visit with
  | type ref =>
    obtain ⟨external, _, same⟩ := bind_eq_ok.mp contributed
    have given := Except.ok.inj same
    split at given
    · cases given
    · rw [Document.ifSet, Option.ite_none_right_eq_some] at given
      obtain ⟨isSet, same⟩ := given
      cases same
      exact ⟨ref, rfl, isSet⟩
  | _ => cases contributed

theorem symbol_of_fileOf {visit : Visit} {file : Document} (contributed : table.fileOf visit = .ok (some file)) :
    ∃ symbol ∈ table.types.toList, symbol.file = file ∧ file.isSet = true := by
  obtain ⟨ref, rfl, isSet⟩ := definitionFile_of_fileOf contributed
  cases found : table.types[table.definition ref]? with
  | none => simp [definitionFile, found, Document.isSet] at isSet
  | some symbol => exact ⟨symbol, mem_types found, by simp [definitionFile, found], isSet⟩

theorem text_of_fileOf (typed : table.WellTyped) {visit : Visit} {file : Document}
    (contributed : table.fileOf visit = .ok (some file)) : ∃ path, file = .text path ∧ path ≠ "" := by
  obtain ⟨symbol, known, rfl, isSet⟩ := symbol_of_fileOf contributed
  rcases typed.files symbol known with absent | isText
  · cases null : symbol.file with
    | scalar value => cases value <;> simp_all [Document.isNull, Document.isSet]
    | _ => simp [null, Document.isNull] at absent
  · obtain ⟨path, text, _⟩ := key?_of_text? isText
    refine ⟨path, text, ?_⟩
    rintro rfl
    simp [text, Document.isSet] at isSet

def AllTexts (found : Reported) : Prop := ∀ file ∈ found, ∃ path, file = .text path

theorem any_key_text {found : Reported} {path : String} :
    (found.any fun other => other.key? = some (.text path)) = true ↔ .text path ∈ found := by
  rw [List.any_eq_true]
  constructor
  · rintro ⟨other, listed, same⟩
    have keyed : other.key? = some (.text path) := by simpa using same
    cases other with
    | scalar value =>
      cases value with
      | text text => simp_all [Document.key?, Scalar.key]
      | real value => cases whole : value.toInt? <;> simp [Document.key?, Scalar.key, whole] at keyed
      | moment value => cases instant : value.instant? <;> simp [Document.key?, Scalar.key, instant] at keyed
      | _ => simp [Document.key?, Scalar.key] at keyed
    | _ => simp [Document.key?] at keyed
  · intro listed
    exact ⟨.text path, listed, by simp [Document.key?, Scalar.key]⟩

theorem addFile_text (found : Reported) (texts : AllTexts found) (path : String) :
    ∃ more, addFile found (some (.text path)) = .ok more ∧ AllTexts more
      ∧ ∀ other, .text other ∈ more ↔ .text other ∈ found ∨ other = path := by
  have opened : addFile found (some (.text path)) =
      .ok (if found.any fun other => other.key? = some (.text path) then found else found ++ [.text path]) := rfl
  by_cases known : .text path ∈ found
  · refine ⟨found, by rw [opened, if_pos (any_key_text.mpr known)], texts, fun other => ?_⟩
    constructor
    · exact Or.inl
    · rintro (listed | rfl)
      · exact listed
      · exact known
  · refine ⟨found ++ [.text path], by rw [opened, if_neg (fun any => known (any_key_text.mp any))], ?_, ?_⟩
    · intro file listed
      rcases List.mem_append.mp listed with old | new
      · exact texts file old
      · exact ⟨path, List.mem_singleton.mp new⟩
    · intro other
      simp

theorem addFile_contributed (typed : table.WellTyped) {found : Reported} (texts : AllTexts found)
    {visit : Visit} {file : Option Document} (contributed : table.fileOf visit = .ok file) :
    ∃ more, addFile found file = .ok more ∧ AllTexts more
      ∧ ∀ path, .text path ∈ more ↔ .text path ∈ found ∨ file = some (.text path) := by
  cases file with
  | none => exact ⟨found, rfl, texts, by simp⟩
  | some file =>
    obtain ⟨path, rfl, _⟩ := text_of_fileOf typed contributed
    obtain ⟨more, added, kept, members⟩ := addFile_text found texts path
    refine ⟨more, added, kept, fun other => ?_⟩
    rw [members]
    simp [eq_comm]

/-- What a walk comes to from an agenda: the files of all pending visits on top of those found before, or
the failure of one of these visits. -/
def Explores (table : SymbolTable) (unmarked : List Mark) (agenda : List Visit) (found : Reported) :
    Except Fault Reported → Prop
  | .ok result => AllTexts result
    ∧ (∀ visit, table.Pending unmarked agenda visit → ∃ file, table.fileOf visit = .ok file)
    ∧ ∀ path, .text path ∈ result ↔ .text path ∈ found
      ∨ ∃ visit, table.Pending unmarked agenda visit ∧ table.fileOf visit = .ok (some (.text path))
  | .error fault => ∃ visit, table.Pending unmarked agenda visit ∧ table.fileOf visit = .error fault

theorem explores_skip {unmarked : List Mark} {visit : Visit} {rest : List Visit} {found : Reported}
    {outcome : Except Fault Reported} (given : ∀ mark, table.mark? visit = some mark → mark ∉ unmarked)
    (explores : table.Explores unmarked rest found outcome) :
    table.Explores unmarked (visit :: rest) found outcome := by
  have same : ∀ other, table.Pending unmarked (visit :: rest) other ↔ table.Pending unmarked rest other :=
    pending_cons_marked given
  cases outcome with
  | error fault =>
    obtain ⟨failing, pending, failed⟩ := explores
    exact ⟨failing, (same failing).mpr pending, failed⟩
  | ok result =>
    obtain ⟨texts, answered, members⟩ := explores
    refine ⟨texts, fun other pending => answered other ((same other).mp pending), fun path => ?_⟩
    simp only [members, same]

theorem explores_expand (typed : table.WellTyped) (distinct : table.DistinctIds) {unmarked : List Mark}
    (nodup : unmarked.Nodup) {visit : Visit} {rest : List Visit}
    (proper : ∀ other ∈ visit :: rest, table.Proper other) {mark : Mark}
    (marked : table.mark? visit = some mark) (free : mark ∈ unmarked) {found more : Reported}
    {file : Option Document} (contributed : table.fileOf visit = .ok file)
    (added : ∀ path, .text path ∈ more ↔ .text path ∈ found ∨ file = some (.text path))
    {outcome : Except Fault Reported}
    (explores : table.Explores (unmarked.erase mark) (table.partsOf visit ++ rest) more outcome) :
    table.Explores unmarked (visit :: rest) found outcome := by
  have opened := pending_cons_unmarked typed distinct nodup proper marked free
  cases outcome with
  | error fault =>
    obtain ⟨failing, pending, failed⟩ := explores
    exact ⟨failing, (opened failing).mpr (Or.inr pending), failed⟩
  | ok result =>
    obtain ⟨texts, answered, members⟩ := explores
    refine ⟨texts, fun other pending => ?_, fun path => ?_⟩
    · rcases (opened other).mp pending with rfl | later
      · exact ⟨file, contributed⟩
      · exact answered other later
    · rw [members, added]
      constructor
      · rintro ((old | own) | ⟨other, pending, gives⟩)
        · exact Or.inl old
        · exact Or.inr ⟨visit, (opened visit).mpr (Or.inl rfl), by rw [contributed, own]⟩
        · exact Or.inr ⟨other, (opened other).mpr (Or.inr pending), gives⟩
      · rintro (old | ⟨other, pending, gives⟩)
        · exact Or.inl (Or.inl old)
        · rcases (opened other).mp pending with rfl | later
          · exact Or.inl (Or.inr (Except.ok.inj (contributed.symm.trans gives)))
          · exact Or.inr ⟨other, later, gives⟩

/-- The walk explores its agenda. -/
theorem walk_explores (typed : table.WellTyped) (distinct : table.DistinctIds) (unmarked : List Mark)
    (agenda : List Visit) (found : Reported) (nodup : unmarked.Nodup)
    (proper : ∀ visit ∈ agenda, table.Proper visit) (texts : AllTexts found) :
    table.Explores unmarked agenda found (table.walk unmarked agenda found) := by
  fun_induction table.walk unmarked agenda found with
  | case1 unmarked found =>
    have none : ∀ visit, ¬ table.Pending unmarked [] visit := by
      intro visit pending
      induction pending with
      | start listed => cases listed
      | step _ _ _ _ ih => exact ih
    refine ⟨texts, fun visit pending => absurd pending (none visit), fun path => ?_⟩
    simp [none]
  | case2 unmarked found fault rest =>
    -- A visit that fails is not proper.
    exact absurd (proper _ List.mem_cons_self) (by simp [Proper])
  | case3 unmarked found visit rest _ unknown ih =>
    -- The symbol is not in the table, so the visit has no mark.
    apply explores_skip
    · intro mark marked
      simp [mark?, unknown] at marked
    · exact ih nodup (fun other later => proper other (List.mem_cons_of_mem _ later)) texts
  | case4 unmarked found visit rest _ role id given nameless =>
    -- Ids are texts, and a text names something.
    obtain ⟨key, keyed⟩ := key?_of_markOf typed (proper visit List.mem_cons_self) given
    rw [nameless] at keyed
    cases keyed
  | case5 unmarked found visit rest _ role id given key keyed free fault failed =>
    have marked : table.mark? visit = some (role, key) := mark?_eq_some.mpr ⟨id, given, keyed⟩
    refine ⟨visit, .start List.mem_cons_self marked free, ?_⟩
    -- Adding a file does not fail, so it was asking the visit for its file that did.
    cases contributed : table.fileOf visit with
    | error other =>
      rw [contributed] at failed
      cases failed
      rfl
    | ok file =>
      obtain ⟨more, added, _⟩ := addFile_contributed typed texts contributed
      rw [contributed] at failed
      exact nomatch failed.symm.trans added
  | case6 unmarked found visit rest _ role id given key keyed free more added ih =>
    have marked : table.mark? visit = some (role, key) := mark?_eq_some.mpr ⟨id, given, keyed⟩
    obtain ⟨file, contributed, added⟩ := bind_eq_ok.mp added
    obtain ⟨other, same, kept, members⟩ := addFile_contributed typed texts contributed
    cases added.symm.trans same
    apply explores_expand typed distinct nodup proper marked free contributed members
    apply ih (nodup.erase _) _ kept
    intro next listed
    rcases List.mem_append.mp listed with part | later
    · exact proper_step typed.linked part
    · exact proper next (List.mem_cons_of_mem _ later)
  | case7 unmarked found visit rest _ role id given key keyed taken ih =>
    have marked : table.mark? visit = some (role, key) := mark?_eq_some.mpr ⟨id, given, keyed⟩
    -- The mark was given before, and with it all that the visit leads to.
    apply explores_skip
    · intro mark also
      cases marked.symm.trans also
      exact taken
    · exact ih nodup (fun other later => proper other (List.mem_cons_of_mem _ later)) texts

theorem proper_of_reaches (typed : table.WellTyped) {root : TypeRef} {visit : Visit}
    (reached : table.Reaches [.root root] visit) : table.Proper visit := by
  cases reached with
  | start listed =>
    cases List.mem_singleton.mp listed
    trivial
  | step _ listed => exact proper_step typed.linked listed

theorem markOf_of_parts {visit next : Visit} (listed : next ∈ table.partsOf visit) :
    ∃ role id, table.markOf visit = some (role, id) := by
  cases visit with
  | root ref =>
    obtain ⟨symbol, found, _⟩ := mem_partsOf_root.mp listed
    exact ⟨.root, symbol.id, by simp [markOf, found]⟩
  | member symbol => exact ⟨.member, symbol.id, rfl⟩
  | memberMethod ref =>
    obtain ⟨symbol, found, _⟩ := mem_partsOf_memberMethod.mp listed
    exact ⟨.member, symbol.id, by simp [markOf, found]⟩
  | method ref =>
    obtain ⟨symbol, found, _⟩ := mem_partsOf_method.mp listed
    exact ⟨.method, symbol.id, by simp [markOf, found]⟩
  | type ref =>
    obtain ⟨symbol, found, _⟩ := mem_partsOf_type.mp listed
    exact ⟨.type, symbol.id, by simp [markOf, found]⟩
  | fail fault => cases listed

theorem marked_of_parts (typed : table.WellTyped) {visit next : Visit} (proper : table.Proper visit)
    (listed : next ∈ table.partsOf visit) : (table.mark? visit).isSome = true := by
  obtain ⟨role, id, marked⟩ := markOf_of_parts listed
  obtain ⟨key, keyed⟩ := key?_of_markOf typed proper marked
  rw [mark?_eq_some.mpr ⟨id, marked, keyed⟩]
  rfl

theorem pending_marks_iff (typed : table.WellTyped) {root : TypeRef} {visit : Visit} :
    table.Pending table.marks [.root root] visit ↔
      table.Reaches [.root root] visit ∧ (table.mark? visit).isSome = true := by
  constructor
  · intro pending
    induction pending with
    | start listed marked _ => exact ⟨.start listed, by simp [marked]⟩
    | step _ listed marked _ ih => exact ⟨.step ih.1 listed, by simp [marked]⟩
  · rintro ⟨reached, known⟩
    obtain ⟨mark, marked⟩ := Option.isSome_iff_exists.mp known
    have free := mem_marks (proper_of_reaches typed reached) marked
    induction reached generalizing mark with
    | start listed => exact .start listed marked free
    | @step before next reached listed ih =>
      have outer := marked_of_parts typed (proper_of_reaches typed reached) listed
      obtain ⟨beforeMark, beforeMarked⟩ := Option.isSome_iff_exists.mp outer
      exact .step (ih outer beforeMark beforeMarked (mem_marks (proper_of_reaches typed reached) beforeMarked))
        listed marked free

end Walk

section Dependencies

variable {table : SymbolTable} {root : TypeRef}

def DeclaredIn (table : SymbolTable) (target : TypeRef) (path : String) : Prop :=
  ∃ external, table.externality target = .ok external ∧ external.isSet = false
    ∧ table.definitionFile target = .text path ∧ path ≠ ""

theorem typeFile_eq_some {target : TypeRef} {path : String} :
    table.typeFile target = .ok (some (.text path)) ↔ table.DeclaredIn target path := by
  rw [typeFile, bind_eq_ok]
  constructor
  · rintro ⟨external, asked, given⟩
    split at given
    next => cases given
    next internal =>
      have set := Except.ok.inj given
      rw [Document.ifSet] at set
      split at set
      next isSet =>
        have file := Option.some.inj set
        refine ⟨external, asked, by simpa using internal, file, ?_⟩
        rintro rfl
        simp [file, Document.isSet] at isSet
      next => cases set
  · rintro ⟨external, asked, internal, file, present⟩
    refine ⟨external, asked, ?_⟩
    simp [internal, file, Document.ifSet, Document.isSet, present]
    rfl

theorem typeFile_isOk {target : TypeRef} :
    (∃ file, table.typeFile target = .ok file) ↔ ∃ external, table.externality target = .ok external := by
  constructor
  · rintro ⟨file, given⟩
    obtain ⟨external, asked, _⟩ := bind_eq_ok.mp given
    exact ⟨external, asked⟩
  · rintro ⟨external, asked⟩
    rw [typeFile, asked]
    exact ⟨_, rfl⟩

theorem pending_type_iff (typed : table.WellTyped) {target : TypeRef} :
    table.Pending table.marks [.root root] (.type target) ↔
      table.Refers root target ∧ (table.types[target]?).isSome = true := by
  rw [pending_marks_iff typed, reaches_type_iff typed.linked]
  apply and_congr_right
  intro _
  cases found : table.types[target]? with
  | none => simp [mark?, markOf, found]
  | some symbol =>
    obtain ⟨text, _, keyed⟩ := key?_of_text? (typed.typeIds symbol (mem_types found))
    simp [mark?, markOf, found, keyed]

theorem externality_of_missing {target : TypeRef} (missing : table.types[target]? = none) :
    table.externality target = .ok (.bool true) := by
  simp [externality, externalityWithin, missing]

/-- The walk from a declared type explores what the type refers to. It comes to a result exactly when each
type that is referred to can say whether it comes from the sources, and the result is the files that
declare those that do. -/
theorem dependencies_spec (typed : table.WellTyped) (distinct : table.DistinctIds) (root : TypeRef) :
    ((∃ found, table.dependencies root = .ok found) ↔
      ∀ target, table.Refers root target → ∃ external, table.externality target = .ok external)
    ∧ ∀ found, table.dependencies root = .ok found → AllTexts found ∧
      ∀ path, .text path ∈ found ↔ ∃ target, table.Refers root target ∧ table.DeclaredIn target path := by
  have explores : table.Explores table.marks [.root root] [] (table.dependencies root) :=
    walk_explores typed distinct table.marks [.root root] [] (nodup_eraseDups _) (by simp [Proper])
      (by simp [AllTexts])
  cases outcome : table.dependencies root with
  | error fault =>
    rw [outcome] at explores
    obtain ⟨visit, pending, failed⟩ := explores
    refine ⟨⟨fun ⟨_, same⟩ => (nomatch same), fun answered => ?_⟩, fun _ same => (nomatch same)⟩
    -- Only the visit of a type can fail, when the type cannot say whether it comes from the sources.
    exfalso
    cases visit with
    | type target =>
      obtain ⟨file, given⟩ := typeFile_isOk.mpr (answered target ((pending_type_iff typed).mp pending).1)
      exact nomatch failed.symm.trans given
    | _ => cases failed
  | ok found =>
    rw [outcome] at explores
    obtain ⟨texts, answered, members⟩ := explores
    refine ⟨⟨fun _ target refers => ?_, fun _ => ⟨found, rfl⟩⟩, fun other same => ?_⟩
    · cases present : table.types[target]? with
      | none => exact ⟨_, externality_of_missing present⟩
      | some symbol =>
        exact typeFile_isOk.mp (answered _ ((pending_type_iff typed).mpr ⟨refers, by simp [present]⟩))
    · cases same
      refine ⟨texts, fun path => ?_⟩
      rw [members]
      constructor
      · rintro (none | ⟨visit, pending, gives⟩)
        · cases none
        · cases visit with
          | type target => exact ⟨target, ((pending_type_iff typed).mp pending).1, typeFile_eq_some.mp gives⟩
          | _ => cases gives
      · rintro ⟨target, refers, declared⟩
        have present : (table.types[target]?).isSome = true := by
          obtain ⟨external, asked, internal, _⟩ := declared
          by_contra missing
          rw [externality_of_missing (by simpa using missing)] at asked
          cases asked
          cases internal
        exact Or.inr ⟨_, (pending_type_iff typed).mpr ⟨refers, present⟩, typeFile_eq_some.mpr declared⟩

end Dependencies

end DeclGraph.SymbolTable
