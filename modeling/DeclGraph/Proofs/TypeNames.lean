import DeclGraph.Proofs.ManifestContents

/-!
The ids of built types can be read in one way only. What such an id is made of is told apart by its last character and
by its brackets: the parts between two brackets are separated by the commas that stand in no inner brackets. So two
references with one id are built alike, as long as the ids that are written in them hold no brackets, stars or commas.
-/

namespace DeclGraph.Manifest

section Brackets

/-- How a character changes the number of open brackets. The square ones only occur as a pair. -/
def weight (c : Char) : Int :=
  if c = '<' ∨ c = '(' then 1 else if c = '>' ∨ c = ')' then -1 else 0

def depth : List Char → Int
  | [] => 0
  | c :: rest => weight c + depth rest

@[simp] theorem depth_nil : depth [] = 0 := rfl

@[simp] theorem depth_cons (c : Char) (rest : List Char) : depth (c :: rest) = weight c + depth rest := rfl

@[simp] theorem depth_append (text more : List Char) : depth (text ++ more) = depth text + depth more := by
  induction text with
  | nil => simp
  | cons c rest ih => rw [List.cons_append, depth_cons, depth_cons, ih, Int.add_assoc]

/-- The brackets of a text match. -/
structure Nested (text : List Char) : Prop where
  even : depth text = 0
  above : ∀ front, front <+: text → 0 ≤ depth front

/-- The brackets of a text match, and no comma stands outside of them. -/
structure Closed (text : List Char) : Prop extends Nested text where
  commas : ∀ front, front ++ [','] <+: text → 0 < depth front

theorem prefix_append_cases {text more front : List Char} (starts : front <+: text ++ more) :
    front <+: text ∨ ∃ rest, rest <+: more ∧ front = text ++ rest := by
  rcases List.prefix_or_prefix_of_prefix starts (List.prefix_append text more) with inside | ⟨rest, rfl⟩
  · exact Or.inl inside
  · exact Or.inr ⟨rest, (List.prefix_append_right_inj text).mp starts, rfl⟩

theorem Nested.append {text more : List Char} (first : Nested text) (second : Nested more) : Nested (text ++ more) where
  even := by rw [depth_append, first.even, second.even, Int.add_zero]
  above front starts := by
    rcases prefix_append_cases starts with inside | ⟨rest, later, rfl⟩
    · exact first.above front inside
    · rw [depth_append, first.even, Int.zero_add]
      exact second.above rest later

theorem Closed.append {text more : List Char} (first : Closed text) (second : Closed more) : Closed (text ++ more) where
  toNested := first.toNested.append second.toNested
  commas front starts := by
    rcases prefix_append_cases starts with inside | ⟨rest, later, same⟩
    · exact first.commas front inside
    · rcases List.eq_nil_or_concat rest with rfl | ⟨inner, last, rfl⟩
      · rw [List.append_nil] at same
        exact first.commas front (same ▸ List.prefix_rfl)
      · rw [List.concat_eq_append] at same later
        rw [← List.append_assoc] at same
        obtain ⟨rfl, ends⟩ := List.append_inj' same rfl
        cases ends
        rw [depth_append, first.even, Int.zero_add]
        exact second.commas inner later

theorem depth_of_flat {text : List Char} (flat : ∀ c ∈ text, weight c = 0) : depth text = 0 := by
  induction text with
  | nil => rfl
  | cons c rest ih =>
    rw [depth_cons, flat c List.mem_cons_self, ih fun other inside => flat other (List.mem_cons_of_mem _ inside)]
    rfl

theorem nested_of_flat {text : List Char} (flat : ∀ c ∈ text, weight c = 0) : Nested text where
  even := depth_of_flat flat
  above _ starts := Int.le_of_eq (depth_of_flat fun c inside => flat c (starts.subset inside)).symm

theorem closed_of_flat {text : List Char} (flat : ∀ c ∈ text, weight c = 0 ∧ c ≠ ',') : Closed text where
  toNested := nested_of_flat fun c inside => (flat c inside).1
  commas front starts := by
    have inside : ',' ∈ text := starts.subset (by simp)
    exact absurd rfl (flat ',' inside).2

theorem closed_of_check {text : List Char} (flat : (text.all fun c => decide (weight c = 0 ∧ c ≠ ',')) = true) :
    Closed text :=
  closed_of_flat fun c inside => of_decide_eq_true (List.all_eq_true.mp flat c inside)

theorem closed_of_wrapped {inner : List Char} {opening closing : Char} (opens : weight opening = 1)
    (closes : weight closing = -1) (nested : Nested inner) : Closed (opening :: inner ++ [closing]) := by
  have above : ∀ front, front <+: inner ++ [closing] → 0 ≤ 1 + depth front := by
    intro front starts
    rcases List.prefix_concat_iff.mp starts with rfl | inside
    · simp [nested.even, closes]
    · have := nested.above front inside
      omega
  constructor
  · constructor
    · simp [nested.even, opens, closes]
    · intro front starts
      rcases List.prefix_cons_iff.mp starts with rfl | ⟨rest, rfl, later⟩
      · exact Int.le_refl 0
      · rw [depth_cons, opens]
        exact above rest later
  · intro front starts
    cases front with
    | nil =>
      -- The first character opens a bracket, so it is no comma.
      obtain ⟨_, same⟩ := starts
      cases same
      cases opens
    | cons first rest =>
      obtain ⟨rfl, later⟩ := List.cons_prefix_cons.mp starts
      rw [depth_cons, opens]
      rcases List.prefix_concat_iff.mp later with same | inside
      · obtain ⟨_, ends⟩ := List.append_inj' same rfl
        cases ends
        cases closes
      · have := nested.above rest ((List.prefix_append rest [',']).trans inside)
        omega

theorem opening_unique {front other inner rest : List Char} (nested : Nested inner) (also : Nested rest)
    (same : front ++ '<' :: inner = other ++ '<' :: rest) : front = other ∧ inner = rest := by
  -- What stands between two such brackets would close more than it opens.
  have none_between {between inner rest : List Char} (nested : Nested inner) (also : Nested rest) :
      inner ≠ between ++ '<' :: rest := by
    rintro rfl
    have even := nested.even
    have above := nested.above between (List.prefix_append _ _)
    have one : weight '<' = 1 := rfl
    rw [depth_append, depth_cons, also.even, one] at even
    omega
  rcases List.append_eq_append_iff.mp same with ⟨between, rfl, later⟩ | ⟨between, rfl, later⟩
  · cases between with
    | nil => exact ⟨(List.append_nil front).symm, (List.cons.inj later).2⟩
    | cons first between => exact absurd (List.cons.inj later).2 (none_between nested also)
  · cases between with
    | nil => exact ⟨List.append_nil other, (List.cons.inj later).2.symm⟩
    | cons first between => exact absurd (List.cons.inj later).2 (none_between also nested)

theorem no_comma_after {text front rest : List Char} (closed : Closed text) (also : Closed front) :
    text ≠ front ++ ',' :: rest := by
  rintro rfl
  have inside := closed.commas front ⟨rest, by simp⟩
  rw [also.even] at inside
  exact Int.lt_irrefl 0 inside

theorem first_unique {text other rest more : List Char} (closed : Closed text) (also : Closed other)
    (same : text ++ ',' :: rest = other ++ ',' :: more) : text = other ∧ rest = more := by
  rcases List.append_eq_append_iff.mp same with ⟨between, rfl, later⟩ | ⟨between, rfl, later⟩
  · cases between with
    | nil => exact ⟨(List.append_nil text).symm, (List.cons.inj later).2⟩
    | cons first between =>
      obtain ⟨rfl, _⟩ := List.cons.inj later
      exact absurd rfl (no_comma_after also closed)
  · cases between with
    | nil => exact ⟨List.append_nil other, (List.cons.inj later).2.symm⟩
    | cons first between =>
      obtain ⟨rfl, _⟩ := List.cons.inj later
      exact absurd rfl (no_comma_after closed also)

/-- A part of a list that is joined by commas. -/
structure Word (text : List Char) : Prop where
  closed : Closed text
  present : text ≠ []

def joined (words : List (List Char)) : List Char := [','].intercalate words

theorem joined_cons {word next : List Char} {rest : List (List Char)} :
    joined (word :: next :: rest) = word ++ ',' :: joined (next :: rest) := by
  simp [joined, List.intercalate_cons_cons]

theorem nested_joined {words : List (List Char)} (each : ∀ word ∈ words, Word word) : Nested (joined words) := by
  induction words with
  | nil => exact nested_of_flat (by simp [joined])
  | cons word rest ih =>
    have first := (each word List.mem_cons_self).closed
    cases rest with
    | nil => simpa [joined] using first.toNested
    | cons next rest =>
      have comma : Nested [','] := nested_of_flat (List.forall_mem_singleton.mpr rfl)
      have later := ih fun other inside => each other (List.mem_cons_of_mem _ inside)
      rw [joined_cons, ← List.singleton_append]
      exact first.toNested.append (comma.append later)

theorem joined_ne_nil {word : List Char} {rest : List (List Char)} (is : Word word) : joined (word :: rest) ≠ [] := by
  cases rest with
  | nil => simpa [joined] using is.present
  | cons next rest =>
    rw [joined_cons]
    simp

/-- What is joined by commas is told by the commas outside of brackets. -/
theorem joined_injective {words others : List (List Char)} (each : ∀ word ∈ words, Word word)
    (also : ∀ word ∈ others, Word word) (same : joined words = joined others) : words = others := by
  induction words generalizing others with
  | nil =>
    cases others with
    | nil => rfl
    | cons other more => exact absurd same.symm (joined_ne_nil (also other List.mem_cons_self))
  | cons word rest ih =>
    have first := each word List.mem_cons_self
    cases others with
    | nil => exact absurd same (joined_ne_nil first)
    | cons other more =>
      have second := also other List.mem_cons_self
      cases rest with
      | nil =>
        cases more with
        | nil => simpa [joined] using same
        | cons next more =>
          rw [joined_cons] at same
          exact absurd (by simpa [joined] using same) (no_comma_after first.closed second.closed)
      | cons next rest =>
        rw [joined_cons] at same
        cases more with
        | nil => exact absurd (by simpa [joined] using same.symm) (no_comma_after second.closed first.closed)
        | cons nextOther more =>
          rw [joined_cons] at same
          obtain ⟨rfl, later⟩ := first_unique first.closed second.closed same
          rw [ih (fun other inside => each other (List.mem_cons_of_mem _ inside))
            (fun other inside => also other (List.mem_cons_of_mem _ inside)) later]

end Brackets

namespace Reference

mutual

def shape : Reference → Reference
  | .absent => .absent
  | .named id => .named id
  | .generic definition _ arguments _ => .generic (shape definition) none (shapes arguments) .null
  | .array element _ => .array (shape element) .null
  | .pointer element _ => .pointer (shape element) .null
  | .tuple _ elements => .tuple none (shapes elements)
  | .functionPointer returnType _ parameters => .functionPointer (shape returnType) none (shapes parameters)
  | .defective defect => .defective defect
  | .endless => .endless

def shapes : List Reference → List Reference
  | [] => []
  | reference :: rest => shape reference :: shapes rest

end

mutual

theorem name?_shape (reference : Reference) : reference.shape.name? = reference.name? := by
  match reference with
  | .generic definition _ arguments _ =>
    rw [shape, name?, name?, name?_shape definition, names?_shapes arguments]
  | .array element _ => rw [shape, name?, name?, name?_shape element]
  | .pointer element _ => rw [shape, name?, name?, name?_shape element]
  | .tuple _ elements => rw [shape, name?, name?, names?_shapes elements]
  | .functionPointer returnType _ parameters =>
    rw [shape, name?, name?, name?_shape returnType, names?_shapes parameters]
  | .absent => rfl
  | .named _ => rfl
  | .defective _ => rfl
  | .endless => rfl

theorem names?_shapes (references : List Reference) : names? (shapes references) = names? references := by
  match references with
  | [] => rfl
  | reference :: rest => rw [shapes, names?, names?, name?_shape reference, names?_shapes rest]

end

def marks : List Char := ['[', ']', '*', '(', ')', '<', '>', ',']

/-- An id that no built type has, nor a part of its id that stands for no type. -/
structure PlainId (id : String) : Prop where
  unmarked : ∀ c ∈ id.toList, c ∉ marks
  noDelegate : id ≠ "delegate"
  noVoid : id ≠ "void"

/-- A reference whose ids are plain, and whose parts have ids unless they are absent. -/
structure Legible (reference : Reference) : Prop where
  ids : ∀ id, reference.Inside (.named id) → PlainId id ∧ id ≠ ""
  parts : ∀ inner, reference.Inside inner → inner = .absent ∨ ∃ id, inner.name? = some id

theorem Legible.part {reference part : Reference} (legible : Legible reference) (listed : part ∈ reference.parts) :
    Legible part where
  ids id inside := legible.ids id (.trans (.part .self listed) inside)
  parts inner inside := legible.parts inner (.trans (.part .self listed) inside)

theorem toList_generic (definition : String) (ids : List String) :
    (definition ++ "<" ++ ",".intercalate ids ++ ">").toList =
      definition.toList ++ '<' :: joined (ids.map String.toList) ++ ['>'] := by
  simp [joined, String.toList_intercalate]

theorem toList_tuple (ids : List String) :
    ("(" ++ ",".intercalate ids ++ ")").toList = '(' :: joined (ids.map String.toList) ++ [')'] := by
  simp [joined, String.toList_intercalate]

theorem toList_functionPointer (ids : List String) : ("delegate*<" ++ ",".intercalate ids ++ ">").toList =
    "delegate*".toList ++ '<' :: joined (ids.map String.toList) ++ ['>'] := by
  simp [joined, String.toList_intercalate]

theorem closed_of_unmarked {text : List Char} (unmarked : ∀ c ∈ text, c ∉ marks) : Closed text := by
  refine closed_of_flat fun c inside => ?_
  have apart := unmarked c inside
  simp only [marks, List.mem_cons, List.not_mem_nil, or_false, not_or] at apart
  simp [weight, apart]

theorem name?_generic {definition : Reference} {instead : Option String} {arguments : List Reference} {source : Document}
    {id : String} : (generic definition instead arguments source).name? = some id ↔ ∃ first ids,
      definition.name? = some first ∧ names? arguments = some ids ∧ first ++ "<" ++ ",".intercalate ids ++ ">" = id := by
  rw [name?]
  cases definition.name? with
  | none => simp
  | some first => cases names? arguments <;> simp

theorem names?_cons {reference : Reference} {rest : List Reference} {ids : List String} :
    names? (reference :: rest) = some ids ↔
      ∃ id others, reference.name? = some id ∧ names? rest = some others ∧ id :: others = ids := by
  rw [names?]
  cases reference.name? with
  | none => simp
  | some id => cases names? rest <;> simp

theorem words_concat {ids : List String} {returned : Option String} (words : ∀ word ∈ ids.map String.toList, Word word)
    (last : ∀ id, returned = some id → Word id.toList) :
    ∀ word ∈ (ids ++ [returned.getD "void"]).map String.toList, Word word := by
  rw [List.map_append, List.forall_mem_append]
  refine ⟨words, List.forall_mem_singleton.mpr ?_⟩
  cases returned with
  | none => exact ⟨closed_of_check (by decide), by decide⟩
  | some id => exact last id rfl

mutual

/-- An id is a word: its brackets match, and its commas are in brackets. -/
theorem word_of_name {reference : Reference} {id : String} (legible : Legible reference)
    (named : reference.name? = some id) : Word id.toList := by
  match reference with
  | .named other =>
    cases named
    obtain ⟨plain, present⟩ := legible.ids id .self
    exact ⟨closed_of_unmarked plain.unmarked, by simpa using present⟩
  | .generic definition _ arguments _ =>
    obtain ⟨first, ids, defined, filled, rfl⟩ := name?_generic.mp named
    have head := word_of_name (legible.part List.mem_cons_self) defined
    have words := words_of_names (fun _ listed => legible.part (List.mem_cons_of_mem _ listed)) filled
    rw [toList_generic, List.append_assoc]
    exact ⟨head.closed.append (closed_of_wrapped rfl rfl (nested_joined words)), by simp⟩
  | .array element _ =>
    obtain ⟨inner, called, rfl⟩ := Option.map_eq_some_iff.mp named
    have word := word_of_name (legible.part List.mem_cons_self) called
    rw [String.toList_append]
    exact ⟨word.closed.append (closed_of_check (by decide)), by simp⟩
  | .pointer element _ =>
    obtain ⟨inner, called, rfl⟩ := Option.map_eq_some_iff.mp named
    have word := word_of_name (legible.part List.mem_cons_self) called
    rw [String.toList_append]
    exact ⟨word.closed.append (closed_of_check (by decide)), by simp⟩
  | .tuple _ elements =>
    obtain ⟨ids, filled, rfl⟩ := Option.map_eq_some_iff.mp named
    have words := words_of_names (fun _ listed => legible.part listed) filled
    rw [toList_tuple]
    exact ⟨closed_of_wrapped rfl rfl (nested_joined words), by simp⟩
  | .functionPointer returnType _ parameters =>
    obtain ⟨ids, filled, rfl⟩ := Option.map_eq_some_iff.mp named
    have words := words_of_names (fun _ listed => legible.part (List.mem_cons_of_mem _ listed)) filled
    have all := words_concat words fun id given => word_of_name (legible.part List.mem_cons_self) given
    rw [toList_functionPointer, List.append_assoc]
    exact ⟨(closed_of_check (by decide)).append (closed_of_wrapped rfl rfl (nested_joined all)), by simp⟩
  | .absent => cases named
  | .defective _ => cases named
  | .endless => cases named

theorem words_of_names {references : List Reference} {ids : List String}
    (legible : ∀ reference ∈ references, Legible reference) (named : names? references = some ids) :
    ∀ word ∈ ids.map String.toList, Word word := by
  match references with
  | [] =>
    cases named
    simp
  | reference :: rest =>
    obtain ⟨id, others, first, later, rfl⟩ := names?_cons.mp named
    have word := word_of_name (legible reference List.mem_cons_self) first
    have words := words_of_names (fun _ listed => legible _ (List.mem_cons_of_mem _ listed)) later
    exact List.forall_mem_cons.mpr ⟨word, words⟩

end

theorem words_of_signature {returnType : Reference} {instead : Option String} {parameters : List Reference}
    {ids : List String} (legible : Legible (.functionPointer returnType instead parameters))
    (filled : names? parameters = some ids) :
    ∀ word ∈ (ids ++ [returnType.name?.getD "void"]).map String.toList, Word word :=
  words_concat (words_of_names (fun _ listed => legible.part (List.mem_cons_of_mem _ listed)) filled)
    fun _ given => word_of_name (legible.part List.mem_cons_self) given

def ending : Reference → Option Char
  | .array _ _ => some ']'
  | .pointer _ _ => some '*'
  | .tuple _ _ => some ')'
  | .generic _ _ _ _ => some '>'
  | .functionPointer _ _ _ => some '>'
  | _ => none

theorem ending_of_plain {id : String} (plain : PlainId id) : id.toList.getLast?.filter (· ∈ marks) = none := by
  rw [Option.filter_eq_none_iff]
  intro c last
  simpa using plain.unmarked c (List.mem_of_getLast? last)

theorem ending_of_name {reference : Reference} {id : String} (legible : Legible reference)
    (named : reference.name? = some id) : id.toList.getLast?.filter (· ∈ marks) = reference.ending := by
  cases reference with
  | named other =>
    cases named
    exact ending_of_plain (legible.ids id .self).1
  | generic definition _ arguments _ =>
    obtain ⟨first, ids, _, _, rfl⟩ := name?_generic.mp named
    rw [toList_generic, List.getLast?_concat]
    rfl
  | array element _ =>
    obtain ⟨inner, _, rfl⟩ := Option.map_eq_some_iff.mp named
    rw [String.toList_append, show "[]".toList = ['['] ++ [']'] from rfl, ← List.append_assoc, List.getLast?_concat]
    rfl
  | pointer element _ =>
    obtain ⟨inner, _, rfl⟩ := Option.map_eq_some_iff.mp named
    rw [String.toList_append, show "*".toList = ['*'] from rfl, List.getLast?_concat]
    rfl
  | tuple _ elements =>
    obtain ⟨ids, _, rfl⟩ := Option.map_eq_some_iff.mp named
    rw [toList_tuple, List.getLast?_concat]
    rfl
  | functionPointer returnType _ parameters =>
    obtain ⟨ids, _, rfl⟩ := Option.map_eq_some_iff.mp named
    rw [toList_functionPointer, List.getLast?_concat]
    rfl
  | absent => cases named
  | defective _ => cases named
  | endless => cases named

theorem eq_named_of_ending {reference : Reference} {id : String} (ends : reference.ending = none)
    (named : reference.name? = some id) : reference = .named id := by
  cases reference with
  | named other => rw [Option.some.inj named]
  | absent => cases named
  | defective _ => cases named
  | endless => cases named
  | _ => cases ends

theorem eq_named_of_plain {reference : Reference} {id : String} (legible : Legible reference)
    (named : reference.name? = some id) (plain : PlainId id) : reference = .named id :=
  eq_named_of_ending ((ending_of_name legible named).symm.trans (ending_of_plain plain)) named

theorem eq_array_of_ending {reference : Reference} (ends : reference.ending = some ']') :
    ∃ element source, reference = .array element source := by
  cases reference with
  | array element source => exact ⟨element, source, rfl⟩
  | _ => cases ends

theorem eq_pointer_of_ending {reference : Reference} (ends : reference.ending = some '*') :
    ∃ element source, reference = .pointer element source := by
  cases reference with
  | pointer element source => exact ⟨element, source, rfl⟩
  | _ => cases ends

theorem eq_tuple_of_ending {reference : Reference} (ends : reference.ending = some ')') :
    ∃ instead elements, reference = .tuple instead elements := by
  cases reference with
  | tuple instead elements => exact ⟨instead, elements, rfl⟩
  | _ => cases ends

theorem eq_angled_of_ending {reference : Reference} (ends : reference.ending = some '>') :
    (∃ definition instead arguments source, reference = .generic definition instead arguments source)
      ∨ ∃ returnType instead parameters, reference = .functionPointer returnType instead parameters := by
  cases reference with
  | generic definition instead arguments source => exact Or.inl ⟨definition, instead, arguments, source, rfl⟩
  | functionPointer returnType instead parameters => exact Or.inr ⟨returnType, instead, parameters, rfl⟩
  | _ => cases ends

theorem plain_of_name {reference : Reference} {id : String} (legible : Legible reference)
    (named : reference.name? = some id) (unmarked : id.toList.getLast?.filter (· ∈ marks) = none) : PlainId id := by
  rw [ending_of_name legible named] at unmarked
  have same := eq_named_of_ending unmarked named
  exact (legible.ids id (same ▸ .self)).1

theorem name_ne_delegate {reference : Reference} {id : String} (legible : Legible reference)
    (named : reference.name? = some id) : id ≠ "delegate*" := by
  rintro rfl
  have ends : reference.ending = some '*' := (ending_of_name legible named).symm
  obtain ⟨element, source, rfl⟩ := eq_pointer_of_ending ends
  obtain ⟨inner, called, same⟩ := Option.map_eq_some_iff.mp named
  obtain rfl : inner = "delegate" := (String.append_left_inj "*").mp same
  exact (plain_of_name (legible.part List.mem_cons_self) called rfl).noDelegate rfl

theorem name_ne_void {reference : Reference} {id : String} (legible : Legible reference)
    (named : reference.name? = some id) : id ≠ "void" := by
  rintro rfl
  exact (plain_of_name legible named rfl).noVoid rfl

theorem ids_of_joined {ids more : List String} (words : ∀ word ∈ ids.map String.toList, Word word)
    (also : ∀ word ∈ more.map String.toList, Word word)
    (same : joined (ids.map String.toList) = joined (more.map String.toList)) : ids = more :=
  (List.map_inj_right fun _ _ => String.toList_injective).mp (joined_injective words also same)

theorem angled_unique {front other : List Char} {ids more : List String}
    (words : ∀ word ∈ ids.map String.toList, Word word) (also : ∀ word ∈ more.map String.toList, Word word)
    (same : front ++ '<' :: joined (ids.map String.toList) ++ ['>'] =
      other ++ '<' :: joined (more.map String.toList) ++ ['>']) : front = other ∧ ids = more := by
  obtain ⟨inside, _⟩ := List.append_inj' same rfl
  obtain ⟨rfl, filled⟩ := opening_unique (nested_joined words) (nested_joined also) inside
  exact ⟨rfl, ids_of_joined words also filled⟩

theorem generic_ne_functionPointer {definition returnType : Reference} {instead other : Option String}
    {arguments parameters : List Reference} {source : Document} {id : String}
    (legible : Legible (.generic definition instead arguments source))
    (also : Legible (.functionPointer returnType other parameters))
    (named : (generic definition instead arguments source).name? = some id) :
    (functionPointer returnType other parameters).name? ≠ some id := by
  intro called
  obtain ⟨head, ids, defined, filled, rfl⟩ := name?_generic.mp named
  obtain ⟨more, otherFilled, same⟩ := Option.map_eq_some_iff.mp called
  rw [← String.toList_inj, toList_functionPointer, toList_generic] at same
  obtain ⟨headSame, _⟩ := angled_unique (words_of_signature also otherFilled)
    (words_of_names (fun _ listed => legible.part (List.mem_cons_of_mem _ listed)) filled) same
  exact name_ne_delegate (legible.part List.mem_cons_self) defined (String.toList_injective headSame).symm

theorem returns_of_written {first second : Reference} (legible : Legible first) (also : Legible second)
    (written : second.name?.getD "void" = first.name?.getD "void") :
    (first = .absent ∧ second = .absent) ∨ ∃ id, first.name? = some id ∧ second.name? = some id := by
  rcases legible.parts _ .self with rfl | ⟨id, given⟩
  · rcases also.parts _ .self with rfl | ⟨other, otherGiven⟩
    · exact Or.inl ⟨rfl, rfl⟩
    · rw [otherGiven] at written
      exact absurd written (name_ne_void also otherGiven)
  · rcases also.parts _ .self with rfl | ⟨other, otherGiven⟩
    · rw [given] at written
      exact absurd written.symm (name_ne_void legible given)
    · rw [given, otherGiven] at written
      cases written
      exact Or.inr ⟨id, given, otherGiven⟩

mutual

/-- References with one id are built alike. -/
theorem shape_of_name {first second : Reference} {id : String} (legible : Legible first) (also : Legible second)
    (named : first.name? = some id) (called : second.name? = some id) : first.shape = second.shape := by
  -- The end of an id tells the outermost form of a type, and the rest is taken apart into the ids of its parts.
  have ends : second.ending = first.ending := (ending_of_name also called).symm.trans (ending_of_name legible named)
  match first with
  | .named other =>
    cases named
    rw [eq_named_of_ending ends called]
  | .array element _ =>
    obtain ⟨otherElement, _, rfl⟩ := eq_array_of_ending ends
    obtain ⟨inner, one, rfl⟩ := Option.map_eq_some_iff.mp named
    obtain ⟨text, two, same⟩ := Option.map_eq_some_iff.mp called
    obtain rfl := (String.append_left_inj "[]").mp same
    rw [shape, shape, shape_of_name (legible.part List.mem_cons_self) (also.part List.mem_cons_self) one two]
  | .pointer element _ =>
    obtain ⟨otherElement, _, rfl⟩ := eq_pointer_of_ending ends
    obtain ⟨inner, one, rfl⟩ := Option.map_eq_some_iff.mp named
    obtain ⟨text, two, same⟩ := Option.map_eq_some_iff.mp called
    obtain rfl := (String.append_left_inj "*").mp same
    rw [shape, shape, shape_of_name (legible.part List.mem_cons_self) (also.part List.mem_cons_self) one two]
  | .tuple _ elements =>
    obtain ⟨_, otherElements, rfl⟩ := eq_tuple_of_ending ends
    obtain ⟨ids, filled, rfl⟩ := Option.map_eq_some_iff.mp named
    obtain ⟨more, otherFilled, same⟩ := Option.map_eq_some_iff.mp called
    have inside : ∀ element ∈ elements, Legible element := fun _ listed => legible.part listed
    have otherInside : ∀ element ∈ otherElements, Legible element := fun _ listed => also.part listed
    rw [← String.toList_inj, toList_tuple, toList_tuple] at same
    obtain ⟨joinedSame, _⟩ := List.append_inj' (List.cons.inj same).2 rfl
    obtain rfl := ids_of_joined (words_of_names otherInside otherFilled) (words_of_names inside filled) joinedSame
    rw [shape, shape, shapes_of_names inside otherInside filled otherFilled]
  | .generic definition _ arguments _ =>
    have inside : ∀ argument ∈ arguments, Legible argument := fun _ listed => legible.part (List.mem_cons_of_mem _ listed)
    rcases eq_angled_of_ending ends with ⟨otherDefinition, _, otherArguments, _, rfl⟩ | ⟨returnType, _, parameters, rfl⟩
    · obtain ⟨head, ids, defined, filled, rfl⟩ := name?_generic.mp named
      have otherInside : ∀ argument ∈ otherArguments, Legible argument :=
        fun _ listed => also.part (List.mem_cons_of_mem _ listed)
      obtain ⟨otherHead, more, otherDefined, otherFilled, same⟩ := name?_generic.mp called
      rw [← String.toList_inj, toList_generic, toList_generic] at same
      obtain ⟨headSame, rfl⟩ := angled_unique (words_of_names otherInside otherFilled) (words_of_names inside filled) same
      obtain rfl := String.toList_injective headSame
      rw [shape, shape, shape_of_name (legible.part List.mem_cons_self) (also.part List.mem_cons_self) defined otherDefined,
        shapes_of_names inside otherInside filled otherFilled]
    · exact absurd called (generic_ne_functionPointer legible also named)
  | .functionPointer returnType _ parameters =>
    rcases eq_angled_of_ending ends with ⟨otherDefinition, _, otherArguments, _, rfl⟩ | ⟨otherReturn, _, others, rfl⟩
    · exact absurd named (generic_ne_functionPointer also legible called)
    · obtain ⟨ids, filled, rfl⟩ := Option.map_eq_some_iff.mp named
      obtain ⟨more, otherFilled, same⟩ := Option.map_eq_some_iff.mp called
      rw [← String.toList_inj, toList_functionPointer, toList_functionPointer] at same
      obtain ⟨_, listed⟩ := angled_unique (words_of_signature also otherFilled) (words_of_signature legible filled) same
      obtain ⟨rfl, last⟩ := List.append_inj' listed rfl
      have returns : Legible returnType := legible.part List.mem_cons_self
      have otherReturns : Legible otherReturn := also.part List.mem_cons_self
      have same : returnType.shape = otherReturn.shape := by
        rcases returns_of_written returns otherReturns (List.cons.inj last).1 with ⟨rfl, rfl⟩ | ⟨id, given, otherGiven⟩
        · rfl
        · exact shape_of_name returns otherReturns given otherGiven
      rw [shape, shape, same, shapes_of_names (fun _ listed => legible.part (List.mem_cons_of_mem _ listed))
        (fun _ listed => also.part (List.mem_cons_of_mem _ listed)) filled otherFilled]
  | .absent => cases named
  | .defective _ => cases named
  | .endless => cases named

theorem shapes_of_names {first second : List Reference} {ids : List String}
    (legible : ∀ reference ∈ first, Legible reference) (also : ∀ reference ∈ second, Legible reference)
    (named : names? first = some ids) (called : names? second = some ids) : shapes first = shapes second := by
  match first with
  | [] =>
    cases named
    cases second with
    | nil => rfl
    | cons reference rest =>
      obtain ⟨_, _, _, _, impossible⟩ := names?_cons.mp called
      cases impossible
  | reference :: rest =>
    obtain ⟨id, others, head, tail, rfl⟩ := names?_cons.mp named
    cases second with
    | nil => cases called
    | cons other more =>
      obtain ⟨_, _, otherHead, otherTail, same⟩ := names?_cons.mp called
      cases same
      rw [shapes, shapes, shape_of_name (legible _ List.mem_cons_self) (also _ List.mem_cons_self) head otherHead,
        shapes_of_names (fun _ listed => legible _ (List.mem_cons_of_mem _ listed))
          (fun _ listed => also _ (List.mem_cons_of_mem _ listed)) tail otherTail]

end

end Reference

end DeclGraph.Manifest
