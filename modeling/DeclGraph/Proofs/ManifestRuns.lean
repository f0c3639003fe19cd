import DeclGraph.Proofs.ManifestSteps

/-!
Runs of the operations that read a manifest. Each operation that succeeds has taken steps of reading, and what it gives
is what the manifest says there.
-/

namespace DeclGraph.Manifest.Load

section Running

variable {α β : Type} {before after : Loading}

theorem bind_run {first : Load α} {next : α → Load β} {result : β} :
    (first >>= next).run before = .ok (result, after) ↔
      ∃ value middle, first.run before = .ok (value, middle) ∧ (next value).run middle = .ok (result, after) := by
  rw [StateT.run_bind, bind_eq_ok]
  constructor
  · rintro ⟨⟨value, middle⟩, ran, rest⟩
    exact ⟨value, middle, ran, rest⟩
  · rintro ⟨value, middle, ran, rest⟩
    exact ⟨⟨value, middle⟩, ran, rest⟩

theorem ok_pair {value result : α} :
    (Except.ok (value, before) : Except Fault (α × Loading)) = .ok (result, after) ↔ value = result ∧ before = after := by
  rw [Except.ok.injEq, Prod.mk.injEq]

theorem pure_run {value result : α} :
    (pure value : Load α).run before = .ok (result, after) ↔ value = result ∧ before = after := ok_pair

theorem map_run {f : α → β} {op : Load α} {result : β} :
    (f <$> op).run before = .ok (result, after) ↔ ∃ value, op.run before = .ok (value, after) ∧ f value = result := by
  rw [map_eq_pure_bind, bind_run]
  simp only [pure_run]
  constructor
  · rintro ⟨value, middle, ran, rfl, rfl⟩
    exact ⟨value, ran, rfl⟩
  · rintro ⟨value, ran, rfl⟩
    exact ⟨value, after, ran, rfl, rfl⟩

theorem throw_run {fault : Fault} {result : α} : ¬ (throw fault : Load α).run before = .ok (result, after) := by
  intro impossible
  cases impossible

theorem refuse_run {defect : Defect} {result : α} : ¬ (refuse defect : Load α).run before = .ok (result, after) := by
  intro ran
  obtain ⟨_, _, _, ran⟩ := bind_run.mp ran
  obtain ⟨_, _, _, ran⟩ := bind_run.mp ran
  exact throw_run ran

theorem find?_run {key : Key} {result : Option TypeRef} :
    (find? key).run before = .ok (result, after) ↔ before.ids.lookup key = result ∧ before = after := ok_pair

theorem enter_run {key : Key} {symbol : TypeSymbol} {ref : TypeRef} : (enter key symbol).run before = .ok (ref, after) ↔
    before.table.types.size = ref ∧ before.entered key symbol = after := ok_pair

theorem enterMethod_run {symbol : MethodSymbol} {ref : MethodRef} :
    (enterMethod symbol).run before = .ok (ref, after) ↔
      before.table.methods.size = ref ∧ before.joined symbol = after := ok_pair

theorem makeUp_run {start name : String} : (makeUp start).run before = .ok (name, after) ↔
    start ++ "#" ++ toString (before.madeUp + 1) = name ∧ { before with madeUp := before.madeUp + 1 } = after := ok_pair

theorem update_run {ref : TypeRef} {change : TypeSymbol → TypeSymbol} {result : Unit} :
    (update ref change).run before = .ok (result, after) ↔ before.changed ref change = after :=
  ok_pair.trans ⟨fun ⟨_, same⟩ => same, fun same => ⟨rfl, same⟩⟩

theorem keyOf_run {id : Document} {key : Key} :
    (keyOf id).run before = .ok (key, after) ↔ id.key? = some key ∧ before = after := by
  unfold keyOf
  cases id.key? with
  | none => exact ⟨fun ran => absurd ran throw_run, fun ⟨impossible, _⟩ => nomatch impossible⟩
  | some found => rw [pure_run, Option.some.injEq]

theorem known_run {id : Document} {ref : TypeRef} : (known id).run before = .ok (ref, after) ↔
    (∃ key, id.key? = some key ∧ before.ids.lookup key = some ref) ∧ before = after := by
  unfold known
  simp only [bind_run, keyOf_run, find?_run]
  constructor
  · rintro ⟨key, _, ⟨keyed, rfl⟩, _, _, ⟨rfl, rfl⟩, ran⟩
    split at ran
    · next found =>
      obtain ⟨rfl, rfl⟩ := pure_run.mp ran
      exact ⟨⟨key, keyed, found⟩, rfl⟩
    · exact absurd ran throw_run
  · rintro ⟨⟨key, keyed, found⟩, rfl⟩
    refine ⟨key, before, ⟨keyed, rfl⟩, _, before, ⟨rfl, rfl⟩, ?_⟩
    rw [found]
    rfl

theorem symbolAt_run {ref : TypeRef} {symbol : TypeSymbol} :
    (symbolAt ref).run before = .ok (symbol, after) ↔ before.table.types[ref]? = some symbol ∧ before = after := by
  unfold symbolAt
  rw [bind_run]
  constructor
  · rintro ⟨_, _, got, ran⟩
    cases got
    split at ran
    · next found =>
      obtain ⟨rfl, rfl⟩ := pure_run.mp ran
      exact ⟨found, rfl⟩
    · exact absurd ran throw_run
  · rintro ⟨found, rfl⟩
    refine ⟨before, before, rfl, ?_⟩
    rw [found]
    rfl

theorem checkListed_run {instead : Option String} {result : Unit} :
    (checkListed instead).run before = .ok (result, after) ↔ instead = none ∧ before = after := by
  cases instead with
  | none => exact pure_run.trans ⟨fun ⟨_, same⟩ => ⟨rfl, same⟩, fun ⟨_, same⟩ => ⟨rfl, same⟩⟩
  | some kind => exact ⟨fun ran => absurd ran throw_run, fun ⟨impossible, _⟩ => nomatch impossible⟩

theorem loop_run {value : Document} {elements : List Document} :
    (loop value).run before = .ok (elements, after) ↔
      looped value = elements ∧ (value.isSet = true → value.elements?.isSome = true) ∧ before = after := by
  unfold loop looped
  cases value.isSet with
  | false => exact pure_run.trans (by simp)
  | true =>
    cases value.elements? with
    | none => exact ⟨fun ran => absurd ran throw_run, by simp⟩
    | some found => exact pure_run.trans (by simp)

end Running

section Resolving

variable {host : Host} {types : List Document} {before after loading : Loading}

theorem key?_eq_text {id : Document} {text : String} : id.key? = some (.text text) ↔ id = .text text := by
  constructor
  · intro keyed
    cases id with
    | scalar value =>
      cases value with
      | text given => simpa [Document.key?, Scalar.key] using keyed
      | real value =>
        simp only [Document.key?, Scalar.key, Option.some.injEq] at keyed
        split at keyed <;> cases keyed
      | moment value =>
        simp only [Document.key?, Scalar.key, Option.some.injEq] at keyed
        split at keyed <;> cases keyed
      | _ => simp [Document.key?, Scalar.key] at keyed
    | _ => simp [Document.key?] at keyed
  · rintro rfl
    rfl

theorem idOf_run (good : Good host types before) {reference : Reference} {link : Option TypeRef} {id : String}
    (stands : Stands before.ids reference link) :
    (idOf link).run before = .ok (id, after) ↔ reference.name? = some id ∧ before = after := by
  cases stands with
  | absent => exact ⟨fun ran => absurd ran throw_run, fun ⟨impossible, _⟩ => nomatch impossible⟩
  | known named found present =>
    obtain ⟨symbol, there, keyed⟩ := good.found found
    have same := key?_eq_text.mp keyed
    constructor
    · intro ran
      obtain ⟨other, _, asked, ran⟩ := bind_run.mp ran
      obtain ⟨listed, rfl⟩ := symbolAt_run.mp asked
      cases there.symm.trans listed
      rw [same] at ran
      obtain ⟨rfl, rfl⟩ := pure_run.mp ran
      exact ⟨named, rfl⟩
    · rintro ⟨also, rfl⟩
      cases named.symm.trans also
      refine bind_run.mpr ⟨symbol, before, symbolAt_run.mpr ⟨there, rfl⟩, ?_⟩
      rw [same]
      rfl

theorem idsOf_run (good : Good host types before) {references : List Reference} {links : List (Option TypeRef)}
    {ids : List String} (stand : List.Forall₂ (Stands before.ids) references links) :
    (idsOf links).run before = .ok (ids, after) ↔ Reference.names? references = some ids ∧ before = after := by
  induction stand generalizing ids after with
  | nil => rw [idsOf, Reference.names?, pure_run, Option.some.injEq]
  | cons head _ ih =>
    simp only [idsOf, bind_run, pure_run, idOf_run good head, Reference.names?]
    constructor
    · rintro ⟨id, _, ⟨named, rfl⟩, others, _, ran, rfl, rfl⟩
      obtain ⟨rest, rfl⟩ := ih.mp ran
      rw [named, rest]
      exact ⟨rfl, rfl⟩
    · rintro ⟨all, rfl⟩
      split at all
      · next id others named rest =>
        cases all
        exact ⟨id, before, ⟨named, rfl⟩, others, before, ih.mpr ⟨rest, rfl⟩, rfl, rfl⟩
      · cases all

theorem library_steps {id : String} {ref : TypeRef} (within : RefersWithin types (.named id))
    (ran : (library id).run before = .ok (ref, after)) :
    Steps host types before after ∧ after.ids.lookup (.text id) = some ref := by
  obtain ⟨_, _, found, ran⟩ := bind_run.mp ran
  obtain ⟨rfl, rfl⟩ := find?_run.mp found
  split at ran
  · next known =>
    obtain ⟨rfl, rfl⟩ := pure_run.mp ran
    exact ⟨.refl, known⟩
  · next new =>
    split at ran
    · exact absurd ran fun ran => by
        obtain ⟨_, _, ran, _⟩ := bind_run.mp ran
        exact throw_run ran
    · next present =>
      obtain ⟨rfl, rfl⟩ := enter_run.mp ran
      refine ⟨.single (.entered new (.library within present)), ?_⟩
      rw [lookup_entered, new]
      simp

theorem built_steps {id : String} {symbol : TypeSymbol} {ref : TypeRef}
    (origin : Origin host types before (.text id) { symbol with id := .text id, name := .text id })
    (ran : (built id symbol).run before = .ok (ref, after)) :
    Steps host types before after ∧ after.ids.lookup (.text id) = some ref := by
  obtain ⟨_, _, found, ran⟩ := bind_run.mp ran
  obtain ⟨rfl, rfl⟩ := find?_run.mp found
  split at ran
  · next known =>
    obtain ⟨rfl, rfl⟩ := pure_run.mp ran
    exact ⟨.refl, known⟩
  · next new =>
    obtain ⟨rfl, rfl⟩ := enter_run.mp ran
    refine ⟨.single (.entered new origin), ?_⟩
    rw [lookup_entered, new]
    simp

theorem present_of_stand {ids : Ids} {references : List Reference} {links : List (Option TypeRef)}
    (stand : List.Forall₂ (Stands ids) references links) : ∀ reference ∈ references, Present ids reference := by
  intro reference among
  obtain ⟨_, _, stands⟩ := exists_of_mem_left stand among
  exact stands.present

theorem built_stands {outer : Reference} {id : String} {symbol : TypeSymbol} {ref : TypeRef} (within : RefersWithin types outer)
    (whole : outer.name? = some id) (present : id ≠ "")
    (shaped : Built before id outer { symbol with id := .text id, name := .text id })
    (parts : ∀ part ∈ outer.parts, Present before.ids part)
    (ran : (built id symbol).run before = .ok (ref, after)) :
    Steps host types before after ∧ Stands after.ids outer (some ref) := by
  obtain ⟨steps, found⟩ := built_steps (.built within whole present shaped) ran
  exact ⟨steps, .known whole found (present_of_parts whole found fun part among =>
    (parts part among).grows (grows_of_steps steps))⟩

theorem wrapped_run {element link : Option TypeRef} {kind : TypeKind} {ending : String} {source : Document} :
    (wrapped element kind ending source).run before = .ok (link, after) ↔ ∃ target id middle ref, element = some target
      ∧ (idOf (some target)).run before = .ok (id, middle)
      ∧ (built (id ++ ending) { id := .null, name := .null, kind, element := some target }).run middle = .ok (ref, after)
      ∧ some ref = link := by
  cases element with
  | none =>
    constructor
    · exact fun ran => absurd ran refuse_run
    · rintro ⟨_, _, _, _, ⟨⟩, _⟩
  | some target =>
    rw [wrapped, bind_run]
    constructor
    · rintro ⟨id, middle, asked, ran⟩
      obtain ⟨ref, made, same⟩ := map_run.mp ran
      exact ⟨target, id, middle, ref, rfl, asked, made, same⟩
    · rintro ⟨_, id, middle, ref, ⟨⟩, asked, made, same⟩
      exact ⟨id, middle, asked, map_run.mpr ⟨ref, made, same⟩⟩

def resultOf : Option TypeRef → Load String
  | some ref => idOf (some ref)
  | none => pure "void"

/-- The symbol of a function pointer is made with a signature of its own. -/
def signed (returned : Option TypeRef) (links : List (Option TypeRef)) (id : String) : Load (Option TypeRef) := do
  let name ← makeUp "signature"
  let signature ← enterMethod
    { id := .text name, name := .text name, returnType := returned
      parameters := links.map fun type => ⟨type, .null, none⟩ }
  some <$> built id { id := .null, name := .null, kind := .functionPointer, signature := some signature }

theorem resultOf_run (good : Good host types before) {reference : Reference} {link : Option TypeRef} {last : String}
    (stands : Stands before.ids reference link) :
    (resultOf link).run before = .ok (last, after) ↔ reference.name?.getD "void" = last ∧ before = after := by
  cases stands with
  | absent => exact pure_run
  | known named found present =>
    rw [resultOf, idOf_run good (.known named found present), named, Option.some.injEq, Option.getD_some]

theorem resolve_functionPointer (returnType : Reference) (instead : Option String) (parameters : List Reference) :
    resolve (.functionPointer returnType instead parameters) = (do
      let returned ← resolve returnType
      checkListed instead
      let links ← resolveAll parameters
      let ids ← idsOf links
      let last ← resultOf returned
      signed returned links ("delegate*<" ++ ",".intercalate (ids ++ [last]) ++ ">")) := by
  rw [resolve]
  refine bind_congr fun returned => bind_congr fun _ => bind_congr fun links => bind_congr fun ids => ?_
  cases returned with
  | none => rfl
  | some ref => rfl

/-- How a reference is resolved: first its parts are, and what is built from them gets its id from theirs. -/
inductive Resolution : Reference → Loading → Option TypeRef → Loading → Prop
  | absent (loading : Loading) : Resolution .absent loading none loading
  | named {id : String} {ref : TypeRef} {before after : Loading} (interned : (library id).run before = .ok (ref, after)) :
      Resolution (.named id) before (some ref) after
  | generic {definition : Reference} {arguments : List Reference} {source : Document} {target ref : TypeRef}
      {links : List (Option TypeRef)} {id : String} {ids : List String} {before middle later second third after : Loading}
      (head : (resolve definition).run before = .ok (some target, middle))
      (tail : (resolveAll arguments).run middle = .ok (links, later))
      (named : (idOf (some target)).run later = .ok (id, second)) (others : (idsOf links).run second = .ok (ids, third))
      (made : (built (id ++ "<" ++ ",".intercalate ids ++ ">")
        { id := .null, name := .null, originalDefinition := some target, typeArguments := links }).run third =
          .ok (ref, after)) :
      Resolution (.generic definition none arguments source) before (some ref) after
  | array {element : Reference} {source : Document} {target ref : TypeRef} {id : String} {before middle later after : Loading}
      (inner : (resolve element).run before = .ok (some target, middle))
      (named : (idOf (some target)).run middle = .ok (id, later))
      (made : (built (id ++ "[]") { id := .null, name := .null, kind := .array, element := some target }).run later =
        .ok (ref, after)) :
      Resolution (.array element source) before (some ref) after
  | pointer {element : Reference} {source : Document} {target ref : TypeRef} {id : String}
      {before middle later after : Loading} (inner : (resolve element).run before = .ok (some target, middle))
      (named : (idOf (some target)).run middle = .ok (id, later))
      (made : (built (id ++ "*") { id := .null, name := .null, kind := .pointer, element := some target }).run later =
        .ok (ref, after)) :
      Resolution (.pointer element source) before (some ref) after
  | tuple {elements : List Reference} {links : List (Option TypeRef)} {ref : TypeRef} {ids : List String}
      {before middle later after : Loading} (filled : (resolveAll elements).run before = .ok (links, middle))
      (others : (idsOf links).run middle = .ok (ids, later))
      (made : (built ("(" ++ ",".intercalate ids ++ ")")
        { id := .null, name := .null, kind := .tuple, tupleElements := links }).run later = .ok (ref, after)) :
      Resolution (.tuple none elements) before (some ref) after
  | functionPointer {returnType : Reference} {parameters : List Reference} {returned link : Option TypeRef}
      {links : List (Option TypeRef)} {ids : List String} {last : String} {before middle later second third after : Loading}
      (gives : (resolve returnType).run before = .ok (returned, middle))
      (takes : (resolveAll parameters).run middle = .ok (links, later)) (others : (idsOf links).run later = .ok (ids, second))
      (ends : (resultOf returned).run second = .ok (last, third))
      (made : (signed returned links ("delegate*<" ++ ",".intercalate (ids ++ [last]) ++ ">")).run third = .ok (link, after)) :
      Resolution (.functionPointer returnType none parameters) before link after

theorem resolution_of_run {reference : Reference} {link : Option TypeRef}
    (ran : (resolve reference).run before = .ok (link, after)) : Resolution reference before link after := by
  cases reference with
  | absent =>
    rw [resolve] at ran
    obtain ⟨rfl, rfl⟩ := pure_run.mp ran
    exact .absent _
  | named id =>
    rw [resolve] at ran
    obtain ⟨ref, interned, rfl⟩ := map_run.mp ran
    exact .named interned
  | defective defect =>
    rw [resolve] at ran
    exact absurd ran refuse_run
  | endless =>
    rw [resolve] at ran
    exact absurd ran throw_run
  | generic definition instead arguments source =>
    rw [resolve] at ran
    obtain ⟨defined, middle, head, ran⟩ := bind_run.mp ran
    cases defined with
    | none => exact absurd ran refuse_run
    | some target =>
      obtain ⟨_, _, listed, ran⟩ := bind_run.mp ran
      obtain ⟨rfl, rfl⟩ := checkListed_run.mp listed
      obtain ⟨links, later, tail, ran⟩ := bind_run.mp ran
      obtain ⟨id, second, named, ran⟩ := bind_run.mp ran
      obtain ⟨ids, third, others, ran⟩ := bind_run.mp ran
      obtain ⟨ref, made, rfl⟩ := map_run.mp ran
      exact .generic head tail named others made
  | array element source =>
    rw [resolve] at ran
    obtain ⟨_, middle, inner, ran⟩ := bind_run.mp ran
    obtain ⟨target, id, later, ref, rfl, named, made, rfl⟩ := wrapped_run.mp ran
    exact .array inner named made
  | pointer element source =>
    rw [resolve] at ran
    obtain ⟨_, middle, inner, ran⟩ := bind_run.mp ran
    obtain ⟨target, id, later, ref, rfl, named, made, rfl⟩ := wrapped_run.mp ran
    exact .pointer inner named made
  | tuple instead elements =>
    rw [resolve] at ran
    obtain ⟨_, _, listed, ran⟩ := bind_run.mp ran
    obtain ⟨rfl, rfl⟩ := checkListed_run.mp listed
    obtain ⟨links, middle, filled, ran⟩ := bind_run.mp ran
    obtain ⟨ids, later, others, ran⟩ := bind_run.mp ran
    obtain ⟨ref, made, rfl⟩ := map_run.mp ran
    exact .tuple filled others made
  | functionPointer returnType instead parameters =>
    rw [resolve_functionPointer] at ran
    obtain ⟨returned, middle, gives, ran⟩ := bind_run.mp ran
    obtain ⟨_, _, listed, ran⟩ := bind_run.mp ran
    obtain ⟨rfl, rfl⟩ := checkListed_run.mp listed
    obtain ⟨links, later, takes, ran⟩ := bind_run.mp ran
    obtain ⟨ids, second, others, ran⟩ := bind_run.mp ran
    obtain ⟨last, third, ends, made⟩ := bind_run.mp ran
    exact .functionPointer gives takes others ends made

theorem Resolution.run {reference : Reference} {link : Option TypeRef} (resolution : Resolution reference before link after) :
    (resolve reference).run before = .ok (link, after) := by
  cases resolution with
  | absent =>
    rw [resolve]
    rfl
  | named interned =>
    rw [resolve]
    exact map_run.mpr ⟨_, interned, rfl⟩
  | generic head tail named others made =>
    rw [resolve]
    exact bind_run.mpr ⟨_, _, head, bind_run.mpr ⟨(), _, checkListed_run.mpr ⟨rfl, rfl⟩, bind_run.mpr ⟨_, _, tail,
      bind_run.mpr ⟨_, _, named, bind_run.mpr ⟨_, _, others, map_run.mpr ⟨_, made, rfl⟩⟩⟩⟩⟩⟩
  | array inner named made =>
    rw [resolve]
    exact bind_run.mpr ⟨_, _, inner, wrapped_run.mpr ⟨_, _, _, _, rfl, named, made, rfl⟩⟩
  | pointer inner named made =>
    rw [resolve]
    exact bind_run.mpr ⟨_, _, inner, wrapped_run.mpr ⟨_, _, _, _, rfl, named, made, rfl⟩⟩
  | tuple filled others made =>
    rw [resolve]
    exact bind_run.mpr ⟨(), _, checkListed_run.mpr ⟨rfl, rfl⟩, bind_run.mpr ⟨_, _, filled, bind_run.mpr ⟨_, _, others,
      map_run.mpr ⟨_, made, rfl⟩⟩⟩⟩
  | functionPointer gives takes others ends made =>
    rw [resolve_functionPointer]
    exact bind_run.mpr ⟨_, _, gives, bind_run.mpr ⟨(), _, checkListed_run.mpr ⟨rfl, rfl⟩, bind_run.mpr ⟨_, _, takes,
      bind_run.mpr ⟨_, _, others, bind_run.mpr ⟨_, _, ends, made⟩⟩⟩⟩⟩

theorem wrapped_steps (good : Good host types before) {kind : TypeKind} {ending id : String} {target ref : TypeRef}
    {inner outer : Reference} {middle : Loading} (within : RefersWithin types outer)
    (stands : Stands before.ids inner (some target)) (called : outer.name? = inner.name?.map (· ++ ending))
    (long : ending ≠ "") (parts : outer.parts = [inner])
    (shaped : ∀ id, Built before id outer { id := .text id, name := .text id, kind, element := some target })
    (named : (idOf (some target)).run before = .ok (id, middle))
    (made : (built (id ++ ending) { id := .null, name := .null, kind, element := some target }).run middle = .ok (ref, after)) :
    Steps host types before after ∧ Stands after.ids outer (some ref) := by
  obtain ⟨known, rfl⟩ := (idOf_run good stands).mp named
  rw [known, Option.map_some] at called
  refine built_stands within called (by simp [long]) (shaped _) (fun part among => ?_) made
  rw [parts, List.mem_singleton] at among
  exact among ▸ stands.present

theorem generic_steps (good : Good host types before) {definition : Reference} {instead : Option String}
    {arguments : List Reference} {source : Document} {target ref : TypeRef} {links : List (Option TypeRef)} {id : String}
    {ids : List String} {second third : Loading} (within : RefersWithin types (.generic definition instead arguments source))
    (stands : Stands before.ids definition (some target)) (stand : List.Forall₂ (Stands before.ids) arguments links)
    (named : (idOf (some target)).run before = .ok (id, second)) (others : (idsOf links).run second = .ok (ids, third))
    (made : (built (id ++ "<" ++ ",".intercalate ids ++ ">")
      { id := .null, name := .null, originalDefinition := some target, typeArguments := links }).run third = .ok (ref, after)) :
    Steps host types before after ∧ Stands after.ids (.generic definition instead arguments source) (some ref) := by
  obtain ⟨known, rfl⟩ := (idOf_run good stands).mp named
  obtain ⟨all, rfl⟩ := (idsOf_run good stand).mp others
  have whole : (Reference.generic definition instead arguments source).name? =
      some (id ++ "<" ++ ",".intercalate ids ++ ">") := by
    rw [Reference.name?, known, all]
  exact built_stands within whole (by simp) (.generic stands stand)
    (List.forall_mem_cons.mpr ⟨stands.present, present_of_stand stand⟩) made

theorem tuple_steps (good : Good host types before) {instead : Option String} {elements : List Reference} {ref : TypeRef}
    {links : List (Option TypeRef)} {ids : List String} {middle : Loading} (within : RefersWithin types (.tuple instead elements))
    (stand : List.Forall₂ (Stands before.ids) elements links) (others : (idsOf links).run before = .ok (ids, middle))
    (made : (built ("(" ++ ",".intercalate ids ++ ")")
      { id := .null, name := .null, kind := .tuple, tupleElements := links }).run middle = .ok (ref, after)) :
    Steps host types before after ∧ Stands after.ids (.tuple instead elements) (some ref) := by
  obtain ⟨all, rfl⟩ := (idsOf_run good stand).mp others
  have whole : (Reference.tuple instead elements).name? = some ("(" ++ ",".intercalate ids ++ ")") := by
    rw [Reference.name?, all, Option.map_some]
  exact built_stands within whole (by simp) (.tuple stand) (present_of_stand stand) made

theorem signature_steps {returnType : Reference} {instead : Option String} {parameters : List Reference}
    {returned link : Option TypeRef} {links : List (Option TypeRef)} {id : String}
    (within : RefersWithin types (.functionPointer returnType instead parameters))
    (stands : Stands before.ids returnType returned) (stand : List.Forall₂ (Stands before.ids) parameters links)
    (whole : (Reference.functionPointer returnType instead parameters).name? = some id) (present : id ≠ "")
    (made : (signed returned links id).run before = .ok (link, after)) :
    Steps host types before after ∧ Stands after.ids (.functionPointer returnType instead parameters) link := by
  obtain ⟨name, counted, named, ran⟩ := bind_run.mp made
  obtain ⟨_, rfl⟩ := makeUp_run.mp named
  obtain ⟨signature, joined, stored, ran⟩ := bind_run.mp ran
  obtain ⟨rfl, rfl⟩ := enterMethod_run.mp stored
  obtain ⟨ref, interned, rfl⟩ := map_run.mp ran
  have start : Steps host types before (({ before with madeUp := before.madeUp + 1 } : Loading).joined
      { id := .text name, name := .text name, returnType := returned
        parameters := links.map fun type => ⟨type, .null, none⟩ }) :=
    .tail (.single .counted) (.joined ⟨by simp, by simp⟩)
  -- Entering the signature gives no id a new meaning, so the parts still stand where they did.
  have stands := stands.grows (grows_of_steps start)
  have stand := stand.imp fun _ _ stands => stands.grows (grows_of_steps start)
  obtain ⟨more, known⟩ := built_stands within whole present (.functionPointer stands stand
    (by rw [Loading.joined, Array.getElem?_push_size]) rfl (by simp [Function.comp_def]))
    (List.forall_mem_cons.mpr ⟨stands.present, present_of_stand stand⟩) interned
  exact ⟨start.trans more, known⟩

theorem functionPointer_steps (good : Good host types before) {returnType : Reference} {instead : Option String}
    {parameters : List Reference} {returned link : Option TypeRef} {links : List (Option TypeRef)} {ids : List String}
    {last : String} {second third : Loading} (within : RefersWithin types (.functionPointer returnType instead parameters))
    (stands : Stands before.ids returnType returned) (stand : List.Forall₂ (Stands before.ids) parameters links)
    (others : (idsOf links).run before = .ok (ids, second)) (ends : (resultOf returned).run second = .ok (last, third))
    (made : (signed returned links ("delegate*<" ++ ",".intercalate (ids ++ [last]) ++ ">")).run third = .ok (link, after)) :
    Steps host types before after ∧ Stands after.ids (.functionPointer returnType instead parameters) link := by
  obtain ⟨all, rfl⟩ := (idsOf_run good stand).mp others
  obtain ⟨given, rfl⟩ := (resultOf_run good stands).mp ends
  refine signature_steps within stands stand ?_ (by simp) made
  rw [Reference.name?, all, given, Option.map_some]

mutual

/-- A reference that is resolved takes steps of reading, and the link that it gives stands for it. -/
theorem resolve_steps {before after : Loading} (good : Good host types before) {reference : Reference} {link : Option TypeRef}
    (within : RefersWithin types reference) (ran : (resolve reference).run before = .ok (link, after)) :
    Steps host types before after ∧ Stands after.ids reference link := by
  -- What a part stands for is kept while the later parts are read, so all of them stand when the whole is built.
  match reference with
  | .absent =>
    cases resolution_of_run ran
    exact ⟨.refl, .absent⟩
  | .named id =>
    cases resolution_of_run ran with
    | named interned =>
      obtain ⟨steps, found⟩ := library_steps within interned
      exact ⟨steps, .known rfl found (present_of_parts rfl found nofun)⟩
  | .defective defect => cases resolution_of_run ran
  | .endless => cases resolution_of_run ran
  | .generic definition instead arguments source =>
    cases resolution_of_run ran with
    | generic head tail named others made =>
      obtain ⟨start, stands⟩ := resolve_steps good (.part within List.mem_cons_self) head
      obtain ⟨more, stand⟩ := resolveAll_steps (good.steps start)
        (fun argument among => .part within (List.mem_cons_of_mem _ among)) tail
      obtain ⟨last, known⟩ := generic_steps (good.steps (start.trans more)) within (stands.grows (grows_of_steps more)) stand
        named others made
      exact ⟨start.trans (more.trans last), known⟩
  | .array element source =>
    cases resolution_of_run ran with
    | array inner named made =>
      obtain ⟨start, stands⟩ := resolve_steps good (.part within List.mem_cons_self) inner
      obtain ⟨last, known⟩ := wrapped_steps (good.steps start) within stands rfl (by decide) rfl (fun _ => .array stands)
        named made
      exact ⟨start.trans last, known⟩
  | .pointer element source =>
    cases resolution_of_run ran with
    | pointer inner named made =>
      obtain ⟨start, stands⟩ := resolve_steps good (.part within List.mem_cons_self) inner
      obtain ⟨last, known⟩ := wrapped_steps (good.steps start) within stands rfl (by decide) rfl (fun _ => .pointer stands)
        named made
      exact ⟨start.trans last, known⟩
  | .tuple instead elements =>
    cases resolution_of_run ran with
    | tuple filled others made =>
      obtain ⟨start, stand⟩ := resolveAll_steps good
        (show ∀ element ∈ elements, _ from fun element among => .part within among) filled
      obtain ⟨last, known⟩ := tuple_steps (good.steps start) within stand others made
      exact ⟨start.trans last, known⟩
  | .functionPointer returnType instead parameters =>
    cases resolution_of_run ran with
    | functionPointer gives takes others ends made =>
      obtain ⟨start, stands⟩ := resolve_steps good (.part within List.mem_cons_self) gives
      obtain ⟨more, stand⟩ := resolveAll_steps (good.steps start)
        (fun parameter among => .part within (List.mem_cons_of_mem _ among)) takes
      obtain ⟨last, known⟩ := functionPointer_steps (good.steps (start.trans more)) within
        (stands.grows (grows_of_steps more)) stand others ends made
      exact ⟨start.trans (more.trans last), known⟩

theorem resolveAll_steps {before after : Loading} (good : Good host types before) {references : List Reference}
    {links : List (Option TypeRef)} (within : ∀ reference ∈ references, RefersWithin types reference)
    (ran : (resolveAll references).run before = .ok (links, after)) :
    Steps host types before after ∧ List.Forall₂ (Stands after.ids) references links := by
  match references with
  | [] =>
    rw [resolveAll] at ran
    obtain ⟨rfl, rfl⟩ := pure_run.mp ran
    exact ⟨.refl, .nil⟩
  | reference :: rest =>
    rw [resolveAll] at ran
    obtain ⟨link, middle, first, ran⟩ := bind_run.mp ran
    obtain ⟨others, later, second, ran⟩ := bind_run.mp ran
    obtain ⟨rfl, rfl⟩ := pure_run.mp ran
    obtain ⟨start, stands⟩ := resolve_steps good (within _ List.mem_cons_self) first
    obtain ⟨more, stand⟩ := resolveAll_steps (good.steps start)
      (fun other among => within other (List.mem_cons_of_mem _ among)) second
    exact ⟨start.trans more, .cons (stands.grows (grows_of_steps more)) stand⟩

end

end Resolving

section Parts

variable {host : Host} {types : List Document} {before after : Loading}

theorem mapM_steps {α β : Type} {f : α → Load β} (holds : Loading → α → β → Prop) {values : List α} {results : List β}
    (good : Good host types before)
    (kept : ∀ first second, Good host types first → Steps host types first second →
      ∀ value result, holds first value result → holds second value result)
    (each : ∀ value ∈ values, ∀ first second result, Good host types first →
      (f value).run first = .ok (result, second) → Steps host types first second ∧ holds second value result)
    (ran : (values.mapM f).run before = .ok (results, after)) :
    Steps host types before after ∧ List.Forall₂ (holds after) values results := by
  induction values generalizing before results with
  | nil =>
    rw [List.mapM_nil] at ran
    obtain ⟨rfl, rfl⟩ := pure_run.mp ran
    exact ⟨.refl, .nil⟩
  | cons value rest ih =>
    rw [List.mapM_cons] at ran
    obtain ⟨result, middle, first, ran⟩ := bind_run.mp ran
    obtain ⟨others, last, second, ran⟩ := bind_run.mp ran
    obtain ⟨rfl, rfl⟩ := pure_run.mp ran
    obtain ⟨start, held⟩ := each value List.mem_cons_self before middle result good first
    obtain ⟨more, hold⟩ := ih (good.steps start) (fun other among => each other (List.mem_cons_of_mem _ among)) second
    exact ⟨start.trans more, .cons (kept middle last (good.steps start) more value result held) hold⟩

theorem forM_steps {α : Type} {f : α → Load Unit} (holds : Loading → α → Prop) {values : List α} {result : Unit}
    (good : Good host types before)
    (kept : ∀ first second, Good host types first → Steps host types first second →
      ∀ value, holds first value → holds second value)
    (each : ∀ value ∈ values, ∀ first second, Good host types first →
      (f value).run first = .ok ((), second) → Steps host types first second ∧ holds second value)
    (ran : (values.forM f).run before = .ok (result, after)) :
    Steps host types before after ∧ ∀ value ∈ values, holds after value := by
  induction values generalizing before with
  | nil =>
    obtain ⟨_, rfl⟩ := pure_run.mp ran
    exact ⟨.refl, by simp⟩
  | cons value rest ih =>
    obtain ⟨_, middle, first, rest⟩ := bind_run.mp (show (f value >>= fun _ => rest.forM f).run before = _ from ran)
    obtain ⟨start, held⟩ := each value List.mem_cons_self before middle good first
    obtain ⟨more, hold⟩ := ih (good.steps start) (fun other among => each other (List.mem_cons_of_mem _ among)) rest
    refine ⟨start.trans more, fun other listed => ?_⟩
    rcases List.mem_cons.mp listed with rfl | among
    · exact kept middle after (good.steps start) more other held
    · exact hold other among

theorem typesOf_steps (good : Good host types before) {value : Document} {links : List (Option TypeRef)}
    (within : ∀ reference ∈ refersIn value, RefersWithin types reference)
    (ran : (typesOf value).run before = .ok (links, after)) :
    Steps host types before after ∧ Lists after.ids value links := by
  obtain ⟨elements, _, met, ran⟩ := bind_run.mp ran
  obtain ⟨rfl, _, rfl⟩ := loop_run.mp met
  obtain ⟨steps, stand⟩ := mapM_steps (fun loading element link => Stands loading.ids (.ofDocument element) link)
    good (fun _ _ _ steps _ _ stands => stands.grows (grows_of_steps steps))
    (fun element among _ _ _ good ran => resolve_steps good (within _ (List.mem_map_of_mem among)) ran) ran
  exact ⟨steps, List.forall₂_map_left_iff.mpr stand⟩

def parameterOf (entry : Document) : Load Parameter :=
  match entry.entries? with
  | some _ => do
    let type ← typeOf (entry.field "type")
    let defaultType ← typeOf (entry.field "default")
    pure ⟨type, entry.field "name", defaultType⟩
  | none => do
    let type ← typeOf entry
    pure ⟨type, .null, none⟩

theorem parametersOf_eq (value : Document) : parametersOf value = (do (← loop value).mapM parameterOf) := rfl

theorem parameterOf_steps (good : Good host types before) {entry value : Document} {parameter : Parameter}
    (within : ∀ reference ∈ parameterRefs value, RefersWithin types reference) (among : entry ∈ looped value)
    (ran : (parameterOf entry).run before = .ok (parameter, after)) :
    Steps host types before after ∧ Takes after.ids entry parameter := by
  have all := fun reference inside => within reference (List.mem_flatMap.mpr ⟨entry, among, inside⟩)
  unfold parameterOf at ran
  unfold Takes
  split at ran
  · next entries mapping =>
    simp only [mapping] at all ⊢
    obtain ⟨type, middle, typed, ran⟩ := bind_run.mp ran
    obtain ⟨default, last, given, ran⟩ := bind_run.mp ran
    obtain ⟨rfl, rfl⟩ := pure_run.mp ran
    obtain ⟨start, stands⟩ := resolve_steps good (all _ List.mem_cons_self) typed
    obtain ⟨more, also⟩ := resolve_steps (good.steps start) (all _ (List.mem_cons_of_mem _ List.mem_cons_self)) given
    exact ⟨start.trans more, stands.grows (grows_of_steps more), also⟩
  · next single =>
    simp only [single] at all ⊢
    obtain ⟨type, middle, typed, ran⟩ := bind_run.mp ran
    obtain ⟨rfl, rfl⟩ := pure_run.mp ran
    obtain ⟨steps, stands⟩ := resolve_steps good (all _ List.mem_cons_self) typed
    exact ⟨steps, stands, rfl⟩

theorem parametersOf_steps (good : Good host types before) {value : Document} {parameters : List Parameter}
    (within : ∀ reference ∈ parameterRefs value, RefersWithin types reference)
    (ran : (parametersOf value).run before = .ok (parameters, after)) :
    Steps host types before after ∧ List.Forall₂ (Takes after.ids) (looped value) parameters := by
  rw [parametersOf_eq] at ran
  obtain ⟨elements, _, met, ran⟩ := bind_run.mp ran
  obtain ⟨rfl, _, rfl⟩ := loop_run.mp met
  exact mapM_steps (fun loading => Takes loading.ids) good
    (fun _ _ _ steps _ _ takes => takes.grows (grows_of_steps steps))
    (fun entry among _ _ _ good ran => parameterOf_steps good within among ran) ran

theorem parameterId_of_constraining {parameter : Document} (constraining : Constraining parameter) :
    parameterId parameter = parameter.field "id" := by
  unfold parameterId
  split
  · next id => exact absurd rfl (constraining id)
  · rfl

theorem field_parameterEntry (parameter : Document) : (parameterEntry parameter).field "id" = parameterId parameter := by
  cases parameter with
  | scalar value => cases value <;> rfl
  | _ => rfl

def parameterSymbol (parameter : Document) : TypeSymbol :=
  { id := parameterId parameter, name := displayName (parameterId parameter) ((parameterEntry parameter).field "name")
    kind := .typeParameter }

theorem declareParameter_run {parameter : Document} {result : Unit} :
    (declareParameter parameter).run before = .ok (result, after) ↔ ∃ key, (parameterId parameter).isSet = true
      ∧ (parameterId parameter).key? = some key ∧ before.ids.lookup key = none
      ∧ before.entered key (parameterSymbol parameter) = after := by
  rw [declareParameter, givenId?, field_parameterEntry, Document.ifSet]
  by_cases set : (parameterId parameter).isSet = true
  · simp only [set, if_true, bind_run, keyOf_run, find?_run, true_and]
    constructor
    · rintro ⟨key, _, ⟨keyed, rfl⟩, _, _, ⟨rfl, rfl⟩, ran⟩
      split at ran
      · obtain ⟨_, _, refused, _⟩ := bind_run.mp ran
        exact absurd refused refuse_run
      · next new =>
        obtain ⟨_, _, entered, ran⟩ := bind_run.mp ran
        obtain ⟨_, rfl⟩ := enter_run.mp entered
        obtain ⟨_, rfl⟩ := pure_run.mp ran
        exact ⟨key, keyed, Option.not_isSome_iff_eq_none.mp new, rfl⟩
    · rintro ⟨key, keyed, new, rfl⟩
      refine ⟨key, before, ⟨keyed, rfl⟩, _, before, ⟨rfl, rfl⟩, ?_⟩
      rw [new]
      exact bind_run.mpr ⟨_, _, enter_run.mpr ⟨rfl, rfl⟩, pure_run.mpr ⟨rfl, rfl⟩⟩
  · simp only [set, Bool.false_eq_true, if_false, false_and, exists_false, iff_false]
    exact refuse_run

theorem declareParameter_steps {parameter : Document} {result : Unit} (within : ParameterWithin types parameter)
    (ran : (declareParameter parameter).run before = .ok (result, after)) : Steps host types before after := by
  obtain ⟨key, set, keyed, new, rfl⟩ := declareParameter_run.mp ran
  exact .single (.entered new (.parameter within set keyed))

/-- What a type parameter is once its constraints are linked. -/
def Known (types : List Document) (loading : Loading) (parameter : Document) (link : Option TypeRef) : Prop :=
  ParameterIs loading.ids parameter link ∧ (Constraining parameter → Met types loading parameter)

theorem known_steps {parameter : Document} {link : Option TypeRef} (good : Good host types before)
    (steps : Steps host types before after) (known : Known types before parameter link) :
    Known types after parameter link :=
  ⟨known.1.grows (grows_of_steps steps), fun constraining => met_steps good steps (known.2 constraining)⟩

theorem linkParameter_run {parameter : Document} {ref : TypeRef} :
    (linkParameter parameter).run before = .ok (ref, after) ↔ ∃ key, (parameterId parameter).key? = some key
      ∧ before.ids.lookup key = some ref ∧ ((¬ Constraining parameter ∧ after = before)
        ∨ (Constraining parameter ∧ ∃ constraints middle,
          (typesOf (parameter.field "constraints")).run before = .ok (constraints, middle)
          ∧ after = middle.changed ref fun symbol => { symbol with constraints })) := by
  unfold linkParameter
  split
  · next id =>
    have plain : ¬ Constraining (.scalar (.text id)) := fun constraining => constraining id rfl
    rw [known_run]
    constructor
    · rintro ⟨⟨key, keyed, found⟩, rfl⟩
      exact ⟨key, keyed, found, Or.inl ⟨plain, rfl⟩⟩
    · rintro ⟨key, keyed, found, ⟨_, rfl⟩ | ⟨constraining, _⟩⟩
      · exact ⟨⟨key, keyed, found⟩, rfl⟩
      · exact absurd constraining plain
  · next constraining =>
    rw [parameterId_of_constraining constraining]
    constructor
    · intro ran
      obtain ⟨place, _, asked, ran⟩ := bind_run.mp ran
      obtain ⟨⟨key, keyed, found⟩, rfl⟩ := known_run.mp asked
      obtain ⟨constraints, middle, resolved, ran⟩ := bind_run.mp ran
      obtain ⟨_, _, updated, ran⟩ := bind_run.mp ran
      obtain rfl := update_run.mp updated
      obtain ⟨rfl, rfl⟩ := pure_run.mp ran
      exact ⟨key, keyed, found, Or.inr ⟨constraining, constraints, middle, resolved, rfl⟩⟩
    · rintro ⟨key, keyed, found, ⟨plain, _⟩ | ⟨_, constraints, middle, resolved, rfl⟩⟩
      · exact absurd constraining plain
      · exact bind_run.mpr ⟨ref, before, known_run.mpr ⟨⟨key, keyed, found⟩, rfl⟩,
          bind_run.mpr ⟨constraints, middle, resolved, bind_run.mpr ⟨(), _, update_run.mpr rfl, pure_run.mpr ⟨rfl, rfl⟩⟩⟩⟩

theorem linkParameter_steps (good : Good host types before) {parameter : Document} {ref : TypeRef}
    (within : ParameterWithin types parameter) (ran : (linkParameter parameter).run before = .ok (ref, after)) :
    Steps host types before after ∧ Known types after parameter (some ref) := by
  obtain ⟨key, keyed, found, ⟨plain, rfl⟩ | ⟨constraining, constraints, middle, resolved, rfl⟩⟩ := linkParameter_run.mp ran
  · exact ⟨.refl, ⟨key, ref, keyed, found, rfl⟩, fun constraining => absurd constraining plain⟩
  · obtain ⟨start, lists⟩ := typesOf_steps good (fun _ among => .constraint within constraining among) resolved
    have still := (grows_of_steps start).ids key ref found
    have constrained : Constrained types middle key constraints := ⟨parameter, within, constraining, keyed, lists⟩
    have step : Step host types middle (middle.changed ref fun symbol => { symbol with constraints }) :=
      .changed still (.constraints constrained)
    obtain ⟨symbol, there, _⟩ := (good.steps start).found still
    refine ⟨start.tail step, ⟨key, ref, keyed, still, rfl⟩,
      fun _ => ⟨⟨constraints, lists.grows (grows_of_step step)⟩, key, ref, { symbol with constraints }, keyed, still, ?_, ?_⟩⟩
    · rw [types_changed, if_pos rfl, there, Option.map_some]
    · exact constrained.grows (grows_of_step step)

def methodParameter (parameter : Document) : Load (Option TypeRef) := do
  let id ← match parameter.opened with
    | .scalar (.text _) => pure parameter
    | .map _ => pure (parameter.field "id")
    | other => throw (.lacks other.kindWord "get")
  let key ← keyOf id
  if (← find? key).isNone then declareParameter parameter
  some <$> linkParameter parameter

theorem methodParameters_eq (value : Document) : methodParameters value = (do (← loop value).mapM methodParameter) := rfl

def Parametric (parameter : Document) : Prop := (∃ id, parameter = .text id) ∨ parameter.entries?.isSome = true

/-- How a type parameter with an id was entered and linked: it is entered, unless a symbol with the id is there. -/
def Entering (parameter id : Document) (link : Option TypeRef) (before after : Loading) : Prop :=
  ∃ key middle ref, id.key? = some key
    ∧ (before.ids.lookup key = none ∧ (declareParameter parameter).run before = .ok ((), middle)
      ∨ (before.ids.lookup key).isSome = true ∧ middle = before)
    ∧ (linkParameter parameter).run middle = .ok (ref, after) ∧ link = some ref

theorem entering_run {parameter id : Document} {link : Option TypeRef} : (do
      let key ← keyOf id
      if (← find? key).isNone then declareParameter parameter
      some <$> linkParameter parameter : Load (Option TypeRef)).run before = .ok (link, after) ↔
    Entering parameter id link before after := by
  simp only [bind_run, keyOf_run, find?_run]
  constructor
  · rintro ⟨key, _, ⟨keyed, rfl⟩, _, _, ⟨rfl, rfl⟩, ran⟩
    cases found : before.ids.lookup key with
    | none =>
      rw [found] at ran
      obtain ⟨_, middle, declared, ran⟩ := bind_run.mp ran
      obtain ⟨ref, linked, rfl⟩ := map_run.mp ran
      exact ⟨key, middle, ref, keyed, Or.inl ⟨found, declared⟩, linked, rfl⟩
    | some place =>
      rw [found] at ran
      obtain ⟨ref, linked, rfl⟩ := map_run.mp ran
      exact ⟨key, before, ref, keyed, Or.inr ⟨by rw [found]; rfl, rfl⟩, linked, rfl⟩
  · rintro ⟨key, middle, ref, keyed, ⟨new, declared⟩ | ⟨known, rfl⟩, linked, rfl⟩
    · refine ⟨key, before, ⟨keyed, rfl⟩, _, before, ⟨rfl, rfl⟩, ?_⟩
      rw [new]
      exact bind_run.mpr ⟨(), middle, declared, map_run.mpr ⟨ref, linked, rfl⟩⟩
    · refine ⟨key, middle, ⟨keyed, rfl⟩, _, middle, ⟨rfl, rfl⟩, ?_⟩
      obtain ⟨place, found⟩ := Option.isSome_iff_exists.mp known
      rw [found]
      exact map_run.mpr ⟨ref, linked, rfl⟩

theorem methodParameter_run {parameter : Document} {link : Option TypeRef} :
    (methodParameter parameter).run before = .ok (link, after) ↔
      Parametric parameter ∧ Entering parameter (parameterId parameter) link before after := by
  rw [methodParameter, Parametric, Document.entries?]
  dsimp only
  split
  · next text opened =>
    rw [pure_bind, entering_run, opened]
    constructor
    · rintro ⟨key, middle, ref, keyed, entering, linked, rfl⟩
      -- Only a scalar can be compared, so the text is the value itself.
      cases parameter with
      | scalar value =>
        cases opened
        exact ⟨Or.inl ⟨text, rfl⟩, key, middle, ref, keyed, entering, linked, rfl⟩
      | _ => cases keyed
    · rintro ⟨⟨id, rfl⟩ | mapping, found⟩
      · exact found
      · cases mapping
  · next entries opened =>
    have plain : parameterId parameter = parameter.field "id" := by
      apply parameterId_of_constraining
      rintro id rfl
      cases opened
    rw [pure_bind, entering_run, opened, plain]
    simp
  · next noText noMap =>
    constructor
    · intro ran
      obtain ⟨_, _, thrown, _⟩ := bind_run.mp ran
      exact absurd thrown throw_run
    · rintro ⟨⟨id, rfl⟩ | mapping, _⟩
      · exact absurd rfl (noText id)
      · split at mapping
        · next entries opened => exact absurd opened (noMap entries)
        · cases mapping

theorem methodParameter_steps (good : Good host types before) {parameter : Document} {link : Option TypeRef}
    (within : ParameterWithin types parameter) (ran : (methodParameter parameter).run before = .ok (link, after)) :
    Steps host types before after ∧ Known types after parameter link := by
  obtain ⟨_, key, middle, ref, _, entering, linked, rfl⟩ := methodParameter_run.mp ran
  rcases entering with ⟨_, declared⟩ | ⟨_, rfl⟩
  · have start : Steps host types before middle := declareParameter_steps within declared
    obtain ⟨more, known⟩ := linkParameter_steps (good.steps start) within linked
    exact ⟨start.trans more, known⟩
  · exact linkParameter_steps good within linked

theorem methodParameters_steps (good : Good host types before) {value : Document} {links : List (Option TypeRef)}
    (within : ∀ parameter ∈ looped value, ParameterWithin types parameter)
    (ran : (methodParameters value).run before = .ok (links, after)) :
    Steps host types before after ∧ List.Forall₂ (Known types after) (looped value) links := by
  rw [methodParameters_eq] at ran
  obtain ⟨elements, _, met, ran⟩ := bind_run.mp ran
  obtain ⟨rfl, _, rfl⟩ := loop_run.mp met
  exact mapM_steps (Known types) good (fun _ _ good steps _ _ known => known_steps good steps known)
    (fun parameter among _ _ _ good ran => methodParameter_steps good (within parameter among) ran) ran

end Parts

end DeclGraph.Manifest.Load
