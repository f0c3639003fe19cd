import DeclGraph.Proofs.ManifestOrders
import DeclGraph.Proofs.ManifestReading

/-!
The types of a manifest read in another order. Whether an operation succeeds does not depend on what was read before
it: what has run from some table runs from every table in which the declared types stand.
-/

namespace DeclGraph

theorem Binary64.isNonzero_of_toInt? {value : Binary64} {integer : Int} (equal : value.toInt? = some integer) :
    value.isNonzero = decide (integer ≠ 0) := by
  have power (n : Nat) : Nat.pow 2 n ≠ 0 := Nat.ne_of_gt (Nat.two_pow_pos n)
  have signed (negative : Bool) (n : Nat) : (if negative then -1 else 1 : Int) * Int.ofNat n ≠ 0 ↔ n ≠ 0 := by
    cases negative <;> simp
  cases value with
  | nan mark => cases equal
  | infinite negative => cases equal
  | finite negative m e =>
    simp only [toInt?] at equal
    split at equal
    · cases equal
      have scaled : m * Nat.pow 2 e.toNat ≠ 0 ↔ m ≠ 0 := by
        rw [Nat.mul_ne_zero_iff, and_iff_left (power _)]
      exact decide_eq_decide.mpr ((signed negative _).trans scaled).symm
    · split at equal
      · next whole =>
        cases equal
        have quotient : m / Nat.pow 2 (-e).toNat ≠ 0 ↔ m ≠ 0 := by
          conv_rhs => rw [← Nat.div_mul_cancel (Nat.dvd_of_mod_eq_zero whole)]
          rw [Nat.mul_ne_zero_iff, and_iff_left (power _)]
        exact decide_eq_decide.mpr ((signed negative _).trans quotient).symm
      · cases equal

theorem Document.isSet_of_key? {value other : Document} {key : Key} (keyed : value.key? = some key)
    (also : other.key? = some key) : value.isSet = other.isSet := by
  -- What names something says whether it is set.
  have told : ∀ {value : Document}, value.key? = some key → value.isSet = (match key with
      | .null => false
      | .integer integer => decide (integer ≠ 0)
      | .text given => decide (given ≠ "")
      | .bytes given => !given.isEmpty
      | .real given => given.isNonzero
      | _ => true) := by
    intro value keyed
    cases value with
    | scalar value =>
      cases value with
      | real value =>
        simp only [Document.key?, Scalar.key, Option.some.injEq] at keyed
        split at keyed
        · next integer equal =>
          subst keyed
          exact Binary64.isNonzero_of_toInt? equal
        · next other =>
          subst keyed
          rfl
      | moment value =>
        simp only [Document.key?, Scalar.key, Option.some.injEq] at keyed
        split at keyed <;> (subst keyed; rfl)
      | bool value =>
        cases keyed
        cases value <;> rfl
      | _ =>
        cases keyed
        rfl
    | _ => cases keyed
  rw [told keyed, told also]
namespace Manifest

theorem Stands.isSome {ids : Ids} {reference : Reference} {link : Option TypeRef} (stands : Stands ids reference link) :
    link.isSome = reference.name?.isSome := by
  cases stands with
  | absent => rfl
  | known named found present => rw [named]; rfl

namespace Load

section Succeeding

variable {α β : Type} {host : Host} {types : List Document} {before after : Loading} {op : Load α} {next : α → Load β}
variable {holds : α → Prop}

/-- A table in which the declared types of a manifest stand, with their type parameters. -/
structure Ready (host : Host) (types : List Document) (loading : Loading) : Prop where
  good : Good host types loading
  declared : ∀ entry ∈ types, Declared host loading entry
  entered : ∀ entry ∈ types, ∀ parameter ∈ looped (entry.field "type_parameters"), Entered loading parameter

theorem Ready.steps (ready : Ready host types before) (steps : Steps host types before after) : Ready host types after where
  good := ready.good.steps steps
  declared entry listed := declared_grows (grows_of_steps steps) (ready.declared entry listed)
  entered entry listed parameter among := entered_grows (grows_of_steps steps) (ready.entered entry listed parameter among)

def Succeeds (host : Host) (types : List Document) (op : Load α) : Prop :=
  ∀ before, Ready host types before → ∃ value after, op.run before = .ok (value, after)

def Gives (host : Host) (types : List Document) (op : Load α) (holds : α → Prop) : Prop :=
  ∀ before, Ready host types before →
    ∃ value after, op.run before = .ok (value, after) ∧ Steps host types before after ∧ holds value

theorem Succeeds.gives (succeeds : Succeeds host types op) (steps : ∀ before value after, Good host types before →
    op.run before = .ok (value, after) → Steps host types before after ∧ holds value) : Gives host types op holds := by
  intro before ready
  obtain ⟨value, after, ran⟩ := succeeds before ready
  exact ⟨value, after, ran, steps before value after ready.good ran⟩

theorem succeeds_pure (value : α) : Succeeds host types (pure value : Load α) :=
  fun before _ => ⟨value, before, pure_run.mpr ⟨rfl, rfl⟩⟩

theorem succeeds_bind (first : Gives host types op holds) (rest : ∀ value, holds value → Succeeds host types (next value)) :
    Succeeds host types (op >>= next) := by
  intro before ready
  obtain ⟨value, middle, ran, steps, held⟩ := first before ready
  obtain ⟨result, after, last⟩ := rest value held middle (ready.steps steps)
  exact ⟨result, after, bind_run.mpr ⟨value, middle, ran, last⟩⟩

theorem gives_loop {value : Document} (listed : value.isSet = true → value.elements?.isSome = true) :
    Gives host types (loop value) fun elements => looped value = elements :=
  fun before _ => ⟨looped value, before, loop_run.mpr ⟨rfl, listed, rfl⟩, .refl, rfl⟩

theorem exists_bind_run {value : α} {next : α → Load Unit} (ran : op.run before = .ok (value, after))
    (rest : ∃ last, (next value).run after = .ok ((), last)) : ∃ last, (op >>= next).run before = .ok ((), last) := by
  obtain ⟨last, ran'⟩ := rest
  exact ⟨last, bind_run.mpr ⟨value, after, ran, ran'⟩⟩

theorem succeeds_map {f : α → β} (succeeds : Succeeds host types op) : Succeeds host types (f <$> op) := by
  intro before ready
  obtain ⟨value, after, ran⟩ := succeeds before ready
  exact ⟨f value, after, map_run.mpr ⟨value, ran, rfl⟩⟩

theorem succeeds_mapM {f : α → Load β} {values : List α} (each : ∀ value ∈ values, Gives host types (f value) fun _ => True) :
    Succeeds host types (values.mapM f) := by
  induction values with
  | nil =>
    rw [List.mapM_nil]
    exact succeeds_pure []
  | cons value rest ih =>
    rw [List.mapM_cons]
    refine succeeds_bind (each value List.mem_cons_self) fun result _ before ready => ?_
    obtain ⟨results, after, ran⟩ := ih (fun other among => each other (List.mem_cons_of_mem _ among)) before ready
    exact ⟨_, after, bind_run.mpr ⟨results, after, ran, pure_run.mpr ⟨rfl, rfl⟩⟩⟩

theorem forM_succeeds {f : α → Load Unit} {values : List α} (ready : Ready host types before)
    (each : ∀ value ∈ values, Gives host types (f value) fun _ => True) :
    ∃ after, (values.forM f).run before = .ok ((), after) := by
  induction values generalizing before with
  | nil => exact ⟨before, pure_run.mpr ⟨rfl, rfl⟩⟩
  | cons value rest ih =>
    obtain ⟨_, middle, ran, steps, _⟩ := each value List.mem_cons_self before ready
    obtain ⟨after, last⟩ := ih (ready.steps steps) fun other among => each other (List.mem_cons_of_mem _ among)
    exact ⟨after, show (f value >>= fun _ => rest.forM f).run before = _ from bind_run.mpr ⟨(), middle, ran, last⟩⟩

theorem succeeds_each {f : Document → Load β} {value : Document}
    (listed : value.isSet = true → value.elements?.isSome = true)
    (each : ∀ element ∈ looped value, Gives host types (f element) fun _ => True) :
    Succeeds host types (do (← loop value).mapM f) := by
  intro before ready
  obtain ⟨results, after, ran⟩ := succeeds_mapM each before ready
  exact ⟨results, after, bind_run.mpr ⟨_, before, loop_run.mpr ⟨rfl, listed, rfl⟩, ran⟩⟩

theorem Gives.imp {also : α → Prop} (gives : Gives host types op holds) (weaker : ∀ value, holds value → also value) :
    Gives host types op also := by
  intro before ready
  obtain ⟨value, after, ran, steps, held⟩ := gives before ready
  exact ⟨value, after, ran, steps, weaker value held⟩

theorem Gives.succeeds (gives : Gives host types op holds) : Succeeds host types op := by
  intro before ready
  obtain ⟨value, after, ran, _⟩ := gives before ready
  exact ⟨value, after, ran⟩

theorem ran_bind (ran : Ran host types (op >>= next)) (steps : ∀ before value after, Good host types before →
    op.run before = .ok (value, after) → Steps host types before after) :
    Ran host types op ∧ ∃ value, Ran host types (next value) := by
  obtain ⟨before, result, after, good, ran⟩ := ran
  obtain ⟨value, middle, first, ran⟩ := bind_run.mp ran
  exact ⟨⟨before, value, middle, good, first⟩, value, middle, result, after, good.steps (steps before value middle good first),
    ran⟩

theorem ran_map {f : α → β} (ran : Ran host types (f <$> op)) : Ran host types op := by
  obtain ⟨before, _, after, good, ran⟩ := ran
  obtain ⟨value, ran, _⟩ := map_run.mp ran
  exact ⟨before, value, after, good, ran⟩

theorem gives_map {f : α → β} (gives : Gives host types op holds) : Gives host types (f <$> op) fun _ => True := by
  intro before ready
  obtain ⟨value, after, ran, steps, _⟩ := gives before ready
  exact ⟨f value, after, map_run.mpr ⟨value, ran, rfl⟩, steps, trivial⟩

theorem not_ran_refuse {defect : Defect} : ¬ Ran host types (refuse defect : Load α) :=
  fun ⟨_, _, _, _, ran⟩ => refuse_run ran

theorem not_ran_throw {fault : Fault} : ¬ Ran host types (throw fault : Load α) :=
  fun ⟨_, _, _, _, ran⟩ => throw_run ran

theorem ran_mapM {f : α → Load β} {values : List α} {results : List β} (good : Good host types before)
    (steps : ∀ value ∈ values, ∀ first second result, Good host types first →
      (f value).run first = .ok (result, second) → Steps host types first second)
    (ran : (values.mapM f).run before = .ok (results, after)) : ∀ value ∈ values, Ran host types (f value) := by
  obtain ⟨_, each⟩ := mapM_steps (fun _ value _ => Ran host types (f value)) good (fun _ _ _ _ _ _ ran => ran)
    (fun value among first second result good ran =>
      ⟨steps value among first second result good ran, first, result, second, good, ran⟩) ran
  intro value among
  obtain ⟨_, _, ran⟩ := exists_of_mem_left each among
  exact ran

theorem ran_each {f : Document → Load β} {value : Document}
    (steps : ∀ element ∈ looped value, ∀ first second result, Good host types first →
      (f element).run first = .ok (result, second) → Steps host types first second)
    (ran : Ran host types (do (← loop value).mapM f)) : (value.isSet = true → value.elements?.isSome = true)
      ∧ ∀ element ∈ looped value, Ran host types (f element) := by
  obtain ⟨before, results, after, good, ran⟩ := ran
  obtain ⟨elements, _, met, ran⟩ := bind_run.mp ran
  obtain ⟨rfl, listed, rfl⟩ := loop_run.mp met
  exact ⟨listed, ran_mapM good steps ran⟩

end Succeeding

section Resolving

variable {host : Host} {types others : List Document} {first last before : Loading}

theorem name_of_lookup (good : Good host types before) {id : String} {ref : TypeRef}
    (found : before.ids.lookup (.text id) = some ref) : id ≠ "" := by
  rintro rfl
  obtain ⟨fresh, _, _, arises⟩ := good.arises _ ref found
  have set := arises.origin.set
  rw [key?_eq_text.mp arises.origin.keyed] at set
  cases set

theorem name_of_library (good : Good host types before) {id : String} {ref : TypeRef}
    (ran : (library id).run before = .ok (ref, last)) : id ≠ "" := by
  obtain ⟨_, _, found, ran⟩ := bind_run.mp ran
  obtain ⟨rfl, rfl⟩ := find?_run.mp found
  split at ran
  · next known => exact name_of_lookup good known
  · rintro rfl
    obtain ⟨_, _, thrown, _⟩ := bind_run.mp ran
    exact throw_run thrown

theorem library_succeeds {id : String} (present : id ≠ "") (before : Loading) :
    ∃ ref after, (library id).run before = .ok (ref, after) := by
  cases found : before.ids.lookup (.text id) with
  | some ref => exact ⟨ref, before, bind_run.mpr ⟨some ref, before, find?_run.mpr ⟨found, rfl⟩, pure_run.mpr ⟨rfl, rfl⟩⟩⟩
  | none =>
    refine ⟨before.table.types.size, before.entered (.text id) { id := .text id, name := .text id, external := .bool true },
      bind_run.mpr ⟨none, before, find?_run.mpr ⟨found, rfl⟩, ?_⟩⟩
    dsimp only
    rw [if_neg present]
    exact enter_run.mpr ⟨rfl, rfl⟩

theorem built_succeeds (id : String) (symbol : TypeSymbol) (before : Loading) :
    ∃ ref after, (built id symbol).run before = .ok (ref, after) := by
  cases found : before.ids.lookup (.text id) with
  | some ref => exact ⟨ref, before, bind_run.mpr ⟨some ref, before, find?_run.mpr ⟨found, rfl⟩, pure_run.mpr ⟨rfl, rfl⟩⟩⟩
  | none => exact ⟨_, _, bind_run.mpr ⟨none, before, find?_run.mpr ⟨found, rfl⟩, enter_run.mpr ⟨rfl, rfl⟩⟩⟩

theorem exists_ref {ids : Ids} {reference : Reference} {link : Option TypeRef} {id : String}
    (stands : Stands ids reference link) (named : reference.name? = some id) : ∃ ref, link = some ref :=
  Option.isSome_iff_exists.mp (by rw [stands.isSome, named]; rfl)

theorem signed_succeeds (returned : Option TypeRef) (links : List (Option TypeRef)) (id : String) (before : Loading) :
    ∃ link after, (signed returned links id).run before = .ok (link, after) := by
  obtain ⟨name, middle, made⟩ : ∃ name middle, (makeUp "signature").run before = .ok (name, middle) :=
    ⟨_, _, makeUp_run.mpr ⟨rfl, rfl⟩⟩
  obtain ⟨signature, later, joined⟩ : ∃ signature later, (enterMethod
      { id := .text name, name := .text name, returnType := returned
        parameters := links.map fun type => ⟨type, .null, none⟩ }).run middle = .ok (signature, later) :=
    ⟨_, _, enterMethod_run.mpr ⟨rfl, rfl⟩⟩
  obtain ⟨ref, after, interned⟩ :=
    built_succeeds id { id := .null, name := .null, kind := .functionPointer, signature := some signature } later
  exact ⟨some ref, after, bind_run.mpr ⟨name, middle, made, bind_run.mpr ⟨signature, later, joined,
    map_run.mpr ⟨ref, interned, rfl⟩⟩⟩⟩

/-- A reference that can be resolved: nothing in it is wrong or without end, and what it is built from has an id. This does
not depend on what is known so far. -/
inductive Resolvable : Reference → Prop
  | absent : Resolvable .absent
  | named {id : String} (present : id ≠ "") : Resolvable (.named id)
  | generic {definition : Reference} {arguments : List Reference} {source : Document} {id : String} {ids : List String}
      (defined : Resolvable definition) (filled : ∀ argument ∈ arguments, Resolvable argument)
      (named : definition.name? = some id) (others : Reference.names? arguments = some ids) :
      Resolvable (.generic definition none arguments source)
  | array {element : Reference} {source : Document} {id : String} (inner : Resolvable element)
      (named : element.name? = some id) : Resolvable (.array element source)
  | pointer {element : Reference} {source : Document} {id : String} (inner : Resolvable element)
      (named : element.name? = some id) : Resolvable (.pointer element source)
  | tuple {elements : List Reference} {ids : List String} (filled : ∀ element ∈ elements, Resolvable element)
      (others : Reference.names? elements = some ids) : Resolvable (.tuple none elements)
  | functionPointer {returnType : Reference} {parameters : List Reference} {ids : List String}
      (gives : Resolvable returnType) (takes : ∀ parameter ∈ parameters, Resolvable parameter)
      (others : Reference.names? parameters = some ids) : Resolvable (.functionPointer returnType none parameters)

mutual

theorem resolvable_of_run {first last : Loading} (good : Good host types first) {reference : Reference}
    {link : Option TypeRef} (within : RefersWithin types reference) (ran : (resolve reference).run first = .ok (link, last)) :
    Resolvable reference := by
  match reference with
  | .absent => exact .absent
  | .named id =>
    cases resolution_of_run ran with
    | named interned => exact .named (name_of_library good interned)
  | .defective defect => cases resolution_of_run ran
  | .endless => cases resolution_of_run ran
  | .generic definition instead arguments source =>
    have inside : ∀ argument ∈ arguments, RefersWithin types argument :=
      fun _ among => .part within (List.mem_cons_of_mem _ among)
    cases resolution_of_run ran with
    | generic head tail named others =>
      obtain ⟨start, stands⟩ := resolve_steps good (.part within List.mem_cons_self) head
      obtain ⟨more, stand⟩ := resolveAll_steps (good.steps start) inside tail
      have still := good.steps (start.trans more)
      obtain ⟨known, rfl⟩ := (idOf_run still (stands.grows (grows_of_steps more))).mp named
      obtain ⟨all, rfl⟩ := (idsOf_run still stand).mp others
      exact .generic (resolvable_of_run good (.part within List.mem_cons_self) head)
        (resolvable_of_runs (good.steps start) inside tail) known all
  | .array element source =>
    cases resolution_of_run ran with
    | array inner named =>
      obtain ⟨start, stands⟩ := resolve_steps good (.part within List.mem_cons_self) inner
      obtain ⟨known, _⟩ := (idOf_run (good.steps start) stands).mp named
      exact .array (resolvable_of_run good (.part within List.mem_cons_self) inner) known
  | .pointer element source =>
    cases resolution_of_run ran with
    | pointer inner named =>
      obtain ⟨start, stands⟩ := resolve_steps good (.part within List.mem_cons_self) inner
      obtain ⟨known, _⟩ := (idOf_run (good.steps start) stands).mp named
      exact .pointer (resolvable_of_run good (.part within List.mem_cons_self) inner) known
  | .tuple instead elements =>
    have inside : ∀ element ∈ elements, RefersWithin types element := fun _ among => .part within among
    cases resolution_of_run ran with
    | tuple filled others =>
      obtain ⟨start, stand⟩ := resolveAll_steps good inside filled
      obtain ⟨all, _⟩ := (idsOf_run (good.steps start) stand).mp others
      exact .tuple (resolvable_of_runs good inside filled) all
  | .functionPointer returnType instead parameters =>
    have inside : ∀ parameter ∈ parameters, RefersWithin types parameter :=
      fun _ among => .part within (List.mem_cons_of_mem _ among)
    cases resolution_of_run ran with
    | functionPointer gives takes others =>
      obtain ⟨start, _⟩ := resolve_steps good (.part within List.mem_cons_self) gives
      obtain ⟨more, stand⟩ := resolveAll_steps (good.steps start) inside takes
      obtain ⟨all, _⟩ := (idsOf_run (good.steps (start.trans more)) stand).mp others
      exact .functionPointer (resolvable_of_run good (.part within List.mem_cons_self) gives)
        (resolvable_of_runs (good.steps start) inside takes) all

theorem resolvable_of_runs {first last : Loading} (good : Good host types first) {references : List Reference}
    {links : List (Option TypeRef)} (within : ∀ reference ∈ references, RefersWithin types reference)
    (ran : (resolveAll references).run first = .ok (links, last)) : ∀ reference ∈ references, Resolvable reference := by
  match references with
  | [] => exact nofun
  | reference :: rest =>
    rw [resolveAll] at ran
    obtain ⟨link, middle, headRan, ran⟩ := bind_run.mp ran
    obtain ⟨start, _⟩ := resolve_steps good (within _ List.mem_cons_self) headRan
    obtain ⟨links, later, tailRan, _⟩ := bind_run.mp ran
    exact List.forall_mem_cons.mpr ⟨resolvable_of_run good (within _ List.mem_cons_self) headRan,
      resolvable_of_runs (good.steps start) (fun other among => within other (List.mem_cons_of_mem _ among)) tailRan⟩

end

def Resolves (host : Host) (types : List Document) (reference : Reference) : Prop :=
  ∀ before, Good host types before → ∃ link after, (resolve reference).run before = .ok (link, after)
    ∧ Steps host types before after ∧ Stands after.ids reference link

theorem resolves_all {references : List Reference} (each : ∀ reference ∈ references, Resolves host types reference)
    (good : Good host types before) : ∃ links after, (resolveAll references).run before = .ok (links, after)
      ∧ Steps host types before after ∧ List.Forall₂ (Stands after.ids) references links := by
  induction references generalizing before with
  | nil => exact ⟨[], before, by rw [resolveAll]; rfl, .refl, .nil⟩
  | cons reference rest ih =>
    obtain ⟨link, middle, ran, start, stands⟩ := each reference List.mem_cons_self before good
    obtain ⟨links, after, others, more, stand⟩ :=
      ih (fun other among => each other (List.mem_cons_of_mem _ among)) (good.steps start)
    refine ⟨link :: links, after, ?_, start.trans more, .cons (stands.grows (grows_of_steps more)) stand⟩
    rw [resolveAll]
    exact bind_run.mpr ⟨link, middle, ran, bind_run.mpr ⟨links, after, others, pure_run.mpr ⟨rfl, rfl⟩⟩⟩

theorem resolves_of_succeeds {reference : Reference} (within : RefersWithin types reference)
    (succeeds : ∀ before, Good host types before → ∃ link after, (resolve reference).run before = .ok (link, after)) :
    Resolves host types reference := by
  intro before good
  obtain ⟨link, after, ran⟩ := succeeds before good
  exact ⟨link, after, ran, resolve_steps good within ran⟩

theorem Resolvable.resolves {reference : Reference} (resolvable : Resolvable reference) (within : RefersWithin types reference) :
    Resolves host types reference := by
  -- Each part is resolved in the table that the parts before it leave.
  induction resolvable with
  | absent => exact resolves_of_succeeds within fun before _ => ⟨none, before, (Resolution.absent before).run⟩
  | named present =>
    refine resolves_of_succeeds within fun before _ => ?_
    obtain ⟨ref, after, interned⟩ := library_succeeds present before
    exact ⟨some ref, after, (Resolution.named interned).run⟩
  | @generic _ _ _ id ids _ _ named others defined filled =>
    refine resolves_of_succeeds within fun before good => ?_
    obtain ⟨link, one, head, start, stands⟩ := defined (.part within List.mem_cons_self) before good
    obtain ⟨target, rfl⟩ := exists_ref stands named
    obtain ⟨links, two, tail, more, stand⟩ := resolves_all
      (fun argument among => filled argument among (.part within (List.mem_cons_of_mem _ among))) (good.steps start)
    have still := good.steps (start.trans more)
    obtain ⟨made, after, interned⟩ := built_succeeds (id ++ "<" ++ ",".intercalate ids ++ ">")
      { id := .null, name := .null, originalDefinition := some target, typeArguments := links } two
    have known := (idOf_run still (stands.grows (grows_of_steps more))).mpr ⟨named, rfl⟩
    exact ⟨some made, after, (Resolution.generic head tail known ((idsOf_run still stand).mpr ⟨others, rfl⟩) interned).run⟩
  | @array _ _ id _ named inner =>
    refine resolves_of_succeeds within fun before good => ?_
    obtain ⟨link, one, ran, start, stands⟩ := inner (.part within List.mem_cons_self) before good
    obtain ⟨target, rfl⟩ := exists_ref stands named
    obtain ⟨made, after, interned⟩ :=
      built_succeeds (id ++ "[]") { id := .null, name := .null, kind := .array, element := some target } one
    have known := (idOf_run (good.steps start) stands).mpr ⟨named, rfl⟩
    exact ⟨some made, after, (Resolution.array ran known interned).run⟩
  | @pointer _ _ id _ named inner =>
    refine resolves_of_succeeds within fun before good => ?_
    obtain ⟨link, one, ran, start, stands⟩ := inner (.part within List.mem_cons_self) before good
    obtain ⟨target, rfl⟩ := exists_ref stands named
    obtain ⟨made, after, interned⟩ :=
      built_succeeds (id ++ "*") { id := .null, name := .null, kind := .pointer, element := some target } one
    have known := (idOf_run (good.steps start) stands).mpr ⟨named, rfl⟩
    exact ⟨some made, after, (Resolution.pointer ran known interned).run⟩
  | @tuple elements ids _ others filled =>
    refine resolves_of_succeeds within fun before good => ?_
    obtain ⟨links, one, ran, start, stand⟩ := resolves_all (fun element among => filled element among (.part within among)) good
    obtain ⟨made, after, interned⟩ := built_succeeds ("(" ++ ",".intercalate ids ++ ")")
      { id := .null, name := .null, kind := .tuple, tupleElements := links } one
    have known := (idsOf_run (good.steps start) stand).mpr ⟨others, rfl⟩
    exact ⟨some made, after, (Resolution.tuple ran known interned).run⟩
  | @functionPointer _ _ ids _ _ others gives takes =>
    refine resolves_of_succeeds within fun before good => ?_
    obtain ⟨returned, one, head, start, stands⟩ := gives (.part within List.mem_cons_self) before good
    obtain ⟨links, two, tail, more, stand⟩ := resolves_all
      (fun parameter among => takes parameter among (.part within (List.mem_cons_of_mem _ among))) (good.steps start)
    have still := good.steps (start.trans more)
    have known := (idsOf_run still stand).mpr ⟨others, rfl⟩
    have ends := (resultOf_run still (stands.grows (grows_of_steps more))).mpr ⟨rfl, rfl⟩
    obtain ⟨link, after, made⟩ := signed_succeeds returned links _ two
    exact ⟨link, after, (Resolution.functionPointer head tail known ends made).run⟩

/-- A reference that was resolved is resolved from any other table. -/
theorem resolve_again (good : Good host types first) {reference : Reference} {link : Option TypeRef}
    (within : RefersWithin types reference) (ran : (resolve reference).run first = .ok (link, last))
    (ready : Good host others before) (also : RefersWithin others reference) :
    ∃ link after, (resolve reference).run before = .ok (link, after) := by
  obtain ⟨link, after, again, _⟩ := (resolvable_of_run good within ran).resolves also before ready
  exact ⟨link, after, again⟩

end Resolving

section Parts

variable {host : Host} {types others : List Document}

theorem constraints_ran {parameter : Document} (constraining : Constraining parameter)
    (ran : Ran host types (linkParameter parameter)) : Ran host types (typesOf (parameter.field "constraints")) := by
  obtain ⟨first, _, _, good, ran⟩ := ran
  obtain ⟨_, _, _, ⟨plain, _⟩ | ⟨_, constraints, middle, resolved, _⟩⟩ := linkParameter_run.mp ran
  · exact absurd constraining plain
  · exact ⟨first, constraints, middle, good, resolved⟩

variable (same : SameTypes types others)
include same

theorem resolve_gives {reference : Reference} (within : RefersWithin types reference)
    (ran : Ran host types (resolve reference)) :
    Gives host others (resolve reference) fun link => link.isSome = reference.name?.isSome := by
  obtain ⟨first, link, last, good, ran⟩ := ran
  have also := same.refersWithin within
  intro before ready
  obtain ⟨other, after, otherRan⟩ := resolve_again good within ran ready.good also
  obtain ⟨steps, stands⟩ := resolve_steps ready.good also otherRan
  exact ⟨other, after, otherRan, steps, stands.isSome⟩

theorem typeOf_gives {value : Document} (within : RefersWithin types (.ofDocument value))
    (ran : Ran host types (typeOf value)) : Gives host others (typeOf value) fun _ => True :=
  (resolve_gives same within ran).imp fun _ _ => trivial

theorem typesOf_gives {value other : Document} (reordered : Reordered value other)
    (within : ∀ reference ∈ refersIn value, RefersWithin types reference) (ran : Ran host types (typesOf value)) :
    Gives host others (typesOf other) fun _ => True := by
  have inside : ∀ reference ∈ refersIn other, RefersWithin types reference := fun reference among =>
    within reference ((reordered.perm.map _).mem_iff.mpr among)
  obtain ⟨listed, each⟩ := ran_each (fun element among _ _ _ good ran =>
    (resolve_steps good (within _ (List.mem_map_of_mem among)) ran).1) ran
  have succeeds : Succeeds host others (typesOf other) :=
    succeeds_each (reordered.listed listed) fun element among =>
      typeOf_gives same (inside _ (List.mem_map_of_mem among)) (each element (reordered.perm.mem_iff.mpr among))
  exact succeeds.gives fun _ _ _ good ran =>
    ⟨(typesOf_steps good (fun reference among => same.refersWithin (inside reference among)) ran).1, trivial⟩

theorem parameterOf_gives {entry value : Document}
    (within : ∀ reference ∈ parameterRefs value, RefersWithin types reference) (among : entry ∈ looped value)
    (ran : Ran host types (parameterOf entry)) : Gives host others (parameterOf entry) fun _ => True := by
  have all := fun reference inside => within reference (List.mem_flatMap.mpr ⟨entry, among, inside⟩)
  have succeeds : Succeeds host others (parameterOf entry) := by
    unfold parameterOf at ran ⊢
    split at ran
    · next entries mapping =>
      simp only [mapping] at all ⊢
      have typed := all _ List.mem_cons_self
      have given := all _ (List.mem_cons_of_mem _ List.mem_cons_self)
      obtain ⟨one, _, ran⟩ := ran_bind ran fun _ _ _ good ran => (resolve_steps good typed ran).1
      obtain ⟨two, _⟩ := ran_bind ran fun _ _ _ good ran => (resolve_steps good given ran).1
      exact succeeds_bind (typeOf_gives same typed one) fun _ _ =>
        succeeds_bind (typeOf_gives same given two) fun _ _ => succeeds_pure _
    · next single =>
      simp only [single] at all ⊢
      have typed := all _ List.mem_cons_self
      obtain ⟨one, _⟩ := ran_bind ran fun _ _ _ good ran => (resolve_steps good typed ran).1
      exact succeeds_bind (typeOf_gives same typed one) fun _ _ => succeeds_pure _
  exact succeeds.gives fun _ _ _ good ran =>
    ⟨(parameterOf_steps good (fun reference inside => same.refersWithin (within reference inside)) among ran).1, trivial⟩

theorem parametersOf_gives {value : Document} (within : ∀ reference ∈ parameterRefs value, RefersWithin types reference)
    (ran : Ran host types (parametersOf value)) : Gives host others (parametersOf value) fun _ => True := by
  obtain ⟨listed, each⟩ := ran_each (fun element among _ _ _ good ran => (parameterOf_steps good within among ran).1)
    (show Ran host types (do (← loop value).mapM parameterOf) from ran)
  have succeeds : Succeeds host others (parametersOf value) :=
    succeeds_each listed fun element among => parameterOf_gives same within among (each element among)
  exact succeeds.gives fun _ _ _ good ran =>
    ⟨(parametersOf_steps good (fun reference inside => same.refersWithin (within reference inside)) ran).1, trivial⟩

theorem linkParameter_again {parameter : Document} {before : Loading} {key : Key} {ref : TypeRef}
    (within : ParameterWithin types parameter) (ran : Ran host types (linkParameter parameter))
    (ready : Ready host others before) (keyed : (parameterId parameter).key? = some key)
    (found : before.ids.lookup key = some ref) : ∃ value after, (linkParameter parameter).run before = .ok (value, after) := by
  by_cases constraining : Constraining parameter
  · obtain ⟨constraints, middle, again, _, _⟩ := typesOf_gives same (Or.inl rfl)
      (fun _ among => .constraint within constraining among) (constraints_ran constraining ran) before ready
    exact ⟨ref, _, linkParameter_run.mpr
      ⟨key, keyed, found, Or.inr ⟨constraining, constraints, middle, again, rfl⟩⟩⟩
  · exact ⟨ref, before, linkParameter_run.mpr ⟨key, keyed, found, Or.inl ⟨constraining, rfl⟩⟩⟩

theorem methodParameter_gives {parameter : Document} (within : ParameterWithin types parameter)
    (ran : Ran host types (methodParameter parameter)) : Gives host others (methodParameter parameter) fun _ => True := by
  obtain ⟨first, link, last, good, ran⟩ := ran
  obtain ⟨parametric, key, middle, ref, keyed, entering, linked, _⟩ := methodParameter_run.mp ran
  -- The id counts as set, because it was entered or because a symbol was found under it.
  have set : (parameterId parameter).isSet = true ∧ Good host types middle := by
    rcases entering with ⟨_, declared⟩ | ⟨known, rfl⟩
    · obtain ⟨_, set, _⟩ := declareParameter_run.mp declared
      exact ⟨set, good.steps (declareParameter_steps within declared)⟩
    · obtain ⟨place, found⟩ := Option.isSome_iff_exists.mp known
      obtain ⟨fresh, _, _, arises⟩ := good.arises key place found
      exact ⟨(Document.isSet_of_key? keyed arises.origin.keyed).trans arises.origin.set, good⟩
  have linkedRan : Ran host types (linkParameter parameter) := ⟨middle, ref, last, set.2, linked⟩
  have succeeds : Succeeds host others (methodParameter parameter) := by
    intro before ready
    cases found : before.ids.lookup key with
    | some place =>
      obtain ⟨value, after, again⟩ := linkParameter_again same within linkedRan ready keyed found
      exact ⟨some value, after, methodParameter_run.mpr ⟨parametric, key, before, value, keyed,
        Or.inr ⟨by rw [found]; rfl, rfl⟩, again, rfl⟩⟩
    | none =>
      have declared : (declareParameter parameter).run before = .ok ((), before.entered key (parameterSymbol parameter)) :=
        declareParameter_run.mpr ⟨key, set.1, keyed, found, rfl⟩
      have there : (before.entered key (parameterSymbol parameter)).ids.lookup key = some before.table.types.size := by
        rw [lookup_entered, found]
        simp
      obtain ⟨value, after, again⟩ := linkParameter_again same within linkedRan
        (ready.steps (declareParameter_steps (same.parameterWithin within) declared)) keyed there
      exact ⟨some value, after, methodParameter_run.mpr ⟨parametric, key, _, value, keyed, Or.inl ⟨found, declared⟩, again,
        rfl⟩⟩
  exact succeeds.gives fun _ _ _ good ran => ⟨(methodParameter_steps good (same.parameterWithin within) ran).1, trivial⟩

theorem methodParameters_gives {value : Document} (within : ∀ parameter ∈ looped value, ParameterWithin types parameter)
    (ran : Ran host types (methodParameters value)) : Gives host others (methodParameters value) fun _ => True := by
  obtain ⟨listed, each⟩ := ran_each (fun element among _ _ _ good ran =>
    (methodParameter_steps good (within element among) ran).1)
    (show Ran host types (do (← loop value).mapM methodParameter) from ran)
  have succeeds : Succeeds host others (methodParameters value) :=
    succeeds_each listed fun element among => methodParameter_gives same (within element among) (each element among)
  exact succeeds.gives fun _ _ _ good ran =>
    ⟨(methodParameters_steps good (fun parameter among => same.parameterWithin (within parameter among)) ran).1, trivial⟩

end Parts

section Methods

variable {host : Host} {types others : List Document}

/-- What is read of methods with some fuel is read again with other fuel that is enough for them. -/
def ReadsAgain (host : Host) (types others : List Document) (fuel otherFuel : Nat) : Prop :=
  ∀ entry id, MethodWithin types entry → BodiesWithin otherFuel entry → Ran host types (method fuel entry id) →
    Gives host others (method otherFuel entry id) fun _ => True

theorem bodiesWithin_of_ran {fuel : Nat} {entry id : Document} (within : MethodWithin types entry)
    (ran : Ran host types (method fuel entry id)) : BodiesWithin fuel entry := by
  obtain ⟨_, _, _, good, ran⟩ := ran
  exact bodiesWithin_of_methodIs (method_steps fuel _ _ _ _ _ good within ran).2.1

theorem ran_innerIdOf {α : Type} {id reference : Document} {index : Nat} {kind : ReferenceKind} {next : Document → Load α}
    (ran : Ran host types (innerIdOf id reference index kind >>= next)) :
    Gives host others (innerIdOf id reference index kind) (fun given => innerId id reference index kind = given)
      ∧ Ran host types (next (innerId id reference index kind)) := by
  obtain ⟨first, result, last, good, ran⟩ := ran
  obtain ⟨_, _, named, ran⟩ := bind_run.mp ran
  obtain ⟨known, rfl, rfl⟩ := innerIdOf_run.mp named
  exact ⟨fun before _ => ⟨_, before, innerIdOf_run.mpr ⟨known, rfl, rfl⟩, .refl, rfl⟩, first, result, last, good, ran⟩

theorem gives_pure {α : Type} (value : α) : Gives host others (pure value : Load α) fun _ => True :=
  fun before _ => ⟨value, before, pure_run.mpr ⟨rfl, rfl⟩, .refl, trivial⟩

theorem bodyReference_gives (same : SameTypes types others) {fuel otherFuel : Nat}
    (reads : ReadsAgain host types others fuel otherFuel) {outer entry id : Document} {index : Nat}
    (within : MethodWithin types outer) (enough : BodiesWithin (otherFuel + 1) outer)
    (listed : entry ∈ looped (outer.field "body")) (ran : Ran host types (bodyReference fuel entry id index)) :
    Gives host others (bodyReference otherFuel entry id index) fun _ => True := by
  have typed := RefersWithin.occurrence within listed
  have ends (kind : ReferenceKind) (nested other : Option MethodRef) (ran : Ran host types (referenceEnd entry kind nested)) :
      Succeeds host others (referenceEnd entry kind other) := by
    obtain ⟨resolved, _⟩ := ran_bind ran fun _ _ _ good ran => (resolve_steps good typed ran).1
    exact succeeds_bind (typeOf_gives same typed resolved) fun _ _ => succeeds_pure _
  have succeeds : Succeeds host others (bodyReference otherFuel entry id index) := by
    rw [bodyReference_eq] at ran ⊢
    split at ran
    · exact absurd ran not_ran_refuse
    · next kind known =>
      split at ran
      · next nests =>
        rw [if_pos nests]
        split at ran
        · next mapping =>
          rw [if_pos mapping]
          have inside : MethodWithin types (innerMethod entry) := within.inner listed nests
          obtain ⟨named, ran⟩ := ran_innerIdOf ran
          obtain ⟨read, nested, ran⟩ := ran_bind ran fun _ _ _ good ran => by
            obtain ⟨_, ran, _⟩ := map_run.mp ran
            exact (method_steps fuel _ _ _ _ _ good inside ran).1
          refine succeeds_bind named fun _ called => ?_
          subst called
          have again := reads _ _ inside (enough entry listed nests) (ran_map read)
          exact succeeds_bind (gives_map again) fun other _ => ends kind nested other ran
        · exact absurd ran not_ran_refuse
      · next plain =>
        rw [if_neg plain]
        exact ends kind none none ran
  exact succeeds.gives fun _ _ _ good ran =>
    ⟨(bodyReference_steps (method_steps otherFuel) good (same.methodWithin within) listed ran).1, trivial⟩

theorem bodyOf_gives (same : SameTypes types others) {fuel otherFuel : Nat}
    (reads : ReadsAgain host types others fuel otherFuel) {outer id : Document} (within : MethodWithin types outer)
    (enough : BodiesWithin (otherFuel + 1) outer) (ran : Ran host types (bodyOf fuel (outer.field "body") id)) :
    Gives host others (bodyOf otherFuel (outer.field "body") id) fun _ => True := by
  have succeeds : Succeeds host others (bodyOf otherFuel (outer.field "body") id) := by
    rw [bodyOf] at ran ⊢
    obtain ⟨before, _, _, good, ran⟩ := ran
    obtain ⟨_, _, met, ran⟩ := bind_run.mp ran
    obtain ⟨rfl, listed, rfl⟩ := loop_run.mp met
    have each := ran_mapM good (fun (pair : Document × Nat) among _ _ _ good ran =>
      (bodyReference_steps (method_steps fuel) good within (List.fst_mem_of_mem_zipIdx among) ran).1) ran
    refine succeeds_bind (gives_loop listed) fun elements same' => ?_
    subst same'
    exact succeeds_mapM fun pair among =>
      bodyReference_gives same reads within enough (List.fst_mem_of_mem_zipIdx among) (each pair among)
  exact succeeds.gives fun _ _ _ good ran =>
    ⟨(bodyOf_steps (method_steps otherFuel) good (same.methodWithin within) ran).1, trivial⟩

theorem methodBody_gives (same : SameTypes types others) {fuel otherFuel : Nat}
    (reads : ReadsAgain host types others fuel otherFuel) {outer id : Document} (within : MethodWithin types outer)
    (enough : BodiesWithin (otherFuel + 1) outer) (ran : Ran host types (methodBody fuel outer id)) :
    Gives host others (methodBody otherFuel outer id) fun _ => True := by
  unfold methodBody at ran ⊢
  split at ran
  · next whole =>
    rw [if_pos whole]
    exact gives_map (bodyOf_gives same reads within enough (ran_map ran))
  · next bodyless =>
    rw [if_neg bodyless]
    exact gives_pure none

theorem methodEnd_again (same : SameTypes types others) {entry id : Document} (within : MethodWithin types entry)
    {typeParameters given : List (Option TypeRef)} {body other : Option (List BodyReference)}
    (ran : Ran host types (methodEnd entry id typeParameters body)) :
    Succeeds host others (methodEnd entry id given other) := by
  have returns := RefersWithin.returnType within
  have takes := RefersWithin.parameters within
  have marked := RefersWithin.methodAttributes within
  obtain ⟨one, _, ran⟩ := ran_bind ran fun _ _ _ good ran => (resolve_steps good returns ran).1
  obtain ⟨two, _, ran⟩ := ran_bind ran fun _ _ _ good ran => (parametersOf_steps good takes ran).1
  obtain ⟨three, _⟩ := ran_bind ran fun _ _ _ good ran => (typesOf_steps good marked ran).1
  exact succeeds_bind (typeOf_gives same returns one) fun _ _ =>
    succeeds_bind (parametersOf_gives same takes two) fun _ _ =>
    succeeds_bind (typesOf_gives same (Or.inl rfl) marked three) fun _ _ before _ => ⟨_, _, enterMethod_run.mpr ⟨rfl, rfl⟩⟩

/-- A method is read again, whatever was read before it, if the fuel is enough for the methods in its body. -/
theorem method_gives (same : SameTypes types others) (fuel otherFuel : Nat) : ReadsAgain host types others fuel otherFuel := by
  induction fuel generalizing otherFuel with
  | zero =>
    intro entry id _ _ ran
    rw [method] at ran
    exact absurd ran not_ran_throw
  | succ fuel ih =>
    intro entry id within enough ran
    obtain _ | otherFuel := otherFuel
    · exact enough.elim
    have succeeds : Succeeds host others (method (otherFuel + 1) entry id) := by
      rw [method_succ] at ran ⊢
      obtain ⟨parametersRan, typeParameters, ran⟩ := ran_bind ran fun _ _ _ good ran =>
        (methodParameters_steps good (fun _ among => .method within among) ran).1
      obtain ⟨bodyRan, body, ran⟩ := ran_bind ran fun _ _ _ good ran => (methodBody_steps (method_steps fuel) good within ran).1
      exact succeeds_bind (methodParameters_gives same (fun _ among => .method within among) parametersRan) fun _ _ =>
        succeeds_bind (methodBody_gives same (ih otherFuel) within enough bodyRan) fun _ _ => methodEnd_again same within ran
    exact succeeds.gives fun _ _ _ good ran => ⟨(method_steps _ _ _ _ _ _ good (same.methodWithin within) ran).1, trivial⟩

end Methods

section Members

variable {host : Host} {types others : List Document}

theorem memberId_given {entry id : Document} (given : (entry.field "id").ifSet = some id) (owner : Document) (index : Nat) :
    memberId owner entry index = pure id := by
  rw [memberId, given]

theorem member_gives (same : SameTypes types others) {fuel otherFuel : Nat} {owner entry id : Document} {index : Nat}
    (otherIndex : Nat) (within : MemberWithin types entry) (enough : fuel ≤ otherFuel ∨ BodiesWithin otherFuel entry)
    (given : (entry.field "id").ifSet = some id) (ran : Ran host types (member fuel owner entry index)) :
    Gives host others (member otherFuel owner entry otherIndex) fun _ => True := by
  have succeeds : Succeeds host others (member otherFuel owner entry otherIndex) := by
    rw [member, memberId_given given] at ran ⊢
    rw [pure_bind] at ran ⊢
    have marked := RefersWithin.memberAttributes within
    split at ran
    · obtain ⟨attributesRan, attributes, ran⟩ := ran_bind ran fun _ _ _ good ran => (typesOf_steps good marked ran).1
      refine succeeds_bind (typesOf_gives same (Or.inl rfl) marked attributesRan) fun other _ => ?_
      dsimp only at ran ⊢
      split at ran
      · next kind =>
        have typed := RefersWithin.memberType within kind (by simp)
        obtain ⟨typeRan, _⟩ := ran_bind ran fun _ _ _ good ran => (resolve_steps good typed ran).1
        exact succeeds_bind (typeOf_gives same typed typeRan) fun _ _ => succeeds_pure _
      · next kind =>
        have typed := RefersWithin.memberType within kind (by simp)
        have takes := RefersWithin.indices within kind
        obtain ⟨typeRan, _, ran⟩ := ran_bind ran fun _ _ _ good ran => (resolve_steps good typed ran).1
        obtain ⟨parametersRan, _⟩ := ran_bind ran fun _ _ _ good ran => (parametersOf_steps good takes ran).1
        exact succeeds_bind (typeOf_gives same typed typeRan) fun _ _ =>
          succeeds_bind (parametersOf_gives same takes parametersRan) fun _ _ => succeeds_pure _
      · next kind =>
        have typed := RefersWithin.memberType within kind (by simp)
        obtain ⟨typeRan, _⟩ := ran_bind ran fun _ _ _ good ran => (resolve_steps good typed ran).1
        exact succeeds_bind (typeOf_gives same typed typeRan) fun _ _ => succeeds_pure _
      · next kind =>
        have inside : MethodWithin types entry := ⟨entry, within, kind, .self⟩
        have deep : BodiesWithin otherFuel entry := enough.elim (bodiesWithin_of_ran inside (ran_map ran)).mono fun deep => deep
        exact succeeds_map (method_gives same fuel otherFuel _ _ inside deep (ran_map ran)).succeeds
      · next kind =>
        have typed := RefersWithin.memberType within kind (by simp)
        obtain ⟨first, _, last, good, ran⟩ := ran
        obtain ⟨link, middle, resolved, ran⟩ := bind_run.mp ran
        obtain ⟨steps, stands⟩ := resolve_steps good typed resolved
        cases link with
        | none => exact absurd ran refuse_run
        | some ref =>
          refine succeeds_bind (resolve_gives same typed ⟨first, some ref, middle, good, resolved⟩) fun other there => ?_
          obtain ⟨target, rfl⟩ := Option.isSome_iff_exists.mp (there.trans stands.isSome.symm)
          exact succeeds_pure _
      · exact absurd ran not_ran_refuse
    · exact absurd ran not_ran_refuse
  exact succeeds.gives fun _ _ _ good ran => ⟨(member_steps good (same.memberWithin within) ran).1, trivial⟩

theorem linked_succeeds {α : Type} (link : Link) {entry : Document} {key : Key} {ref : TypeRef} {before : Loading}
    {op : Load α} {change : α → TypeSymbol → TypeSymbol} {next : α → Load Unit} (listed : entry ∈ types)
    (keyed : (entry.field "id").key? = some key) (ready : Ready host types before)
    (found : before.ids.lookup key = some ref) (gives : Gives host types op fun _ => True)
    (sets : ∀ value symbol, Sets link symbol (change value symbol))
    (reads : ∀ value middle, op.run before = .ok (value, middle) → ∀ symbol, link.Is middle entry (change value symbol))
    (rest : ∀ value middle, Ready host types middle → middle.ids.lookup key = some ref →
      ∃ after, (next value).run middle = .ok ((), after)) :
    ∃ after, (op >>= fun value => update ref (change value) >>= fun _ => next value).run before = .ok ((), after) := by
  obtain ⟨value, first, ran, one, _⟩ := gives before ready
  have still := (grows_of_steps one).ids key ref found
  have updated : (update ref (change value)).run first = .ok ((), first.changed ref (change value)) := update_run.mpr rfl
  obtain ⟨two, _⟩ := update_steps link (ready.good.steps one) listed keyed still updated (sets value) (reads value first ran)
  obtain ⟨after, last⟩ := rest value _ (ready.steps (one.trans two)) ((grows_of_steps two).ids key ref still)
  exact ⟨after, bind_run.mpr ⟨value, first, ran, bind_run.mpr ⟨(), _, updated, last⟩⟩⟩

theorem linkParameters_steps {before after : Loading} (good : Good host types before) {parameters : List Document}
    {refs : List TypeRef} (within : ∀ parameter ∈ parameters, ParameterWithin types parameter)
    (ran : (parameters.mapM linkParameter).run before = .ok (refs, after)) :
    Steps host types before after ∧ List.Forall₂ (ParameterIs after.ids) parameters (refs.map some) := by
  obtain ⟨steps, known⟩ := mapM_steps (fun loading parameter ref => Known types loading parameter (some ref)) good
    (fun _ _ good steps _ _ known => known_steps good steps known)
    (fun parameter among _ _ _ good ran => linkParameter_steps good (within parameter among) ran) ran
  exact ⟨steps, List.forall₂_map_right_iff.mpr (known.imp fun _ _ known => known.1)⟩

theorem linkParameter_gives (same : SameTypes types others) {entry other parameter : Document} (listed : entry ∈ types)
    (also : other ∈ others) (alike : SameEntry entry other) (among : parameter ∈ looped (entry.field "type_parameters"))
    (ran : Ran host types (linkParameter parameter)) : Gives host others (linkParameter parameter) fun _ => True := by
  have within : ParameterWithin types parameter := .type listed among
  intro before ready
  have inside : parameter ∈ looped (other.field "type_parameters") := by
    rwa [alike.fields "type_parameters" (by decide) (by decide)]
  obtain ⟨key, ref, _, keyed, found, _⟩ := ready.entered other also parameter inside
  obtain ⟨value, after, again⟩ := linkParameter_again same within ran ready keyed found
  exact ⟨value, after, again, (linkParameter_steps ready.good (same.parameterWithin within) again).1, trivial⟩

theorem members_gives (same : SameTypes types others) {fuel otherFuel : Nat} {entry other : Document} (listed : entry ∈ types)
    (also : other ∈ others)
    (enough : fuel ≤ otherFuel ∨ ∀ member ∈ looped (entry.field "members"), BodiesWithin otherFuel member)
    (alike : SameEntry entry other) (given : ∀ member ∈ looped (entry.field "members"), (member.field "id").isSet = true)
    (ran : ∀ pair ∈ (looped (entry.field "members")).zipIdx, Ran host types (member fuel (entry.field "id") pair.1 pair.2)) :
    Gives host others ((looped (other.field "members")).zipIdx.mapM fun pair =>
      Load.member otherFuel (other.field "id") pair.1 pair.2) fun _ => True := by
  refine (succeeds_mapM fun (pair : Document × Nat) among => ?_).gives fun _ _ _ good ran => ⟨?_, trivial⟩
  · have inside : pair.1 ∈ looped (entry.field "members") :=
      alike.members.perm.mem_iff.mpr (List.fst_mem_of_mem_zipIdx among)
    obtain ⟨index, place⟩ := exists_mem_zipIdx inside
    rw [alike.fields "id" (by decide) (by decide)]
    exact member_gives same pair.2 ⟨entry, listed, inside⟩ (enough.imp_right fun deep => deep pair.1 inside)
      (if_pos (given pair.1 inside)) (ran (pair.1, index) place)
  · exact (mapM_steps (fun loading (pair : Document × Nat) given =>
        MemberIs loading otherFuel (other.field "id") pair.1 pair.2 given) good
      (fun _ _ _ steps _ _ is => is.grows (grows_of_steps steps))
      (fun pair among _ _ _ good ran =>
        (member_steps good ⟨other, also, List.fst_mem_of_mem_zipIdx among⟩ ran).imp_right And.left) ran).1

theorem linkType_gives (same : SameTypes types others) (apart : Apart others) {fuel otherFuel : Nat}
    {entry other : Document} (listed : entry ∈ types) (also : other ∈ others)
    (enough : fuel ≤ otherFuel ∨ ∀ member ∈ looped (entry.field "members"), BodiesWithin otherFuel member)
    (alike : SameEntry entry other) (parametersListed : (other.field "type_parameters").isSet = true →
      (other.field "type_parameters").elements?.isSome = true)
    (given : ∀ member ∈ looped (entry.field "members"), (member.field "id").isSet = true)
    (parts : PartsRan host types fuel entry) : Gives host others (linkType otherFuel other) fun _ => True := by
  have field := fun name notMembers notInterfaces => alike.fields name notMembers notInterfaces
  have succeeds : Succeeds host others (linkType otherFuel other) := by
    intro before ready
    obtain ⟨key, ref, _, _, _, keyed, _, found, _, _⟩ := ready.declared other also
    have base : Gives host others (typeOf (other.field "base")) fun _ => True :=
      field "base" (by decide) (by decide) ▸ typeOf_gives same (.base listed) parts.base
    have interfaces : Gives host others (typesOf (other.field "interfaces")) fun _ => True :=
      typesOf_gives same alike.interfaces (RefersWithin.interfaces listed) parts.interfaces
    have typeArguments : Gives host others (typesOf (other.field "type_arguments")) fun _ => True :=
      field "type_arguments" (by decide) (by decide) ▸
        typesOf_gives same (Or.inl rfl) (RefersWithin.typeArguments listed) parts.typeArguments
    have attributes : Gives host others (typesOf (other.field "attributes")) fun _ => True :=
      field "attributes" (by decide) (by decide) ▸
        typesOf_gives same (Or.inl rfl) (RefersWithin.attributes listed) parts.attributes
    have within : ∀ parameter ∈ looped (other.field "type_parameters"), ParameterWithin others parameter :=
      fun _ among => .type also among
    have parameters : Gives host others ((looped (other.field "type_parameters")).mapM linkParameter) fun _ => True := by
      refine (succeeds_mapM fun parameter among => ?_).gives fun _ _ _ good ran =>
        ⟨(linkParameters_steps good within ran).1, trivial⟩
      rw [field "type_parameters" (by decide) (by decide)] at among
      exact linkParameter_gives same listed also alike among (parts.parameters parameter among)
    have members : Gives host others ((looped (other.field "members")).zipIdx.mapM fun pair =>
        Load.member otherFuel (other.field "id") pair.1 pair.2) fun _ => True :=
      members_gives same listed also enough alike given parts.members
    suffices linked : ∃ after, (linkType otherFuel other).run before = .ok ((), after) by
      obtain ⟨after, ran⟩ := linked
      exact ⟨(), after, ran⟩
    -- Each link is set from what was read alike, and the table that is left is ready for the next.
    refine exists_bind_run (known_run.mpr ⟨⟨key, keyed, found⟩, rfl⟩) ?_
    refine linked_succeeds .base also keyed ready found base sets_base
      (fun _ _ ran _ => (resolve_steps ready.good (.base also) ran).2) fun _ first ready found => ?_
    refine linked_succeeds .interfaces also keyed ready found interfaces sets_interfaces
      (fun _ _ ran _ => (typesOf_steps ready.good (RefersWithin.interfaces also) ran).2)
      fun _ second ready found => ?_
    refine exists_bind_run (loop_run.mpr ⟨rfl, parametersListed, rfl⟩) ?_
    refine linked_succeeds .typeParameters also keyed ready found parameters (fun _ => sets_typeParameters _)
      (fun _ _ ran _ => (linkParameters_steps ready.good within ran).2) fun _ third ready found => ?_
    refine linked_succeeds .typeArguments also keyed ready found typeArguments sets_typeArguments
      (fun _ _ ran _ => (typesOf_steps ready.good (RefersWithin.typeArguments also) ran).2)
      fun _ fourth ready found => ?_
    refine linked_succeeds .attributes also keyed ready found attributes sets_attributes
      (fun _ _ ran _ => (typesOf_steps ready.good (RefersWithin.attributes also) ran).2)
      fun _ fifth ready found => ?_
    refine exists_bind_run (loop_run.mpr ⟨rfl, alike.members.listed parts.membersListed, rfl⟩) ?_
    obtain ⟨given, sixth, ran, _⟩ := members fifth ready
    exact exists_bind_run ran ⟨_, update_run.mpr rfl⟩
  exact succeeds.gives fun _ _ _ good ran => ⟨(linkType_steps good apart also ran).1, trivial⟩

end Members

section Declaring

variable {host : Host} {types others : List Document} {before middle after : Loading} {keys more : List (Option Key)}

/-- Different keys under which nothing stands yet. -/
structure Fresh (keys : List (Option Key)) (loading : Loading) : Prop where
  given : none ∉ keys
  distinct : keys.Nodup
  new : ∀ key, some key ∈ keys → loading.ids.lookup key = none

structure Enters (keys : List (Option Key)) (before after : Loading) : Prop where
  fresh : Fresh keys before
  path : after.path = before.path
  ids : ∀ key, after.ids.lookup key = none ↔ before.ids.lookup key = none ∧ some key ∉ keys

theorem Fresh.perm (fresh : Fresh keys before) (perm : keys.Perm more) : Fresh more before where
  given among := fresh.given (perm.mem_iff.mpr among)
  distinct := perm.nodup_iff.mp fresh.distinct
  new key among := fresh.new key (perm.mem_iff.mpr among)

theorem Fresh.left (fresh : Fresh (keys ++ more) before) : Fresh keys before where
  given among := fresh.given (List.mem_append_left _ among)
  distinct := (List.nodup_append.mp fresh.distinct).1
  new key among := fresh.new key (List.mem_append_left _ among)

theorem Fresh.right (fresh : Fresh (keys ++ more) before) (enters : Enters keys before after) : Fresh more after where
  given among := fresh.given (List.mem_append_right _ among)
  distinct := (List.nodup_append.mp fresh.distinct).2.1
  new key among := (enters.ids key).mpr ⟨fresh.new key (List.mem_append_right _ among), fun first =>
    (List.nodup_append.mp fresh.distinct).2.2 _ first _ among rfl⟩

theorem Enters.refl (loading : Loading) : Enters [] loading loading := ⟨⟨by simp, by simp, by simp⟩, rfl, by simp⟩

theorem Enters.append (first : Enters keys before middle) (second : Enters more middle after) :
    Enters (keys ++ more) before after where
  fresh :=
    { given := fun among => (List.mem_append.mp among).elim first.fresh.given second.fresh.given
      distinct := by
        refine List.nodup_append.mpr ⟨first.fresh.distinct, second.fresh.distinct, ?_⟩
        rintro key among _ later rfl
        cases key with
        | none => exact first.fresh.given among
        | some key => exact ((first.ids key).mp (second.fresh.new key later)).2 among
      new := fun key among => (List.mem_append.mp among).elim (first.fresh.new key) fun later =>
        ((first.ids key).mp (second.fresh.new key later)).1 }
  path := second.path.trans first.path
  ids key := by
    rw [second.ids, first.ids, List.mem_append, not_or, and_assoc]

theorem enters_entered {key : Key} {symbol : TypeSymbol} (new : before.ids.lookup key = none) :
    Enters [some key] before (before.entered key symbol) where
  fresh := ⟨by simp, by simp, by simpa using new⟩
  path := rfl
  ids other := by
    rw [lookup_entered, Option.or_eq_none_iff]
    simp

variable {α : Type} {f : α → Load Unit} {keysOf : α → List (Option Key)} {holds : α → Prop} {values : List α}

theorem forM_enters (each : ∀ value ∈ values, ∀ first second, first.path = before.path →
      (f value).run first = .ok ((), second) → holds value ∧ Enters (keysOf value) first second)
    (ran : (values.forM f).run before = .ok ((), after)) :
    (∀ value ∈ values, holds value) ∧ Enters (values.flatMap keysOf) before after := by
  induction values generalizing before with
  | nil =>
    obtain ⟨_, rfl⟩ := pure_run.mp ran
    exact ⟨by simp, .refl _⟩
  | cons value rest ih =>
    obtain ⟨_, middle, first, ran⟩ := bind_run.mp (show (f value >>= fun _ => rest.forM f).run before = _ from ran)
    obtain ⟨held, enters⟩ := each value List.mem_cons_self before middle rfl first
    obtain ⟨all, later⟩ := ih (fun other among first second same =>
      each other (List.mem_cons_of_mem _ among) first second (same.trans enters.path)) ran
    rw [List.flatMap_cons]
    exact ⟨List.forall_mem_cons.mpr ⟨held, all⟩, enters.append later⟩

theorem forM_of_fresh (each : ∀ value ∈ values, ∀ first, first.path = before.path → Fresh (keysOf value) first →
      ∃ second, (f value).run first = .ok ((), second) ∧ Enters (keysOf value) first second)
    (fresh : Fresh (values.flatMap keysOf) before) : ∃ after, (values.forM f).run before = .ok ((), after) := by
  induction values generalizing before with
  | nil => exact ⟨before, pure_run.mpr ⟨rfl, rfl⟩⟩
  | cons value rest ih =>
    rw [List.flatMap_cons] at fresh
    obtain ⟨middle, first, enters⟩ := each value List.mem_cons_self before rfl fresh.left
    obtain ⟨after, ran⟩ := ih (fun other among first same =>
      each other (List.mem_cons_of_mem _ among) first (same.trans enters.path)) (fresh.right enters)
    exact ⟨after, show (f value >>= fun _ => rest.forM f).run before = _ from bind_run.mpr ⟨(), middle, first, ran⟩⟩

def entryKeys (entry : Document) : List (Option Key) :=
  (entry.field "id").key? :: (looped (entry.field "type_parameters")).map fun parameter => (parameterId parameter).key?

structure Declarable (host : Host) (path : String) (entry : Document) : Prop where
  set : (entry.field "id").isSet = true
  located : ∃ file, FileOf host path entry file
  listed : (entry.field "type_parameters").isSet = true → (entry.field "type_parameters").elements?.isSome = true
  parameters : ∀ parameter ∈ looped (entry.field "type_parameters"), (parameterId parameter).isSet = true

theorem declareParameter_enters {parameter : Document} (ran : (declareParameter parameter).run before = .ok ((), after)) :
    (parameterId parameter).isSet = true ∧ Enters [(parameterId parameter).key?] before after := by
  obtain ⟨key, set, keyed, new, rfl⟩ := declareParameter_run.mp ran
  rw [keyed]
  exact ⟨set, enters_entered new⟩

theorem declareParameter_of_fresh {parameter : Document} (set : (parameterId parameter).isSet = true)
    (fresh : Fresh [(parameterId parameter).key?] before) : ∃ after, (declareParameter parameter).run before = .ok ((), after)
      ∧ Enters [(parameterId parameter).key?] before after := by
  cases keyed : (parameterId parameter).key? with
  | none => exact absurd (by rw [keyed]; exact List.mem_cons_self) fresh.given
  | some key =>
    have new := fresh.new key (by rw [keyed]; exact List.mem_cons_self)
    exact ⟨_, declareParameter_run.mpr ⟨key, set, keyed, new, rfl⟩, enters_entered new⟩

theorem declareType_enters {entry : Document} (ran : (declareType host entry).run before = .ok ((), after)) :
    Declarable host before.path entry ∧ Enters (entryKeys entry) before after := by
  obtain ⟨key, file, set, keyed, new, located, listed, ran⟩ := declareType_run.mp ran
  obtain ⟨parameters, enters⟩ := forM_enters (fun _ _ _ _ _ ran => declareParameter_enters ran) ran
  rw [← List.map_eq_flatMap] at enters
  refine ⟨⟨set, ⟨file, located⟩, listed, parameters⟩, ?_⟩
  rw [entryKeys, keyed]
  exact (enters_entered new).append enters

theorem declareType_of_fresh {entry : Document} (declarable : Declarable host before.path entry)
    (fresh : Fresh (entryKeys entry) before) :
    ∃ after, (declareType host entry).run before = .ok ((), after) ∧ Enters (entryKeys entry) before after := by
  obtain ⟨file, located⟩ := declarable.located
  rw [entryKeys] at fresh
  cases keyed : (entry.field "id").key? with
  | none => exact absurd (by rw [keyed]; exact List.mem_cons_self) fresh.given
  | some key =>
    have new := fresh.new key (by rw [keyed]; exact List.mem_cons_self)
    have first : Enters [(entry.field "id").key?] before (before.entered key (typeSymbol entry file)) := by
      rw [keyed]
      exact enters_entered new
    have rest := Fresh.right (show Fresh ([(entry.field "id").key?] ++ _) before from fresh) first
    rw [List.map_eq_flatMap] at rest
    obtain ⟨after, ran⟩ := forM_of_fresh (fun parameter among _ _ fresh =>
      declareParameter_of_fresh (declarable.parameters parameter among) fresh) rest
    have whole : (declareType host entry).run before = .ok ((), after) :=
      declareType_run.mpr ⟨key, file, declarable.set, keyed, new, located, declarable.listed, ran⟩
    exact ⟨after, whole, (declareType_enters whole).2⟩

theorem entryKeys_of_same {entry other : Document} (same : SameEntry entry other) : entryKeys other = entryKeys entry := by
  rw [entryKeys, entryKeys, same.fields "id" (by decide) (by decide), same.fields "type_parameters" (by decide) (by decide)]

theorem declarable_of_same {path : String} {entry other : Document} (same : SameEntry entry other)
    (declarable : Declarable host path entry) : Declarable host path other where
  set := same.fields "id" (by decide) (by decide) ▸ declarable.set
  located := by
    simpa only [FileOf, same.fields "file" (by decide) (by decide)] using declarable.located
  listed := same.fields "type_parameters" (by decide) (by decide) ▸ declarable.listed
  parameters := same.fields "type_parameters" (by decide) (by decide) ▸ declarable.parameters

theorem entryKeys_shuffled (shuffled : Shuffled types others) : (types.flatMap entryKeys).Perm (others.flatMap entryKeys) := by
  obtain ⟨middle, perm, each⟩ := shuffled
  refine (perm.flatMap_right _).trans (List.Perm.of_eq ?_)
  clear perm
  induction each with
  | nil => rfl
  | cons same _ ih => rw [List.flatMap_cons, List.flatMap_cons, entryKeys_of_same same, ih]

/-- Types that can be entered one after another can be entered in any order. -/
theorem declareTypes_again (shuffled : Shuffled types others) {path : String}
    (ran : (types.forM (declareType host)).run { path } = .ok ((), after)) :
    (∀ entry ∈ types, Declarable host path entry)
      ∧ ∃ last, (others.forM (declareType host)).run { path } = .ok ((), last) := by
  obtain ⟨declarable, enters⟩ := forM_enters (fun value _ first second same ran =>
    same ▸ declareType_enters ran : ∀ value ∈ types, ∀ first second, first.path = path → _ →
      Declarable host path value ∧ Enters (entryKeys value) first second) ran
  refine ⟨declarable, forM_of_fresh (fun other listed first same fresh => ?_) (enters.fresh.perm (entryKeys_shuffled shuffled))⟩
  obtain ⟨entry, among, alike⟩ := shuffled.same.back other listed
  exact declareType_of_fresh (same ▸ declarable_of_same alike.symm (declarable entry among)) fresh

end Declaring

section Rereading

variable {host : Host} {types others : List Document}

/-- Types that were read are read in any order, with their members in any order, if each member has an id of its own. -/
theorem types_again (shuffled : Shuffled types others) {fuel otherFuel : Nat}
    (enough : fuel ≤ otherFuel ∨ ∀ member, MemberWithin types member → BodiesWithin otherFuel member)
    (given : ∀ member, MemberWithin types member → (member.field "id").isSet = true) {path : String}
    {middle after : Loading} (entered : (types.forM (declareType host)).run { path } = .ok ((), middle))
    (linked : (types.forM (linkType fuel)).run middle = .ok ((), after)) : ∃ otherMiddle otherAfter,
      (others.forM (declareType host)).run { path } = .ok ((), otherMiddle)
        ∧ (others.forM (linkType otherFuel)).run otherMiddle = .ok ((), otherAfter) := by
  obtain ⟨declarable, otherMiddle, otherEntered⟩ := declareTypes_again shuffled entered
  have parts := types_ran entered linked
  have start : Good host others { path } := good_start path
  obtain ⟨one, declared, _, pairs⟩ := declareTypes_steps start (fun _ among => among) otherEntered
  have ready : Ready host others otherMiddle :=
    ⟨start.steps one, fun entry listed => (declared entry listed).1, fun entry listed => (declared entry listed).2⟩
  obtain ⟨otherAfter, otherLinked⟩ := forM_succeeds ready fun other listed => by
    obtain ⟨entry, among, alike⟩ := shuffled.same.back other listed
    exact linkType_gives shuffled.same (apart_of_pairwise pairs) among listed
      (enough.imp_right fun deep member inside => deep member ⟨entry, among, inside⟩) alike.symm
      (declarable_of_same alike.symm (declarable entry among)).listed
      (fun member inside => given member ⟨entry, among, inside⟩) (parts entry among)
  exact ⟨otherMiddle, otherAfter, otherEntered, otherLinked⟩

end Rereading

end Load

end Manifest

end DeclGraph
