import Mathlib.Data.List.TakeWhile
import DeclGraph.Proofs.ManifestTable

/-!
Absolute paths under two working directories. Hosts that treat letter case alike give an absolute path the same
canonical path, which is absolute again. A manifest names its files relative to its own directory, so where it is
read by an absolute path, both hosts read the same from it.
-/

namespace DeclGraph

open DeclGraph.Path (isAbsolute)

variable {host other : Host}

namespace Path

theorem isAbsolute_append {base : String} (rooted : isAbsolute base = true) (rest : String) :
    isAbsolute (base ++ rest) = true := by
  rw [isAbsolute, decide_eq_true_eq] at rooted ⊢
  rw [String.toList_append, List.head?_append, rooted]
  rfl

theorem isAbsolute_joinTo {base : String} (rooted : isAbsolute base = true) (path : String) :
    isAbsolute (joinTo base path) = true := by
  unfold joinTo
  split
  · assumption
  · split
    · exact isAbsolute_append rooted path
    · exact isAbsolute_append (isAbsolute_append rooted "/") path

theorem isAbsolute_joinAll {base : String} (rooted : isAbsolute base = true) (names : List String) :
    isAbsolute (joinAll base names) = true := by
  induction names generalizing base with
  | nil => exact rooted
  | cons name rest ih => exact ih (isAbsolute_joinTo rooted name)

theorem head?_of_part {cs whole : List Char} (part : cs <+: whole) (present : cs ≠ []) : cs.head? = whole.head? := by
  obtain ⟨rest, rfl⟩ := part
  obtain ⟨c, cs, rfl⟩ := List.exists_cons_of_ne_nil present
  rfl

theorem dropWhile_part (cs : List Char) (test : Char → Bool) : (cs.reverse.dropWhile test).reverse <+: cs := by
  rw [← List.reverse_suffix, List.reverse_reverse]
  exact List.dropWhile_suffix test

theorem isAbsolute_directory {path : String} (rooted : isAbsolute path = true) : isAbsolute (directory path) = true := by
  rw [isAbsolute, decide_eq_true_eq] at rooted
  have part : (splitLast path.toList).1 <+: path.toList := dropWhile_part _ _
  have present : (splitLast path.toList).1 ≠ [] := by
    intro empty
    have all := List.dropWhile_eq_nil_iff.mp (List.reverse_eq_nil_iff.mp empty) '/'
      (List.mem_reverse.mpr (List.mem_of_mem_head? rooted))
    simp at all
  have lead : (splitLast path.toList).1.head? = some '/' := (head?_of_part part present).trans rooted
  rw [isAbsolute, decide_eq_true_eq, directory, String.toList_ofList]
  split
  · exact lead
  · next named =>
    rw [List.isEmpty_iff] at named
    exact (head?_of_part (dropWhile_part _ _) named).trans lead

theorem isAbsolute_canonical (host : Host) (path : String) : isAbsolute (host.canonical path) = true := by
  obtain ⟨place, _, same⟩ := Host.isCanonical_canonical host path
  rw [← same]
  exact isAbsolute_text place

end Path

namespace Host

theorem canonical_of_absolute (agreed : host.foldsCase = other.foldsCase) {path : String}
    (rooted : isAbsolute path = true) : host.canonical path = other.canonical path := by
  rw [canonical, canonical, Path.normalize, Path.normalize, Path.absolute_of_isAbsolute rooted,
    Path.absolute_of_isAbsolute rooted, agreed]

theorem locate_of_absolute (agreed : host.foldsCase = other.foldsCase) {path : String}
    (rooted : isAbsolute path = true) : host.locate path = other.locate path := by
  rw [locate, locate, canonical_of_absolute agreed rooted]

theorem absolute_of_locate {path place : String} (located : host.locate path = .ok place) : isAbsolute place = true := by
  rw [← (locate_eq_ok.mp located).2]
  exact Path.isAbsolute_canonical host path

def NotRelative (value : Document) : Prop := ∀ path, value = .text path → isAbsolute path = true

theorem locateValue_of_notRelative (agreed : host.foldsCase = other.foldsCase) {value : Document}
    (rooted : NotRelative value) : host.locateValue value = other.locateValue value := by
  unfold locateValue
  split
  · rfl
  · next path => exact locate_of_absolute agreed (rooted path rfl)
  · rfl

theorem notRelative_text {path : String} (rooted : isAbsolute path = true) : NotRelative (.text path) := by
  rintro _ ⟨⟩
  exact rooted

end Host

namespace Manifest

open Host

namespace Load

variable {α β : Type} {before after : Loading}

section Congruence

theorem bind_run_congr {first second : Load α} {next later : α → Load β} (head : first.run before = second.run before)
    (tail : ∀ value after, first.run before = .ok (value, after) → (next value).run after = (later value).run after) :
    (first >>= next).run before = (second >>= later).run before := by
  rw [StateT.run_bind, StateT.run_bind, ← head]
  rcases ran : first.run before with fault | ⟨value, after⟩
  · rfl
  · exact tail value after ran

theorem mapM_run_congr {step also : α → Load β} (still : ∀ value, Still (step value))
    (each : ∀ value, (step value).run before = (also value).run before) (values : List α) :
    (values.mapM step).run before = (values.mapM also).run before := by
  induction values with
  | nil => rfl
  | cons value rest ih =>
    rw [List.mapM_cons, List.mapM_cons]
    refine bind_run_congr (each value) fun first after ran => ?_
    obtain rfl := still value _ _ _ ran
    exact bind_run_congr ih fun _ _ _ => rfl

theorem foldlM_run_congr {step also : β → α → Load β} (still : ∀ state value, Still (step state value))
    (each : ∀ state value, (step state value).run before = (also state value).run before) (values : List α) (start : β) :
    (values.foldlM step start).run before = (values.foldlM also start).run before := by
  induction values generalizing start with
  | nil => rfl
  | cons value rest ih =>
    rw [List.foldlM_cons, List.foldlM_cons]
    refine bind_run_congr (each start value) fun next after ran => ?_
    obtain rfl := still start value _ _ _ ran
    exact ih next

end Congruence

section Reading

variable (agreed : host.foldsCase = other.foldsCase)
include agreed

theorem pathOf_congr (rooted : isAbsolute before.path = true) (value : Document) :
    (pathOf host value).run before = (pathOf other value).run before := by
  unfold pathOf
  split
  · next path =>
    split
    · rfl
    · refine bind_run_congr rfl fun loading after got => ?_
      cases got
      have full : isAbsolute (if isAbsolute path = true then path
          else Path.joinAll (Path.directory before.path) (Path.segments path)) = true := by
        split
        · assumption
        · exact Path.isAbsolute_joinAll (Path.isAbsolute_directory rooted) _
      dsimp only
      rw [canonical_of_absolute agreed full]
  · rfl

theorem declareType_congr (rooted : isAbsolute before.path = true) (entry : Document) :
    (declareType host entry).run before = (declareType other entry).run before := by
  unfold declareType
  split
  · rfl
  · next id _ =>
    refine bind_run_congr rfl fun key after named => ?_
    obtain ⟨_, rfl⟩ := keyOf_run.mp named
    refine bind_run_congr rfl fun found after asked => ?_
    obtain ⟨_, rfl⟩ := find?_run.mp asked
    dsimp only
    split
    · exact bind_run_congr rfl fun _ _ ran => absurd ran refuse_run
    · split
      · rfl
      · next file _ =>
        refine bind_run_congr ?_ fun _ _ _ => rfl
        rw [StateT.run_map, StateT.run_map, pathOf_congr agreed rooted]

omit agreed in
theorem path_of_declareParameters {parameters : List Document}
    (ran : (parameters.forM declareParameter).run before = .ok ((), after)) : after.path = before.path := by
  induction parameters generalizing before with
  | nil =>
    cases ran
    rfl
  | cons parameter rest ih =>
    obtain ⟨_, middle, first, ran⟩ := bind_run.mp ran
    obtain ⟨key, _, _, _, rfl⟩ := declareParameter_run.mp first
    have kept := ih ran
    exact kept

omit agreed in
theorem path_of_declareType {entry : Document} (ran : (declareType host entry).run before = .ok ((), after)) :
    after.path = before.path := by
  obtain ⟨key, file, _, _, _, _, _, ran⟩ := declareType_run.mp ran
  have kept := path_of_declareParameters ran
  exact kept

theorem declareTypes_congr (rooted : isAbsolute before.path = true) (entries : List Document) :
    (entries.forM (declareType host)).run before = (entries.forM (declareType other)).run before := by
  induction entries generalizing before with
  | nil => rw [List.forM, List.forM]
  | cons entry rest ih =>
    rw [List.forM, List.forM]
    refine bind_run_congr (declareType_congr agreed rooted entry) fun _ after ran => ?_
    exact ih ((path_of_declareType ran).symm ▸ rooted)

theorem listedDeclarations_congr (rooted : isAbsolute before.path = true) (value : Document) :
    (listedDeclarations host value).run before = (listedDeclarations other value).run before := by
  refine bind_run_congr rfl fun entries after asked => ?_
  obtain rfl := still_entriesOf value _ _ _ asked
  refine foldlM_run_congr (fun rows entry => ?_) (fun rows entry => ?_) entries []
  · split
    split
    · exact still_bind (still_mapM still_textOf _) fun _ => still_bind (still_pathOf host _) fun _ => still_pure _
    · exact still_refuse
  · split
    split
    · refine bind_run_congr rfl fun texts after asked => ?_
      obtain rfl := still_mapM still_textOf _ _ _ _ asked
      exact bind_run_congr (pathOf_congr agreed rooted _) fun _ _ _ => rfl
    · rfl

theorem sourcesOf_congr (rooted : isAbsolute before.path = true) (files : Document) (rows : List (String × List Document)) :
    (sourcesOf host files rows).run before = (sourcesOf other files rows).run before := by
  unfold sourcesOf
  split
  · rfl
  · split
    · exact mapM_run_congr (still_pathOf host) (pathOf_congr agreed rooted) _
    · rfl

theorem pathsIn_congr (rooted : isAbsolute before.path = true) (value : Document) :
    (pathsIn host value).run before = (pathsIn other value).run before := by
  refine bind_run_congr rfl fun elements after asked => ?_
  obtain rfl := still_loop value _ _ _ asked
  exact mapM_run_congr (still_pathOf host) (pathOf_congr agreed rooted) _

theorem markersOf_congr (rooted : isAbsolute before.path = true) (value : Document) :
    (markersOf host value).run before = (markersOf other value).run before := by
  refine bind_run_congr rfl fun entries after asked => ?_
  obtain rfl := still_entriesOf value _ _ _ asked
  refine foldlM_run_congr (fun rows entry => ?_) (fun rows entry => ?_) entries []
  · split
    exact still_bind (still_mapM still_textOf _) fun _ => still_bind (still_pathOf host _) fun _ => still_pure _
  · split
    refine bind_run_congr rfl fun texts after asked => ?_
    obtain rfl := still_mapM still_textOf _ _ _ _ asked
    exact bind_run_congr (pathOf_congr agreed rooted _) fun _ _ _ => rfl

/-- A manifest that is read by an absolute path gives the same unit, or fails for the same fault. -/
theorem load_congr {path : String} (rooted : isAbsolute path = true) (fuel : Nat) (data : Document) :
    load host path fuel data = load other path fuel data := by
  have same : (unit host fuel data).run { path } = (unit other fuel data).run { path } := by
    rw [unit_eq, unit_eq]
    cases entriesIn data with
    | none => rfl
    | some types =>
      refine bind_run_congr (declareTypes_congr agreed rooted types) fun _ middle entered => ?_
      refine bind_run_congr rfl fun _ after linked => ?_
      have still : isAbsolute after.path = true := (types_reading entered linked).2.symm ▸ rooted
      refine bind_run_congr (listedDeclarations_congr agreed still _) fun listed _ one => ?_
      obtain rfl := still_listedDeclarations host _ _ _ _ one
      refine bind_run_congr rfl fun declarations _ two => ?_
      obtain rfl := still_declarationsOf types listed _ _ _ two
      refine bind_run_congr (sourcesOf_congr agreed still _ _) fun sourceFiles _ three => ?_
      obtain rfl := still_sourcesOf host _ _ _ _ _ three
      refine bind_run_congr (pathsIn_congr agreed still _) fun markupFiles _ four => ?_
      obtain rfl := still_pathsIn host _ _ _ _ four
      exact bind_run_congr (markersOf_congr agreed still _) fun _ _ _ => rfl
  rw [load, load, same]

end Reading

end Load

end Manifest

end DeclGraph
