import Mathlib.Data.List.Sort
import Mathlib.Data.String.Basic
import DeclGraph.Graph.DependencyMap
import DeclGraph.Rows

/-!
What the operations on maps between files do to keys and members. A map is well formed when no key
occurs twice and every set is listed in increasing order; the operations keep that, and two well-formed
maps with the same keys and members are the same.
-/

namespace DeclGraph

namespace FileSet

theorem mem_insert (set : FileSet) (file other : String) :
    other ∈ set.insert file ↔ other = file ∨ other ∈ set := by
  induction set with
  | nil => simp [insert]
  | cons first rest ih =>
    rw [insert]
    split
    · exact List.mem_cons
    · split
      next same => simp only [same, List.mem_cons, or_self_left]
      next => rw [List.mem_cons, ih, List.mem_cons, or_left_comm]

theorem mem_insertAll (set : FileSet) (files : List String) (other : String) :
    other ∈ set.insertAll files ↔ other ∈ files ∨ other ∈ set := by
  induction files generalizing set with
  | nil => simp [insertAll]
  | cons file rest ih =>
    change other ∈ (set.insert file).insertAll rest ↔ _
    rw [ih, mem_insert, List.mem_cons, or_left_comm, or_assoc]

theorem mem_ofList (files : List String) (other : String) : other ∈ ofList files ↔ other ∈ files := by
  simp [ofList, mem_insertAll]

/-- Listed in increasing order, without repetition. -/
def Increasing (set : FileSet) : Prop := set.Pairwise (· < ·)

theorem increasing_insert (set : FileSet) (file : String) (sorted : set.Increasing) :
    (set.insert file).Increasing := by
  induction set with
  | nil => exact List.pairwise_singleton _ _
  | cons first rest ih =>
    rcases List.pairwise_cons.mp sorted with ⟨above, tail⟩
    rw [insert]
    split
    next less =>
      refine List.pairwise_cons.mpr ⟨fun other member => ?_, sorted⟩
      rcases List.mem_cons.mp member with rfl | later
      · exact less
      · exact lt_trans less (above other later)
    next notLess =>
      split
      next => exact sorted
      next different =>
        refine List.pairwise_cons.mpr ⟨fun other member => ?_, ih tail⟩
        rcases (mem_insert rest file other).mp member with rfl | old
        · exact lt_of_le_of_ne (not_lt.mp notLess) (Ne.symm different)
        · exact above other old

theorem increasing_insertAll (set : FileSet) (files : List String) (sorted : set.Increasing) :
    (set.insertAll files).Increasing := by
  induction files generalizing set with
  | nil => exact sorted
  | cons file rest ih => exact ih _ (increasing_insert set file sorted)

theorem increasing_ofList (files : List String) : (ofList files).Increasing :=
  increasing_insertAll [] files List.Pairwise.nil

theorem eq_of_same_members {set other : FileSet} (sorted : set.Increasing)
    (otherSorted : other.Increasing) (same : ∀ file, file ∈ set ↔ file ∈ other) : set = other := by
  have permuted : set.Perm other :=
    (List.perm_ext_iff_of_nodup sorted.nodup otherSorted.nodup).mpr same
  exact permuted.eq_of_pairwise (fun _ _ _ _ less more => absurd more (lt_asymm less)) sorted otherSorted

theorem insert_ofList (files : List String) (file : String) : (ofList files).insert file = ofList (file :: files) := by
  apply eq_of_same_members (increasing_insert _ _ (increasing_ofList _)) (increasing_ofList _)
  intro other
  rw [mem_insert, mem_ofList, mem_ofList, List.mem_cons]

end FileSet

namespace DependencyMap

/-- No key twice, and every set in increasing order. -/
structure WellFormed (map : DependencyMap) : Prop where
  distinct : map.keys.Nodup
  increasing : ∀ row ∈ map, FileSet.Increasing row.2

theorem wellFormed_nil : WellFormed [] := ⟨List.nodup_nil, by simp⟩

/-! ### Looking up -/

@[simp] theorem get_nil (file : String) : get [] file = [] := rfl

theorem find?_isSome (map : DependencyMap) (file : String) :
    (map.find? file).isSome = true ↔ file ∈ map.keys := by
  induction map with
  | nil => simp [find?, keys]
  | cons row rest ih =>
    rcases row with ⟨key, set⟩
    rw [find?]
    split
    next same => simp [keys, same]
    next different => simpa [keys, Ne.symm different] using ih

theorem mem_of_find? {map : DependencyMap} {file : String} {set : FileSet}
    (found : map.find? file = some set) : (file, set) ∈ map := by
  induction map with
  | nil => simp [find?] at found
  | cons row rest ih =>
    rcases row with ⟨key, first⟩
    rw [find?] at found
    split at found
    next same =>
      rw [← same, ← Option.some.inj found]
      exact List.mem_cons_self
    next => exact List.mem_cons_of_mem _ (ih found)

theorem mem_keys_of_mem {map : DependencyMap} {row : String × FileSet} (member : row ∈ map) :
    row.1 ∈ map.keys := List.mem_map_of_mem member

theorem find?_of_mem {map : DependencyMap} (distinct : map.keys.Nodup) {row : String × FileSet}
    (member : row ∈ map) : map.find? row.1 = some row.2 := by
  induction map with
  | nil => simp at member
  | cons first rest ih =>
    rcases first with ⟨key, set⟩
    rcases List.nodup_cons.mp distinct with ⟨fresh, tail⟩
    rcases List.mem_cons.mp member with rfl | later
    · simp [find?]
    · have different : key ≠ row.1 := by
        intro same
        have listed := mem_keys_of_mem later
        rw [← same] at listed
        exact fresh listed
      simpa [find?, different] using ih tail later

theorem get_of_mem {map : DependencyMap} (distinct : map.keys.Nodup) {row : String × FileSet}
    (member : row ∈ map) : map.get row.1 = row.2 := by
  rw [get, find?_of_mem distinct member, Option.getD_some]

theorem mem_keys_of_mem_get {map : DependencyMap} {file other : String}
    (member : other ∈ map.get file) : file ∈ map.keys := by
  rw [← find?_isSome]
  cases found : map.find? file with
  | none => simp [get, found] at member
  | some set => rfl

theorem row_of_mem_get {map : DependencyMap} {file other : String} (member : other ∈ map.get file) :
    ∃ row ∈ map, row.1 = file ∧ other ∈ row.2 := by
  cases found : map.find? file with
  | none => simp [get, found] at member
  | some set => exact ⟨(file, set), mem_of_find? found, rfl, by simpa [get, found] using member⟩

theorem mem_get_iff_row {map : DependencyMap} (distinct : map.keys.Nodup) (file other : String) :
    other ∈ map.get file ↔ ∃ row ∈ map, row.1 = file ∧ other ∈ row.2 := by
  constructor
  · exact row_of_mem_get
  · rintro ⟨row, member, rfl, listed⟩
    rwa [get_of_mem distinct member]

theorem increasing_get {map : DependencyMap} (formed : map.WellFormed) (file : String) :
    FileSet.Increasing (map.get file) := by
  cases found : map.find? file with
  | none =>
    rw [get, found]
    exact List.Pairwise.nil
  | some set =>
    rw [get, found]
    exact formed.increasing _ (mem_of_find? found)

/-! ### Setting -/

theorem mem_keys_set (map : DependencyMap) (file other : String) (set : FileSet) :
    other ∈ keys (Rows.set map file set) ↔ other = file ∨ other ∈ map.keys := by
  induction map with
  | nil => simp [Rows.set, keys]
  | cons row rest ih =>
    rcases row with ⟨key, old⟩
    rw [Rows.set]
    split
    next same => simp [keys, same]
    next =>
      simp only [keys, List.map_cons, List.mem_cons] at ih ⊢
      rw [ih, or_left_comm]

theorem find?_set (map : DependencyMap) (file other : String) (set : FileSet) :
    find? (Rows.set map file set) other = if other = file then some set else map.find? other := by
  induction map with
  | nil => simp [Rows.set, find?, eq_comm]
  | cons row rest ih =>
    rcases row with ⟨key, old⟩
    rw [Rows.set]
    split
    next same =>
      by_cases hit : key = other
      · simp [find?, hit, ← same]
      · simp [find?, hit, ← same, Ne.symm hit]
    next different =>
      by_cases hit : key = other
      · simp [find?, hit, show other ≠ file from hit ▸ different]
      · simpa [find?, hit] using ih

theorem wellFormed_set {map : DependencyMap} (formed : map.WellFormed) (file : String) {set : FileSet}
    (sorted : set.Increasing) : WellFormed (Rows.set map file set) := by
  induction map with
  | nil => exact ⟨by simp [Rows.set, keys], by simpa [Rows.set] using sorted⟩
  | cons row rest ih =>
    rcases row with ⟨key, old⟩
    rcases List.nodup_cons.mp formed.distinct with ⟨fresh, tail⟩
    have rested : WellFormed rest :=
      ⟨tail, fun row member => formed.increasing row (List.mem_cons_of_mem _ member)⟩
    rw [Rows.set]
    split
    next =>
      refine ⟨formed.distinct, fun row member => ?_⟩
      rcases List.mem_cons.mp member with rfl | later
      · exact sorted
      · exact rested.increasing row later
    next different =>
      have done := ih rested
      refine ⟨List.nodup_cons.mpr ⟨?_, done.distinct⟩, fun row member => ?_⟩
      · intro member
        rcases (mem_keys_set rest file key set).mp member with same | older
        · exact different same
        · exact fresh older
      · rcases List.mem_cons.mp member with rfl | later
        · exact formed.increasing _ List.mem_cons_self
        · exact done.increasing row later

/-! ### Adding -/

-- So what adding does to keys, members and order follows from what setting does.
theorem add_eq_set (map : DependencyMap) (file : String) (files : List String) :
    map.add file files = Rows.set map file ((map.get file).insertAll files) := by
  induction map with
  | nil => rfl
  | cons row rest ih =>
    rcases row with ⟨key, set⟩
    rw [add, Rows.set]
    by_cases same : key = file
    · simp [same, get, find?]
    · simpa [same, get, find?] using ih

theorem mem_keys_add (map : DependencyMap) (file other : String) (files : List String) :
    other ∈ (map.add file files).keys ↔ other = file ∨ other ∈ map.keys := by
  rw [add_eq_set, mem_keys_set]

theorem mem_get_add (map : DependencyMap) (file key other : String) (files : List String) :
    other ∈ (map.add file files).get key ↔ (key = file ∧ other ∈ files) ∨ other ∈ map.get key := by
  rw [get, add_eq_set, find?_set]
  by_cases hit : key = file
  · simp [hit, FileSet.mem_insertAll]
  · simp [hit, get]

theorem wellFormed_add {map : DependencyMap} (formed : map.WellFormed) (file : String)
    (files : List String) : (map.add file files).WellFormed := by
  rw [add_eq_set]
  apply wellFormed_set formed
  exact FileSet.increasing_insertAll _ files (increasing_get formed file)

/-! ### Adding a whole map -/

theorem mem_keys_addAll (map other : DependencyMap) (file : String) :
    file ∈ (map.addAll other).keys ↔ file ∈ map.keys ∨ file ∈ other.keys := by
  induction other generalizing map with
  | nil => simp [addAll, keys]
  | cons row rest ih =>
    change file ∈ (addAll (map.add row.1 row.2) rest).keys ↔ _
    rw [ih, mem_keys_add]
    simp only [keys, List.map_cons, List.mem_cons]
    rw [or_comm (a := file = row.1), or_assoc]

theorem mem_get_addAll_rows (map other : DependencyMap) (key file : String) :
    file ∈ (map.addAll other).get key ↔
      file ∈ map.get key ∨ ∃ row ∈ other, row.1 = key ∧ file ∈ row.2 := by
  induction other generalizing map with
  | nil => simp [addAll]
  | cons row rest ih =>
    change file ∈ (addAll (map.add row.1 row.2) rest).get key ↔ _
    rw [ih, mem_get_add]
    simp only [List.mem_cons, exists_eq_or_imp]
    rw [eq_comm (a := key), or_comm (a := row.1 = key ∧ file ∈ row.2), or_assoc]

theorem mem_get_addAll (map other : DependencyMap) (distinct : other.keys.Nodup)
    (key file : String) :
    file ∈ (map.addAll other).get key ↔ file ∈ map.get key ∨ file ∈ other.get key := by
  rw [mem_get_addAll_rows, mem_get_iff_row distinct]

theorem wellFormed_addAll {map : DependencyMap} (formed : map.WellFormed) (other : DependencyMap) :
    (map.addAll other).WellFormed := by
  induction other generalizing map with
  | nil => exact formed
  | cons row rest ih => exact ih (wellFormed_add formed row.1 row.2)

/-! ### Restricting -/

theorem find?_restrict (map : DependencyMap) (keep : String → Bool) (file : String) :
    (map.restrict keep).find? file
      = if keep file = true then (map.find? file).map (·.filter keep) else none := by
  induction map with
  | nil => simp [restrict, find?]
  | cons row rest ih =>
    rcases row with ⟨key, set⟩
    by_cases kept : keep key = true
    · by_cases same : key = file
      · subst same
        simp [restrict, find?, kept]
      · simpa [restrict, find?, kept, same] using ih
    · by_cases same : key = file
      · subst same
        simpa [restrict, kept] using ih
      · simpa [restrict, find?, kept, same] using ih

theorem mem_keys_restrict (map : DependencyMap) (keep : String → Bool) (file : String) :
    file ∈ (map.restrict keep).keys ↔ file ∈ map.keys ∧ keep file = true := by
  simp only [← find?_isSome, find?_restrict]
  by_cases kept : keep file = true <;> simp [kept]

theorem mem_get_restrict (map : DependencyMap) (keep : String → Bool) (key file : String) :
    file ∈ (map.restrict keep).get key ↔ file ∈ map.get key ∧ keep key = true ∧ keep file = true := by
  simp only [get, find?_restrict]
  by_cases kept : keep key = true
  · cases map.find? key <;> simp [kept]
  · simp [kept]

theorem wellFormed_restrict {map : DependencyMap} (formed : map.WellFormed) (keep : String → Bool) :
    (map.restrict keep).WellFormed := by
  constructor
  · have kept : (map.restrict keep).keys = map.keys.filter keep := by
      simp [restrict, keys, List.filter_map, Function.comp_def]
    rw [kept]
    exact formed.distinct.filter keep
  · intro row member
    rcases List.mem_map.mp member with ⟨old, filtered, rfl⟩
    exact (formed.increasing old (List.mem_filter.mp filtered).1).filter keep

/-! ### Reversing -/

def reverseRow (reversed : DependencyMap) (row : String × FileSet) : DependencyMap :=
  row.2.foldl (fun reversed file => reversed.add file [row.1]) (reversed.add row.1 [])

theorem transpose_eq (map : DependencyMap) : map.transpose = map.foldl reverseRow [] := rfl

theorem mem_keys_foldl_add (reversed : DependencyMap) (files : List String) (key other : String) :
    other ∈ (files.foldl (fun reversed file => reversed.add file [key]) reversed).keys ↔
      other ∈ files ∨ other ∈ reversed.keys := by
  induction files generalizing reversed with
  | nil => simp
  | cons file rest ih => rw [List.foldl_cons, ih, mem_keys_add, List.mem_cons, or_left_comm, or_assoc]

theorem mem_get_foldl_add (reversed : DependencyMap) (files : List String) (key file other : String) :
    other ∈ (files.foldl (fun reversed file => reversed.add file [key]) reversed).get file ↔
      (file ∈ files ∧ other = key) ∨ other ∈ reversed.get file := by
  induction files generalizing reversed with
  | nil => simp
  | cons first rest ih =>
    rw [List.foldl_cons, ih, mem_get_add]
    simp only [List.mem_cons, List.not_mem_nil, or_false, or_and_right]
    rw [or_left_comm, or_assoc]

theorem mem_keys_foldl_reverseRow (rows reversed : DependencyMap) (file : String) :
    file ∈ (rows.foldl reverseRow reversed).keys ↔
      (∃ row ∈ rows, file = row.1 ∨ file ∈ row.2) ∨ file ∈ reversed.keys := by
  induction rows generalizing reversed with
  | nil => simp
  | cons row rest ih =>
    rw [List.foldl_cons, ih, reverseRow, mem_keys_foldl_add, mem_keys_add]
    simp only [List.mem_cons, exists_eq_or_imp, or_assoc, or_left_comm]

theorem mem_get_foldl_reverseRow (rows reversed : DependencyMap) (file other : String) :
    other ∈ (rows.foldl reverseRow reversed).get file ↔
      (∃ row ∈ rows, row.1 = other ∧ file ∈ row.2) ∨ other ∈ reversed.get file := by
  induction rows generalizing reversed with
  | nil => simp
  | cons row rest ih =>
    rw [List.foldl_cons, ih, reverseRow, mem_get_foldl_add, mem_get_add]
    simp only [List.mem_cons, exists_eq_or_imp, List.not_mem_nil, and_false, false_or]
    rw [eq_comm (a := row.1), and_comm (a := file ∈ row.2), or_left_comm, or_assoc]

theorem mem_keys_transpose (map : DependencyMap) (file : String) :
    file ∈ map.transpose.keys ↔ ∃ row ∈ map, file = row.1 ∨ file ∈ row.2 := by
  rw [transpose_eq, mem_keys_foldl_reverseRow]
  simp [keys]

theorem mem_get_transpose {map : DependencyMap} (distinct : map.keys.Nodup) (file other : String) :
    other ∈ map.transpose.get file ↔ file ∈ map.get other := by
  rw [transpose_eq, mem_get_foldl_reverseRow, mem_get_iff_row distinct]
  simp

theorem wellFormed_reverseRow {reversed : DependencyMap} (formed : reversed.WellFormed)
    (row : String × FileSet) : (reverseRow reversed row).WellFormed := by
  rcases row with ⟨key, files⟩
  have started := wellFormed_add formed key []
  unfold reverseRow
  generalize reversed.add key [] = map at started
  induction files generalizing map with
  | nil => exact started
  | cons file rest ih => exact ih _ (wellFormed_add started file [key])

theorem wellFormed_transpose (map : DependencyMap) : map.transpose.WellFormed := by
  rw [transpose_eq]
  suffices ∀ reversed : DependencyMap, reversed.WellFormed →
      (map.foldl reverseRow reversed).WellFormed from this [] wellFormed_nil
  induction map with
  | nil => exact fun _ formed => formed
  | cons row rest ih => exact fun _ formed => ih _ (wellFormed_reverseRow formed row)

/-! ### The same map -/

theorem isPartOf_of_same_members {map other : DependencyMap} (formed : map.WellFormed)
    (otherFormed : other.WellFormed) (keys : ∀ file ∈ map.keys, file ∈ other.keys)
    (members : ∀ key file, file ∈ map.get key ↔ file ∈ other.get key) : map.isPartOf other = true := by
  apply List.all_eq_true.mpr
  intro row member
  have listed := (find?_isSome other row.1).mpr (keys row.1 (mem_keys_of_mem member))
  obtain ⟨set, found⟩ := Option.isSome_iff_exists.mp listed
  have same : row.2 = set := by
    apply FileSet.eq_of_same_members (formed.increasing row member)
    · exact otherFormed.increasing _ (mem_of_find? found)
    · intro file
      have agree := members row.1 file
      rwa [get_of_mem formed.distinct member, get, found, Option.getD_some] at agree
  simp [found, same]

theorem same_of_same_members {map other : DependencyMap} (formed : map.WellFormed)
    (otherFormed : other.WellFormed) (keys : ∀ file, file ∈ map.keys ↔ file ∈ other.keys)
    (members : ∀ key file, file ∈ map.get key ↔ file ∈ other.get key) : map.same other = true := by
  rw [same, Bool.and_eq_true]
  constructor
  · exact isPartOf_of_same_members formed otherFormed (fun file => (keys file).mp) members
  · exact isPartOf_of_same_members otherFormed formed (fun file => (keys file).mpr)
      (fun key file => (members key file).symm)

section Reordered

variable {order map : DependencyMap}

theorem wellFormed_of_perm (formed : map.WellFormed) (permuted : List.Perm order map) : order.WellFormed :=
  ⟨(permuted.map _).nodup_iff.mpr formed.distinct,
    fun row member => formed.increasing row (permuted.mem_iff.mp member)⟩

theorem mem_keys_of_perm (permuted : List.Perm order map) (file : String) :
    file ∈ order.keys ↔ file ∈ map.keys := (permuted.map _).mem_iff

theorem mem_get_of_perm (formed : map.WellFormed) (permuted : List.Perm order map) (key file : String) :
    file ∈ order.get key ↔ file ∈ map.get key := by
  rw [mem_get_iff_row formed.distinct, mem_get_iff_row (wellFormed_of_perm formed permuted).distinct]
  simp only [permuted.mem_iff]

/-- The order of the rows does not count. -/
theorem same_of_perm (formed : map.WellFormed) (permuted : List.Perm order map) : order.same map = true :=
  same_of_same_members (wellFormed_of_perm formed permuted) formed (mem_keys_of_perm permuted)
    (mem_get_of_perm formed permuted)

end Reordered

end DependencyMap

end DeclGraph
