import DeclGraph.Json.Reader
import DeclGraph.Proofs.NestedDocuments
import DeclGraph.Text.Lines
import Mathlib.Data.List.TakeWhile

/-!
How deep mappings are nested in the value of a JSON text: no deeper than the text is long, which is no longer than the bytes
that it is stored as. None of its integers has too many digits, as those are refused where they are read.
-/

namespace DeclGraph

namespace Text

theorem length_le_size (cs : List Char) : cs.length ≤ (String.ofList cs).utf8ByteSize := by
  induction cs with
  | nil => exact Nat.zero_le _
  | cons c rest ih =>
    rw [String.ofList_cons, String.utf8ByteSize_append, String.utf8ByteSize_singleton, List.length_cons, Nat.add_comm]
    exact Nat.add_le_add c.utf8Size_pos ih

theorem length_unifyBreaks (cs : List Char) : (unifyBreaks cs).length ≤ cs.length := by
  induction cs using unifyBreaks.induct with
  | case1 => exact Nat.le_refl _
  | case2 rest ih =>
    rw [unifyBreaks, List.length_cons]
    exact Nat.le_succ_of_le (Nat.succ_le_succ ih)
  | case3 c rest other ih =>
    rw [unifyBreaks, List.length_cons]
    · exact Nat.succ_le_succ ih
    · exact other

theorem length_ofBytes {bytes : ByteArray} {text : String} (read : ofBytes bytes = .ok text) : text.length ≤ bytes.size := by
  obtain ⟨decoded, start, same⟩ := bind_eq_ok.mp read
  cases same
  rw [Text.ofUtf8] at start
  split at start
  · next found spelled =>
    cases start
    rw [String.fromUTF8?, Option.dite_none_right_eq_some] at spelled
    obtain ⟨valid, same⟩ := spelled
    have size : decoded.utf8ByteSize = bytes.size := by
      rw [← Option.some.inj same, ← String.size_toByteArray]
      rfl
    have within := length_le_size decoded.toList
    rw [String.ofList_toList, size] at within
    rw [← String.length_toList, String.toList_ofList]
    exact Nat.le_trans (length_unifyBreaks _) within
  · cases start

end Text

namespace Numeral

theorem natOfDigits_lt {ds : List Char} (each : ∀ d ∈ ds, d.isDigit = true) : natOfDigits ds < 10 ^ ds.length := by
  have running (n : Nat) : ds.foldl (fun n c => 10 * n + (c.toNat - '0'.toNat)) n < (n + 1) * 10 ^ ds.length := by
    induction ds generalizing n with
    | nil => simp
    | cons d rest ih =>
      have digit : d.toNat - '0'.toNat < 10 := by
        have isDigit := each d List.mem_cons_self
        simp only [Char.isDigit, Bool.and_eq_true, decide_eq_true_eq, UInt32.le_iff_toNat_le] at isDigit
        have upper : d.toNat ≤ 57 := isDigit.2
        have zero : '0'.toNat = 48 := rfl
        omega
      refine Nat.lt_of_lt_of_le (ih (fun other later => each other (List.mem_cons_of_mem _ later)) _) ?_
      rw [List.length_cons, Nat.pow_succ', ← Nat.mul_assoc]
      refine Nat.mul_le_mul_right _ ?_
      dsimp only
      omega
  exact Nat.lt_of_lt_of_eq (running 0) (Nat.one_mul _)

theorem length_digits (cs : List Char) : (digits cs).1.length + (digits cs).2.length = cs.length := by
  rw [← List.length_append, digits, List.takeWhile_append_dropWhile]

theorem length_fraction (cs : List Char) : (fraction cs).2.length ≤ cs.length := by
  unfold fraction
  split
  · next rest =>
    split
    · exact Nat.le_refl _
    · have whole := length_digits rest
      rw [List.length_cons]
      omega
  · exact Nat.le_refl _

theorem length_exponent (cs : List Char) : (exponent cs).2.length ≤ cs.length := by
  have signed (sign : Int) (more : List Char) (within : more.length ≤ cs.length) :
      (if (digits more).1.isEmpty then ((none : Option Int), cs)
        else (some (sign * Int.ofNat (natOfDigits (digits more).1)), (digits more).2)).2.length ≤ cs.length := by
    have whole := length_digits more
    split
    · exact Nat.le_refl _
    · dsimp only
      omega
  unfold exponent
  split
  · split
    · split
      · exact signed _ _ (by simp only [List.length_cons]; omega)
      · exact signed _ _ (by simp only [List.length_cons]; omega)
      · exact signed _ _ (by simp only [List.length_cons]; omega)
    · exact Nat.le_refl _
  · exact Nat.le_refl _

end Numeral

namespace Json

open Document (Nesting)

theorem whole?_eq_some {cs ds rest : List Char} (read : whole? cs = some (ds, rest)) :
    ds.length + rest.length = cs.length ∧ 0 < ds.length ∧ ∀ d ∈ ds, d.isDigit = true := by
  unfold whole? at read
  split at read
  · cases read
    exact ⟨by rw [List.length_singleton, List.length_cons, Nat.add_comm], Nat.one_pos, List.forall_mem_singleton.mpr rfl⟩
  · split at read
    · cases read
    · next filled =>
      rw [Option.some.injEq] at read
      have same : (Numeral.digits cs).1 = ds := congrArg Prod.fst read
      have after : (Numeral.digits cs).2 = rest := congrArg Prod.snd read
      subst same after
      exact ⟨Numeral.length_digits cs, List.length_pos_iff.mpr fun empty => filled (by rw [empty]; rfl),
        fun d among => List.mem_takeWhile_imp among⟩

def ReadScalar (cs : List Char) (document : Document) (rest : List Char) : Prop :=
  rest.length < cs.length ∧ Nesting False 1 document

theorem readScalar_int {cs rest ds : List Char} (shorter : rest.length < cs.length) (each : ∀ d ∈ ds, d.isDigit = true)
    (few : ¬ Numeral.digitLimit < ds.length) (negative : Bool) :
    ReadScalar cs (.int (if negative then -Int.ofNat (Numeral.natOfDigits ds) else Int.ofNat (Numeral.natOfDigits ds)))
      rest := by
  have size : (if negative then -Int.ofNat (Numeral.natOfDigits ds) else Int.ofNat (Numeral.natOfDigits ds)).natAbs
      = Numeral.natOfDigits ds := by
    split
    · exact Int.natAbs_neg _
    · rfl
  have shown := Numeral.isTooLong_eq_false (size ▸ Numeral.natOfDigits_lt each) (Nat.le_of_not_lt few)
  refine ⟨shorter, .scalar (Or.inl ?_)⟩
  rw [Scalar.isShowable, shown]
  rfl

theorem unsigned_read {negative : Bool} {cs rest : List Char} {document : Document}
    (read : unsigned negative cs = .ok (document, rest)) : ReadScalar cs document rest := by
  unfold unsigned at read
  split at read
  · cases read
  · next ds afterWhole started =>
    obtain ⟨whole, some, each⟩ := whole?_eq_some started
    have fraction := Numeral.length_fraction afterWhole
    have exponent := Numeral.length_exponent (Numeral.fraction afterWhole).2
    dsimp only at read
    split at read
    · split at read
      · cases read
      · next few =>
        obtain ⟨rfl, rfl⟩ : _ ∧ _ := by simpa using read
        exact readScalar_int (by omega) each few negative
    · obtain ⟨rfl, rfl⟩ : _ ∧ _ := by simpa using read
      exact ⟨by omega, .scalar (Or.inl rfl)⟩

theorem number_read {cs rest : List Char} {document : Document} (read : number cs = .ok (document, rest)) :
    ReadScalar cs document rest := by
  unfold number at read
  split at read
  · cases read
    exact ⟨by simp only [List.length_cons]; omega, .scalar (Or.inl rfl)⟩
  · cases read
    exact ⟨by simp only [List.length_cons]; omega, .scalar (Or.inl rfl)⟩
  · cases read
    exact ⟨by simp only [List.length_cons]; omega, .scalar (Or.inl rfl)⟩
  · obtain ⟨shorter, nested⟩ := unsigned_read read
    exact ⟨Nat.lt_succ_of_lt shorter, nested⟩
  · exact unsigned_read read

theorem length_stringPieces (cs : List Char) {pieces : List Piece} {rest : List Char}
    (read : stringPieces cs = some (pieces, rest)) : rest.length < cs.length := by
  induction cs using stringPieces.induct generalizing pieces with
  | case1 => cases read
  | case2 rest =>
    rw [stringPieces] at read
    cases read
    exact Nat.lt_succ_self _
  | case3 a b c d after noHex =>
    rw [stringPieces, noHex] at read
    cases read
  | case4 a b c d after n hex ih =>
    rw [stringPieces, hex] at read
    obtain ⟨⟨more, last⟩, later, same⟩ := Option.map_eq_some_iff.mp read
    cases same
    have shorter := ih later
    simp only [List.length_cons]
    omega
  | case5 c after notUnit noImage =>
    rw [stringPieces, noImage] at read
    · cases read
    · exact notUnit
  | case6 c after notUnit image known ih =>
    rw [stringPieces, known] at read
    · obtain ⟨⟨more, last⟩, later, same⟩ := Option.map_eq_some_iff.mp read
      cases same
      have shorter := ih later
      simp only [List.length_cons]
      omega
    · exact notUnit
  | case7 c after notQuote noUnit noEscape bad =>
    rw [stringPieces, if_pos bad] at read
    · cases read
    all_goals assumption
  | case8 c after notQuote noUnit noEscape good ih =>
    rw [stringPieces, if_neg good] at read
    · obtain ⟨⟨more, last⟩, later, same⟩ := Option.map_eq_some_iff.mp read
      cases same
      exact Nat.lt_succ_of_lt (ih later)
    all_goals assumption

theorem length_string {cs rest : List Char} {text : String} (read : string cs = .ok (text, rest)) :
    rest.length < cs.length := by
  unfold string at read
  split at read
  · next pieces after found =>
    cases read
    exact length_stringPieces cs found
  · cases read

theorem length_skipBlanks (cs : List Char) : (skipBlanks cs).length ≤ cs.length :=
  (List.dropWhile_sublist _).length_le

/-- What is read from a text: something is taken up, and the value is nested no deeper than that is long. -/
def ReadNested (cs : List Char) (document : Document) (rest : List Char) : Prop :=
  rest.length < cs.length ∧ Nesting False (cs.length - rest.length) document

theorem readNested_of_scalar {cs rest : List Char} {document : Document} (read : ReadScalar cs document rest) :
    ReadNested cs document rest :=
  ⟨read.1, read.2.mono (Nat.sub_pos_of_lt read.1)⟩

theorem forall_insert {p : Scalar → Prop} {q : Document → Prop} {entries : Entries} {key : Scalar} {value : Document}
    (each : ∀ entry ∈ entries, p entry.1 ∧ q entry.2) (new : p key ∧ q value) :
    ∀ entry ∈ entries.insert key value, p entry.1 ∧ q entry.2 := by
  induction entries with
  | nil => exact List.forall_mem_singleton.mpr new
  | cons first rest ih =>
    rw [List.forall_mem_cons] at each
    rw [Entries.insert]
    split
    · exact List.forall_mem_cons.mpr ⟨⟨each.1.1, new.2⟩, each.2⟩
    · exact List.forall_mem_cons.mpr ⟨each.1, ih each.2⟩

theorem forall_ofPairs {p : Scalar → Prop} {q : Document → Prop} {pairs : List (Scalar × Document)}
    (each : ∀ pair ∈ pairs, p pair.1 ∧ q pair.2) : ∀ entry ∈ Entries.ofPairs pairs, p entry.1 ∧ q entry.2 := by
  have running (entries : Entries) (start : ∀ entry ∈ entries, p entry.1 ∧ q entry.2) :
      ∀ entry ∈ pairs.foldl (fun entries pair => entries.insert pair.1 pair.2) entries, p entry.1 ∧ q entry.2 := by
    induction pairs generalizing entries with
    | nil => exact start
    | cons pair rest ih =>
      rw [List.forall_mem_cons] at each
      exact ih each.2 _ (forall_insert start each.1)
  exact running [] nofun

theorem readNested_of_items {c : Char} {start inner rest : List Char} {items : List Document}
    (within : rest.length < inner.length) (part : inner.length ≤ start.length)
    (each : ∀ item ∈ items, Nesting False (inner.length - rest.length) item) : ReadNested (c :: start) (.list items) rest := by
  have deep : (c :: start).length - rest.length = (start.length - rest.length) + 1 := by
    rw [List.length_cons]
    omega
  exact ⟨Nat.lt_succ_of_lt (Nat.lt_of_lt_of_le within part), deep ▸ .list fun item listed => (each item listed).mono (by omega)⟩

theorem readNested_of_entries {c : Char} {start inner rest : List Char} {pairs : List (Scalar × Document)}
    (within : rest.length < inner.length) (part : inner.length ≤ start.length)
    (each : ∀ pair ∈ pairs, pair.1.isShowable = true ∧ Nesting False (inner.length - rest.length) pair.2) :
    ReadNested (c :: start) (.map (Entries.ofPairs pairs)) rest := by
  have made := forall_ofPairs (p := fun key => key.isShowable = true) each
  have deep : (c :: start).length - rest.length = (start.length - rest.length) + 1 := by
    rw [List.length_cons]
    omega
  exact ⟨Nat.lt_succ_of_lt (Nat.lt_of_lt_of_le within part), deep ▸ .map (fun entry listed => Or.inl (made entry listed).1)
    fun entry listed => (made entry listed).2.mono (by omega)⟩

theorem readNested_of_closed {c d : Char} {start rest : List Char} {document : Document} (closed : skipBlanks start = d :: rest)
    (nested : Nesting False 1 document) : ReadNested (c :: start) document rest := by
  have blanks := length_skipBlanks start
  rw [closed, List.length_cons] at blanks
  exact readNested_of_scalar ⟨Nat.lt_succ_of_le (Nat.le_of_succ_le blanks), nested⟩

mutual

theorem value_nested {fuel : Nat} {cs rest : List Char} {document : Document} (read : value fuel cs = .ok (document, rest)) :
    ReadNested cs document rest := by
  match fuel with
  | 0 =>
    rw [value] at read
    cases read
  | fuel + 1 =>
    have shorter {more : List Char} (c : Char) (within : rest.length < more.length) : rest.length < (c :: more).length :=
      Nat.lt_succ_of_lt within
    unfold value at read
    split at read
    · obtain ⟨⟨text, after⟩, found, same⟩ := bind_eq_ok.mp read
      cases same
      exact readNested_of_scalar ⟨shorter _ (length_string found), .scalar (Or.inl rfl)⟩
    · next start =>
      split at read
      · next after closed =>
        cases read
        exact readNested_of_closed closed (.list nofun)
      · obtain ⟨⟨found, after⟩, inside, same⟩ := bind_eq_ok.mp read
        cases same
        obtain ⟨within, each⟩ := items_nested inside
        exact readNested_of_items within (length_skipBlanks start) each
    · next start =>
      split at read
      · next after closed =>
        cases read
        exact readNested_of_closed closed (.map nofun nofun)
      · obtain ⟨⟨pairs, after⟩, inside, same⟩ := bind_eq_ok.mp read
        cases same
        obtain ⟨within, each⟩ := entries_nested inside
        exact readNested_of_entries within (length_skipBlanks start) each
    · cases read
      exact readNested_of_scalar ⟨by simp only [List.length_cons]; omega, .null⟩
    · cases read
      exact readNested_of_scalar ⟨by simp only [List.length_cons]; omega, .scalar (Or.inl rfl)⟩
    · cases read
      exact readNested_of_scalar ⟨by simp only [List.length_cons]; omega, .scalar (Or.inl rfl)⟩
    · exact readNested_of_scalar (number_read read)

theorem items_nested {fuel : Nat} {cs rest : List Char} {found : List Document} (read : items fuel cs = .ok (found, rest)) :
    rest.length < cs.length ∧ ∀ item ∈ found, Nesting False (cs.length - rest.length) item := by
  match fuel with
  | 0 =>
    rw [items] at read
    cases read
  | fuel + 1 =>
    rw [items] at read
    obtain ⟨⟨item, after⟩, first, read⟩ := bind_eq_ok.mp read
    obtain ⟨within, nested⟩ := value_nested first
    have blanks := length_skipBlanks after
    dsimp only at read
    split at read
    · next last closed =>
      cases read
      rw [closed, List.length_cons] at blanks
      exact ⟨by omega, List.forall_mem_singleton.mpr (nested.mono (by omega))⟩
    · next more comma =>
      obtain ⟨⟨others, last⟩, later, same⟩ := bind_eq_ok.mp read
      dsimp only at same
      cases same
      rw [comma, List.length_cons] at blanks
      obtain ⟨inside, each⟩ := items_nested later
      have gap := length_skipBlanks more
      refine ⟨by omega, List.forall_mem_cons.mpr ⟨nested.mono (by omega), fun other listed => ?_⟩⟩
      exact (each other listed).mono (by omega)
    · cases read

theorem entries_nested {fuel : Nat} {cs rest : List Char} {pairs : List (Scalar × Document)}
    (read : entries fuel cs = .ok (pairs, rest)) : rest.length < cs.length
      ∧ ∀ pair ∈ pairs, pair.1.isShowable = true ∧ Nesting False (cs.length - rest.length) pair.2 := by
  match fuel with
  | 0 =>
    rw [entries] at read
    cases read
  | fuel + 1 =>
    unfold entries at read
    split at read
    · next start =>
      obtain ⟨⟨name, afterName⟩, named, read⟩ := bind_eq_ok.mp read
      have key := length_string named
      have gap := length_skipBlanks afterName
      dsimp only at read
      split at read
      · next more colon =>
        obtain ⟨⟨value, after⟩, given, read⟩ := bind_eq_ok.mp read
        obtain ⟨within, nested⟩ := value_nested given
        rw [colon, List.length_cons] at gap
        have before := length_skipBlanks more
        have blanks := length_skipBlanks after
        dsimp only at read
        split at read
        · next last closed =>
          cases read
          rw [closed, List.length_cons] at blanks
          rw [List.length_cons]
          exact ⟨by omega, List.forall_mem_singleton.mpr ⟨rfl, nested.mono (by omega)⟩⟩
        · next next comma =>
          obtain ⟨⟨others, last⟩, later, same⟩ := bind_eq_ok.mp read
          dsimp only at same
          cases same
          rw [comma, List.length_cons] at blanks
          obtain ⟨inside, each⟩ := entries_nested later
          have gap := length_skipBlanks next
          rw [List.length_cons]
          exact ⟨by omega, List.forall_mem_cons.mpr ⟨⟨rfl, nested.mono (by omega)⟩,
            fun other listed => (each other listed).imp_right fun inner => inner.mono (by omega)⟩⟩
        · cases read
      · cases read
    · cases read

end

/-- The value of a JSON text is nested no deeper than the text is long. -/
theorem parse_nested {text : String} {document : Document} (read : parse text = .ok document) :
    Nesting False text.length document := by
  unfold parse at read
  dsimp only at read
  split at read
  · cases read
  · obtain ⟨⟨found, rest⟩, given, read⟩ := bind_eq_ok.mp read
    dsimp only at read
    split at read
    · cases read
      have blanks := length_skipBlanks text.toList
      exact (value_nested given).2.mono (by rw [← String.length_toList]; omega)
    · cases read

end Json

end DeclGraph
