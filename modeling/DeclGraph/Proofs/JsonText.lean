import DeclGraph.Json.Reader
import DeclGraph.Json.Writer
import DeclGraph.Proofs.TextBytes
import Mathlib.Data.List.Nodup

/-!
Reading takes back what writing puts on one line. A text comes back character by character whatever it
holds; a list and an object come back in order. The reader is driven by fuel: the fuel that `parse` gives
covers every value, because each value has a character of its own in the text.
-/

namespace DeclGraph

theorem foldl_put_distinct {ρ κ : Type} {put : List ρ → ρ → List ρ} {key : ρ → κ}
    (new : ∀ found row, key row ∉ found.map key → put found row = found ++ [row]) (found rows : List ρ)
    (distinct : ((found ++ rows).map key).Nodup) : rows.foldl put found = found ++ rows := by
  induction rows generalizing found with
  | nil => simp
  | cons row rest ih =>
    have fresh : key row ∉ found.map key := by
      rw [List.map_append, List.map_cons, List.nodup_append] at distinct
      intro old
      exact distinct.2.2 _ old _ List.mem_cons_self rfl
    rw [List.foldl_cons, new found row fresh, ih]
    · simp
    · simpa using distinct

namespace Json

/-- Documents of texts, single digits, lists, and objects in which no key is repeated. -/
inductive Plain : Document → Prop
  | text (value : String) : Plain (.text value)
  | digit {n : Nat} (small : n < 10) : Plain (.nat n)
  | list {items : List Document} (each : ∀ item ∈ items, Plain item) : Plain (.list items)
  | object {fields : List (String × Document)} (distinct : (fields.map (·.1)).Nodup)
      (each : ∀ field ∈ fields, Plain field.2) : Plain (.object fields)

theorem plain_texts (values : List String) : Plain (.texts values) := by
  refine .list fun item member => ?_
  obtain ⟨value, _, rfl⟩ := List.mem_map.mp member
  exact .text value

section Strings

theorem hexNumber?_hexDigits : ∀ n < 0x20, Numeral.hexNumber? (Text.hexDigits 4 n) = some n := by decide

theorem joinPieces_control {n : Nat} (small : n < 0x20) (rest : List Piece) :
    joinPieces (.unit n :: rest) = Char.ofNat n :: joinPieces rest := by
  have notHigh : isHighUnit n = false := by simp [isHighUnit]; omega
  have alone : Text.ofCode n = Char.ofNat n := Text.ofCode_of_small (by omega)
  cases rest with
  | nil => simp [joinPieces, alone]
  | cons next rest =>
    cases next with
    | char c => simp [joinPieces, alone]
    | unit low => simp [joinPieces, alone, notHigh]

theorem stringPieces_unitEscape {n : Nat} (small : n < 0x20) (rest : List Char) :
    stringPieces (unitEscape n ++ rest) =
      (stringPieces rest).map fun (pieces, after) => (.unit n :: pieces, after) := by
  have value := hexNumber?_hexDigits n small
  simp only [unitEscape, Text.hexDigits, List.nil_append, List.cons_append] at value ⊢
  rw [stringPieces, value]

theorem stringPieces_simpleEscape {letter image : Char} (notUnit : letter ≠ 'u')
    (known : simpleEscape? letter = some image) (rest : List Char) :
    stringPieces ('\\' :: letter :: rest) =
      (stringPieces rest).map fun (pieces, after) => (.char image :: pieces, after) := by
  rw [stringPieces, known]
  intro _ _ _ _ _ same
  exact absurd same notUnit

theorem stringPieces_plain {c : Char} (notQuote : c ≠ '"') (notSlash : c ≠ '\\') (shown : ¬ c.toNat < 0x20)
    (rest : List Char) :
    stringPieces (c :: rest) =
      (stringPieces rest).map fun (pieces, after) => (.char c :: pieces, after) := by
  rw [stringPieces, if_neg (not_or.mpr ⟨shown, notSlash⟩)]
  · exact notQuote
  · exact fun _ _ _ _ _ same => absurd same notSlash
  · exact fun _ _ same => absurd same notSlash

/-- A character outlives its escape: the escape is read as one piece, which gives the character. -/
def Survives (c : Char) : Prop :=
  ∃ piece, (∀ more, joinPieces (piece :: more) = c :: joinPieces more)
    ∧ ∀ rest, stringPieces (escape false c ++ rest) =
      (stringPieces rest).map fun (pieces, after) => (piece :: pieces, after)

theorem survives_simple {c : Char} (letter : Char) (notUnit : letter ≠ 'u')
    (known : simpleEscape? letter = some c) (escaped : escape false c = ['\\', letter]) : Survives c := by
  refine ⟨.char c, fun more => by rw [joinPieces], fun rest => ?_⟩
  rw [escaped]
  exact stringPieces_simpleEscape notUnit known rest

theorem survives (c : Char) : Survives c := by
  by_cases quote : c = '"'
  · exact survives_simple '"' (by decide) (by subst quote; rfl) (by subst quote; rfl)
  by_cases slash : c = '\\'
  · exact survives_simple '\\' (by decide) (by subst slash; rfl) (by subst slash; rfl)
  by_cases newline : c = '\n'
  · exact survives_simple 'n' (by decide) (by subst newline; rfl) (by subst newline; rfl)
  by_cases feed : c = '\r'
  · exact survives_simple 'r' (by decide) (by subst feed; rfl) (by subst feed; rfl)
  by_cases tab : c = '\t'
  · exact survives_simple 't' (by decide) (by subst tab; rfl) (by subst tab; rfl)
  by_cases page : c = '\x0c'
  · exact survives_simple 'f' (by decide) (by subst page; rfl) (by subst page; rfl)
  by_cases back : c = '\x08'
  · exact survives_simple 'b' (by decide) (by subst back; rfl) (by subst back; rfl)
  -- What is left has no letter of its own: a control character by its number, all else as it is.
  have escaped : escape false c = if c.toNat < 0x20 then unitEscape c.toNat else [c] := by
    simp [escape, quote, slash, newline, feed, tab, page, back]
  by_cases control : c.toNat < 0x20
  · refine ⟨.unit c.toNat, fun more => ?_, fun rest => ?_⟩
    · rw [joinPieces_control control, Char.ofNat_toNat]
    · rw [escaped, if_pos control]
      exact stringPieces_unitEscape control rest
  · refine ⟨.char c, fun more => by rw [joinPieces], fun rest => ?_⟩
    rw [escaped, if_neg control]
    exact stringPieces_plain quote slash control rest

theorem stringPieces_written (cs rest : List Char) :
    ∃ pieces, joinPieces pieces = cs
      ∧ stringPieces (cs.flatMap (escape false) ++ '"' :: rest) = some (pieces, rest) := by
  induction cs with
  | nil => exact ⟨[], rfl, rfl⟩
  | cons c more ih =>
    obtain ⟨pieces, joined, read⟩ := ih
    obtain ⟨piece, stands, step⟩ := survives c
    refine ⟨piece :: pieces, by rw [stands, joined], ?_⟩
    rw [List.flatMap_cons, List.append_assoc, step, read]
    rfl

theorem string_written (text : String) (rest : List Char) :
    string (text.toList.flatMap (escape false) ++ '"' :: rest) = .ok (text, rest) := by
  obtain ⟨pieces, joined, read⟩ := stringPieces_written text.toList rest
  simp only [string, read, joined, String.ofList_toList]

end Strings

section Values

def Closes (rest : List Char) : Prop := ∀ c ∈ rest.head?, c = ',' ∨ c = ']' ∨ c = '\x7d'

theorem closes_nil : Closes [] := by simp [Closes]

theorem closes_comma (rest : List Char) : Closes (',' :: rest) := by simp [Closes]

theorem closes_bracket (rest : List Char) : Closes (']' :: rest) := by simp [Closes]

theorem closes_brace (rest : List Char) : Closes ('\x7d' :: rest) := by simp [Closes]

def Opens (c : Char) : Prop := c = '"' ∨ c = '[' ∨ c = '\x7b' ∨ c.isDigit = true

theorem skipBlanks_opens {c : Char} (opens : Opens c) (rest : List Char) :
    skipBlanks (c :: rest) = c :: rest := by
  have notBlank : isBlank c = false := by
    by_contra blank
    simp only [isBlank, Bool.not_eq_false, Bool.or_eq_true, decide_eq_true_eq] at blank
    rcases blank with ((rfl | rfl) | rfl) | rfl <;> simp [Opens] at opens
  simp [skipBlanks, notBlank]

theorem digits_closes {rest : List Char} (closes : Closes rest) : Numeral.digits rest = ([], rest) := by
  cases rest with
  | nil => rfl
  | cons c more => rcases closes c rfl with rfl | rfl | rfl <;> rfl

theorem unsigned_digit {c : Char} (isDigit : c.isDigit = true) {rest : List Char} (closes : Closes rest) :
    unsigned false (c :: rest) = .ok (.int (Int.ofNat (Numeral.natOfDigits [c])), rest) := by
  have whole : whole? (c :: rest) = some ([c], rest) := by
    unfold whole?
    split
    next more same => cases same; rfl
    next =>
      have step : Numeral.digits (c :: rest) = ([c], rest) := by
        have tail := digits_closes closes
        simp only [Numeral.digits, Prod.mk.injEq] at tail ⊢
        simp [isDigit, tail]
      simp [step]
  have noFraction : Numeral.fraction rest = ([], rest) := by
    cases rest with
    | nil => rfl
    | cons c more => rcases closes c rfl with rfl | rfl | rfl <;> rfl
  have noExponent : Numeral.exponent rest = (none, rest) := by
    cases rest with
    | nil => rfl
    | cons c more => rcases closes c rfl with rfl | rfl | rfl <;> rfl
  simp [unsigned, whole, noFraction, noExponent, Numeral.digitLimit]

theorem value_digit {c : Char} (isDigit : c.isDigit = true) (fuel : Nat) (rest : List Char) :
    value (fuel + 1) (c :: rest) = unsigned false (c :: rest) := by
  rw [value.eq_def]
  simp only
  split <;> simp_all [Char.isDigit]
  rw [number.eq_def]
  split <;> simp_all

theorem chars_digit {n : Nat} (small : n < 10) (depth : Nat) :
    chars .plain depth (.nat n) = [n.digitChar] := by
  have written : (toString (Int.ofNat n)).toList = [n.digitChar] := by
    show (Nat.repr n).toList = _
    rw [Nat.repr_eq_ofList_toDigits, Nat.toDigits_of_lt_base small, String.toList_ofList]
  rw [Document.nat, chars, scalarChars, written]

theorem isDigit_digitChar {n : Nat} (small : n < 10) : n.digitChar.isDigit = true := by
  rw [Nat.isDigit_digitChar, decide_eq_true small]

theorem stringChars_append (text : String) (rest : List Char) :
    stringChars false text ++ rest = '"' :: (text.toList.flatMap (escape false) ++ '"' :: rest) := by
  simp [stringChars]

@[simp]
theorem lineStart_plain (depth : Nat) : lineStart .plain depth = [] := rfl

@[simp]
theorem separator_plain (depth : Nat) : separator .plain depth = [',', ' '] := rfl

@[simp]
theorem asciiOnly_plain : Style.plain.asciiOnly = false := rfl

theorem opens_chars {document : Document} (plain : Plain document) (depth : Nat) :
    ∃ c more, chars .plain depth document = c :: more ∧ Opens c := by
  cases plain with
  | text value => exact ⟨'"', _, by rw [chars, scalarChars, stringChars]; rfl, Or.inl rfl⟩
  | digit small => exact ⟨_, [], chars_digit small depth, by simp [Opens, isDigit_digitChar small]⟩
  | @list items each =>
    cases items with
    | nil => exact ⟨'[', _, by rw [chars], by simp [Opens]⟩
    | cons item rest => exact ⟨'[', _, by rw [chars]; rfl, by simp [Opens]⟩
  | @object fields distinct each =>
    cases fields with
    | nil => exact ⟨'\x7b', _, by rw [Document.object, List.map_nil, chars], by simp [Opens]⟩
    | cons field rest =>
      exact ⟨'\x7b', _, by rw [Document.object, List.map_cons, chars]; rfl, by simp [Opens]⟩

/-- The reader takes the text of a document back when it has fuel for the values in it. -/
def ReadsBack (document : Document) : Prop :=
  -- A value takes fuel twice, for itself and for its place in a list or an object.
  ∀ depth fuel rest, 2 * document.size ≤ fuel + 1 → Closes rest →
    value fuel (chars .plain depth document ++ rest) = .ok (document, rest)

theorem readsBack_text (text : String) : ReadsBack (.text text) := by
  intro depth fuel rest enough _
  obtain ⟨fuel, rfl⟩ : ∃ less, fuel = less + 1 := ⟨fuel - 1, by simp [Document.size] at enough; omega⟩
  rw [chars, scalarChars, asciiOnly_plain, stringChars_append, value, string_written]
  rfl

theorem readsBack_digit {n : Nat} (small : n < 10) : ReadsBack (.nat n) := by
  intro depth fuel rest enough closes
  obtain ⟨fuel, rfl⟩ : ∃ less, fuel = less + 1 := ⟨fuel - 1, by simp [Document.size] at enough; omega⟩
  rw [chars_digit small, List.singleton_append, value_digit (isDigit_digitChar small),
    unsigned_digit (isDigit_digitChar small) closes]
  have worth : Numeral.natOfDigits [n.digitChar] = n := by
    simp only [Numeral.natOfDigits, List.foldl_cons, List.foldl_nil]
    exact (Nat.zero_add _).trans (Nat.toNat_digitChar_sub_48_of_lt_ten small)
  rw [worth]

theorem skipBlanks_chars {document : Document} (plain : Plain document) (depth : Nat) (rest : List Char) :
    skipBlanks (chars .plain depth document ++ rest) = chars .plain depth document ++ rest := by
  obtain ⟨c, more, written, opens⟩ := opens_chars plain depth
  rw [written]
  exact skipBlanks_opens opens _

theorem size_pos (document : Document) : 0 < document.size := by
  cases document <;> simp only [Document.size] <;> omega

theorem items_last {item : Document} {fuel : Nat} {written after : List Char}
    (read : value fuel written = .ok (item, ']' :: after)) : items (fuel + 1) written = .ok ([item], after) := by
  rw [items, read]
  rfl

theorem items_more {item : Document} {others : List Document} {fuel : Nat} {written next after : List Char}
    (read : value fuel written = .ok (item, ',' :: ' ' :: next)) (start : skipBlanks next = next)
    (later : items fuel next = .ok (others, after)) :
    items (fuel + 1) written = .ok (item :: others, after) := by
  have blank : skipBlanks (' ' :: next) = next := start
  rw [← blank] at later
  rw [items, read]
  exact congrArg (fun found => found >>= fun found => pure (item :: found.1, found.2)) later

theorem items_written {first : Document} {others : List Document}
    (plain : ∀ item ∈ first :: others, Plain item) (back : ∀ item ∈ first :: others, ReadsBack item)
    (depth fuel : Nat) (rest : List Char) (enough : 2 * Document.sizeItems (first :: others) ≤ fuel) :
    items fuel (chars .plain depth first ++ (itemChars .plain depth others ++ ']' :: rest)) =
      .ok (first :: others, rest) := by
  induction others generalizing first fuel with
  | nil =>
    have positive := size_pos first
    simp only [Document.sizeItems] at enough
    obtain ⟨fuel, rfl⟩ : ∃ less, fuel = less + 1 := ⟨fuel - 1, by omega⟩
    apply items_last
    exact back first List.mem_cons_self depth fuel (']' :: rest) (by omega) (closes_bracket rest)
  | cons next more ih =>
    have positive := size_pos first
    simp only [Document.sizeItems] at enough
    obtain ⟨fuel, rfl⟩ : ∃ less, fuel = less + 1 := ⟨fuel - 1, by omega⟩
    simp only [itemChars, separator_plain, List.cons_append, List.nil_append, List.append_assoc]
    apply items_more
    · exact back first List.mem_cons_self depth fuel _ (by omega) (closes_comma _)
    · exact skipBlanks_chars (plain next (by simp)) depth _
    · exact ih (fun item member => plain item (List.mem_cons_of_mem _ member))
        (fun item member => back item (List.mem_cons_of_mem _ member)) fuel
        (by simp only [Document.sizeItems]; omega)

theorem readsBack_list {list : List Document} (plain : ∀ item ∈ list, Plain item)
    (back : ∀ item ∈ list, ReadsBack item) : ReadsBack (.list list) := by
  intro depth fuel rest enough _
  obtain ⟨fuel, rfl⟩ : ∃ less, fuel = less + 1 := ⟨fuel - 1, by simp [Document.size] at enough; omega⟩
  cases list with
  | nil =>
    rw [chars]
    rfl
  | cons first others =>
    simp only [Document.size] at enough
    have read := items_written plain back (depth + 1) fuel rest (by omega)
    obtain ⟨c, more, written, opens⟩ := opens_chars (plain first List.mem_cons_self) (depth + 1)
    simp only [chars, lineStart_plain, List.cons_append, List.nil_append, List.append_assoc]
    rw [written] at read ⊢
    rw [List.cons_append] at read ⊢
    -- The first item does not start with a bracket, so the list is not taken for an empty one.
    have notClosed : c ≠ ']' := by
      rintro rfl
      simp [Opens] at opens
    rw [value, skipBlanks_opens opens]
    split
    next after same => exact absurd (List.cons.inj same).1 notClosed
    next =>
      rw [read]
      rfl

def pairsOf (fields : List (String × Document)) : Entries := fields.map fun field => (.text field.1, field.2)

theorem pairsOf_cons (first : String × Document) (others : List (String × Document)) :
    pairsOf (first :: others) = (.text first.1, first.2) :: pairsOf others := rfl

theorem keyChars_append (name : String) (rest : List Char) :
    keyChars false (.text name) ++ rest =
      '"' :: (name.toList.flatMap (escape false) ++ '"' :: rest) :=
  stringChars_append name rest

theorem entries_last {name : String} {found : Document} {fuel : Nat} {written after : List Char}
    (start : skipBlanks written = written) (read : value fuel written = .ok (found, '\x7d' :: after)) :
    entries (fuel + 1) (keyChars false (.text name) ++ ':' :: ' ' :: written) =
      .ok ([(.text name, found)], after) := by
  have blank : skipBlanks (' ' :: written) = written := start
  rw [← blank] at read
  rw [keyChars_append, entries, string_written]
  show (value fuel (skipBlanks (' ' :: written)) >>= _) = _
  rw [read]
  rfl

theorem entries_more {name : String} {found : Document} {pairs : Entries} {fuel : Nat}
    {written next after : List Char} (start : skipBlanks written = written)
    (read : value fuel written = .ok (found, ',' :: ' ' :: next)) (nextStart : skipBlanks next = next)
    (later : entries fuel next = .ok (pairs, after)) :
    entries (fuel + 1) (keyChars false (.text name) ++ ':' :: ' ' :: written) =
      .ok ((.text name, found) :: pairs, after) := by
  have blank : skipBlanks (' ' :: written) = written := start
  have nextBlank : skipBlanks (' ' :: next) = next := nextStart
  rw [← blank] at read
  rw [← nextBlank] at later
  rw [keyChars_append, entries, string_written]
  show (value fuel (skipBlanks (' ' :: written)) >>= _) = _
  rw [read]
  exact congrArg (fun rest => rest >>= fun rest => pure ((Scalar.text name, found) :: rest.1, rest.2)) later

theorem entries_written {first : String × Document} {others : List (String × Document)}
    (plain : ∀ field ∈ first :: others, Plain field.2)
    (back : ∀ field ∈ first :: others, ReadsBack field.2) (depth fuel : Nat) (rest : List Char)
    (enough : 2 * Document.sizeEntries (pairsOf (first :: others)) ≤ fuel) :
    entries fuel (keyChars false (.text first.1) ++ ':' :: ' ' :: (chars .plain depth first.2
      ++ (entryChars .plain depth (pairsOf others) ++ '\x7d' :: rest))) =
      .ok (pairsOf (first :: others), rest) := by
  induction others generalizing first fuel with
  | nil =>
    simp only [pairsOf, List.map_cons, List.map_nil, Document.sizeEntries] at enough
    obtain ⟨fuel, rfl⟩ : ∃ less, fuel = less + 1 := ⟨fuel - 1, by omega⟩
    apply entries_last
    · exact skipBlanks_chars (plain first List.mem_cons_self) depth _
    · exact back first List.mem_cons_self depth fuel _ (by omega) (closes_brace rest)
  | cons next more ih =>
    simp only [pairsOf_cons, Document.sizeEntries] at enough
    obtain ⟨fuel, rfl⟩ : ∃ less, fuel = less + 1 := ⟨fuel - 1, by omega⟩
    have later := ih (fun field member => plain field (List.mem_cons_of_mem _ member))
      (fun field member => back field (List.mem_cons_of_mem _ member)) fuel
      (by simp only [pairsOf_cons, Document.sizeEntries]; omega)
    simp only [pairsOf_cons, entryChars, separator_plain, asciiOnly_plain, List.cons_append,
      List.nil_append, List.append_assoc] at later ⊢
    apply entries_more
    · exact skipBlanks_chars (plain first List.mem_cons_self) depth _
    · exact back first List.mem_cons_self depth fuel _ (by omega) (closes_comma _)
    · rw [keyChars_append]
      exact skipBlanks_opens (Or.inl rfl) _
    · exact later

theorem insert_new (entries : Entries) (pair : Scalar × Document)
    (new : pair.1.key ∉ entries.map (·.1.key)) : entries.insert pair.1 pair.2 = entries ++ [pair] := by
  induction entries with
  | nil => rfl
  | cons entry rest ih =>
    simp only [List.map_cons, List.mem_cons, not_or] at new
    rw [Entries.insert, if_neg (Ne.symm new.1), ih new.2, List.cons_append]

theorem ofPairs_pairsOf {fields : List (String × Document)} (distinct : (fields.map (·.1)).Nodup) :
    Entries.ofPairs (pairsOf fields) = pairsOf fields := by
  refine foldl_put_distinct insert_new [] (pairsOf fields) ?_
  have named : (pairsOf fields).map (·.1.key) = (fields.map (·.1)).map Key.text := by
    simp [pairsOf, Scalar.key, Function.comp_def]
  rw [List.nil_append, named]
  exact distinct.map fun _ _ same => Key.text.inj same

theorem readsBack_object {fields : List (String × Document)} (distinct : (fields.map (·.1)).Nodup)
    (plain : ∀ field ∈ fields, Plain field.2) (back : ∀ field ∈ fields, ReadsBack field.2) :
    ReadsBack (.object fields) := by
  intro depth fuel rest enough _
  rw [Document.object, ← pairsOf] at enough ⊢
  obtain ⟨fuel, rfl⟩ : ∃ less, fuel = less + 1 := ⟨fuel - 1, by simp [Document.size] at enough; omega⟩
  cases fields with
  | nil =>
    rw [pairsOf, List.map_nil, chars]
    rfl
  | cons first others =>
    simp only [Document.size] at enough
    have read := entries_written plain back (depth + 1) fuel rest (by omega)
    have kept := ofPairs_pairsOf distinct
    rw [pairsOf_cons, chars]
    simp only [lineStart_plain, asciiOnly_plain, List.cons_append, List.nil_append, List.append_assoc]
    rw [keyChars_append] at read ⊢
    rw [value, skipBlanks_opens (Or.inl rfl)]
    show (entries fuel ('"' :: _) >>= fun found => pure (Document.map (Entries.ofPairs found.1), found.2)) = _
    rw [read]
    show Except.ok (Document.map (Entries.ofPairs (pairsOf (first :: others))), rest) = _
    rw [kept]
    rfl

theorem readsBack {document : Document} (plain : Plain document) : ReadsBack document := by
  induction plain with
  | text value => exact readsBack_text value
  | digit small => exact readsBack_digit small
  | list each back => exact readsBack_list each back
  | object distinct each back => exact readsBack_object distinct each back

end Values

section Lengths

/-- Each value in a document has a character of its own in the text. -/
def Covered (document : Document) : Prop := ∀ depth, document.size ≤ (chars .plain depth document).length

theorem sizeItems_le {list : List Document} (covered : ∀ item ∈ list, Covered item) (depth : Nat) :
    Document.sizeItems list ≤ (itemChars .plain depth list).length := by
  induction list with
  | nil => simp [Document.sizeItems]
  | cons item rest ih =>
    have here := covered item List.mem_cons_self depth
    have later := ih fun item member => covered item (List.mem_cons_of_mem _ member)
    simp only [Document.sizeItems, itemChars, List.length_append]
    omega

theorem sizeEntries_le {fields : List (String × Document)} (covered : ∀ field ∈ fields, Covered field.2)
    (depth : Nat) :
    Document.sizeEntries (pairsOf fields) ≤ (entryChars .plain depth (pairsOf fields)).length := by
  induction fields with
  | nil => simp [pairsOf, Document.sizeEntries]
  | cons field rest ih =>
    have here := covered field List.mem_cons_self depth
    have later := ih fun field member => covered field (List.mem_cons_of_mem _ member)
    simp only [pairsOf_cons, Document.sizeEntries, entryChars, separator_plain, List.length_append,
      List.length_cons, List.length_nil]
    omega

theorem covered {document : Document} (plain : Plain document) : Covered document := by
  induction plain with
  | text value =>
    intro depth
    simp [Document.size, chars, scalarChars, stringChars]
  | digit small =>
    intro depth
    simp [chars_digit small, Document.size]
  | @list items each ih =>
    intro depth
    cases items with
    | nil => simp [Document.size, Document.sizeItems, chars]
    | cons first others =>
      have here := ih first List.mem_cons_self (depth + 1)
      have later := sizeItems_le (fun item member => ih item (List.mem_cons_of_mem _ member)) (depth + 1)
      simp only [Document.size, Document.sizeItems, chars, List.length_append, List.length_cons]
      omega
  | @object fields distinct each ih =>
    intro depth
    cases fields with
    | nil => simp [Document.object, Document.size, Document.sizeEntries, chars]
    | cons first others =>
      have here := ih first List.mem_cons_self (depth + 1)
      have later := sizeEntries_le (fun field member => ih field (List.mem_cons_of_mem _ member)) (depth + 1)
      rw [Document.object, ← pairsOf, pairsOf_cons]
      simp only [Document.size, Document.sizeEntries, chars, List.length_append, List.length_cons]
      omega

end Lengths

section Spelling

/-- A property of every character that writing puts down for its own sake. A carriage return is none of them: in a
string it is escaped. -/
def OfLayout (p : Char → Prop) : Prop := ∀ c : Char, c.toNat < 0x80 → c ≠ '\r' → p c

def SpelledText (p : Char → Prop) (text : String) : Prop := ∀ c ∈ text.toList, c = '\r' ∨ p c

/-- Plain documents all of whose texts are spelled with characters of a property. -/
inductive Spelled (p : Char → Prop) : Document → Prop
  | text {value : String} (each : SpelledText p value) : Spelled p (.text value)
  | digit {n : Nat} (small : n < 10) : Spelled p (.nat n)
  | list {items : List Document} (each : ∀ item ∈ items, Spelled p item) : Spelled p (.list items)
  | object {fields : List (String × Document)} (named : ∀ field ∈ fields, SpelledText p field.1)
      (each : ∀ field ∈ fields, Spelled p field.2) : Spelled p (.object fields)

theorem spelled_texts {p : Char → Prop} {values : List String} (each : ∀ value ∈ values, SpelledText p value) :
    Spelled p (.texts values) := by
  refine .list fun item member => ?_
  obtain ⟨value, inside, rfl⟩ := List.mem_map.mp member
  exact .text (each value inside)

variable {p : Char → Prop} (layout : OfLayout p)
include layout

theorem layout_escape {c : Char} (own : c = '\r' ∨ p c) : ∀ d ∈ escape false c, p d := by
  by_cases control : c.toNat < 0x20
  · -- A control character is escaped by letters and digits.
    have escaped : ∀ n < 0x20, (escape false (Char.ofNat n)).all (fun d => d.toNat < 0x80 && d != '\r') = true := by
      decide
    intro d member
    rw [← Char.ofNat_toNat c] at member
    have plain := List.all_eq_true.mp (escaped c.toNat control) d member
    simp only [Bool.and_eq_true, decide_eq_true_eq, bne_iff_ne] at plain
    exact layout d plain.1 plain.2
  · have kept : p c := by
      refine own.resolve_left ?_
      rintro rfl
      exact control (by decide)
    have slash : p '\\' := layout _ (by decide) (by decide)
    unfold escape
    repeat' split
    all_goals simp_all

theorem layout_stringChars {text : String} (spelled : SpelledText p text) : ∀ d ∈ stringChars false text, p d := by
  have quote : p '"' := layout _ (by decide) (by decide)
  intro d member
  simp only [stringChars, List.mem_append, List.mem_cons, List.mem_flatMap, List.not_mem_nil, or_false] at member
  rcases member with (rfl | ⟨c, inside, escaped⟩) | rfl
  · exact quote
  · exact layout_escape layout (spelled c inside) d escaped
  · exact quote

theorem layout_itemChars {list : List Document} (each : ∀ item ∈ list, ∀ depth, ∀ d ∈ chars .plain depth item, p d)
    (depth : Nat) : ∀ d ∈ itemChars .plain depth list, p d := by
  have comma : p ',' := layout _ (by decide) (by decide)
  have blank : p ' ' := layout _ (by decide) (by decide)
  induction list with
  | nil => simp [itemChars]
  | cons item rest ih =>
    have here := each item List.mem_cons_self depth
    have later := ih fun item member => each item (List.mem_cons_of_mem _ member)
    simp only [itemChars, separator_plain, List.forall_mem_append, List.forall_mem_cons]
    exact ⟨⟨⟨comma, blank, by simp⟩, here⟩, later⟩

theorem layout_entryChars {fields : List (String × Document)} (named : ∀ field ∈ fields, SpelledText p field.1)
    (each : ∀ field ∈ fields, ∀ depth, ∀ d ∈ chars .plain depth field.2, p d) (depth : Nat) :
    ∀ d ∈ entryChars .plain depth (pairsOf fields), p d := by
  have comma : p ',' := layout _ (by decide) (by decide)
  have blank : p ' ' := layout _ (by decide) (by decide)
  have colon : p ':' := layout _ (by decide) (by decide)
  induction fields with
  | nil => simp [pairsOf, entryChars]
  | cons field rest ih =>
    have name := layout_stringChars layout (named field List.mem_cons_self)
    have here := each field List.mem_cons_self depth
    have later := ih (fun field member => named field (List.mem_cons_of_mem _ member))
      fun field member => each field (List.mem_cons_of_mem _ member)
    simp only [pairsOf_cons, entryChars, separator_plain, asciiOnly_plain, keyChars, List.forall_mem_append,
      List.forall_mem_cons]
    exact ⟨⟨⟨⟨⟨comma, blank, by simp⟩, name⟩, colon, blank, by simp⟩, here⟩, later⟩

/-- A property that the layout has and all texts have is one of all characters of the written text. -/
theorem layout_chars {document : Document} (spelled : Spelled p document) :
    ∀ depth, ∀ d ∈ chars .plain depth document, p d := by
  have opening {c : Char} (plain : c = '[' ∨ c = ']' ∨ c = '\x7b' ∨ c = '\x7d' ∨ c = ':' ∨ c = ' ') : p c := by
    rcases plain with rfl | rfl | rfl | rfl | rfl | rfl <;> exact layout _ (by decide) (by decide)
  induction spelled with
  | text each =>
    intro depth
    rw [chars]
    exact layout_stringChars layout each
  | @digit n small =>
    intro depth
    have digits : ∀ n < 10, n.digitChar.toNat < 0x80 ∧ n.digitChar ≠ '\r' := by decide
    rw [chars_digit small]
    simp only [List.mem_singleton, forall_eq]
    exact layout _ (digits n small).1 (digits n small).2
  | @list items each ih =>
    intro depth
    cases items with
    | nil => simp [chars, opening]
    | cons first others =>
      have here := ih first List.mem_cons_self (depth + 1)
      have later := layout_itemChars layout (fun item member => ih item (List.mem_cons_of_mem _ member)) (depth + 1)
      simp only [chars, lineStart_plain, List.forall_mem_append, List.forall_mem_cons]
      exact ⟨⟨⟨⟨⟨opening (by simp), by simp⟩, here⟩, later⟩, by simp⟩, opening (by simp), by simp⟩
  | @object fields named each ih =>
    intro depth
    cases fields with
    | nil => simp [Document.object, chars, opening]
    | cons first others =>
      have name := layout_stringChars layout (named first List.mem_cons_self)
      have here := ih first List.mem_cons_self (depth + 1)
      have later := layout_entryChars layout (fun field member => named field (List.mem_cons_of_mem _ member))
        (fun field member => ih field (List.mem_cons_of_mem _ member)) (depth + 1)
      rw [Document.object, ← pairsOf, pairsOf_cons]
      simp only [chars, lineStart_plain, asciiOnly_plain, keyChars, List.forall_mem_append, List.forall_mem_cons]
      exact ⟨⟨⟨⟨⟨⟨⟨opening (by simp), by simp⟩, name⟩, opening (by simp), opening (by simp), by simp⟩, here⟩, later⟩,
        by simp⟩, opening (by simp), by simp⟩

omit layout in
theorem no_return_chars {document : Document} (plain : Plain document) (depth : Nat) :
    '\r' ∉ chars .plain depth document := by
  have any (text : String) : SpelledText (· ≠ '\r') text := fun c _ => Classical.em (c = '\r')
  have spelled : Spelled (· ≠ '\r') document := by
    induction plain with
    | text value => exact .text (any value)
    | digit small => exact .digit small
    | list _ ih => exact .list ih
    | object _ _ ih => exact .object (fun field _ => any field.1) ih
  intro broken
  exact layout_chars (fun _ _ other => other) spelled depth _ broken rfl

omit layout in
theorem wellFormed_write {document : Document} (spelled : Spelled (Text.isUnpaired · = false) document) :
    Text.WellFormed (write .plain document) := by
  have ascii : OfLayout (Text.isUnpaired · = false) := by
    intro c small _
    simp only [Text.isUnpaired, Bool.and_eq_false_iff, decide_eq_false_iff_not]
    omega
  rw [Text.WellFormed, write, String.toList_ofList]
  exact layout_chars ascii spelled 0

end Spelling

/-- Reading takes back what writing puts on one line. -/
theorem parse_write {document : Document} (plain : Plain document) :
    parse (write .plain document) = .ok document := by
  have enough := covered plain 0
  have read := readsBack plain 0 (2 * (chars .plain 0 document).length + 1) [] (by omega) closes_nil
  have start := skipBlanks_chars plain 0 []
  obtain ⟨c, more, written, opens⟩ := opens_chars plain 0
  -- The mark of a byte order opens no value.
  have noMark : c ≠ '\ufeff' := by
    rintro rfl
    simp [Opens] at opens
  rw [List.append_nil] at read start
  rw [parse, write, String.toList_ofList]
  split
  next more same =>
    rw [written] at same
    exact absurd (List.cons.inj same).1 noMark
  next =>
    rw [start, read]
    rfl

end Json

end DeclGraph
