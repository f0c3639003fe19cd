import Mathlib
import DeclGraph.Proofs.YamlText
import DeclGraph.Yaml.Lexer

/-!
The tokens of a YAML text that begin mappings. Each is read with a character of its own or shares one with another, so there
are at most two for each character.
-/

namespace DeclGraph.Yaml

/-- How many mappings begin with a token. -/
def Token.opens : Token → Nat
  | .blockMappingStart | .flowMappingStart | .key => 1
  | _ => 0

theorem Token.opens_le (token : Token) : token.opens ≤ 1 := by
  unfold opens
  split
  all_goals omega

def opening (tokens : List Token) : Nat := (tokens.map Token.opens).sum

theorem opening_cons (token : Token) (tokens : List Token) : opening (token :: tokens) = token.opens + opening tokens := rfl

theorem opening_append (first second : List Token) : opening (first ++ second) = opening first + opening second := by
  rw [opening, List.map_append, List.sum_append, opening, opening]

theorem opening_drop_le (tokens : List Token) (taken : Nat) : opening (tokens.drop taken) ≤ opening tokens := by
  have whole := opening_append (tokens.take taken) (tokens.drop taken)
  rw [List.take_append_drop] at whole
  omega

theorem opening_drop_succ (tokens : List Token) (taken : Nat) :
    opening (tokens.drop taken) ≤ opening (tokens.drop (taken + 1)) + 1 := by
  by_cases inside : taken < tokens.length
  · rw [List.drop_eq_getElem_cons inside, opening_cons, Nat.add_comm]
    exact Nat.add_le_add_left (Token.opens_le _) _
  · rw [List.drop_eq_nil_of_le (Nat.le_of_not_lt inside)]
    exact Nat.zero_le _

theorem opening_insertIdx (token : Token) (tokens : List Token) (place taken : Nat) :
    opening ((tokens.insertIdx place token).drop taken) ≤ opening (tokens.drop taken) + 1 := by
  have single := token.opens_le
  induction tokens generalizing place taken with
  | nil =>
    refine Nat.le_trans (opening_drop_le _ _) ?_
    cases place with
    | zero =>
      rw [List.insertIdx_zero, opening_cons]
      exact Nat.le_trans single (Nat.le_add_left _ _)
    | succ place => exact Nat.zero_le _
  | cons first rest ih =>
    cases place with
    | zero =>
      rw [List.insertIdx_zero]
      cases taken with
      | zero =>
        rw [List.drop_zero, List.drop_zero, opening_cons, Nat.add_comm]
        exact Nat.add_le_add_left single _
      | succ taken => exact opening_drop_succ (first :: rest) taken
    | succ place =>
      rw [List.insertIdx_succ_cons]
      cases taken with
      | zero =>
        have inner := ih place 0
        rw [List.drop_zero, List.drop_zero, opening_cons, opening_cons, Nat.add_assoc]
        exact Nat.add_le_add_left inner _
      | succ taken => exact ih place taken

namespace Lexer

def waiting (lexer : Lexer) : Nat := opening (lexer.tokens.toList.drop lexer.taken)

/-- How many mappings may still begin: two for each character that is left. -/
def budget (lexer : Lexer) : Nat := lexer.waiting + 2 * lexer.cursor.rest.length

def upcoming (lexer : Lexer) : Token := lexer.tokens.getD lexer.taken .streamEnd

/-- At most so many mappings begin with tokens that were added, and the place is the same. -/
structure Grows (before after : Lexer) (count : Nat) : Prop where
  cursor : after.cursor = before.cursor
  waiting : after.waiting ≤ before.waiting + count

section Growing

variable {lexer before middle after : Lexer} {count more : Nat}

theorem Grows.trans (one : before.Grows middle count) (two : middle.Grows after more) :
    before.Grows after (count + more) where
  cursor := two.cursor.trans one.cursor
  waiting := by
    have first := one.waiting
    have second := two.waiting
    omega

theorem grows_drop {test : Candidate → Bool} (dropped : lexer.drop test = .ok after) : lexer.Grows after 0 := by
  unfold drop at dropped
  split at dropped
  · cases dropped
  · cases dropped
    exact ⟨rfl, Nat.le_refl _⟩

theorem grows_offer (offered : lexer.offer = .ok after) : lexer.Grows after 0 := by
  unfold offer at offered
  split at offered
  · cases offered
    exact ⟨rfl, Nat.le_refl _⟩
  · obtain ⟨cleared, dropped, same⟩ := bind_eq_ok.mp offered
    cases same
    exact ⟨(grows_drop dropped).cursor, (grows_drop dropped).waiting⟩

theorem opening_push (tokens : Array Token) (token : Token) (taken : Nat) :
    opening ((tokens.push token).toList.drop taken) ≤ opening (tokens.toList.drop taken) + token.opens := by
  rw [Array.toList_push, List.drop_append, opening_append]
  exact Nat.add_le_add_left (opening_drop_le [token] _) _

theorem grows_push (lexer : Lexer) (token : Token) : lexer.Grows (lexer.push token) token.opens :=
  ⟨rfl, opening_push _ _ _⟩

theorem opening_unwind (column : Int) (outer : List Int) (indent : Int) (tokens : Array Token) (taken : Nat) :
    opening ((unwind column outer indent tokens).2.2.toList.drop taken) ≤ opening (tokens.toList.drop taken) := by
  induction outer generalizing indent tokens with
  | nil => exact Nat.le_refl _
  | cons around outer ih =>
    rw [unwind]
    split
    · exact Nat.le_trans (ih around _) (opening_push tokens .blockEnd taken)
    · exact Nat.le_refl _

theorem grows_closeBlocks (lexer : Lexer) (column : Int) : lexer.Grows (lexer.closeBlocks column) 0 := by
  unfold closeBlocks
  split
  · exact ⟨rfl, Nat.le_refl _⟩
  · exact ⟨rfl, opening_unwind _ _ _ _ _⟩

theorem opening_insert (tokens : Array Token) (token : Token) (place taken : Nat) :
    opening ((tokens.insertIdxIfInBounds place token).toList.drop taken) ≤ opening (tokens.toList.drop taken) + 1 := by
  unfold Array.insertIdxIfInBounds
  split
  · rw [Array.toList_insertIdx]
    exact opening_insertIdx token tokens.toList place taken
  · exact Nat.le_succ _

theorem grows_openBlock (lexer : Lexer) (column position : Nat) (token : Token) :
    lexer.Grows (lexer.openBlock column position token) 1 := by
  unfold openBlock
  split
  · exact ⟨rfl, opening_insert _ _ _ _⟩
  · exact ⟨rfl, Nat.le_succ _⟩

theorem grows_settle (settled : lexer.settle = .ok after) : lexer.Grows after 0 := by
  obtain ⟨cleared, dropped, same⟩ := bind_eq_ok.mp settled
  cases same
  have closed := (grows_closeBlocks lexer (-1)).trans (grows_drop dropped)
  exact ⟨closed.cursor, closed.waiting⟩

theorem Grows.budget_of_passed (grows : before.Grows middle count) (few : count ≤ 2) (open_ : before.cursor.rest ≠ [])
    (waiting : after.waiting = middle.waiting) (moved : after.cursor = middle.cursor.forward 1) :
    after.budget ≤ before.budget := by
  have shorter : after.cursor.rest.length + 1 = before.cursor.rest.length := by
    rw [moved, grows.cursor, Cursor.forward, Cursor.forward, Cursor.rest_next, List.length_tail]
    exact Nat.sub_add_cancel (List.length_pos_iff.mpr open_)
  have grown := grows.waiting
  unfold budget
  omega

theorem Grows.budget_of_reaches (grows : before.Grows middle 0) (waiting : after.waiting = middle.waiting)
    (moved : middle.cursor.Reaches after.cursor) : after.budget ≤ before.budget := by
  have shorter : after.cursor.rest.length ≤ middle.cursor.rest.length := moved
  rw [grows.cursor] at shorter
  have grown := grows.waiting
  unfold budget
  omega

end Growing

section Names

variable {cursor : Cursor}

theorem reads_versionNumber : Reads cursor (versionNumber cursor) := by
  unfold versionNumber
  dsimp only
  split
  · exact reads_error
  · split
    · exact reads_error
    · exact reads_ok (Cursor.reaches_span _)

theorem reads_versionDirective : Reads cursor (versionDirective cursor) := by
  unfold versionDirective
  refine reads_bind (reads_versionNumber.of_reaches Cursor.reaches_skipSpaces) fun major middle first => ?_
  dsimp only
  refine reads_unless ?_
  refine reads_bind (reads_versionNumber.of_reaches (first.trans Cursor.reaches_next)) fun minor after second => ?_
  dsimp only
  exact reads_unless (reads_ok second)

theorem reads_tagHandle : Reads cursor (tagHandle cursor) := by
  unfold tagHandle
  split
  · exact reads_error
  · split
    · exact reads_ok Cursor.reaches_next
    · dsimp only
      split
      · exact reads_ok (Cursor.reaches_next.trans ((Cursor.reaches_span _).trans Cursor.reaches_next))
      · exact reads_error

theorem reads_percentBytes (fuel : Nat) : Reads cursor (percentBytes fuel cursor) := by
  induction fuel generalizing cursor with
  | zero => exact reads_ok .refl
  | succ fuel ih =>
    rw [percentBytes]
    split
    · exact reads_ok .refl
    · dsimp only
      split
      · exact reads_error
      · exact reads_bind (ih.of_reaches (Cursor.reaches_forward 3)) fun more last reached => reads_ok reached

theorem reads_tagSuffix (fuel : Nat) : Reads cursor (tagSuffix fuel cursor) := by
  induction fuel generalizing cursor with
  | zero => exact reads_ok .refl
  | succ fuel ih =>
    rw [tagSuffix]
    split
    · refine reads_bind (reads_percentBytes _) fun bytes middle first => ?_
      dsimp only
      split
      · exact reads_error
      · exact reads_bind (ih.of_reaches first) fun more last reached => reads_ok reached
    · split
      · exact reads_bind (ih.of_reaches Cursor.reaches_next) fun more last reached => reads_ok reached
      · exact reads_ok .refl

theorem reads_tagUri : Reads cursor (tagUri cursor) := by
  unfold tagUri
  refine reads_bind (reads_tagSuffix _) fun text after reached => ?_
  dsimp only
  exact reads_unless (reads_ok reached)

theorem reads_tagDirective : Reads cursor (tagDirective cursor) := by
  unfold tagDirective
  refine reads_bind (reads_tagHandle.of_reaches Cursor.reaches_skipSpaces) fun handle middle first => ?_
  dsimp only
  refine reads_unless ?_
  refine reads_bind (reads_tagUri.of_reaches (first.trans Cursor.reaches_skipSpaces)) fun start after second => ?_
  dsimp only
  exact reads_unless (reads_ok second)

theorem reads_directive : Reads cursor (directive cursor) := by
  have ends {value : Directive} {place : Cursor} (reached : cursor.Reaches place) :
      Reads cursor (place.endOfLine >>= fun last => pure (value, last)) := by
    intro _ after ran
    obtain ⟨last, ended, same⟩ := bind_eq_ok.mp ran
    cases same
    exact reached.trans (Cursor.reaches_endOfLine ended)
  have named : cursor.Reaches (cursor.next.span isWordChar).2 := Cursor.reaches_next.trans (Cursor.reaches_span _)
  unfold directive
  dsimp only
  refine reads_unless ?_
  split
  · exact reads_bind (reads_versionDirective.of_reaches named) fun _ _ reached => ends reached
  · exact reads_bind (reads_tagDirective.of_reaches named) fun _ _ reached => ends reached
  · exact reads_bind (reads_ok (named.trans (Cursor.reaches_skip _))) fun _ _ reached => ends reached

theorem reads_anchorName : Reads cursor (anchorName cursor) := by
  unfold anchorName
  dsimp only
  split
  · exact reads_error
  · split
    · exact reads_ok (Cursor.reaches_next.trans (Cursor.reaches_span _))
    · exact reads_error

theorem reads_tagText : Reads cursor (tagText cursor) := by
  have ends {text : TagText} {after : Cursor} (reached : cursor.Reaches after) :
      Reads cursor (if isSpaceOrEnd after.peek then pure (text, after) else throw .malformed) := by
    split
    · exact reads_ok reached
    · exact reads_error
  unfold tagText
  dsimp only
  split
  · refine reads_bind (reads_tagUri.of_reaches (Cursor.reaches_forward 2)) fun suffix after reached => ?_
    dsimp only
    exact reads_unless (ends (reached.trans Cursor.reaches_next))
  · split
    · exact ends Cursor.reaches_next
    · split
      · refine reads_bind reads_tagHandle fun handle middle first => ?_
        exact reads_bind (reads_tagUri.of_reaches first) fun suffix after reached => ends reached
      · exact reads_bind (reads_tagUri.of_reaches Cursor.reaches_next) fun suffix after reached => ends reached

end Names

section Fetching

variable {lexer after : Lexer}

theorem budget_fetchOpen {token : Token} (some : lexer.cursor.rest ≠ []) (fetched : lexer.fetchOpen token = .ok after) :
    after.budget ≤ lexer.budget := by
  obtain ⟨offered, ran, same⟩ := bind_eq_ok.mp fetched
  cases same
  have single := token.opens_le
  exact ((grows_offer ran).trans (grows_push _ token)).budget_of_passed (by omega) some rfl rfl

theorem budget_fetchClose {token : Token} (some : lexer.cursor.rest ≠ []) (fetched : lexer.fetchClose token = .ok after) :
    after.budget ≤ lexer.budget := by
  unfold fetchClose at fetched
  split at fetched
  · cases fetched
  · obtain ⟨cleared, ran, same⟩ := bind_eq_ok.mp fetched
    cases same
    have single := token.opens_le
    exact ((grows_drop ran).trans (grows_push _ token)).budget_of_passed (by omega) some rfl rfl

theorem budget_fetchFlowEntry (some : lexer.cursor.rest ≠ []) (fetched : lexer.fetchFlowEntry = .ok after) :
    after.budget ≤ lexer.budget := by
  obtain ⟨cleared, ran, same⟩ := bind_eq_ok.mp fetched
  cases same
  exact ((grows_drop ran).trans (grows_push _ .flowEntry)).budget_of_passed (Nat.zero_le _) some rfl rfl

theorem grows_opened (lexer : Lexer) (column position : Nat) (token : Token) :
    lexer.Grows (if lexer.inFlow then lexer else lexer.openBlock column position token) 1 := by
  split
  · exact ⟨rfl, Nat.le_succ _⟩
  · exact grows_openBlock lexer column position token

theorem budget_fetchBlockEntry (some : lexer.cursor.rest ≠ []) (fetched : lexer.fetchBlockEntry = .ok after) :
    after.budget ≤ lexer.budget := by
  unfold fetchBlockEntry at fetched
  dsimp only at fetched
  by_cases refused : (!lexer.inFlow && !lexer.keyAllowed) = true
  · rw [if_pos refused] at fetched
    cases fetched
  · rw [if_neg refused] at fetched
    obtain ⟨cleared, ran, same⟩ := bind_eq_ok.mp fetched
    cases same
    exact (((grows_opened lexer _ _ _).trans (grows_drop ran)).trans (grows_push _ .blockEntry)).budget_of_passed
      (by decide) some rfl rfl

theorem budget_fetchKey (some : lexer.cursor.rest ≠ []) (fetched : lexer.fetchKey = .ok after) :
    after.budget ≤ lexer.budget := by
  unfold fetchKey at fetched
  dsimp only at fetched
  by_cases refused : (!lexer.inFlow && !lexer.keyAllowed) = true
  · rw [if_pos refused] at fetched
    cases fetched
  · rw [if_neg refused] at fetched
    obtain ⟨cleared, ran, same⟩ := bind_eq_ok.mp fetched
    cases same
    exact (((grows_opened lexer _ _ _).trans (grows_drop ran)).trans (grows_push _ .key)).budget_of_passed
      (by decide) some rfl rfl

theorem budget_fetchValue (some : lexer.cursor.rest ≠ []) (fetched : lexer.fetchValue = .ok after) :
    after.budget ≤ lexer.budget := by
  unfold fetchValue at fetched
  split at fetched
  · next candidate _ =>
    cases fetched
    have marked : lexer.Grows
        { lexer with
          candidates := lexer.candidates.filter fun other => other.level ≠ lexer.level
          tokens := lexer.tokens.insertIdxIfInBounds candidate.position .key } 1 := ⟨rfl, opening_insert _ _ _ _⟩
    exact ((marked.trans (grows_opened _ candidate.column candidate.position .blockMappingStart)).trans
      (grows_push _ .value)).budget_of_passed (by decide) some rfl rfl
  · dsimp only at fetched
    by_cases refused : (!lexer.inFlow && !lexer.keyAllowed) = true
    · rw [if_pos refused] at fetched
      cases fetched
    · rw [if_neg refused] at fetched
      obtain ⟨cleared, ran, same⟩ := bind_eq_ok.mp fetched
      cases same
      exact (((grows_opened lexer _ _ _).trans (grows_drop ran)).trans (grows_push _ .value)).budget_of_passed
        (by decide) some rfl rfl

theorem budget_fetchEnd (fetched : lexer.fetchEnd = .ok after) : after.budget ≤ lexer.budget := by
  obtain ⟨settled, ran, same⟩ := bind_eq_ok.mp fetched
  cases same
  exact ((grows_settle ran).trans (grows_push _ .streamEnd)).budget_of_reaches rfl .refl

theorem budget_fetchDirective (fetched : lexer.fetchDirective = .ok after) : after.budget ≤ lexer.budget := by
  obtain ⟨settled, ran, fetched⟩ := bind_eq_ok.mp fetched
  obtain ⟨⟨value, place⟩, read, same⟩ := bind_eq_ok.mp fetched
  cases same
  exact ((grows_settle ran).trans (grows_push _ (.directive value))).budget_of_reaches rfl (reads_directive value place read)

theorem budget_fetchMarker {token : Token} (plain : token.opens = 0) (fetched : lexer.fetchMarker token = .ok after) :
    after.budget ≤ lexer.budget := by
  obtain ⟨settled, ran, same⟩ := bind_eq_ok.mp fetched
  cases same
  have grows := (grows_settle ran).trans (grows_push settled token)
  rw [plain] at grows
  exact grows.budget_of_reaches rfl (Cursor.reaches_forward 3)

theorem budget_fetchOffered {read : Cursor → Except Failure (Token × Cursor)} (reads : ∀ cursor, Reads cursor (read cursor))
    (plain : ∀ cursor token place, read cursor = .ok (token, place) → token.opens = 0)
    (fetched : lexer.fetchOffered read = .ok after) : after.budget ≤ lexer.budget := by
  obtain ⟨offered, ran, fetched⟩ := bind_eq_ok.mp fetched
  obtain ⟨⟨token, place⟩, taken, same⟩ := bind_eq_ok.mp fetched
  cases same
  have grows := (grows_offer ran).trans (grows_push offered token)
  rw [plain _ _ _ taken] at grows
  exact grows.budget_of_reaches rfl (reads _ token place taken)

theorem budget_fetchMade {α : Type} {read : Cursor → Except Failure (α × Cursor)} (made : α → Token)
    (reads : ∀ cursor, Reads cursor (read cursor)) (plain : ∀ value, (made value).opens = 0)
    (fetched : lexer.fetchOffered (fun cursor => do
      let (value, place) ← read cursor
      pure (made value, place)) = .ok after) : after.budget ≤ lexer.budget := by
  refine budget_fetchOffered (fun cursor => reads_bind (reads cursor) fun _ _ reached => reads_ok reached)
    (fun cursor token place taken => ?_) fetched
  obtain ⟨⟨value, _⟩, _, same⟩ := bind_eq_ok.mp taken
  cases same
  exact plain value

theorem budget_fetchBlockScalar {folded : Bool} (fetched : lexer.fetchBlockScalar folded = .ok after) :
    after.budget ≤ lexer.budget := by
  obtain ⟨cleared, ran, fetched⟩ := bind_eq_ok.mp fetched
  obtain ⟨⟨text, place⟩, read, same⟩ := bind_eq_ok.mp fetched
  cases same
  exact ((grows_drop ran).trans (grows_push cleared (.scalar (String.ofList text) false))).budget_of_reaches rfl
    (reads_blockText folded _ text place read)

theorem budget_fetchQuoted {double : Bool} (fetched : lexer.fetchQuoted double = .ok after) : after.budget ≤ lexer.budget :=
  budget_fetchMade (fun text => .scalar (String.ofList text) false) (fun _ => reads_quotedText double) (fun _ => rfl) fetched

theorem budget_fetchPlain (fetched : lexer.fetchPlain = .ok after) : after.budget ≤ lexer.budget := by
  obtain ⟨offered, ran, same⟩ := bind_eq_ok.mp fetched
  cases same
  exact ((grows_offer ran).trans (grows_push offered (.scalar _ true))).budget_of_reaches rfl (reaches_plainText _ _)

theorem budget_ite {condition : Prop} [Decidable condition] {first second : Except Failure Lexer}
    (yes : first = .ok after → after.budget ≤ lexer.budget) (no : second = .ok after → after.budget ≤ lexer.budget)
    (fetched : (if condition then first else second) = .ok after) : after.budget ≤ lexer.budget := by
  split at fetched
  · exact yes fetched
  · exact no fetched

theorem budget_fetchAt {c following : Char} (some : lexer.cursor.rest ≠ []) :
    lexer.fetchAt c following = .ok after → after.budget ≤ lexer.budget := by
  refine budget_ite budget_fetchDirective ?_
  refine budget_ite (budget_fetchMarker rfl) ?_
  refine budget_ite (budget_fetchMarker rfl) ?_
  refine budget_ite (budget_fetchOpen some) ?_
  refine budget_ite (budget_fetchOpen some) ?_
  refine budget_ite (budget_fetchClose some) ?_
  refine budget_ite (budget_fetchClose some) ?_
  refine budget_ite (budget_fetchFlowEntry some) ?_
  refine budget_ite (budget_fetchBlockEntry some) ?_
  refine budget_ite (budget_fetchKey some) ?_
  refine budget_ite (budget_fetchValue some) ?_
  refine budget_ite (budget_fetchMade _ (fun _ => reads_anchorName) fun _ => rfl) ?_
  refine budget_ite (budget_fetchMade _ (fun _ => reads_anchorName) fun _ => rfl) ?_
  refine budget_ite (budget_fetchMade _ (fun _ => reads_tagText) fun _ => rfl) ?_
  refine budget_ite budget_fetchBlockScalar ?_
  refine budget_ite budget_fetchBlockScalar ?_
  refine budget_ite budget_fetchQuoted ?_
  refine budget_ite budget_fetchQuoted ?_
  exact budget_ite budget_fetchPlain nofun

theorem skipGap_moves (fuel : Nat) : (lexer.skipGap fuel).waiting = lexer.waiting
    ∧ lexer.cursor.Reaches (lexer.skipGap fuel).cursor := by
  induction fuel generalizing lexer with
  | zero => exact ⟨rfl, .refl⟩
  | succ fuel ih =>
    have gap : lexer.cursor.Reaches lexer.cursor.skipSpaces.skipComment :=
      Cursor.reaches_skipSpaces.trans Cursor.reaches_skipComment
    rw [skipGap]
    split
    · exact ⟨rfl, gap⟩
    · next c next broken =>
      have moved := @ih { lexer with cursor := next, keyAllowed := lexer.keyAllowed || !lexer.inFlow }
      exact ⟨moved.1, gap.trans ((Cursor.reaches_lineBreak broken).trans moved.2)⟩

theorem budget_fetch (fetched : lexer.fetch = .ok after) : after.budget ≤ lexer.budget := by
  unfold fetch at fetched
  dsimp only at fetched
  obtain ⟨waits, reached⟩ := @skipGap_moves lexer (lexer.cursor.rest.length + 1)
  have start : (lexer.skipGap (lexer.cursor.rest.length + 1)).budget ≤ lexer.budget := by
    have shorter : _ ≤ lexer.cursor.rest.length := reached
    unfold budget
    omega
  split at fetched
  · cases fetched
  · obtain ⟨placed, dropped, fetched⟩ := bind_eq_ok.mp fetched
    have grows := (grows_drop dropped).trans (grows_closeBlocks placed (Int.ofNat placed.cursor.column))
    have ready := grows.budget_of_reaches rfl .refl
    split at fetched
    · exact Nat.le_trans (budget_fetchEnd fetched) (Nat.le_trans ready start)
    · next c more left =>
      have some : (placed.closeBlocks (Int.ofNat placed.cursor.column)).cursor.rest ≠ [] := by
        rw [grows.cursor, left]
        exact List.cons_ne_nil c more
      exact Nat.le_trans (budget_fetchAt some fetched) (Nat.le_trans ready start)

theorem budget_settleNext (fuel : Nat) (settled : lexer.settleNext fuel = .ok after) : after.budget ≤ lexer.budget := by
  induction fuel generalizing lexer with
  | zero =>
    cases settled
    exact Nat.le_refl _
  | succ fuel ih =>
    rw [settleNext] at settled
    split at settled
    · cases settled
      exact Nat.le_refl _
    · split at settled
      · obtain ⟨kept, dropped, settled⟩ := bind_eq_ok.mp settled
        have start : kept.budget ≤ lexer.budget := (grows_drop dropped).budget_of_reaches rfl .refl
        split at settled
        · obtain ⟨more, fetched, settled⟩ := bind_eq_ok.mp settled
          exact Nat.le_trans (ih settled) (Nat.le_trans (budget_fetch fetched) start)
        · cases settled
          exact start
      · obtain ⟨more, fetched, settled⟩ := bind_eq_ok.mp settled
        exact Nat.le_trans (ih settled) (budget_fetch fetched)

/-- The next token is read within the budget. -/
theorem budget_next {token : Token} (read : lexer.next = .ok (token, after)) :
    after.budget ≤ lexer.budget ∧ after.upcoming = token := by
  unfold next at read
  split at read
  · next settled found =>
    cases read
    exact ⟨budget_settleNext _ found, rfl⟩
  · cases read
  · cases read

/-- A token that is taken leaves the budget without the mapping that it begins. -/
theorem budget_advance (lexer : Lexer) : lexer.advance.budget + lexer.upcoming.opens ≤ lexer.budget := by
  have same : lexer.upcoming = lexer.tokens.toList[lexer.taken]?.getD .streamEnd := by
    rw [upcoming, Array.getD_eq_getD_getElem?, Array.getElem?_toList]
  rw [same]
  unfold budget waiting advance
  dsimp only
  by_cases inside : lexer.taken < lexer.tokens.toList.length
  · rw [List.drop_eq_getElem_cons inside, opening_cons, List.getElem?_eq_getElem inside, Option.getD_some]
    omega
  · have outside := Nat.le_of_not_lt inside
    rw [List.drop_eq_nil_of_le outside, List.drop_eq_nil_of_le (Nat.le_succ_of_le outside), List.getElem?_eq_none outside]
    exact Nat.le_refl _

theorem budget_start (chars : List Char) (ending : Option Failure) : (start chars ending).budget ≤ 2 * chars.length := by
  have reached : (Cursor.mk chars 0 0 0).Reaches (start chars ending).cursor := by
    unfold start
    dsimp only
    split
    · exact Cursor.reaches_next
    · exact .refl
  have shorter : (start chars ending).cursor.rest.length ≤ chars.length := reached
  have empty : (start chars ending).waiting = 0 := rfl
  unfold budget
  omega

end Fetching

end Lexer

end DeclGraph.Yaml
