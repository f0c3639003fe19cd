import Mathlib.Data.List.TakeWhile
import DeclGraph.Text.Surrogate

/-!
Which texts have bytes. A text has bytes in UTF-8 unless it holds an unpaired surrogate, and a name has bytes unless
it holds one that escapes no byte.
-/

namespace DeclGraph.Text

section Codes

variable {n : Nat}

theorem ofCode_of_small (small : n < 0xd800) : ofCode n = Char.ofNat n := by
  have other : isSurrogate n = false := by
    simp only [isSurrogate, Bool.and_eq_false_iff, decide_eq_false_iff_not]
    omega
  rw [ofCode, other]
  rfl

/-- The character for a code point stands for it, unless the code point is that of a character that keeps a
surrogate. -/
theorem code_ofCode (valid : n < 0x110000) (free : n < 0x10d800 ∨ 0x10e000 ≤ n) : code (ofCode n) = n := by
  have toNat_ofNat {m : Nat} (legal : m.isValidChar) : (Char.ofNat m).toNat = m := by
    rw [Char.ofNat, dif_pos legal]
    rfl
  by_cases surrogate : isSurrogate n = true
  · rw [ofCode, if_pos surrogate]
    simp only [isSurrogate, Bool.and_eq_true, decide_eq_true_eq] at surrogate
    have kept := toNat_ofNat (m := n + 0x100000) (Or.inr (by omega))
    have unpaired : isUnpaired (Char.ofNat (n + 0x100000)) = true := by
      simp only [isUnpaired, kept, Bool.and_eq_true, decide_eq_true_eq]
      omega
    rw [code, if_pos unpaired, kept]
    omega
  · rw [ofCode, if_neg surrogate]
    simp only [isSurrogate, Bool.and_eq_true, decide_eq_true_eq] at surrogate
    have legal : n.isValidChar := by
      rw [Nat.isValidChar]
      omega
    have kept := toNat_ofNat legal
    have paired : isUnpaired (Char.ofNat n) = false := by
      simp only [isUnpaired, kept, Bool.and_eq_false_iff, decide_eq_false_iff_not]
      omega
    rw [code, paired, kept]
    rfl

end Codes

section Bytes

variable {refused : Char → Bool} {text : String}

/-- Every surrogate of the text is in a pair. -/
def WellFormed (text : String) : Prop := ∀ c ∈ text.toList, isUnpaired c = false

-- Along the text: characters are finite in number too, and far too many to be gone through.
instance (text : String) : Decidable (WellFormed text) := List.decidableBAll _ text.toList

theorem findUnpaired?_eq_none : findUnpaired? refused text = none ↔ ∀ c ∈ text.toList, refused c = false := by
  have stops : text.toList.dropWhile (!refused ·) = [] ↔ ∀ c ∈ text.toList, refused c = false := by
    simp [List.dropWhile_eq_nil_iff]
  rw [← stops, findUnpaired?]
  split
  · next nothing => simp [nothing]
  · next some => simp [some]

theorem toBytes_of_wellFormed (formed : WellFormed text) : toBytes text = .ok text.toUTF8 := by
  rw [toBytes, findUnpaired?_eq_none.mpr formed]

theorem toBytes_eq_ok {bytes : ByteArray} : toBytes text = .ok bytes ↔ WellFormed text ∧ bytes = text.toUTF8 := by
  constructor
  · intro encoded
    rw [toBytes] at encoded
    split at encoded
    · cases encoded
    · next none =>
      cases encoded
      exact ⟨findUnpaired?_eq_none.mp none, rfl⟩
  · rintro ⟨formed, rfl⟩
    exact toBytes_of_wellFormed formed

/-- Every unpaired surrogate of the name escapes a byte. -/
def Nameable (name : String) : Prop := ∀ c ∈ name.toList, (isUnpaired c && !isByteEscape c) = false

theorem unnameable?_eq_none : unnameable? text = none ↔ Nameable text := findUnpaired?_eq_none

theorem nameable_append {more : String} : Nameable (text ++ more) ↔ Nameable text ∧ Nameable more := by
  simp only [Nameable, String.toList_append, List.mem_append, or_imp, forall_and]

end Bytes

end DeclGraph.Text
