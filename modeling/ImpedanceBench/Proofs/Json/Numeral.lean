import Mathlib.Data.List.TakeWhile
import Mathlib.Tactic.IntervalCases
import ImpedanceBench.Json.Parser

/-!
Numbers inside longer texts. A numeral ends at the first character that cannot continue it, so it
is read in front of a comma or a bracket as it is read alone; and the text of an integer is read
as this integer.
-/

namespace ImpedanceBench.Json.Numeral

/-- A text that does not continue a numeral in front of it. -/
def Stops (rest : List Char) : Prop :=
  ∀ c ∈ rest.head?, c.isDigit = false ∧ c ≠ '.' ∧ c ≠ 'e' ∧ c ≠ 'E'

lemma stops_nil : Stops [] := by simp [Stops]

variable {cs rest r : List Char}

lemma digits_of_stops (h : Stops rest) (cs : List Char) :
    digits (cs ++ rest) = ((digits cs).1, (digits cs).2 ++ rest) := by
  induction cs with
  | nil =>
    cases rest with
    | nil => rfl
    | cons c _ =>
      have hc : c.isDigit = false := (h c rfl).1
      simp [digits, hc]
  | cons c cs ih =>
    simp only [digits, Prod.mk.injEq, List.cons_append] at ih ⊢
    cases hc : c.isDigit <;> simp [hc, ih]

/-! Each part of a numeral ends where it ended. -/

lemma readWhole_of_ne_zero {c : Char} (h : c ≠ '0') (cs : List Char) :
    readWhole (c :: cs) =
      if (digits (c :: cs)).1 = [] then none else some (digits (c :: cs)) := by
  unfold readWhole
  split
  · simp_all
  · rcases hd : digits (c :: cs) with ⟨_ | _, _⟩ <;> simp

lemma readWhole_append (h : Stops rest) {ds : List Char} (hr : readWhole cs = some (ds, r)) :
    readWhole (cs ++ rest) = some (ds, r ++ rest) := by
  cases cs with
  | nil => simp [readWhole, digits] at hr
  | cons c cs =>
    by_cases hc : c = '0'
    · subst hc
      simp_all [readWhole]
    · have parted := digits_of_stops h (c :: cs)
      rw [readWhole_of_ne_zero hc] at hr
      rw [List.cons_append, readWhole_of_ne_zero hc, ← List.cons_append, parted]
      split at hr <;> simp_all

lemma readFraction_point (cs : List Char) :
    readFraction ('.' :: cs) = if (digits cs).1 = [] then none else some (digits cs) := by
  rcases hd : digits cs with ⟨_ | _, _⟩ <;> simp [readFraction, hd]

lemma readFraction_of_ne_point (h : ∀ c ∈ cs.head?, c ≠ '.') :
    readFraction cs = some ([], cs) := by
  unfold readFraction
  split
  · simp at h
  · rfl

lemma readFraction_append (h : Stops rest) {ds : List Char}
    (hr : readFraction cs = some (ds, r)) : readFraction (cs ++ rest) = some (ds, r ++ rest) := by
  cases cs with
  | nil =>
    obtain ⟨rfl, rfl⟩ : ds = [] ∧ r = [] := by simpa [readFraction] using hr
    exact readFraction_of_ne_point fun c hc => (h c hc).2.1
  | cons c cs =>
    by_cases hc : c = '.'
    · subst hc
      rw [readFraction_point] at hr
      rw [List.cons_append, readFraction_point, digits_of_stops h]
      split at hr <;> simp_all
    · rw [readFraction_of_ne_point (by simpa using hc)] at hr
      rw [readFraction_of_ne_point (by simpa using hc)]
      simp_all

/-- The digits of an exponent after its letter and sign. -/
def signed (negative : Bool) (cs : List Char) : Option (Option Int × List Char) :=
  match digits cs with
  | ([], _) => none
  | (ds, rest) =>
    let n : Int := ds.foldl (fun n c => 10 * n + digitValue c) 0
    some (some (if negative then -n else n), rest)

lemma signed_nil (negative : Bool) : signed negative [] = none := rfl

lemma signed_append (h : Stops rest) {negative : Bool} {e : Option Int}
    (hr : signed negative cs = some (e, r)) :
    signed negative (cs ++ rest) = some (e, r ++ rest) := by
  have parted := digits_of_stops h cs
  rcases hd : digits cs with ⟨_ | ⟨c, ds⟩, tail⟩
  · simp [signed, hd] at hr
  · simp only [signed, parted, hd, Option.some.injEq, Prod.mk.injEq] at hr ⊢
    exact ⟨hr.1, by rw [hr.2]⟩

lemma readExponent_unsigned {letter : Char} (hl : letter = 'e' ∨ letter = 'E')
    (h : ∀ c ∈ cs.head?, c ≠ '-' ∧ c ≠ '+') : readExponent (letter :: cs) = signed false cs := by
  unfold readExponent
  rcases hl with rfl | rfl <;> (split <;> simp_all; rfl)

lemma readExponent_none (h : ∀ c ∈ cs.head?, c ≠ 'e' ∧ c ≠ 'E') :
    readExponent cs = some (none, cs) := by
  unfold readExponent
  split <;> simp_all

lemma readExponent_unsigned_append (h : Stops rest) {letter : Char}
    (hl : letter = 'e' ∨ letter = 'E') {e : Option Int}
    (noMinus : ∀ tail, cs = '-' :: tail → False) (noPlus : ∀ tail, cs = '+' :: tail → False)
    (hr : signed false cs = some (e, r)) :
    readExponent (letter :: (cs ++ rest)) = some (e, r ++ rest) := by
  cases cs with
  | nil => simp [signed_nil] at hr
  | cons c cs =>
    rw [readExponent_unsigned hl]
    · exact signed_append h hr
    · rintro _ ⟨⟩
      exact ⟨fun hc => noMinus cs (hc ▸ rfl), fun hc => noPlus cs (hc ▸ rfl)⟩

lemma readExponent_append (h : Stops rest) {e : Option Int}
    (hr : readExponent cs = some (e, r)) : readExponent (cs ++ rest) = some (e, r ++ rest) := by
  unfold readExponent at hr
  split at hr
  · exact signed_append h hr
  · exact signed_append h hr
  · exact signed_append h hr
  · exact signed_append h hr
  · next noMinus noPlus => exact readExponent_unsigned_append h (.inl rfl) noMinus noPlus hr
  · next noMinus noPlus => exact readExponent_unsigned_append h (.inr rfl) noMinus noPlus hr
  · next noLower noUpper =>
    obtain ⟨rfl, rfl⟩ : none = e ∧ cs = r := by simpa using hr
    refine readExponent_none fun c hc => ?_
    cases cs with
    | nil => exact (h c hc).2.2
    | cons c' cs =>
      obtain rfl : c' = c := by simpa using hc
      exact ⟨fun hc => noLower cs (hc ▸ rfl), fun hc => noUpper cs (hc ▸ rfl)⟩

lemma readUnsigned_append (h : Stops rest) {negative : Bool} {n : Numeral}
    (hr : readUnsigned negative cs = some (n, r)) :
    readUnsigned negative (cs ++ rest) = some (n, r ++ rest) := by
  simp only [readUnsigned, Option.bind_eq_bind, Option.bind_eq_some_iff, Prod.exists] at hr ⊢
  obtain ⟨whole, r₁, hwhole, fraction, r₂, hfraction, exponent, r₃, hexponent, hn⟩ := hr
  obtain ⟨rfl, rfl⟩ : _ ∧ r₃ = r := by simpa [pure] using hn
  exact ⟨whole, _, readWhole_append h hwhole, fraction, _, readFraction_append h hfraction,
    exponent, _, readExponent_append h hexponent, rfl⟩

lemma read_of_ne_minus (h : ∀ c ∈ cs.head?, c ≠ '-') : read cs = readUnsigned false cs := by
  unfold read
  split <;> simp_all

/-- A numeral starts with a minus or a digit. -/
lemma starts_of_read {found : Numeral × List Char} (hr : read cs = some found) :
    ∃ c tail, cs = c :: tail ∧ (c = '-' ∨ c.isDigit) := by
  cases cs with
  | nil => simp [read, readUnsigned, readWhole, digits] at hr
  | cons c cs =>
    refine ⟨c, cs, rfl, or_iff_not_imp_left.mpr fun hc => ?_⟩
    by_contra noDigit
    have hzero : c ≠ '0' := by rintro rfl; exact noDigit rfl
    rw [read_of_ne_minus (by simpa using hc), readUnsigned, readWhole_of_ne_zero hzero] at hr
    simp [digits, noDigit] at hr

/-- A numeral is read in front of a text that does not continue it as it is read alone. -/
theorem read_append (h : Stops rest) {n : Numeral} (hr : read cs = some (n, r)) :
    read (cs ++ rest) = some (n, r ++ rest) := by
  obtain ⟨c, tail, rfl, -⟩ := starts_of_read hr
  by_cases hc : c = '-'
  · subst hc
    exact readUnsigned_append h hr
  · rw [read_of_ne_minus (by simpa using hc)] at hr ⊢
    exact readUnsigned_append h hr

/-! The text of an integer. -/

lemma digits_eq_self (h : ∀ c ∈ cs, c.isDigit) : digits cs = (cs, []) := by
  simp only [digits, Prod.mk.injEq]
  exact ⟨List.takeWhile_eq_self_iff.mpr h, List.dropWhile_eq_nil_iff.mpr h⟩

lemma head_toDigits_ne_zero {n : Nat} (h : n ≠ 0) :
    ∃ c tail, Nat.toDigits 10 n = c :: tail ∧ c ≠ '0' := by
  induction n using Nat.base_induction 10 (by decide) with
  | single m hm =>
    refine ⟨_, [], Nat.toDigits_of_lt_base hm, ?_⟩
    interval_cases m <;> simp_all
  | digit m k hk hm ih =>
    obtain ⟨c, tail, digits, hc⟩ := ih (by omega)
    rw [← Nat.toDigits_append_toDigits (by decide) hm hk, digits]
    exact ⟨c, _, rfl, hc⟩

lemma readWhole_toDigits (n : Nat) :
    readWhole (Nat.toDigits 10 n) = some (Nat.toDigits 10 n, []) := by
  by_cases hn : n = 0
  · subst hn
    rfl
  · obtain ⟨c, tail, text, hc⟩ := head_toDigits_ne_zero hn
    have all := digits_eq_self fun c (h : c ∈ Nat.toDigits 10 n) =>
      Nat.isDigit_of_mem_toDigits (by decide) (by decide) h
    rw [text] at all ⊢
    rw [readWhole_of_ne_zero hc, all]
    simp

lemma readUnsigned_toDigits (negative : Bool) (n : Nat) :
    readUnsigned negative (Nat.toDigits 10 n) =
      some (⟨negative, Nat.toDigits 10 n, [], none⟩, []) := by
  simp [readUnsigned, readWhole_toDigits, readFraction, readExponent, pure]

lemma le_ofDigitChars (ds : List Char) (word : Nat) : word ≤ Nat.ofDigitChars 10 ds word := by
  rw [Nat.ofDigitChars_eq_ofDigitChars_zero]
  exact Nat.le_add_right_of_le (Nat.le_mul_of_pos_left _ (Nat.pow_pos (by decide)))

/-- Digits whose number fits into the word are all gathered. -/
lemma gather_eq {ds : List Char} {word : Nat} (h : Nat.ofDigitChars 10 ds word < UInt64.size) :
    gather word ds = (Nat.ofDigitChars 10 ds word, []) := by
  induction ds generalizing word with
  | nil => rfl
  | cons c ds ih =>
    rw [Nat.ofDigitChars_cons] at h ⊢
    have fits : 10 * word + digitValue c < UInt64.size := Nat.lt_of_le_of_lt (le_ofDigitChars _ _) h
    rw [gather, if_pos fits]
    exact ih h

lemma integer?_toDigits {n : Nat} (h : n < UInt64.size) :
    integer? ⟨false, Nat.toDigits 10 n, [], none⟩ = some (n : Int) := by
  simp [integer?, gather_eq, h]

lemma integer?_minus_toDigits {n : Nat} (pos : 0 < n) (h : n ≤ 9223372036854775808) :
    integer? ⟨true, Nat.toDigits 10 n, [], none⟩ = some (-n : Int) := by
  have fits : n < UInt64.size := by simp only [UInt64.size]; omega
  simp [integer?, gather_eq, fits, pos, h]

/-- The text of an integer of 64 bits is read as this integer. -/
theorem read_toString {n : Int} (low : -9223372036854775808 ≤ n) (high : n ≤ 18446744073709551615) :
    ∃ m, read (toString n).toList = some (m, []) ∧ m.value = .integer n := by
  rw [Int.toString_eq_repr, Int.repr_eq_if]
  split
  · refine ⟨⟨false, Nat.toDigits 10 n.toNat, [], none⟩, ?_, ?_⟩
    · rw [Nat.toList_repr, read_of_ne_minus, readUnsigned_toDigits]
      intro c hc
      rintro rfl
      have := Nat.isDigit_of_mem_toDigits (b := 10) (by decide) (by decide) (List.mem_of_head? hc)
      contradiction
    · rw [value, integer?_toDigits (by simp only [UInt64.size]; omega)]
      simp only [Json.integer.injEq]
      omega
  · refine ⟨⟨true, Nat.toDigits 10 (-n).toNat, [], none⟩, ?_, ?_⟩
    · rw [String.toList_append, Nat.toList_repr]
      exact readUnsigned_toDigits true _
    · rw [value, integer?_minus_toDigits (by omega) (by omega)]
      simp only [Json.integer.injEq]
      omega

end ImpedanceBench.Json.Numeral
