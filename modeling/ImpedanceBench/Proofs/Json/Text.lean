import Mathlib.Data.List.Forall2
import ImpedanceBench.Json.Printer
import ImpedanceBench.Proofs.Json.Numeral

/-!
A JSON value is read from its text. The text of a value stands inside longer ones, so the induction
is about texts with anything behind them that does not continue a numeral, and about every margin
of blanks at which a value may be written.
-/

namespace ImpedanceBench.Json

namespace Parser

/-! Strings. Every escape stands for its character. -/

lemma literal_plain {c : Char} (l : Literal) (rest : List Char) (printable : 32 ≤ c.toNat)
    (hq : c ≠ '"') (hb : c ≠ '\\') : literal l (c :: rest) = literal (l.add c) rest := by
  rw [literal]
  · rw [if_neg (by simp [hb]; omega)]
  all_goals simp_all

lemma literal_named {c e : Char} (l : Literal) (rest : List Char) (h : escaped? c = some e) :
    literal l ('\\' :: c :: rest) = literal (l.add e) rest := by
  rw [literal]
  · simp [h]
  all_goals
    intros
    simp_all [escaped?]

lemma literal_unit {a b c d : Char} {u : Nat} (l : Literal) (rest : List Char)
    (h : unit? a b c d = some u) :
    literal l ('\\' :: 'u' :: a :: b :: c :: d :: rest) = literal (l.addUnit u) rest := by
  rw [literal, h]

lemma literal_quote (l : Literal) (rest : List Char) :
    literal l ('"' :: rest) = some (l.value?, rest) := rfl

lemma unit?_control {n : Nat} (h : n < 32) :
    unit? '0' '0' (if n < 16 then '0' else '1') (Nat.digitChar (n % 16)) = some n := by
  decide +revert

lemma addUnit_of_lt (l : Literal) {u : Nat} (h : u < 0xD800) :
    l.addUnit u = l.add (Char.ofNat u) := by
  rw [Literal.addUnit, if_neg (by omega), if_neg (by omega)]

lemma literal_escape (c : Char) (l : Literal) (rest : List Char) :
    literal l ((escape c).toList ++ rest) = literal (l.add c) rest := by
  unfold escape
  split
  case h_8 noQuote noBackslash _ _ _ _ _ =>
    split
    case isTrue control =>
      have named := unit?_control control
      calc literal l _ = literal (l.addUnit c.toNat) rest := by
            rw [← literal_unit l rest named]
            split <;> simp
        _ = literal (l.add c) rest := by
            rw [addUnit_of_lt l (by omega), Char.ofNat_toNat]
    case isFalse printable =>
      rw [String.toList_ofList]
      exact literal_plain l rest (by omega) noQuote noBackslash
  all_goals exact literal_named l rest rfl

/-- The characters of a text between quotes are those of the text. -/
lemma literal_escapes (cs : List Char) (l : Literal) (rest : List Char) :
    literal l ((cs.flatMap fun c => (escape c).toList) ++ rest) =
      literal (cs.foldl .add l) rest := by
  induction cs generalizing l with
  | nil => rfl
  | cons c cs ih => rw [List.flatMap_cons, List.append_assoc, literal_escape, ih, List.foldl_cons]

lemma foldl_add (cs : List Char) (before : List Char) :
    cs.foldl Literal.add ⟨before, none, true⟩ = ⟨cs.reverse ++ before, none, true⟩ := by
  induction cs generalizing before with
  | nil => rfl
  | cons c cs ih => simp [Literal.add, ih]

/-- A quoted text is read up to its closing quote. -/
theorem literal_quoted (s : String) (rest : List Char) :
    ∃ inner, (quoted s).toList ++ rest = '"' :: inner ∧
      literal .empty inner = some (some s, rest) := by
  refine ⟨(s.toList.flatMap fun c => (escape c).toList) ++ '"' :: rest, ?_, ?_⟩
  · simp [quoted, String.toList_join, List.flatMap_map]
  · rw [literal_escapes, Literal.empty, foldl_add, literal_quote]
    simp [Literal.value?]

/-! Blanks in front of a value, an item or a member are not seen. -/

section

variable {cs cs' rest : List Char}

lemma skipBlanks_of_blank {c : Char} (h : isBlank c) (cs : List Char) :
    skipBlanks (c :: cs) = skipBlanks cs :=
  List.dropWhile_cons_of_pos h

lemma skipBlanks_append {blanks : List Char} (h : ∀ c ∈ blanks, isBlank c) (cs : List Char) :
    skipBlanks (blanks ++ cs) = skipBlanks cs := by
  induction blanks with
  | nil => rfl
  | cons c blanks ih =>
    rw [List.cons_append, skipBlanks_of_blank (h c (by simp))]
    exact ih fun c hc => h c (by simp [hc])

lemma skipBlanks_of_not_blank {c : Char} (h : isBlank c = false) (cs : List Char) :
    skipBlanks (c :: cs) = c :: cs := by
  simp [skipBlanks, h]

lemma skipBlanks_eq_nil (h : skipBlanks cs = []) (rest : List Char) :
    skipBlanks (cs ++ rest) = skipBlanks rest :=
  skipBlanks_append (List.dropWhile_eq_nil_iff.mp h) rest

lemma skipBlanks_skipBlanks_append (cs rest : List Char) :
    skipBlanks (skipBlanks cs ++ rest) = skipBlanks (cs ++ rest) := by
  conv_rhs => rw [← List.takeWhile_append_dropWhile (p := isBlank) (l := cs), List.append_assoc]
  exact (skipBlanks_append (fun _ hc => List.mem_takeWhile_imp hc) _).symm

lemma skipBlanks_idempotent (cs : List Char) : skipBlanks (skipBlanks cs) = skipBlanks cs := by
  simpa using skipBlanks_skipBlanks_append cs []

/-! One step of the readers, each of which stops when it has no steps left. -/

lemma value_zero (cs : List Char) : value 0 cs = none := rfl

lemma value_succ (steps : Nat) (cs : List Char) : value (steps + 1) cs = match skipBlanks cs with
    | 'n' :: 'u' :: 'l' :: 'l' :: rest => some (null, rest)
    | 't' :: 'r' :: 'u' :: 'e' :: rest => some (bool true, rest)
    | 'f' :: 'a' :: 'l' :: 's' :: 'e' :: rest => some (bool false, rest)
    | '"' :: rest => (literal .empty rest).map fun (s, rest) => ((s.map string).getD unreadable, rest)
    | '[' :: rest => match skipBlanks rest with
      | ']' :: rest => some (array [], rest)
      | rest => items steps [] rest
    | '{' :: rest => match skipBlanks rest with
      | '}' :: rest => some (object [], rest)
      | rest => members steps (some []) rest
    | rest => (Numeral.read rest).map fun (n, rest) => (n.value, rest) := rfl

lemma items_zero (found : List Json) (cs : List Char) : items 0 found cs = none := rfl

lemma items_succ (steps : Nat) (found : List Json) (cs : List Char) :
    items (steps + 1) found cs = match value steps cs with
      | none => none
      | some (v, rest) => match skipBlanks rest with
        | ',' :: rest => items steps (v :: found) rest
        | ']' :: rest => some (array (v :: found).reverse, rest)
        | _ => none := rfl

lemma members_zero (found : Option (List (String × Json))) (cs : List Char) :
    members 0 found cs = none := rfl

lemma members_succ (steps : Nat) (found : Option (List (String × Json))) (cs : List Char) :
    members (steps + 1) found cs = match skipBlanks cs with
      | '"' :: rest => match literal .empty rest with
        | none => none
        | some (name, rest) => match skipBlanks rest with
          | ':' :: rest => match value steps rest with
            | none => none
            | some (v, rest) => match skipBlanks rest with
              | ',' :: rest => members steps (pair found name v) rest
              | '}' :: rest => some (closed (pair found name v), rest)
              | _ => none
          | _ => none
      | _ => none := rfl

lemma value_congr (h : skipBlanks cs = skipBlanks cs') (steps : Nat) :
    value steps cs = value steps cs' := by
  cases steps with
  | zero => rfl
  | succ => simp only [value_succ, h]

lemma items_congr (h : skipBlanks cs = skipBlanks cs') (steps : Nat) (found : List Json) :
    items steps found cs = items steps found cs' := by
  cases steps with
  | zero => rfl
  | succ => simp only [items_succ, value_congr h]

lemma members_congr (h : skipBlanks cs = skipBlanks cs') (steps : Nat)
    (found : Option (List (String × Json))) : members steps found cs = members steps found cs' := by
  cases steps with
  | zero => rfl
  | succ => simp only [members_succ, h]

/-- A numeral looks like no other value. -/
lemma value_of_numeral {n : Numeral} (h : Numeral.read cs = some (n, rest)) (steps : Nat) :
    value (steps + 1) cs = some (n.value, rest) := by
  obtain ⟨c, tail, rfl, hc⟩ := Numeral.starts_of_read h
  have plain : isBlank c = false := by
    rcases hc with rfl | hc
    · rfl
    · simp only [isBlank, Bool.or_eq_false_iff, beq_eq_false_iff_ne]
      refine ⟨⟨⟨?_, ?_⟩, ?_⟩, ?_⟩ <;> rintro rfl <;> contradiction
  simp only [value_succ, skipBlanks_of_not_blank plain]
  split
  case h_7 => simp [h]
  all_goals simp_all; try contradiction

/-! Conversely only a numeral is read as a double: arrays and objects end in their own kind. -/

lemma items_ne_real (x : Float) (steps : Nat) (found : List Json) (cs : List Char) :
    items steps found cs ≠ some (real x, rest) := by
  induction steps generalizing found cs with
  | zero => simp [items_zero]
  | succ steps ih =>
    rw [items_succ]
    split
    · simp
    · split
      · exact ih _ _
      · simp
      · simp

lemma closed_ne_real (x : Float) (found : Option (List (String × Json))) :
    closed found ≠ real x := by
  cases found <;> simp [closed]

lemma members_ne_real (x : Float) (steps : Nat) (found : Option (List (String × Json)))
    (cs : List Char) : members steps found cs ≠ some (real x, rest) := by
  induction steps generalizing found cs with
  | zero => simp [members_zero]
  | succ steps ih =>
    rw [members_succ]
    split
    case h_2 => simp
    split
    case h_1 => simp
    split
    case h_2 => simp
    split
    case h_1 => simp
    split
    · exact ih _ _
    · simp [closed_ne_real]
    · simp

lemma numeral_of_value {x : Float} {steps : Nat} (h : value steps cs = some (real x, rest)) :
    ∃ n, Numeral.read (skipBlanks cs) = some (n, rest) ∧ n.value = real x := by
  cases steps with
  | zero => simp [value_zero] at h
  | succ steps =>
    rw [value_succ] at h
    split at h
    case h_4 =>
      obtain ⟨⟨s, _⟩, -, h⟩ := Option.map_eq_some_iff.mp h
      cases s <;> simp at h
    case h_5 =>
      split at h
      · simp at h
      · exact absurd h (items_ne_real x _ _ _)
    case h_6 =>
      split at h
      · simp at h
      · exact absurd h (members_ne_real x _ _ _)
    case h_7 => simpa using h
    all_goals simp at h

end

/-! Texts of values. -/

/-- A text of a value, whatever follows it: only blanks may be lost of that. -/
def Reads (text : List Char) (v : Json) : Prop :=
  ∀ steps rest, text.length < steps → Numeral.Stops rest →
    ∃ rest', value steps (text ++ rest) = some (v, rest') ∧ skipBlanks rest' = skipBlanks rest

lemma Reads.of_succ {text : List Char} {v : Json}
    (h : ∀ steps rest, text.length ≤ steps → Numeral.Stops rest →
      ∃ rest', value (steps + 1) (text ++ rest) = some (v, rest') ∧
        skipBlanks rest' = skipBlanks rest) : Reads text v := by
  intro steps rest bound stops
  obtain ⟨steps, rfl⟩ := Nat.exists_eq_add_one_of_ne_zero (Nat.ne_zero_of_lt bound)
  exact h steps rest (Nat.le_of_lt_succ bound) stops

/-- Texts that show their end themselves, unlike numerals. -/
lemma Reads.of_value {text : List Char} {v : Json}
    (h : ∀ steps rest, text.length ≤ steps → value (steps + 1) (text ++ rest) = some (v, rest)) :
    Reads text v :=
  .of_succ fun steps rest bound _ => ⟨rest, h steps rest bound, rfl⟩

lemma Reads.of_numeral {text : List Char} {n : Numeral}
    (h : Numeral.read text = some (n, [])) : Reads text n.value :=
  .of_succ fun steps _ _ stops => ⟨_, value_of_numeral (Numeral.read_append stops h) steps, rfl⟩

end Parser

/-- A double whose text is read as this double. -/
def ReadsBack (x : Float) : Prop := parse? (numberText x) = some (.real x)

namespace Parser

lemma Reads.real {x : Float} (h : ReadsBack x) : Reads (numberText x).toList (.real x) := by
  refine .of_succ fun steps rest _ stops => ?_
  rw [ReadsBack, parse?] at h
  split at h
  case h_2 => cases h
  case h_1 v left hv =>
    split at h
    case isFalse => cases h
    case isTrue blank =>
      cases h
      obtain ⟨n, hn, hx⟩ := numeral_of_value hv
      refine ⟨left ++ rest, ?_, skipBlanks_eq_nil (List.isEmpty_iff.mp blank) rest⟩
      rw [← value_congr (skipBlanks_skipBlanks_append _ rest), ← hx]
      exact value_of_numeral (Numeral.read_append stops hn) steps

lemma Reads.string (s : String) : Reads (quoted s).toList (.string s) := by
  refine .of_value fun steps rest _ => ?_
  obtain ⟨inner, text, read⟩ := literal_quoted s rest
  rw [text, value_succ, skipBlanks_of_not_blank rfl]
  simp [read]

/-- A bracket that closes an array is no item. -/
lemma items_bracket {cs tail : List Char} (h : skipBlanks cs = ']' :: tail) (steps : Nat)
    (found : List Json) : items steps found cs = none := by
  have none : ∀ steps, value steps cs = none
    | 0 => value_zero cs
    | steps + 1 => by
      simp [value_succ, h, Numeral.read, Numeral.readUnsigned, Numeral.readWhole, Numeral.digits]
  cases steps <;> simp [items_zero, items_succ, none]

/-- A bracket that closes an object is no member. -/
lemma members_bracket {cs tail : List Char} (h : skipBlanks cs = '\x7d' :: tail) (steps : Nat)
    (found : Option (List (String × Json))) : members steps found cs = none := by
  cases steps <;> simp [members_zero, members_succ, h]

/-- What stands between the brackets of an array or an object, and the closing one: a line for each
text, behind a gap. -/
def block (gap close : List Char) (texts : List (List Char)) : List Char :=
  [',', '\n'].intercalate (texts.map (gap ++ ·)) ++ close

lemma block_single (gap close text : List Char) :
    block gap close [text] = gap ++ (text ++ close) := by
  simp [block]

lemma block_cons (gap close text text' : List Char) (texts : List (List Char)) :
    block gap close (text :: text' :: texts) =
      gap ++ (text ++ ',' :: '\n' :: block gap close (text' :: texts)) := by
  simp [block]

/-- Blanks between the lines of a block: a line starts at a gap, and the closing bracket stands on
a line of its own at a margin. -/
structure Layout (gap close : List Char) (bracket : Char) : Prop where
  gap_blank : ∀ c ∈ gap, isBlank c
  close_eq : ∃ margin, (∀ c ∈ margin, isBlank c) ∧ close = '\n' :: (margin ++ [bracket])
  bracket_plain : isBlank bracket = false

namespace Layout

variable {gap close : List Char} {bracket : Char} (layout : Layout gap close bracket)
include layout

lemma skip_gap (cs : List Char) : skipBlanks (gap ++ cs) = skipBlanks cs :=
  skipBlanks_append layout.gap_blank cs

lemma skip_close (rest : List Char) : skipBlanks (close ++ rest) = bracket :: rest := by
  obtain ⟨margin, blank, rfl⟩ := layout.close_eq
  rw [List.cons_append, skipBlanks_of_blank rfl, List.append_assoc, skipBlanks_append blank]
  exact skipBlanks_of_not_blank layout.bracket_plain rest

lemma stops_close (rest : List Char) : Numeral.Stops (close ++ rest) := by
  obtain ⟨margin, -, rfl⟩ := layout.close_eq
  simp [Numeral.Stops]

lemma length_close : 1 < close.length := by
  obtain ⟨margin, -, rfl⟩ := layout.close_eq
  simp

end Layout

lemma stops_comma (cs : List Char) : Numeral.Stops (',' :: cs) := by simp [Numeral.Stops]

lemma skipBlanks_comma (cs : List Char) : skipBlanks (',' :: cs) = ',' :: cs :=
  skipBlanks_of_not_blank rfl cs

/-- Lines of items up to the bracket that closes the array. -/
lemma items_block {gap close : List Char} (layout : Layout gap close ']') (rest : List Char)
    {texts : List (List Char)} {vs : List Json} (all : List.Forall₂ Reads texts vs)
    (ne : texts ≠ []) (steps : Nat) (found : List Json)
    (bound : (block gap close texts).length < steps) :
    items steps found (block gap close texts ++ rest) =
      some (array (found.reverse ++ vs), rest) := by
  induction all generalizing steps found with
  | nil => contradiction
  | @cons text v texts vs reads _ ih =>
    obtain ⟨steps, rfl⟩ := Nat.exists_eq_add_one_of_ne_zero (Nat.ne_zero_of_lt bound)
    cases texts with
    | nil =>
      obtain rfl := List.forall₂_nil_left_iff.mp ‹_›
      have := layout.length_close
      rw [block_single] at bound ⊢
      simp only [List.length_append] at bound
      obtain ⟨left, value_eq, skip⟩ := reads steps _ (by omega) (layout.stops_close rest)
      rw [List.append_assoc, List.append_assoc, items_congr (layout.skip_gap _), items_succ,
        value_eq]
      simp [skip, layout.skip_close]
    | cons text' texts =>
      rw [block_cons] at bound ⊢
      simp only [List.length_append, List.length_cons] at bound
      obtain ⟨left, value_eq, skip⟩ := reads steps _ (by omega) (stops_comma _)
      rw [List.append_assoc, List.append_assoc, items_congr (layout.skip_gap _), items_succ,
        List.cons_append, value_eq]
      simp only [skip, skipBlanks_comma]
      rw [List.cons_append, items_congr (skipBlanks_of_blank rfl _), ih (by simp) _ _ (by omega)]
      simp

/-- A text of a member. -/
def ReadsMember (text : List Char) (m : String × Json) : Prop :=
  ∃ value, text = (quoted m.1).toList ++ ':' :: ' ' :: value ∧ Reads value m.2

/-- Up to its value, a member is read the same whatever stands before and behind. -/
lemma members_member {text : List Char} {m : String × Json} (h : ReadsMember text m) (steps : Nat)
    (bound : text.length < steps) {rest : List Char} (stops : Numeral.Stops rest)
    (found : List (String × Json)) :
    ∃ left, skipBlanks left = skipBlanks rest ∧
      members (steps + 1) (some found) (text ++ rest) = match skipBlanks left with
        | ',' :: rest => members steps (some (m :: found)) rest
        | '}' :: rest => some (object (m :: found).reverse, rest)
        | _ => none := by
  obtain ⟨valueText, rfl, reads⟩ := h
  simp only [List.length_append, List.length_cons] at bound
  obtain ⟨left, value_eq, skip⟩ := reads steps rest (by omega) stops
  obtain ⟨inner, quote, name_eq⟩ := literal_quoted m.1 (':' :: ' ' :: (valueText ++ rest))
  have value_eq : value steps (' ' :: (valueText ++ rest)) = some (m.2, left) := by
    rw [← value_eq]
    exact value_congr (skipBlanks_of_blank rfl _) steps
  refine ⟨left, skip, ?_⟩
  have step := members_succ steps (some found) ('"' :: inner)
  simp only [skipBlanks_of_not_blank (c := '"') rfl, name_eq,
    skipBlanks_of_not_blank (c := ':') rfl, value_eq, pair, closed] at step
  rw [List.append_assoc, List.cons_append, List.cons_append, quote]
  exact step

/-- Lines of members up to the bracket that closes the object. -/
lemma members_block {gap close : List Char} (layout : Layout gap close '}') (rest : List Char)
    {texts : List (List Char)} {ms : List (String × Json)}
    (all : List.Forall₂ ReadsMember texts ms) (ne : texts ≠ []) (steps : Nat)
    (found : List (String × Json)) (bound : (block gap close texts).length < steps) :
    members steps (some found) (block gap close texts ++ rest) =
      some (object (found.reverse ++ ms), rest) := by
  induction all generalizing steps found with
  | nil => contradiction
  | @cons text m texts ms reads _ ih =>
    obtain ⟨steps, rfl⟩ := Nat.exists_eq_add_one_of_ne_zero (Nat.ne_zero_of_lt bound)
    cases texts with
    | nil =>
      obtain rfl := List.forall₂_nil_left_iff.mp ‹_›
      have := layout.length_close
      rw [block_single] at bound ⊢
      simp only [List.length_append] at bound
      obtain ⟨left, skip, eq⟩ :=
        members_member reads steps (by omega) (layout.stops_close rest) found
      rw [List.append_assoc, List.append_assoc, members_congr (layout.skip_gap _), eq]
      simp [skip, layout.skip_close]
    | cons text' texts =>
      rw [block_cons] at bound ⊢
      simp only [List.length_append, List.length_cons] at bound
      obtain ⟨left, skip, eq⟩ :=
        members_member reads steps (by omega) (stops_comma _) found
      rw [List.append_assoc, List.append_assoc, members_congr (layout.skip_gap _), List.cons_append,
        eq]
      simp only [skip, skipBlanks_comma]
      rw [List.cons_append, members_congr (skipBlanks_of_blank rfl _), ih (by simp) _ _ (by omega)]
      simp

/-! Brackets. -/

def Blank (s : String) : Prop := ∀ c ∈ s.toList, isBlank c

lemma Blank.deeper {margin : String} (h : Blank margin) : Blank (margin ++ "  ") := by
  intro c hc
  rcases List.mem_append.mp (String.toList_append ▸ hc) with hc | hc
  · exact h c hc
  · obtain rfl : c = ' ' := by simpa using hc
    rfl

lemma bracketed_nil (opening closing margin : String) :
    bracketed opening closing margin [] = opening ++ closing := rfl

lemma toList_bracketed {opening closing margin : String} {lines : List String} (ne : lines ≠ []) :
    (bracketed opening closing margin lines).toList = opening.toList ++
      '\n' :: block (margin ++ "  ").toList ('\n' :: (margin.toList ++ closing.toList))
        (lines.map String.toList) := by
  simp [bracketed, ne, String.toList_intercalate, block, Function.comp_def]

lemma layout_of_blank {margin : String} (h : Blank margin) {bracket : Char}
    (plain : isBlank bracket = false) :
    Layout (margin ++ "  ").toList ('\n' :: (margin.toList ++ [bracket])) bracket where
  gap_blank := h.deeper
  close_eq := ⟨margin.toList, h, rfl⟩
  bracket_plain := plain

lemma Reads.array {margin : String} (h : Blank margin) {lines : List String} {vs : List Json}
    (all : List.Forall₂ (fun line v => Reads line.toList v) lines vs) :
    Reads (bracketed "[" "]" margin lines).toList (.array vs) := by
  refine .of_value fun steps rest bound => ?_
  by_cases ne : lines = []
  · subst ne
    obtain rfl := List.forall₂_nil_left_iff.mp all
    simp [bracketed_nil, value_succ, skipBlanks_of_not_blank (c := '[') rfl,
      skipBlanks_of_not_blank (c := ']') rfl]
  · rw [toList_bracketed ne] at bound ⊢
    simp only [String.reduceToList, List.length_append, List.length_cons, List.length_nil] at bound
    have read := items_block (layout_of_blank h rfl) rest (List.forall₂_map_left_iff.mpr all)
      (by simpa using ne) steps [] (by omega)
    simp only [String.reduceToList, List.cons_append, List.nil_append, value_succ,
      skipBlanks_of_not_blank (c := '[') rfl, skipBlanks_of_blank (c := '\n') rfl]
    split
    next bracket => rw [items_bracket bracket] at read; cases read
    next => rw [items_congr (skipBlanks_idempotent _)]; exact read

lemma Reads.object {margin : String} (h : Blank margin) {lines : List String}
    {ms : List (String × Json)}
    (all : List.Forall₂ (fun line m => ReadsMember line.toList m) lines ms) :
    Reads (bracketed "\x7b" "\x7d" margin lines).toList (.object ms) := by
  refine .of_value fun steps rest bound => ?_
  by_cases ne : lines = []
  · subst ne
    obtain rfl := List.forall₂_nil_left_iff.mp all
    simp [bracketed_nil, value_succ, skipBlanks_of_not_blank (c := '\x7b') rfl,
      skipBlanks_of_not_blank (c := '\x7d') rfl]
  · rw [toList_bracketed ne] at bound ⊢
    simp only [String.reduceToList, List.length_append, List.length_cons, List.length_nil] at bound
    have read := members_block (layout_of_blank h rfl) rest (List.forall₂_map_left_iff.mpr all)
      (by simpa using ne) steps [] (by omega)
    simp only [String.reduceToList, List.cons_append, List.nil_append, value_succ,
      skipBlanks_of_not_blank (c := '\x7b') rfl, skipBlanks_of_blank (c := '\n') rfl]
    split
    next bracket => rw [members_bracket bracket] at read; cases read
    next => rw [members_congr (skipBlanks_idempotent _)]; exact read

end Parser

/-- A value whose text holds it: its integers have 64 bits, its doubles read back, and all of it
is readable. -/
inductive Faithful : Json → Prop
  | null : Faithful null
  | bool (b : Bool) : Faithful (bool b)
  | integer {n : Int} (low : -9223372036854775808 ≤ n) (high : n ≤ 18446744073709551615) :
    Faithful (integer n)
  | real {x : Float} (h : ReadsBack x) : Faithful (real x)
  | string (s : String) : Faithful (string s)
  | array {vs : List Json} (h : ∀ v ∈ vs, Faithful v) : Faithful (array vs)
  | object {ms : List (String × Json)} (h : ∀ m ∈ ms, Faithful m.2) : Faithful (object ms)

namespace Parser

lemma prettyItems_eq (margin : String) (vs : List Json) :
    prettyItems margin vs = vs.map (prettyAt margin) := by
  induction vs with
  | nil => rw [prettyItems, List.map_nil]
  | cons v vs ih => rw [prettyItems, ih, List.map_cons]

lemma prettyMembers_eq (margin : String) (ms : List (String × Json)) :
    prettyMembers margin ms = ms.map fun m => quoted m.1 ++ ": " ++ prettyAt margin m.2 := by
  induction ms with
  | nil => rw [prettyMembers, List.map_nil]
  | cons m ms ih => rw [prettyMembers, ih, List.map_cons]

lemma Reads.null : Reads "null".toList .null :=
  .of_value fun _ _ _ => by simp [value_succ, skipBlanks_of_not_blank (c := 'n') rfl]

lemma Reads.true : Reads "true".toList (.bool true) :=
  .of_value fun _ _ _ => by simp [value_succ, skipBlanks_of_not_blank (c := 't') rfl]

lemma Reads.false : Reads "false".toList (.bool false) :=
  .of_value fun _ _ _ => by simp [value_succ, skipBlanks_of_not_blank (c := 'f') rfl]

lemma Reads.of_faithful {v : Json} (h : Faithful v) {margin : String} (blank : Blank margin) :
    Reads (prettyAt margin v).toList v := by
  induction h generalizing margin with
  | null => rw [prettyAt]; exact .null
  | bool b => cases b <;> rw [prettyAt]; exacts [.false, .true]
  | integer low high =>
    obtain ⟨n, read, value⟩ := Numeral.read_toString low high
    rw [prettyAt, ← value]
    exact .of_numeral read
  | real h => rw [prettyAt]; exact .real h
  | string s => rw [prettyAt]; exact .string s
  | array _ ih =>
    rw [prettyAt, prettyItems_eq]
    exact .array blank (List.forall₂_map_left_iff.mpr
      (List.forall₂_same.mpr fun v hv => ih v hv blank.deeper))
  | object _ ih =>
    rw [prettyAt, prettyMembers_eq]
    refine .object blank (List.forall₂_map_left_iff.mpr (List.forall₂_same.mpr fun m hm => ?_))
    exact ⟨_, by simp, ih m hm blank.deeper⟩

end Parser

/-- What is written is read back. -/
theorem parse?_pretty {v : Json} (h : Faithful v) : parse? (pretty v) = some v := by
  have blank : Parser.Blank "" := by simp [Parser.Blank]
  obtain ⟨left, value, skip⟩ :=
    Parser.Reads.of_faithful h blank _ [] (Nat.lt_add_one _) Numeral.stops_nil
  have skip : Parser.skipBlanks left = [] := skip
  rw [List.append_nil] at value
  rw [parse?, pretty, value]
  simp [skip]

end ImpedanceBench.Json
