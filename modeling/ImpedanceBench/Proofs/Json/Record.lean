import ImpedanceBench.Proofs.Json.Slots
import ImpedanceBench.Proofs.Json.Text

/-!
Records through their JSON texts. A codec returns a value when the JSON form of the value has a
text that holds it and is read as this value; a record returns what each of its fields returns,
since no two of them share a name.
-/

namespace ImpedanceBench.Json

lemma ReadsBack.isFinite {x : Float} (h : ReadsBack x) : x.isFinite = true := by
  by_contra infinite
  have null : parse? (numberText x) = some .null := by
    rw [numberText, if_neg infinite]
    rfl
  rw [ReadsBack, null] at h
  cases h

/-- The JSON form of `b` has a text that holds it, and is read as `b'`. -/
structure Codec.Returns {β : Type} (c : Codec β) (b b' : β) : Prop where
  faithful : Faithful (c.write b)
  read_write : c.read (c.write b) = some b'

namespace Codec

variable {β : Type} {c : Codec β} {b b' : β}

lemma bool_returns (b : Bool) : bool.Returns b b := ⟨.bool b, rfl⟩

lemma real_returns {x : Float} (h : ReadsBack x) : real.Returns x x := by
  have written : real.write x = .real x := if_pos h.isFinite
  exact ⟨written ▸ .real h, by rw [written]; rfl⟩

lemma bounded_returns {lo hi : Int} {ofInt : Int → β} {toInt : β → Int}
    (low : -9223372036854775808 ≤ lo) (high : hi ≤ 18446744073709551615)
    (within : lo ≤ toInt b ∧ toInt b ≤ hi) (inverse : ofInt (toInt b) = b) :
    (bounded lo hi ofInt toInt).Returns b b where
  faithful := .integer (low.trans within.1) (within.2.trans high)
  read_write := by simp only [bounded, if_pos within, inverse]

lemma uint32_returns (w : UInt32) : uint32.Returns w w :=
  bounded_returns (by decide) (by decide) (by have := w.toNat_lt; omega) (by simp)

lemma uint64_returns (w : UInt64) : uint64.Returns w w :=
  bounded_returns (by decide) (by decide) (by have := w.toNat_lt; omega) (by simp)

lemma int32_returns (w : Int32) : int32.Returns w w :=
  bounded_returns (by decide) (by decide) ⟨w.le_toInt, by have := w.toInt_lt; omega⟩ (by simp)

lemma int64_returns (w : Int64) : int64.Returns w w :=
  bounded_returns (by decide) (by decide) ⟨w.le_toInt, by have := w.toInt_lt; omega⟩ (by simp)

/-- An absent value is written as null, so that null must not stand for a value. -/
lemma optional_returns {o : Option β} (h : ∀ b ∈ o, c.Returns b b)
    (noNull : c.read .null = none) :
    c.optional.Returns o o := by
  cases o with
  | none => exact ⟨.null, rfl⟩
  | some b =>
    have back := (h b rfl).read_write
    refine ⟨(h b rfl).faithful, ?_⟩
    simp only [optional]
    split
    · simp_all
    · simp [back]

lemma list_returns {bs : List β} (h : ∀ b ∈ bs, c.Returns b b) : c.list.Returns bs bs where
  faithful := .array (by
    simp only [List.mem_map]
    rintro _ ⟨b, hb, rfl⟩
    exact (h b hb).faithful)
  read_write := by
    simp only [list]
    induction bs with
    | nil => rfl
    | cons b bs ih =>
      rw [List.map_cons, List.mapM_cons, (h b (by simp)).read_write,
        ih fun b hb => h b (by simp [hb])]
      rfl

lemma choice_returns {values : List β} {name : β → String}
    (first : values.find? (name · == name b) = some b) : (choice values name).Returns b b :=
  ⟨.string _, first⟩

end Codec

/-- The JSON value of a field is faithful, and putting it into any record changes that as `copy`
does. -/
structure Field.Copies {σ : Type} (f : Field σ) (r : σ) (copy : σ → σ) : Prop where
  faithful : Faithful (f.get r)
  put_get : ∀ r', f.put (f.get r) r' = some (copy r')

lemma Codec.Returns.field {σ β : Type} {c : Codec β} {get : σ → β} {r : σ} {b : β}
    (h : c.Returns (get r) b) {name : String} {set : β → σ → σ} :
    (c.field name get set).Copies r (set b) where
  faithful := h.faithful
  put_get r' := by simp [Codec.field, h.read_write]

namespace Record

variable {σ : Type} {shape : Record σ} {r r' : σ}

/-- The members of a written record, by name. -/
lemma filter_members {fields : List (Field σ)} (distinct : (fields.map (·.name)).Nodup)
    {f : Field σ} (hf : f ∈ fields) :
    (fields.map fun g => (g.name, g.get r)).filter (·.1 == f.name) = [(f.name, f.get r)] := by
  induction fields with
  | nil => cases hf
  | cons g fields ih =>
    rw [List.map_cons, List.nodup_cons] at distinct
    rcases List.mem_cons.mp hf with rfl | hf
    · have others : (fields.map fun g => (g.name, g.get r)).filter (·.1 == f.name) = [] := by
        simp only [List.filter_eq_nil_iff, List.mem_map, beq_iff_eq]
        rintro _ ⟨g, hg, rfl⟩ same
        exact distinct.1 (List.mem_map.mpr ⟨g, hg, same⟩)
      simp [others]
    · have other : g.name ≠ f.name := fun same =>
        distinct.1 (same ▸ List.mem_map.mpr ⟨f, hf, rfl⟩)
      simp [other, ih distinct.2 hf]

lemma foldlM_putMember {members : List (String × Json)} {fields : List (Field σ)}
    {copies : List (σ → σ)} (all : List.Forall₂ (fun f copy => f.Copies r copy) fields copies)
    (single : ∀ f ∈ fields, members.filter (·.1 == f.name) = [(f.name, f.get r)]) (start : σ) :
    fields.foldlM (shape.putMember members) start =
      some (copies.foldl (fun r' copy => copy r') start) := by
  induction all generalizing start with
  | nil => rfl
  | @cons f copy fields copies h _ ih =>
    have put : shape.putMember members start f = some (copy start) := by
      rw [putMember_eq, single f (by simp)]
      exact h.put_get start
    rw [List.foldlM_cons, put]
    exact ih (fun f hf => single f (by simp [hf])) _

lemma faithful_get {fields : List (Field σ)} {copies : List (σ → σ)}
    (all : List.Forall₂ (fun f copy => f.Copies r copy) fields copies) :
    ∀ f ∈ fields, Faithful (f.get r) := by
  induction all with
  | nil => simp
  | cons h _ ih => exact List.forall_mem_cons.mpr ⟨h.faithful, ih⟩

/-- A record of fields with names of their own is read as it was written, up to what its fields do
not hold. -/
theorem returns {copies : List (σ → σ)} (distinct : (shape.fields.map (·.name)).Nodup)
    (all : List.Forall₂ (fun f copy => f.Copies r copy) shape.fields copies)
    (whole : copies.foldl (fun r' copy => copy r') shape.base = r') : shape.codec.Returns r r' where
  faithful := .object (by
    simp only [List.mem_map]
    rintro _ ⟨f, hf, rfl⟩
    exact faithful_get all f hf)
  read_write := by
    rw [← whole]
    exact foldlM_putMember all (fun f => filter_members distinct) shape.base

/-- The record that is read from the text of a record. -/
def throughText (shape : Record σ) (r : σ) : Option σ :=
  (parse? (pretty (shape.write r))).bind shape.read

lemma throughText_eq (h : shape.codec.Returns r r') : shape.throughText r = some r' := by
  have text : parse? (pretty (shape.write r)) = some (shape.write r) := parse?_pretty h.faithful
  rw [throughText, text]
  exact h.read_write

end Record

end ImpedanceBench.Json
