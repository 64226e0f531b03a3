import Mathlib.Data.List.Nodup
import ImpedanceBench.Proofs.Json.Slots

/-!
Records that are read by the names of their fields, in both input forms. A record whose fields are
slots apart from each other is read so; what is said here of the members holds of all objects, with
members that repeat or that no field knows.
-/

namespace ImpedanceBench.Json.Record

variable {σ κ : Type}

/-- A slot for each field of the record, in the order of the fields. With `kept`, which no field
sets, they make up the record. Once the slots are known, all but the first part is computation. -/
structure Slotted (shape : Record σ) (slots : List (Slot σ)) (kept : σ → κ) : Prop where
  fields : shape.fields = slots.map Slot.field
  distinct : (slots.map (·.name)).Nodup := by decide
  apart : slots.Pairwise Slot.Apart := by
    repeat' first
      | exact .nil
      | exact List.forall_mem_nil _
      | refine .cons ?_ ?_
      | refine List.forall_mem_cons.2 ⟨{}, ?_⟩
  kept_set : ∀ s ∈ slots, ∀ b r, kept (s.set b r) = kept r := by simp
  ext : ∀ r r', kept r = kept r' → (∀ s ∈ slots, s.get r = s.get r') → r = r' := by
    rintro ⟨⟩ ⟨⟩ h h'
    simp_all

/-- What is read depends only on which field is given which value. -/
structure Keyed (shape : Record σ) (slots : List (Slot σ)) (kept : σ → κ) : Prop
    extends shape.Slotted slots kept where
  permuted : ∀ {ms ms'}, ms.Perm ms' → shape.read (.object ms) = shape.read (.object ms')
  unknown : ∀ before after name v, name ∉ slots.map (·.name) →
    shape.read (.object (before ++ (name, v) :: after)) = shape.read (.object (before ++ after))
  repeated : ∀ {ms}, ∀ s ∈ slots, 1 < (ms.map Prod.fst).count s.name →
    shape.read (.object ms) = none
  given : ∀ {ms r}, shape.read (.object ms) = some r →
    ∀ s ∈ slots, ∀ v, (s.name, v) ∈ ms → s.codec.read v = some (s.get r)
  kept_base : ∀ {ms r}, shape.read (.object ms) = some r → kept r = kept shape.base
  /-- Two forms of a value may stand for each other where the field puts them alike. -/
  replaced : ∀ f ∈ shape.fields, ∀ v v', f.put v = f.put v' → ∀ before after,
    shape.read (.object (before ++ (f.name, v) :: after)) =
      shape.read (.object (before ++ (f.name, v') :: after))
  listed : ∀ vs : List Json, vs.length = slots.length →
    shape.read (.array vs) = shape.read (.object ((slots.map (·.name)).zip vs))
  tooLong : ∀ vs : List Json, slots.length < vs.length → shape.read (.array vs) = none

/-- A field that is not given keeps the standard value. -/
structure Lenient (shape : Record σ) (slots : List (Slot σ)) (kept : σ → κ) : Prop
    extends shape.Keyed slots kept where
  exists_read_iff : ∀ ms, (∃ r, shape.read (.object ms) = some r) ↔ ∀ s ∈ slots, s.Readable ms
  absent : ∀ {ms r}, shape.read (.object ms) = some r →
    ∀ s ∈ slots, s.name ∉ ms.map Prod.fst → s.get r = s.get shape.base
  listedFirst : ∀ vs : List Json, vs.length ≤ slots.length →
    shape.read (.array vs) = shape.read (.object ((slots.map (·.name)).zip vs))

/-- Every field must be given. -/
structure Strict (shape : Record σ) (slots : List (Slot σ)) (kept : σ → κ) : Prop
    extends shape.Keyed slots kept where
  exists_read_iff : ∀ ms, (∃ r, shape.read (.object ms) = some r) ↔
    ∀ s ∈ slots, s.Readable ms ∧ s.name ∈ ms.map Prod.fst
  missing : ∀ {ms}, ∀ s ∈ slots, s.name ∉ ms.map Prod.fst → shape.read (.object ms) = none
  tooShort : ∀ vs : List Json, vs.length < slots.length → shape.read (.array vs) = none

namespace Slotted

variable {shape : Record σ} {slots : List (Slot σ)} {kept : σ → κ} {ms ms' : List (String × Json)}

lemma read_object (h : shape.Slotted slots kept) (ms : List (String × Json)) :
    shape.read (.object ms) =
      slots.foldlM (fun r s => shape.putMember ms r s.field) shape.base := by
  rw [read, h.fields, List.foldlM_map]

lemma fields_distinct (h : shape.Slotted slots kept) : (shape.fields.map (·.name)).Nodup := by
  rw [h.fields, List.map_map]
  exact h.distinct

lemma read_congr (h : shape.Slotted slots kept)
    (same : ∀ s ∈ slots, (ms.filter (·.1 == s.name)).Perm (ms'.filter (·.1 == s.name))) :
    shape.read (.object ms) = shape.read (.object ms') := by
  rw [h.read_object, h.read_object]
  exact foldlM_congr (fun s hs r => putMember_congr (f := s.field) (same s hs) r) _

lemma exists_read_iff (h : shape.Slotted slots kept) (ms : List (String × Json)) :
    (∃ r, shape.read (.object ms) = some r) ↔
      ∀ s ∈ slots, s.Readable ms ∧ (shape.complete → s.name ∈ ms.map Prod.fst) := by
  rw [h.read_object]
  exact exists_foldlM_iff (fun s _ r => exists_putMember_iff s r) _

lemma read_eq_none (h : shape.Slotted slots kept) {s : Slot σ} (hs : s ∈ slots)
    (bad : ¬ (s.Readable ms ∧ (shape.complete → s.name ∈ ms.map Prod.fst))) :
    shape.read (.object ms) = none :=
  Option.eq_none_iff_forall_ne_some.2 fun r hr =>
    bad ((h.exists_read_iff ms).1 ⟨r, hr⟩ s hs)

lemma map_fst_zip_eq_take {α β : Type} (xs : List α) (ys : List β) :
    (xs.zip ys).map Prod.fst = xs.take ys.length := by
  induction xs generalizing ys with
  | nil => simp
  | cons x xs ih => cases ys <;> simp [ih]

/-- An array that is not too short stands for an object. -/
lemma read_array (h : shape.Slotted slots kept) {vs : List Json} (hvs : vs.length ≤ slots.length)
    (enough : shape.complete → slots.length ≤ vs.length) :
    shape.read (.array vs) = shape.read (.object ((slots.map (·.name)).zip vs)) := by
  have hlength : shape.fields.length = slots.length := by rw [h.fields, List.length_map]
  have hread : vs.length = shape.fields.length ∨
      (vs.length < shape.fields.length ∧ !shape.complete) := by
    rcases hvs.lt_or_eq with hlt | heq
    · exact .inr ⟨by omega, by simpa using fun hc => hlt.not_ge (enough hc)⟩
    · exact .inl (by omega)
  rw [h.read_object, read, if_pos hread, h.fields, List.zip_map_left, List.foldlM_map]
  refine foldlM_put_eq (fun p hp => filter_name_eq_singleton ?_ ?_) (fun s hs => ?_) enough _
  · rw [map_fst_zip_eq_take]
    exact List.nodup_iff_count_le_one.1 (h.distinct.sublist (List.take_sublist _ _)) _
  · rw [List.zip_map_left]
    exact List.mem_map.2 ⟨p, hp, rfl⟩
  · rw [map_fst_zip_eq_take]
    refine fun hmem => List.disjoint_take_drop h.distinct le_rfl hmem ?_
    rw [← List.map_drop]
    exact List.mem_map_of_mem hs

lemma keyed (h : shape.Slotted slots kept) : shape.Keyed slots kept where
  toSlotted := h
  permuted hperm := h.read_congr fun _ _ => hperm.filter _
  unknown before after name v hname := by
    refine h.read_congr fun s hs => ?_
    have hne : (name == s.name) = false := by
      rw [beq_eq_false_iff_ne]
      rintro rfl
      exact hname (List.mem_map_of_mem hs)
    simp [List.filter_append, hne]
  repeated s hs hcount := h.read_eq_none hs fun hgood => hgood.1.once.not_gt hcount
  given hr s hs := (slots_of_run h.apart (h.read_object _ ▸ hr) s hs).2
  kept_base hr := kept_of_run h.kept_set (h.read_object _ ▸ hr)
  replaced f hf v v' hput before after := by
    refine foldlM_congr (fun g hg r => putMember_alike ?_ r) _
    refine List.rel_append (List.forall₂_same.2 fun _ _ => ⟨rfl, fun _ => rfl⟩)
      (.cons ⟨rfl, fun hname => ?_⟩ (List.forall₂_same.2 fun _ _ => ⟨rfl, fun _ => rfl⟩))
    rwa [← List.inj_on_of_nodup_map h.fields_distinct hf hg hname]
  listed vs hvs := h.read_array hvs.le fun _ => hvs.ge
  tooLong vs hvs := by
    have hlength : shape.fields.length = slots.length := by rw [h.fields, List.length_map]
    rw [read, if_neg (by omega)]

lemma lenient (h : shape.Slotted slots kept) (hcomplete : shape.complete = false) :
    shape.Lenient slots kept where
  toKeyed := h.keyed
  exists_read_iff ms := by simpa [hcomplete] using h.exists_read_iff ms
  absent hr s hs := (slots_of_run h.apart (h.read_object _ ▸ hr) s hs).1
  listedFirst vs hvs := h.read_array hvs (by simp [hcomplete])

lemma strict (h : shape.Slotted slots kept) (hcomplete : shape.complete = true) :
    shape.Strict slots kept where
  toKeyed := h.keyed
  exists_read_iff ms := by simpa [hcomplete] using h.exists_read_iff ms
  missing s hs habsent := h.read_eq_none hs fun hgood => habsent (hgood.2 hcomplete)
  tooShort vs hvs := by
    have hlength : shape.fields.length = slots.length := by rw [h.fields, List.length_map]
    rw [read, if_neg (by simp [hcomplete]; omega)]

end Slotted

end ImpedanceBench.Json.Record
