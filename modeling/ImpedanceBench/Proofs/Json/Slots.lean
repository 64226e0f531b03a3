import Mathlib.Data.List.Forall2
import Mathlib.Data.List.Zip
import Mathlib.Order.Basic
import Mathlib.Tactic.Lemma
import ImpedanceBench.Json.Record

/-!
What a record takes from a JSON value. Each field fills one slot of the record and leaves the others
alone, so the result depends only on which field is given which value: the order of the members does
not matter, members of other names do not either, a slot that is given nothing keeps its standard
value, and an array stands for the object that gives its items to the first fields.
-/

namespace ImpedanceBench.Json

/-- A place in a record, with the name and the JSON form of what stands there. -/
structure Slot (σ : Type) where
  {β : Type}
  codec : Codec β
  name : String
  get : σ → β
  set : β → σ → σ
  get_set : ∀ b r, get (set b r) = b := by intros; rfl
  set_get : ∀ r, set (get r) r = r := by intros; rfl

namespace Slot

variable {σ : Type}

def field (s : Slot σ) : Field σ := s.codec.field s.name s.get s.set

/-- Filling one of the slots leaves the other one as it is. -/
structure Apart (s t : Slot σ) : Prop where
  get_set : ∀ b r, t.get (s.set b r) = t.get r := by intros; rfl
  set_get : ∀ b r, s.get (t.set b r) = s.get r := by intros; rfl

lemma Apart.symm {s t : Slot σ} (h : s.Apart t) : t.Apart s := ⟨h.set_get, h.get_set⟩

/-- The slot is given one value at most, and one that can be read. -/
structure Readable (s : Slot σ) (members : List (String × Json)) : Prop where
  once : (members.map Prod.fst).count s.name ≤ 1
  exists_read : ∀ v, (s.name, v) ∈ members → ∃ b, s.codec.read v = some b

end Slot

section Members

variable {ms : List (String × Json)} {name : String}

lemma length_filter_name (ms : List (String × Json)) (name : String) :
    (ms.filter (·.1 == name)).length = (ms.map Prod.fst).count name := by
  rw [List.count, List.countP_map, List.countP_eq_length_filter]
  rfl

lemma filter_name_eq_nil_iff : ms.filter (·.1 == name) = [] ↔ name ∉ ms.map Prod.fst := by
  rw [← List.length_eq_zero_iff, length_filter_name, List.count_eq_zero]

lemma mem_filter_name {m : String × Json} :
    m ∈ ms.filter (·.1 == name) ↔ m ∈ ms ∧ m.1 = name := by
  rw [List.mem_filter, beq_iff_eq]

/-- One value is given under a name that occurs once. -/
lemma filter_name_eq_singleton {v : Json} (once : (ms.map Prod.fst).count name ≤ 1)
    (h : (name, v) ∈ ms) : ms.filter (·.1 == name) = [(name, v)] := by
  have hmem : (name, v) ∈ ms.filter (·.1 == name) := mem_filter_name.2 ⟨h, rfl⟩
  obtain ⟨m, hm⟩ := List.length_eq_one_iff.1
    (le_antisymm ((length_filter_name ms name).trans_le once) (List.length_pos_of_mem hmem))
  rw [hm, List.mem_singleton] at hmem
  rw [hm, hmem]

end Members

/-! Going through the fields. -/

section Folds

variable {σ : Type} {ι : Type*} {step step' : σ → ι → Option σ} {xs : List ι}

lemma foldlM_congr (h : ∀ x ∈ xs, ∀ r, step r x = step' r x) (start : σ) :
    xs.foldlM step start = xs.foldlM step' start := by
  induction xs generalizing start with
  | nil => rfl
  | cons x xs ih =>
    rw [List.foldlM_cons, List.foldlM_cons, h x (by simp)]
    exact congrArg _ (funext fun r => ih (fun y hy => h y (by simp [hy])) r)

/-- Where it is known of each step by itself whether it succeeds, all of them do or the run does
not. -/
lemma exists_foldlM_iff {P : ι → Prop} (h : ∀ x ∈ xs, ∀ r, (∃ r', step r x = some r') ↔ P x)
    (start : σ) : (∃ r, xs.foldlM step start = some r) ↔ ∀ x ∈ xs, P x := by
  induction xs generalizing start with
  | nil => simp [pure]
  | cons x xs ih =>
    have hrest := ih fun y hy => h y (by simp [hy])
    rw [List.foldlM_cons, List.forall_mem_cons, ← h x (by simp) start]
    rcases hx : step start x with _ | r
    · simp
    · simpa using hrest r

end Folds

namespace Record

variable {σ : Type} {shape : Record σ} {slots : List (Slot σ)} {ms ms' : List (String × Json)}

/-- Only the members of its name matter to a field. -/
lemma putMember_eq (r : σ) (f : Field σ) : shape.putMember ms r f =
    if 1 < (ms.filter (·.1 == f.name)).length then none
    else ((ms.filter (·.1 == f.name)).getLast?.map Prod.snd).elim
      (if shape.complete then none else some r) (f.put · r) := by
  have hmember : (Json.object ms).member? f.name =
      (ms.filter (·.1 == f.name)).getLast?.map Prod.snd := by
    rw [member?, ← List.head?_filter, List.filter_reverse, List.head?_reverse]
  rw [putMember, List.countP_eq_length_filter, hmember]
  cases (ms.filter (·.1 == f.name)).getLast?.map Prod.snd <;> rfl

lemma putMember_of_absent {s : Slot σ} (h : s.name ∉ ms.map Prod.fst) (r : σ) :
    shape.putMember ms r s.field = if shape.complete then none else some r := by
  have hnil : ms.filter (·.1 == s.field.name) = [] := filter_name_eq_nil_iff.2 h
  rw [putMember_eq, hnil]
  rfl

lemma putMember_of_given {s : Slot σ} {v : Json} (h : ms.filter (·.1 == s.name) = [(s.name, v)])
    (r : σ) : shape.putMember ms r s.field = (s.codec.read v).map (s.set · r) := by
  have hone : ms.filter (·.1 == s.field.name) = [(s.name, v)] := h
  rw [putMember_eq, hone]
  rfl

/-- What one field does. -/
lemma putMember_cases {s : Slot σ} {r r' : σ} (h : shape.putMember ms r s.field = some r') :
    (s.name ∉ ms.map Prod.fst ∧ shape.complete = false ∧ r' = r) ∨
      ∃ v b, ms.filter (·.1 == s.name) = [(s.name, v)] ∧ s.codec.read v = some b ∧
        r' = s.set b r := by
  rcases hms : ms.filter (·.1 == s.name) with _ | ⟨m, _ | ⟨m', rest⟩⟩
  · have habsent := filter_name_eq_nil_iff.1 hms
    rw [putMember_of_absent habsent] at h
    split at h
    · cases h
    · exact .inl ⟨habsent, eq_false_of_ne_true ‹_›, (Option.some.inj h).symm⟩
  · obtain ⟨-, hname⟩ := mem_filter_name.1 (hms ▸ List.mem_singleton_self m)
    obtain ⟨name, v⟩ := m
    obtain rfl : name = s.name := hname
    rw [putMember_of_given hms] at h
    obtain ⟨b, hb, rfl⟩ := Option.map_eq_some_iff.1 h
    exact .inr ⟨v, b, hms, hb, rfl⟩
  · have hmany : ms.filter (·.1 == s.field.name) = m :: m' :: rest := hms
    rw [putMember_eq, hmany, if_pos (by simp)] at h
    cases h

/-- Whether a field can be filled does not depend on the record. -/
lemma exists_putMember_iff (s : Slot σ) (r : σ) :
    (∃ r', shape.putMember ms r s.field = some r') ↔
      s.Readable ms ∧ (shape.complete → s.name ∈ ms.map Prod.fst) := by
  constructor
  · rintro ⟨r', h⟩
    obtain ⟨habsent, hcomplete, -⟩ | ⟨v, b, hone, hb, -⟩ := putMember_cases h
    · refine ⟨⟨(List.count_eq_zero.2 habsent).trans_le (Nat.zero_le 1), fun v hv => ?_⟩,
        by simp [hcomplete]⟩
      exact absurd (List.mem_map.2 ⟨_, hv, rfl⟩) habsent
    · refine ⟨⟨?_, fun v' hv' => ?_⟩, fun _ => ?_⟩
      · rw [← length_filter_name, hone]
        rfl
      · have hmem := mem_filter_name.2 ⟨hv', rfl⟩
        rw [hone, List.mem_singleton] at hmem
        cases hmem
        exact ⟨b, hb⟩
      · by_contra habsent
        rw [filter_name_eq_nil_iff.2 habsent] at hone
        cases hone
  · rintro ⟨hreadable, hcomplete⟩
    by_cases h : s.name ∈ ms.map Prod.fst
    · obtain ⟨⟨_, v⟩, hv, rfl⟩ := List.mem_map.1 h
      obtain ⟨b, hb⟩ := hreadable.exists_read v hv
      rw [putMember_of_given (filter_name_eq_singleton hreadable.once hv), hb]
      exact ⟨_, rfl⟩
    · rw [putMember_of_absent h, if_neg fun hc => h (hcomplete hc)]
      exact ⟨r, rfl⟩

/-- Members of one name may change places, and those of other names may come and go. -/
lemma putMember_congr {f : Field σ}
    (h : (ms.filter (·.1 == f.name)).Perm (ms'.filter (·.1 == f.name))) (r : σ) :
    shape.putMember ms r f = shape.putMember ms' r f := by
  rw [putMember_eq, putMember_eq]
  generalize ms.filter (·.1 == f.name) = given at h ⊢
  generalize ms'.filter (·.1 == f.name) = given' at h ⊢
  have hlength := h.length_eq
  match given, given' with
  | [], [] => rfl
  | [m], [m'] => rw [List.singleton_perm_singleton.1 h]
  | _ :: _ :: _, _ :: _ :: _ => rfl
  | [], _ :: _ | _ :: _, [] | [_], _ :: _ :: _ | _ :: _ :: _, [_] => simp at hlength

/-- A run over the slots changes nothing that none of them changes. -/
lemma kept_of_run {γ : Type} {get : σ → γ} (kept : ∀ s ∈ slots, ∀ b r, get (s.set b r) = get r)
    {start r : σ} (run : slots.foldlM (fun r s => shape.putMember ms r s.field) start = some r) :
    get r = get start := by
  induction slots generalizing start with
  | nil =>
    cases run
    rfl
  | cons s slots ih =>
    rw [List.foldlM_cons] at run
    obtain ⟨r₁, hstep, hrest⟩ := Option.bind_eq_some_iff.1 run
    rw [ih (fun t ht => kept t (by simp [ht])) hrest]
    obtain ⟨-, -, rfl⟩ | ⟨v, b, -, -, rfl⟩ := putMember_cases hstep
    · rfl
    · exact kept s (by simp) b start

/-- A run over slots that are apart leaves in each of them what it was given, or what was there. -/
lemma slots_of_run (apart : slots.Pairwise Slot.Apart) {start r : σ}
    (run : slots.foldlM (fun r s => shape.putMember ms r s.field) start = some r) :
    ∀ s ∈ slots, (s.name ∉ ms.map Prod.fst → s.get r = s.get start) ∧
      ∀ v, (s.name, v) ∈ ms → s.codec.read v = some (s.get r) := by
  induction slots generalizing start with
  | nil => simp
  | cons s slots ih =>
    rw [List.pairwise_cons] at apart
    rw [List.foldlM_cons] at run
    obtain ⟨r₁, hstep, hrest⟩ := Option.bind_eq_some_iff.1 run
    intro t ht
    rcases List.mem_cons.1 ht with rfl | ht
    · have hown : t.get r = t.get r₁ := kept_of_run (fun u hu => (apart.1 u hu).set_get) hrest
      obtain ⟨habsent, -, rfl⟩ | ⟨v, b, hone, hb, rfl⟩ := putMember_cases hstep
      · exact ⟨fun _ => hown, fun v hv => absurd (List.mem_map.2 ⟨_, hv, rfl⟩) habsent⟩
      · refine ⟨fun habsent => ?_, fun v' hv' => ?_⟩
        · rw [filter_name_eq_nil_iff.2 habsent] at hone
          cases hone
        · have hmem := mem_filter_name.2 ⟨hv', rfl⟩
          rw [hone, List.mem_singleton] at hmem
          cases hmem
          rw [hb, hown, t.get_set]
    · have hkept : t.get r₁ = t.get start := by
        obtain ⟨-, -, rfl⟩ | ⟨v, b, -, -, rfl⟩ := putMember_cases hstep
        · rfl
        · exact (apart.1 t ht).get_set b start
      rw [← hkept]
      exact ih apart.2 hrest t ht

/-- A field does not tell members apart whose values it puts alike. -/
lemma putMember_alike {f : Field σ}
    (h : List.Forall₂ (fun m m' => m.1 = m'.1 ∧ (m.1 = f.name → f.put m.2 = f.put m'.2)) ms ms')
    (r : σ) : shape.putMember ms r f = shape.putMember ms' r f := by
  have hfilter := List.rel_filter (p := (·.1 == f.name)) (q := (·.1 == f.name))
    (fun _ _ (hm : _ ∧ _) => by simp only [hm.1]) h
  have hname : ∀ m ∈ ms.filter (·.1 == f.name), m.1 = f.name := fun m hm => (mem_filter_name.1 hm).2
  rw [putMember_eq, putMember_eq]
  generalize ms.filter (·.1 == f.name) = given at hfilter hname ⊢
  generalize ms'.filter (·.1 == f.name) = given' at hfilter ⊢
  match hfilter with
  | .nil => rfl
  | .cons hm .nil => exact congrFun (hm.2 (hname _ (by simp))) r
  | .cons _ (.cons _ _) => rfl

/-- Where the first slots are given one value each, and the others none, the values are put one
after the other. -/
lemma foldlM_put_eq {vs : List Json}
    (given : ∀ p ∈ slots.zip vs, ms.filter (·.1 == p.1.name) = [(p.1.name, p.2)])
    (absent : ∀ s ∈ slots.drop vs.length, s.name ∉ ms.map Prod.fst)
    (enough : shape.complete → slots.length ≤ vs.length) (start : σ) :
    (slots.zip vs).foldlM (fun r p => p.1.field.put p.2 r) start =
      slots.foldlM (fun r s => shape.putMember ms r s.field) start := by
  induction slots generalizing vs start with
  | nil => rfl
  | cons s slots ih =>
    rw [List.foldlM_cons (a := s)]
    rcases vs with _ | ⟨v, vs⟩
    · have hlenient : ¬ shape.complete := fun h => by simpa using enough h
      rw [putMember_of_absent (absent s (by simp)), if_neg hlenient]
      have hrest := @ih [] (by simp) (fun t ht => absent t (by simp_all))
        (fun h => absurd h hlenient) start
      simpa using hrest
    · rw [List.zip_cons_cons, List.foldlM_cons, putMember_of_given (given (s, v) (by simp))]
      refine congrArg _ (funext fun r => ih (fun p hp => given p (by simp [hp]))
        (fun t ht => absent t (by simpa using ht)) (fun h => by simpa using enough h) r)

end Record

end ImpedanceBench.Json
