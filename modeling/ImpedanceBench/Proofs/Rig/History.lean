import Mathlib.Data.List.Basic
import Mathlib.Tactic.Lemma
import ImpedanceBench.Rig.Controller

/-!
The history of a run: its calls in order, each with the reply of the devices. Histories are read
in two ways, by the points they measure and by how far a measurement has come, and computations
are described by the histories they can have.
-/

namespace ImpedanceBench

def Call.opensPoint : Call → Bool
  | .command (.configureOutput ..) => true
  | _ => false

def Reply.failure? {β : Type} (reply : Reply β) : Option (Failure Float) :=
  match reply.outcome with
  | .error e => some e
  | .ok _ => none

namespace Reply

variable {β : Type} {reply : Reply β}

lemma failure?_of_error {e : Failure Float} (h : reply.outcome = .error e) :
    reply.failure? = some e := by simp [failure?, h]

lemma failure?_of_ok {b : β} (h : reply.outcome = .ok b) : reply.failure? = none := by
  simp [failure?, h]

end Reply

/-- A call and its reply. -/
inductive Event where
  | command (c : Command) (reply : Reply Unit)
  | poll (reply : Reply (Option (Trace Float)))

namespace Event

def call : Event → Call
  | command c _ => .command c
  | poll _ => .poll

def cancels : Event → Bool
  | command _ reply => reply.cancels
  | poll reply => reply.cancels

/-- The trace of a poll that was triggered. -/
def trace? : Event → Option (Trace Float)
  | command .. => none
  | poll reply => reply.outcome.toOption.join

/-- The failure that a device returned. -/
def failure? : Event → Option (Failure Float)
  | command _ reply => reply.failure?
  | poll reply => reply.failure?

@[simp] lemma failure?_command (c : Command) (reply : Reply Unit) :
    (command c reply).failure? = reply.failure? := rfl

@[simp] lemma failure?_poll (reply : Reply (Option (Trace Float))) :
    (poll reply).failure? = reply.failure? := rfl

/-- Each point of a sweep begins when the registers of its waveform are set. -/
def opensPoint (e : Event) : Bool := e.call.opensPoint

end Event

namespace History

/-- Whether the run was cancelled in the meantime. -/
def cancels (es : List Event) : Bool := es.any Event.cancels

/-- The traces that polls returned. -/
def traces (es : List Event) : List (Trace Float) := es.filterMap Event.trace?

/-- The events of each point, from the one that opens it to the one before the next. -/
def points : List Event → List (List Event)
  | [] => []
  | e :: es =>
    if e.opensPoint then (e :: es.takeWhile (!·.opensPoint)) :: points es else points es

/-- The traces that were acquired at each point. -/
def tracesByPoint (es : List Event) : List (List (Trace Float)) := (points es).map traces

@[simp] lemma cancels_nil : cancels [] = false := rfl

@[simp] lemma cancels_cons (e : Event) (es : List Event) :
    cancels (e :: es) = (e.cancels || cancels es) := rfl

@[simp] lemma cancels_append (es fs : List Event) :
    cancels (es ++ fs) = (cancels es || cancels fs) := List.any_append

@[simp] lemma traces_nil : traces [] = [] := rfl

lemma traces_poll (reply : Reply (Option (Trace Float))) (es : List Event) :
    traces (.poll reply :: es) = reply.outcome.toOption.join.toList ++ traces es := by
  cases h : reply.outcome.toOption.join <;> simp [traces, Event.trace?, h]

@[simp] lemma traces_append (es fs : List Event) : traces (es ++ fs) = traces es ++ traces fs :=
  List.filterMap_append

/-- Events before the first point belong to none. -/
lemma points_append_of_closed {es : List Event} (h : ∀ e ∈ es, e.opensPoint = false)
    (fs : List Event) : points (es ++ fs) = points fs := by
  induction es with
  | nil => rfl
  | cons e es ih =>
    have he : e.opensPoint = false := h e (by simp)
    simp [points, he, ih fun x hx => h x (by simp [hx])]

/-- A point lasts until the next one begins. -/
lemma points_cons_append {e : Event} {es fs : List Event} (he : e.opensPoint = true)
    (hes : ∀ x ∈ es, x.opensPoint = false) (hfs : ∀ x ∈ fs.head?, x.opensPoint = true) :
    points (e :: (es ++ fs)) = (e :: es) :: points fs := by
  have hall : ∀ x ∈ es, (!x.opensPoint) = true := fun x hx => by simp [hes x hx]
  have htake : (es ++ fs).takeWhile (!·.opensPoint) = es := by
    rw [List.takeWhile_append_of_pos hall]
    cases fs with
    | nil => simp
    | cons f fs => simp [hfs f (by simp)]
  simp [points, he, htake, points_append_of_closed hes]

/-- An event of a history in two parts is in the first or in the second. -/
lemma append_eq_cut {es fs pre post : List Event} {e : Event} (h : es ++ fs = pre ++ e :: post) :
    (∃ post', es = pre ++ e :: post' ∧ post = post' ++ fs) ∨
      ∃ pre', pre = es ++ pre' ∧ fs = pre' ++ e :: post := by
  rcases List.append_eq_append_iff.1 h with ⟨pre', rfl, hfs⟩ | ⟨mid, rfl, hmid⟩
  · exact .inr ⟨pre', rfl, hfs⟩
  · cases mid with
    | nil => exact .inr ⟨[], by simp, by simpa using hmid.symm⟩
    | cons e' mid =>
      obtain ⟨rfl, hpost⟩ := List.cons.inj hmid
      exact .inl ⟨mid, rfl, hpost⟩

lemma singleton_eq_cut {pre post : List Event} {e e' : Event} (h : pre ++ e :: post = [e']) :
    pre = [] ∧ e = e' ∧ post = [] := by
  cases pre with
  | nil => simpa using h
  | cons x pre => simp at h

end History

end ImpedanceBench
