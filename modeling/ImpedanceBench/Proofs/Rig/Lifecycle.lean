import ImpedanceBench.Proofs.Rig.Measured
import ImpedanceBench.Proofs.Rig.Determinism

/-!
The life of a controller, from its creation through any tasks, failures and changes of the devices.
It initializes the devices before the first run and, once both have been initialized, never again of
its own accord. The flag that it keeps for this is set on one path only, and nothing but the devices,
that flag and the token has a part in what a later run does.
-/

namespace ImpedanceBench

open History

/-- The calls of an initialization. All others are work, and need devices that are ready. -/
def Call.initializes : Call → Bool
  | .command .initOutput | .command .initScope => true
  | _ => false

def Event.initializes (e : Event) : Bool := e.call.initializes

/-- How a device that could not be initialized is reported: its own report is kept, and any other
failure is put under the name of the device. -/
inductive Reports (device : String) : Failure Float → Failure Float → Prop
  | own (name reason : String) :
    Reports device (.deviceInit name reason) (.deviceInit name reason)
  | named {e : Failure Float} (other : ∀ name reason, e ≠ .deviceInit name reason) :
    Reports device e (.deviceInit device e.message)

/-- An attempt to initialize both devices: the generator first, and the oscilloscope only if that
has succeeded. -/
inductive Initializes : List Event → Except (Failure Float) Unit → Prop
  | generatorFailed {reply : Reply Unit} {e e' : Failure Float} (h : reply.outcome = .error e)
    (report : Reports "generator" e e') : Initializes [.command .initOutput reply] (.error e')
  | scopeFailed {reply reply' : Reply Unit} {e e' : Failure Float} (h : reply.outcome = .ok ())
    (h' : reply'.outcome = .error e) (report : Reports "oscilloscope" e e') :
    Initializes [.command .initOutput reply, .command .initScope reply'] (.error e')
  | succeeded {reply reply' : Reply Unit} (h : reply.outcome = .ok ())
    (h' : reply'.outcome = .ok ()) :
    Initializes [.command .initOutput reply, .command .initScope reply'] (.ok ())

/-- Both devices have been initialized, one right after the other. -/
def History.Ready (es : List Event) : Prop :=
  ∃ pre reply reply' post, reply.outcome = .ok () ∧ reply'.outcome = .ok () ∧
    es = pre ++ .command .initOutput reply :: .command .initScope reply' :: post

/-- How a run goes on devices that are ready or not, and whether the controller takes them to be
ready after it. -/
inductive Begins (ready : Prop) :
    List Event → Except (Failure Float) (ResultTable Float) → (initialized : Bool) → Prop
  | ready {es : List Event} {r : Except (Failure Float) (ResultTable Float)} (h : ready)
    (working : ∀ e ∈ es, e.initializes = false) : Begins ready es r true
  | readied {es fs : List Event} {r : Except (Failure Float) (ResultTable Float)} (h : ¬ ready)
    (init : Initializes es (.ok ())) (working : ∀ e ∈ fs, e.initializes = false) :
    Begins ready (es ++ fs) r true
  | notReady {es : List Event} {e : Failure Float} (h : ¬ ready)
    (init : Initializes es (.error e)) : Begins ready es (.error e) false

section

variable {es fs : List Event}

lemma reports_initFailure (device : String) (e : Failure Float) :
    Reports device e (Rig.initFailure device e) := by
  cases e with
  | deviceInit name reason => exact .own name reason
  | _ => exact .named nofun

lemma Performs.initializes {r : Except (Failure Float) Unit}
    (h : Performs [.initOutput, .initScope] es r) : Initializes es r := by
  cases h with
  | failed ho => exact .generatorFailed ho (reports_initFailure _ _)
  | succeeded ho rest =>
    cases rest with
    | failed ho' => exact .scopeFailed ho ho' (reports_initFailure _ _)
    | succeeded ho' rest =>
      cases rest
      exact .succeeded ho ho'

/-- Commands that are work are made as work. -/
lemma Performs.working {cs : List Command} {r : Except (Failure Float) Unit}
    (h : Performs cs es r) (hcs : ∀ c ∈ cs, (Call.command c).initializes = false) :
    ∀ e ∈ es, e.initializes = false := by
  intro e he
  have hcall : e.call ∈ cs.map .command := h.calls_prefix.subset (List.mem_map_of_mem he)
  obtain ⟨c, hc, hce⟩ := List.mem_map.1 hcall
  rw [Event.initializes, ← hce, hcs c hc]

lemma Measures.working {sweep : ValidatedSweep Float} {f : Float} {c : Bool}
    {r : Except (Failure Float) (Option (FrequencyResult Float))} (h : Measures sweep f c es r) :
    ∀ e ∈ es, e.initializes = false := by
  cases h with
  | unplanned _ h => exact h.working (by simp [ValidatedSweep.drive, Call.initializes])
  | notSetUp _ h =>
    exact h.working (by simp [ValidatedSweep.setUp, ValidatedSweep.drive, Call.initializes])
  | passed _ h rest =>
    have hset := h.working (by simp [ValidatedSweep.setUp, ValidatedSweep.drive, Call.initializes])
    intro e he
    rcases List.mem_append.1 he with he | he
    · exact hset e he
    · rw [Event.initializes, rest.calls e he]
      rfl

/-- After the devices are initialized, a sweep only works with them. -/
lemma Visits.working {sweep : ValidatedSweep Float} {frequencies : List Float} {c : Bool}
    {r : Except (Failure Float) (List (Float × Option (FrequencyResult Float)))}
    (h : Visits sweep frequencies c es r) : ∀ e ∈ es, e.initializes = false := by
  induction h with
  | done | cancelled => simp
  | stopped h => exact h.working
  | visited h _ ih =>
    intro e he
    exact (List.mem_append.1 he).elim (h.working e) (ih e)

namespace History

lemma Ready.append_left (h : Ready fs) (es : List Event) : Ready (es ++ fs) := by
  obtain ⟨pre, reply, reply', post, h, h', rfl⟩ := h
  exact ⟨es ++ pre, reply, reply', post, h, h', by simp⟩

lemma Ready.append_right (h : Ready es) (fs : List Event) : Ready (es ++ fs) := by
  obtain ⟨pre, reply, reply', post, h, h', rfl⟩ := h
  exact ⟨pre, reply, reply', post ++ fs, h, h', by simp⟩

lemma not_ready_of_working (h : ∀ e ∈ es, e.initializes = false) : ¬ Ready es := by
  rintro ⟨pre, reply, reply', post, -, -, rfl⟩
  cases h (.command .initOutput reply) (by simp)

/-- An initialization does not begin in one history and end in the next. -/
lemma ready_append_iff (h : ∀ reply rest, fs ≠ .command .initScope reply :: rest) :
    Ready (es ++ fs) ↔ Ready es ∨ Ready fs := by
  refine ⟨?_, fun hready => hready.elim (·.append_right fs) (·.append_left es)⟩
  rintro ⟨pre, reply, reply', post, ho, ho', hes⟩
  rcases append_eq_cut hes with ⟨post', rfl, hpost⟩ | ⟨pre', -, rfl⟩
  · cases post' with
    | nil => exact absurd hpost.symm (h reply' post)
    | cons e post' =>
      obtain ⟨rfl, -⟩ := List.cons.inj hpost
      exact .inl ⟨pre, reply, reply', post', ho, ho', rfl⟩
  · exact .inr ⟨pre', reply, reply', post, ho, ho', rfl⟩

end History

namespace Initializes

lemma ready (h : Initializes es (.ok ())) : Ready es := by
  cases h with
  | succeeded h h' => exact ⟨[], _, _, [], h, h', rfl⟩

lemma not_ready {e : Failure Float} (h : Initializes es (.error e)) : ¬ Ready es := by
  rintro ⟨pre, reply, reply', post, -, ho', hes⟩
  cases h with
  | generatorFailed => simp [List.cons_eq_append_iff] at hes
  | scopeFailed _ hfailed =>
    cases pre with
    | nil =>
      cases hes
      cases hfailed.symm.trans ho'
    | cons x pre => simp [List.cons_eq_append_iff] at hes

lemma starts {r : Except (Failure Float) Unit} (h : Initializes es r) :
    ∃ reply rest, es = .command .initOutput reply :: rest := by
  cases h <;> exact ⟨_, _, rfl⟩

lemma initializing {r : Except (Failure Float) Unit} (h : Initializes es r) :
    ∀ e ∈ es, e.initializes = true := by
  cases h <;> simp [Event.initializes, Event.call, Call.initializes]

end Initializes

namespace Begins

variable {ready : Prop} {r : Except (Failure Float) (ResultTable Float)} {initialized : Bool}

/-- A run starts with an initialization exactly if the devices are not ready. -/
lemma starts_iff (h : Begins ready es r initialized) :
    (∃ reply rest, es = .command .initOutput reply :: rest) ↔ ¬ ready := by
  cases h with
  | ready h working =>
    refine iff_of_false ?_ (not_not_intro h)
    rintro ⟨reply, rest, rfl⟩
    cases working (.command .initOutput reply) (by simp)
  | readied h init =>
    obtain ⟨reply, rest, rfl⟩ := init.starts
    exact iff_of_true ⟨reply, _, rfl⟩ h
  | notReady h init => exact iff_of_true init.starts h

/-- The controller is right about the devices after the run if it was before. -/
lemma ready_iff {past : List Event} (h : Begins (Ready past) es r initialized) :
    initialized = true ↔ Ready (past ++ es) := by
  cases h with
  | ready h => exact iff_of_true rfl (h.append_right es)
  | readied h init => exact iff_of_true rfl ((init.ready.append_right _).append_left past)
  | notReady h init =>
    refine iff_of_false (by simp) ?_
    obtain ⟨reply, rest, hes⟩ := init.starts
    rw [ready_append_iff (by simp [hes])]
    exact not_or_intro h init.not_ready

/-- No work is done with devices that are not ready. -/
lemma ready_of_working {past pre post : List Event} {e : Event}
    (h : Begins (Ready past) es r initialized) (hes : es = pre ++ e :: post)
    (he : e.initializes = false) : Ready (past ++ pre) := by
  have hinit {fs post : List Event} {r : Except (Failure Float) Unit} (init : Initializes fs r)
      (hfs : fs = pre ++ e :: post) : False := by
    rw [init.initializing e (by simp [hfs])] at he
    cases he
  cases h with
  | ready h => exact h.append_right pre
  | readied h init =>
    rcases append_eq_cut hes with ⟨post', hfs, -⟩ | ⟨pre', rfl, -⟩
    · exact (hinit init hfs).elim
    · exact (init.ready.append_right pre').append_left past
  | notReady h init => exact (hinit init hes).elim

end Begins

end

namespace Session

variable {σ : Type}

/-- What a session keeps for the controller beside the token: the flag, and the questions. -/
def own (s : Session σ) : Bool × List String := (s.initialized, s.prompts)

lemma fixes_lift {β : Type} (x : Except (Failure Float) β) : Fixes (own (σ := σ)) (lift x) := by
  cases x
  · exact .throw _
  · exact .pure _

lemma fixes_warn (w : Warning Float) : Fixes (own (σ := σ)) (warn w) := fun _ => rfl

lemma fixes_warnings (ws : List (Warning Float)) :
    Fixes (own (σ := σ)) (ws.forM warn) := by
  induction ws with
  | nil => exact .pure _
  | cons w ws ih => exact .bind (fixes_warn w) fun _ => ih

lemma fixes_checkCancelled : Fixes (own (σ := σ)) checkCancelled := by
  intro s
  rw [Rig.run_checkCancelled]

end Session

namespace Rig

open Session

variable {σ : Type} (rig : Rig σ)

lemma fixes_command (c : Command) : Fixes own (rig.command c) := by
  intro s
  rw [rig.run_command]
  rfl

lemma fixes_pollOnce : Fixes own rig.pollOnce := by
  intro s
  rw [rig.run_pollOnce]
  rfl

lemma fixes_giveUp (frequency : Float) (made : ℕ) :
    Fixes (own (σ := σ)) (giveUp frequency made) :=
  .bind (fixes_warn _) fun _ => .throw _

lemma fixes_attempt (policy : RetryPolicy) (frequency : Float) (left made elapsed : ℕ) :
    Fixes own (rig.attempt policy frequency left made elapsed) := by
  induction left generalizing made elapsed with
  | zero =>
    unfold attempt
    refine .bind fixes_checkCancelled fun _ => .bind rig.fixes_pollOnce fun x => ?_
    rcases x with ⟨_ | t, took⟩
    · exact fixes_giveUp frequency _
    · exact .pure t
  | succ left ih =>
    unfold attempt
    refine .bind fixes_checkCancelled fun _ => .bind rig.fixes_pollOnce fun x => ?_
    rcases x with ⟨_ | t, took⟩
    · dsimp only
      split
      · exact fixes_giveUp frequency _
      · exact ih _ _
    · exact .pure t

lemma fixes_acquirePass (sweep : ValidatedSweep Float) (frequency : Float) (pass : ℕ) :
    Fixes own (rig.acquirePass sweep frequency pass) := by
  refine .tryCatch ((rig.fixes_attempt _ frequency _ 0 0).map some) fun e => ?_
  split
  · exact .bind (fixes_warn _) fun _ => .pure _
  · exact .throw _

lemma fixes_passes (sweep : ValidatedSweep Float) (reading : Reading) (left pass : ℕ)
    (points : List (ImpedancePoint Float)) :
    Fixes own (rig.passes sweep reading left pass points) := by
  induction left generalizing pass points with
  | zero => exact .pure _
  | succ left ih =>
    unfold passes
    refine .bind fixes_checkCancelled fun _ => .bind (rig.fixes_acquirePass sweep _ pass) fun t => ?_
    cases t with
    | none => exact ih _ _
    | some t => exact .bind (fixes_lift _) fun p => ih _ _

lemma fixes_drive (sweep : ValidatedSweep Float) (frequency : Float) :
    Fixes own (rig.drive sweep frequency) :=
  .bind (fixes_warnings _) fun _ => .bind (rig.fixes_command _) fun _ =>
    .bind (rig.fixes_command _) fun _ => rig.fixes_command _

lemma fixes_measurePoint (sweep : ValidatedSweep Float) (frequency : Float) :
    Fixes own (rig.measurePoint sweep frequency) := by
  refine .bind (rig.fixes_drive sweep frequency) fun _ => .bind (fixes_lift _) fun plan =>
    .bind (rig.fixes_command _) fun _ => .bind (rig.fixes_passes sweep _ _ 0 []) fun points => ?_
  dsimp only
  split
  · exact .bind (fixes_warn _) fun _ => .pure _
  · exact .pure _

lemma fixes_visit (sweep : ValidatedSweep Float) (frequencies : List Float)
    (visits : List (Float × Option (FrequencyResult Float))) :
    Fixes own (rig.visit sweep frequencies visits) := by
  induction frequencies generalizing visits with
  | nil => exact .pure _
  | cons f fs ih =>
    unfold visit
    exact .bind fixes_checkCancelled fun _ => .bind (rig.fixes_measurePoint sweep f) fun v => ih _

/-- The flag is set when both devices have been initialized, and only then. -/
lemma init_own (s : Session σ) : (rig.init.run.run s).2.own =
    (s.initialized || (rig.init.run.run s).1.isOk, s.prompts) := by
  have hcommands : Fixes own (do
      ExceptT.adapt (initFailure "generator") (rig.command .initOutput)
      ExceptT.adapt (initFailure "oscilloscope") (rig.command .initScope)) :=
    .bind (.adapt (rig.fixes_command _) _) fun _ => .adapt (rig.fixes_command _) _
  have hfixed := hcommands s
  have hinit : rig.init = (do
      ExceptT.adapt (initFailure "generator") (rig.command .initOutput)
      ExceptT.adapt (initFailure "oscilloscope") (rig.command .initScope)) >>= fun _ =>
        modify fun s => { s with initialized := true } := by
    rw [bind_assoc]
    rfl
  rw [hinit, run_bind]
  split <;> rename_i hrun <;> rw [hrun] at hfixed <;> obtain ⟨hflag, hprompts⟩ := Prod.mk.inj hfixed
  · exact Prod.ext (Bool.or_true _).symm hprompts
  · exact Prod.ext (hflag.trans (Bool.or_false _).symm) hprompts

/-- A run after these events, whose calls and replies are `es`. -/
structure RunsAfter (past : List Event) (s : Session σ) (m : Run σ (ResultTable Float))
    (es : List Event) : Prop where
  evolves : rig.Evolves s es (m.run.run s).2
  /-- It starts by initializing the devices exactly if that has never succeeded. -/
  starts : (∃ reply rest, es = .command .initOutput reply :: rest) ↔ ¬ Ready past
  begins : Begins (Ready past) es (m.run.run s).1 (m.run.run s).2.initialized

lemma run_init (s : Session σ) : ∃ es, rig.Evolves s es (rig.init.run.run s).2 ∧
    Initializes es (rig.init.run.run s).1 ∧
    (rig.init.run.run s).2.initialized = (s.initialized || (rig.init.run.run s).1.isOk) ∧
    (rig.init.run.run s).2.prompts = s.prompts := by
  obtain ⟨es, hes, h⟩ := rig.gives_init s
  obtain ⟨hflag, hprompts⟩ := Prod.mk.inj (rig.init_own s)
  exact ⟨es, hes, h.initializes, hflag, hprompts⟩

/-- What a sweep does by what has been done before, if the controller is right about that. -/
lemma runSweep_runsAfter (sweep : ValidatedSweep Float) {past : List Event} {s : Session σ}
    (hs : s.initialized = true ↔ Ready past) :
    (∃ es, rig.RunsAfter past s (rig.runSweep sweep) es) ∧
      ((rig.runSweep sweep).run.run s).2.prompts = s.prompts := by
  have htable : Fixes own (do
      return ResultTable.ofVisits (← rig.visit sweep sweep.frequencies [])) :=
    .bind (rig.fixes_visit sweep _ []) fun _ => .pure _
  suffices h : ∃ es, rig.Evolves s es ((rig.runSweep sweep).run.run s).2 ∧
      Begins (Ready past) es ((rig.runSweep sweep).run.run s).1
        ((rig.runSweep sweep).run.run s).2.initialized ∧
      ((rig.runSweep sweep).run.run s).2.prompts = s.prompts by
    obtain ⟨es, hes, hbegins, hprompts⟩ := h
    exact ⟨⟨es, hes, hbegins.starts_iff, hbegins⟩, hprompts⟩
  rw [rig.run_runSweep]
  cases hi : s.initialized with
  | true =>
    obtain ⟨es, hes, r, h, hr⟩ := rig.ensures_table sweep s
    obtain ⟨hflag, hprompts⟩ := Prod.mk.inj (htable s)
    refine ⟨es, hes, ?_, hprompts⟩
    rw [if_pos rfl, hflag, hi]
    exact .ready (hs.1 hi) h.working
  | false =>
    have hready : ¬ Ready past := by simp [← hs, hi]
    obtain ⟨es, hes, hinit, hflag, hprompts⟩ := rig.run_init s
    rw [if_neg Bool.false_ne_true, run_bind]
    rcases hrun : rig.init.run.run s with ⟨e | ⟨⟩, s₁⟩ <;> rw [hrun] at hes hinit hflag hprompts
    · refine ⟨es, hes, ?_, hprompts⟩
      rw [hflag, hi]
      exact .notReady hready hinit
    · obtain ⟨fs, hfs, r, h, hr⟩ := rig.ensures_table sweep s₁
      obtain ⟨hflag', hprompts'⟩ := Prod.mk.inj (htable s₁)
      refine ⟨es ++ fs, hes.trans hfs, ?_, hprompts'.trans hprompts⟩
      rw [hflag', hflag, Except.isOk, Except.toBool, Bool.or_true]
      exact .readied hready hinit h.working

/-- Two controllers that are alike in the devices, the flag and the token run alike. -/
lemma runSweep_congr (sweep : ValidatedSweep Float) {s t : Session σ}
    (hdevices : t.devices = s.devices) (hflag : t.initialized = s.initialized)
    (htoken : t.cancelled = s.cancelled) :
    ∃ es, rig.Evolves s es ((rig.runSweep sweep).run.run s).2 ∧
      rig.Evolves t es ((rig.runSweep sweep).run.run t).2 ∧
      ((rig.runSweep sweep).run.run t).1 = ((rig.runSweep sweep).run.run s).1 := by
  obtain ⟨es, hes, h⟩ := rig.runSweep_sweeps sweep s
  obtain ⟨hes', hr⟩ := rig.run_eq_of_plays sweep t (hdevices ▸ hes.plays) (hflag ▸ htoken ▸ h)
  exact ⟨es, hes, hes', hr⟩

end Rig

/-- What a controller may be asked to do. -/
inductive Task where
  | init
  | sweep (sweep : ValidatedSweep Float)
  | calibration (agrees : String → Bool) (sweep : ValidatedSweep Float)

namespace Rig

open Session

variable {σ : Type}

/-- The session that a task leaves, however it ends. -/
def afterTask (rig : Rig σ) (s : Session σ) : Task → Session σ
  | .init => (rig.init.run.run s).2
  | .sweep sweep => ((rig.runSweep sweep).run.run s).2
  | .calibration agrees sweep => ((rig.runCalibration agrees sweep).run.run s).2

/-- The life of a controller up to now, with all calls that it has made. Between two tasks the token
may be set and anything may happen to the devices. -/
inductive Lives (rig : Rig σ) : List Event → Session σ → Prop
  | new (d : σ) : Lives rig [] (.start d)
  | task {past es : List Event} {s : Session σ} (h : Lives rig past s) (t : Task)
    (hes : rig.Evolves s es (rig.afterTask s t)) : Lives rig (past ++ es) (rig.afterTask s t)
  | cancel {past : List Event} {s : Session σ} (h : Lives rig past s) :
    Lives rig past { s with cancelled := true }
  | devices {past : List Event} {s : Session σ} (h : Lives rig past s) (d : σ) :
    Lives rig past { s with devices := d }

/-- A controller that is right about its past. -/
structure Knows (past : List Event) (s : Session σ) : Prop where
  /-- The flag says whether both devices have been initialized. -/
  flag : s.initialized = true ↔ Ready past
  /-- Until then there was no other call. -/
  work : ∀ pre e post, past = pre ++ e :: post → e.initializes = false → Ready pre

/-- What holds of a controller after these events, and of whatever it is asked to do next. -/
structure Manages (rig : Rig σ) (past : List Event) (s : Session σ) : Prop
    extends Knows past s where
  /-- An initialization that fails leaves the flag as it was. -/
  init : ∃ es, rig.Evolves s es (rig.init.run.run s).2 ∧ Initializes es (rig.init.run.run s).1 ∧
    (rig.init.run.run s).2.initialized = (s.initialized || (rig.init.run.run s).1.isOk) ∧
    (rig.init.run.run s).2.prompts = s.prompts
  sweep : ∀ sweep, (∃ es, rig.RunsAfter past s (rig.runSweep sweep) es) ∧
    ((rig.runSweep sweep).run.run s).2.prompts = s.prompts
  /-- Beside the devices and the token, nothing but the flag is left of the past. -/
  fresh : ∀ sweep, ∃ es, rig.Evolves s es ((rig.runSweep sweep).run.run s).2 ∧
    let fresh : Session σ :=
      { Session.start s.devices with initialized := s.initialized, cancelled := s.cancelled }
    rig.Evolves fresh es ((rig.runSweep sweep).run.run fresh).2 ∧
      ((rig.runSweep sweep).run.run fresh).1 = ((rig.runSweep sweep).run.run s).1
  /-- The operator is asked once and before any call. -/
  calibration : ∀ agrees sweep,
    let asked := { s with prompts := calibrationPrompt :: s.prompts }
    ((rig.runCalibration agrees sweep).run.run s).2.prompts = asked.prompts ∧
    (agrees calibrationPrompt = false →
      (rig.runCalibration agrees sweep).run.run s = (.error .calibrationDeclined, asked)) ∧
    (agrees calibrationPrompt = true →
      (rig.runCalibration agrees sweep).run.run s = (rig.runSweep sweep).run.run asked ∧
      ∃ es, rig.RunsAfter past s (rig.runCalibration agrees sweep) es)

namespace Knows

variable {rig : Rig σ} {past es : List Event} {s : Session σ}

lemma init (h : Knows past s) (hes : rig.Evolves s es (rig.init.run.run s).2) :
    Knows (past ++ es) (rig.init.run.run s).2 := by
  obtain ⟨es', hes', hinit, hflag, -⟩ := rig.run_init s
  obtain rfl := hes.unique hes'
  obtain ⟨reply, rest, hstart⟩ := hinit.starts
  refine ⟨?flag, ?work⟩
  case flag =>
    rw [hflag, Bool.or_eq_true, h.flag, ready_append_iff (by simp [hstart])]
    refine or_congr_right ?_
    cases hr : (rig.init.run.run s).1 with
    | error e => exact iff_of_false (by simp [Except.isOk, Except.toBool]) (hr ▸ hinit).not_ready
    | ok => exact iff_of_true rfl (hr ▸ hinit).ready
  case work =>
    intro pre e post hcut he
    rcases append_eq_cut hcut with ⟨post', rfl, -⟩ | ⟨pre', -, rfl⟩
    · exact h.work pre e post' rfl he
    · rw [hinit.initializing e (by simp)] at he
      cases he

lemma run {m : Run σ (ResultTable Float)} (h : Knows past s) (hm : rig.RunsAfter past s m es) :
    Knows (past ++ es) (m.run.run s).2 := by
  refine ⟨hm.begins.ready_iff, ?_⟩
  intro pre e post hcut he
  rcases append_eq_cut hcut with ⟨post', rfl, -⟩ | ⟨pre', rfl, hes⟩
  · exact h.work pre e post' rfl he
  · exact hm.begins.ready_of_working hes he

/-- The calibration of a controller is a sweep after the question, or nothing. -/
lemma calibration (rig : Rig σ) (h : Knows past s) (agrees : String → Bool)
    (sweep : ValidatedSweep Float) :
    let asked := { s with prompts := calibrationPrompt :: s.prompts }
    ((rig.runCalibration agrees sweep).run.run s).2.prompts = asked.prompts ∧
    (agrees calibrationPrompt = false →
      (rig.runCalibration agrees sweep).run.run s = (.error .calibrationDeclined, asked)) ∧
    (agrees calibrationPrompt = true →
      (rig.runCalibration agrees sweep).run.run s = (rig.runSweep sweep).run.run asked ∧
      ∃ es, rig.RunsAfter past s (rig.runCalibration agrees sweep) es) := by
  intro asked
  have hrun := rig.run_runCalibration agrees sweep s
  obtain ⟨⟨es, hes⟩, hprompts⟩ := rig.runSweep_runsAfter sweep (s := asked) h.flag
  cases hagrees : agrees calibrationPrompt with
  | false =>
    rw [hagrees, if_neg Bool.false_ne_true] at hrun
    exact ⟨by rw [hrun], fun _ => hrun, nofun⟩
  | true =>
    rw [hagrees, if_pos rfl] at hrun
    refine ⟨by rw [hrun]; exact hprompts, nofun, fun _ => ⟨hrun, es, ?_, hes.starts, ?_⟩⟩
    · rw [hrun]
      exact ⟨hes.evolves.plays, hes.evolves.calls, hes.evolves.cancelled⟩
    · rw [hrun]
      exact hes.begins

lemma task (h : Knows past s) (t : Task) (hes : rig.Evolves s es (rig.afterTask s t)) :
    Knows (past ++ es) (rig.afterTask s t) := by
  cases t with
  | init => exact h.init hes
  | sweep sweep =>
    obtain ⟨⟨es', hrun⟩, -⟩ := rig.runSweep_runsAfter sweep h.flag
    obtain rfl := hes.unique hrun.evolves
    exact h.run hrun
  | calibration agrees sweep =>
    obtain ⟨-, hdeclined, hagreed⟩ := h.calibration rig agrees sweep
    cases hagrees : agrees calibrationPrompt with
    | true =>
      obtain ⟨-, es', hrun⟩ := hagreed hagrees
      obtain rfl := hes.unique hrun.evolves
      exact h.run hrun
    | false =>
      have hasked : rig.afterTask s (.calibration agrees sweep) =
          { s with prompts := calibrationPrompt :: s.prompts } := by
        rw [afterTask, hdeclined hagrees]
      have hquiet : rig.Evolves s [] { s with prompts := calibrationPrompt :: s.prompts } :=
        ⟨rfl, rfl, by simp⟩
      rw [hasked] at hes ⊢
      obtain rfl := hes.unique hquiet
      rw [List.append_nil]
      exact ⟨h.flag, h.work⟩

end Knows

lemma Lives.knows {rig : Rig σ} {past : List Event} {s : Session σ} (h : rig.Lives past s) :
    Knows past s := by
  induction h with
  | new d =>
    refine ⟨iff_of_false Bool.false_ne_true (not_ready_of_working (by simp)), ?_⟩
    simp
  | task _ t hes ih => exact ih.task t hes
  | cancel _ ih | devices _ _ ih => exact ⟨ih.flag, ih.work⟩

/-- **The life of a controller.** Whatever it has been asked to do so far and however that ended, it
is right about whether its devices are initialized, has made no other call before they were, and
runs like a new controller that is initialized if this one is. -/
theorem lives_manages (rig : Rig σ) {past : List Event} {s : Session σ} (h : rig.Lives past s) :
    rig.Manages past s where
  flag := h.knows.flag
  work := h.knows.work
  init := rig.run_init s
  sweep sweep := rig.runSweep_runsAfter sweep h.knows.flag
  fresh sweep := rig.runSweep_congr sweep rfl rfl rfl
  calibration agrees sweep := h.knows.calibration rig agrees sweep

/-- A controller whose oscilloscope was off at the first sweep and on at the second. -/
theorem lives_manages_repaired :
    let off : Script := ⟨[], fun
      | .initScope => some (.device "off")
      | _ => none⟩
    let failed := Script.rig.afterTask (.start off) (.sweep .twoPoints)
    let s := Script.rig.afterTask { failed with devices := .silent } (.sweep .twoPoints)
    failed.initialized = false ∧ failed.calls.length = 2 ∧ s.initialized = true ∧
      ∃ past, Script.rig.Lives past s ∧ Ready past ∧ Script.rig.Manages past s := by
  intro off failed s
  have hfailed : failed.initialized = false ∧ failed.calls.length = 2 := by decide +kernel
  have hs : s.initialized = true := by decide +kernel
  obtain ⟨es, hes, -⟩ := Script.rig.runSweep_sweeps .twoPoints (.start off)
  obtain ⟨fs, hfs, -⟩ :=
    Script.rig.runSweep_sweeps .twoPoints { failed with devices := .silent }
  have hlives : Script.rig.Lives ([] ++ es ++ fs) s :=
    .task (.devices (.task (.new off) (.sweep .twoPoints) hes) .silent) (.sweep .twoPoints) hfs
  have hmanages := lives_manages Script.rig hlives
  exact ⟨hfailed.1, hfailed.2, hs, _, hlives, hmanages.flag.1 hs, hmanages⟩

end Rig

end ImpedanceBench
