import ImpedanceBench.Proofs.Computation
import ImpedanceBench.Proofs.Rig.History

/-!
How a session evolves over a history, and what a computation ensures of the histories that it
makes. A property of a computation speaks of the events alone, so it holds for all devices; the
rules follow the computation down to its calls.
-/

namespace ImpedanceBench.Rig

variable {σ α β : Type}

lemma run_checkCancelled (s : Session σ) : Session.checkCancelled.run.run s =
    (if s.cancelled then .error .cancelled else .ok (), s) := by
  rcases s with ⟨d, i, c, calls, ws, ps⟩
  cases c <;> rfl

lemma run_command (rig : Rig σ) (c : Command) (s : Session σ) : (rig.command c).run.run s =
    ((rig.perform c s.devices).1.outcome, s.afterCall (.command c) (rig.perform c s.devices).2
      (rig.perform c s.devices).1.cancels) := by
  unfold Rig.command
  rw [run_bind]
  change (Session.lift (rig.perform c s.devices).1.outcome).run.run _ = _
  cases (rig.perform c s.devices).1.outcome <;> rfl

lemma run_pollOnce (rig : Rig σ) (s : Session σ) : rig.pollOnce.run.run s =
    ((rig.poll s.devices).1.outcome.map (·, (rig.poll s.devices).1.elapsed),
      s.afterCall .poll (rig.poll s.devices).2 (rig.poll s.devices).1.cancels) := by
  unfold Rig.pollOnce
  rw [run_bind]
  change (Session.lift (rig.poll s.devices).1.outcome >>= fun x =>
    (pure (x, (rig.poll s.devices).1.elapsed) : Run σ _)).run.run _ = _
  rw [run_bind]
  cases (rig.poll s.devices).1.outcome <;> rfl

/-- The devices answer the calls as the events say, and go from one state to the other. -/
def Plays (rig : Rig σ) : σ → List Event → σ → Prop
  | d, [], d' => d = d'
  | d, .command c reply :: es, d' => ∃ d₁, rig.perform c d = (reply, d₁) ∧ rig.Plays d₁ es d'
  | d, .poll reply :: es, d' => ∃ d₁, rig.poll d = (reply, d₁) ∧ rig.Plays d₁ es d'

lemma Plays.append {rig : Rig σ} {d d₁ d₂ : σ} {es fs : List Event} (h : rig.Plays d es d₁)
    (h' : rig.Plays d₁ fs d₂) : rig.Plays d (es ++ fs) d₂ := by
  induction es generalizing d with
  | nil => cases h; exact h'
  | cons e es ih =>
    cases e <;> exact ⟨h.choose, h.choose_spec.1, ih h.choose_spec.2⟩

lemma Plays.of_append {rig : Rig σ} {d d₂ : σ} {es fs : List Event}
    (h : rig.Plays d (es ++ fs) d₂) : ∃ d₁, rig.Plays d es d₁ ∧ rig.Plays d₁ fs d₂ := by
  induction es generalizing d with
  | nil => exact ⟨d, rfl, h⟩
  | cons e es ih =>
    cases e <;>
    · obtain ⟨d', hreply, hrest⟩ := h
      obtain ⟨d₁, hes, hfs⟩ := ih hrest
      exact ⟨d₁, ⟨d', hreply, hes⟩, hfs⟩

/-- What a call does to the devices, taken over a history. -/
lemma Plays.induction {rig : Rig σ} {P : σ → List Event → σ → Prop} (nil : ∀ d, P d [] d)
    (command : ∀ d c es d', P (rig.perform c d).2 es d' →
      P d (.command c (rig.perform c d).1 :: es) d')
    (poll : ∀ d es d', P (rig.poll d).2 es d' → P d (.poll (rig.poll d).1 :: es) d')
    {d d' : σ} {es : List Event} (h : rig.Plays d es d') : P d es d' := by
  induction es generalizing d with
  | nil => exact h ▸ nil d
  | cons e es ih =>
    cases e with
    | command c reply =>
      obtain ⟨d₁, hstep, hrest⟩ := h
      have hcommand := command d c es d'
      rw [hstep] at hcommand
      exact hcommand (ih hrest)
    | poll reply =>
      obtain ⟨d₁, hstep, hrest⟩ := h
      have hpoll := poll d es d'
      rw [hstep] at hpoll
      exact hpoll (ih hrest)

lemma Plays.induction_commands {rig : Rig σ} {P : σ → List Event → σ → Prop} (nil : ∀ d, P d [] d)
    (command : ∀ d c es d', P (rig.perform c d).2 es d' →
      P d (.command c (rig.perform c d).1 :: es) d')
    {d d' : σ} {es : List Event} (h : rig.Plays d es d')
    (commands : ∀ e ∈ es, ∃ c reply, e = .command c reply) : P d es d' := by
  refine h.induction (P := fun d es d' => (∀ e ∈ es, ∃ c reply, e = Event.command c reply) →
    P d es d') (fun d _ => nil d) (fun d c es d' ih hes => ?_) (fun d es d' _ hes => ?_) commands
  · exact command d c es d' (ih fun e he => hes e (by simp [he]))
  · obtain ⟨_, _, hpoll⟩ := hes _ List.mem_cons_self
    cases hpoll

lemma Plays.induction_polls {rig : Rig σ} {P : σ → List Event → σ → Prop} (nil : ∀ d, P d [] d)
    (poll : ∀ d es d', P (rig.poll d).2 es d' → P d (.poll (rig.poll d).1 :: es) d')
    {d d' : σ} {es : List Event} (h : rig.Plays d es d') (polls : ∀ e ∈ es, e.call = .poll) :
    P d es d' := by
  refine h.induction (P := fun d es d' => (∀ e ∈ es, e.call = Call.poll) → P d es d')
    (fun d _ => nil d) (fun d c es d' _ hes => ?_) (fun d es d' ih hes => ?_) polls
  · cases hes _ List.mem_cons_self
  · exact poll d es d' (ih fun e he => hes e (by simp [he]))

/-- The devices leave no choice: the calls determine the replies. -/
lemma Plays.unique {rig : Rig σ} {d d₁ d₂ : σ} {es fs : List Event} (h : rig.Plays d es d₁)
    (h' : rig.Plays d fs d₂) (hcalls : es.map Event.call = fs.map Event.call) : es = fs := by
  induction es generalizing d fs with
  | nil => simpa using hcalls.symm
  | cons e es ih =>
    obtain ⟨e', fs, rfl, he, htail⟩ := List.map_eq_cons_iff.1 hcalls.symm
    cases e <;> cases e' <;> cases he <;>
    · obtain ⟨_, hreply, hrest⟩ := h
      obtain ⟨_, hreply', hrest'⟩ := h'
      cases hreply.symm.trans hreply'
      rw [ih hrest hrest' htail.symm]

/-- Between the two sessions there were these calls and no others. -/
structure Evolves (rig : Rig σ) (s : Session σ) (es : List Event) (s' : Session σ) : Prop where
  plays : rig.Plays s.devices es s'.devices
  calls : s'.calls = (es.map Event.call).reverse ++ s.calls
  cancelled : s'.cancelled = (s.cancelled || History.cancels es)

namespace Evolves

variable {rig : Rig σ} {s s₁ s₂ : Session σ} {es fs : List Event}

lemma refl (rig : Rig σ) (s : Session σ) : rig.Evolves s [] s := ⟨rfl, rfl, by simp⟩

lemma trans (h : rig.Evolves s es s₁) (h' : rig.Evolves s₁ fs s₂) :
    rig.Evolves s (es ++ fs) s₂ where
  plays := h.plays.append h'.plays
  calls := by simp [h.calls, h'.calls]
  cancelled := by simp [h.cancelled, h'.cancelled, Bool.or_assoc]

lemma length_calls (h : rig.Evolves s es s₁) : s₁.calls.length = es.length + s.calls.length := by
  simp [h.calls]

/-- There is one history at most between two sessions. -/
lemma unique (h : rig.Evolves s es s₁) (h' : rig.Evolves s fs s₁) : es = fs := by
  refine h.plays.unique h'.plays ?_
  have hcalls := h.calls.symm.trans h'.calls
  simpa using List.append_cancel_right hcalls

end Evolves

/-- What a computation makes of a session that is cancelled or not: the events and the outcome. -/
abbrev Conduct (β : Type) := Bool → List Event → Except (Failure Float) β → Prop

/-- Whatever the session, the computation conducts itself so. -/
def Ensures (rig : Rig σ) (m : Run σ β) (P : Conduct β) : Prop :=
  ∀ s, ∃ es, rig.Evolves s es (m.run.run s).2 ∧ P s.cancelled es (m.run.run s).1

namespace Ensures

variable {rig : Rig σ}

lemma mono {m : Run σ β} {P Q : Conduct β} (h : rig.Ensures m P)
    (hPQ : ∀ c es r, P c es r → Q c es r) : rig.Ensures m Q := fun s =>
  let ⟨es, hes, hP⟩ := h s
  ⟨es, hes, hPQ _ _ _ hP⟩

/-- A failure of the first part is the end; otherwise the second part goes on from where the first
one has come. -/
lemma bind {m : Run σ α} {f : α → Run σ β} {P : Conduct α} {R : Conduct β} (hm : rig.Ensures m P)
    (failed : ∀ c es e, P c es (.error e) → R c es (.error e))
    (passed : ∀ a, rig.Ensures (f a) fun c' fs r =>
      ∀ c es, P c es (.ok a) → c' = (c || History.cancels es) → R c (es ++ fs) r) :
    rig.Ensures (m >>= f) R := by
  intro s
  obtain ⟨es, hes, hP⟩ := hm s
  rw [run_bind]
  rcases hr : m.run.run s with ⟨e | a, s₁⟩ <;> rw [hr] at hes hP
  · exact ⟨es, hes, failed _ _ _ hP⟩
  · obtain ⟨fs, hfs, hR⟩ := passed a s₁
    exact ⟨es ++ fs, hes.trans hfs, hR _ _ hP hes.cancelled⟩

/-- A computation that makes no calls and cancels nothing. -/
lemma of_quiet {m : Run σ β} (h : ∀ s, (m.run.run s).2.devices = s.devices ∧
    (m.run.run s).2.calls = s.calls ∧ (m.run.run s).2.cancelled = s.cancelled)
    {P : Conduct β} (hP : ∀ s, P s.cancelled [] (m.run.run s).1) : rig.Ensures m P := fun s =>
  ⟨[], ⟨(h s).1.symm, by simp [(h s).2.1], by simp [(h s).2.2]⟩, hP s⟩

lemma pure (b : β) : rig.Ensures (pure b) fun _ es r => es = [] ∧ r = .ok b :=
  of_quiet (fun _ => ⟨rfl, rfl, rfl⟩) fun _ => ⟨rfl, rfl⟩

lemma throw (e : Failure Float) :
    rig.Ensures (throw e : Run σ β) fun _ es r => es = [] ∧ r = .error e :=
  of_quiet (fun _ => ⟨rfl, rfl, rfl⟩) fun _ => ⟨rfl, rfl⟩

lemma lift (x : Except (Failure Float) β) :
    rig.Ensures (Session.lift x) fun _ es r => es = [] ∧ r = x := by
  cases x
  · exact throw _
  · exact pure _

lemma warn (w : Warning Float) : rig.Ensures (Session.warn w) fun _ es r => es = [] ∧ r = .ok () :=
  of_quiet (fun _ => ⟨rfl, rfl, rfl⟩) fun _ => ⟨rfl, rfl⟩

/-- What comes after a computation that makes no calls and cannot fail. -/
lemma after {m : Run σ α} {f : α → Run σ β} {P : Conduct β}
    (hm : ∃ a, rig.Ensures m fun _ es r => es = [] ∧ r = .ok a)
    (hf : ∀ a, rig.Ensures (f a) P) : rig.Ensures (m >>= f) P := by
  obtain ⟨a, hm⟩ := hm
  refine hm.bind (fun c es e h => by simp at h) fun b => (hf b).mono ?_
  rintro c' fs r hP c es ⟨rfl, -⟩ rfl
  simpa using hP

lemma warnings (ws : List (Warning Float)) :
    rig.Ensures (ws.forM Session.warn) fun _ es r => es = [] ∧ r = .ok () := by
  induction ws with
  | nil => exact pure ()
  | cons w ws ih => exact after ⟨(), warn w⟩ fun _ => ih

/-- What comes after a look at the token. -/
lemma guarded {m : Run σ β} {P : Conduct β} (cancelled : P true [] (.error .cancelled))
    (hm : rig.Ensures m fun c es r => c = false → P false es r) :
    rig.Ensures (Session.checkCancelled >>= fun _ => m) P := by
  intro s
  rw [run_bind, run_checkCancelled]
  cases hc : s.cancelled
  · obtain ⟨es, hes, hP⟩ := hm s
    exact ⟨es, hes, hP hc⟩
  · exact ⟨[], .refl rig s, cancelled⟩

lemma command (c : Command) : rig.Ensures (rig.command c) fun _ es r =>
    ∃ reply, es = [.command c reply] ∧ r = reply.outcome := by
  intro s
  rw [run_command]
  exact ⟨[.command c (rig.perform c s.devices).1],
    ⟨⟨_, rfl, rfl⟩, rfl, by simp [Session.afterCall, Event.cancels]⟩, _, rfl, rfl⟩

/-- What comes after a poll. -/
lemma polled {f : Option (Trace Float) × Nat → Run σ β} {P : Conduct β}
    (failed : ∀ c reply e, reply.outcome = .error e → P c [.poll reply] (.error e))
    (passed : ∀ x took, rig.Ensures (f (x, took)) fun c' es r => ∀ c reply,
      reply.outcome = .ok x → reply.elapsed = took → c' = (c || reply.cancels) →
        P c (.poll reply :: es) r) :
    rig.Ensures (rig.pollOnce >>= f) P := by
  intro s
  generalize hreply : (rig.poll s.devices).1 = reply
  have hev : rig.Evolves s [.poll reply]
      (s.afterCall .poll (rig.poll s.devices).2 reply.cancels) :=
    ⟨⟨_, Prod.ext hreply rfl, rfl⟩, rfl, by simp [Session.afterCall, Event.cancels]⟩
  rw [run_bind, run_pollOnce, hreply]
  cases ho : reply.outcome with
  | error e => exact ⟨_, hev, failed _ _ _ ho⟩
  | ok x =>
    obtain ⟨es, hes, hP⟩ :=
      passed x reply.elapsed (s.afterCall .poll (rig.poll s.devices).2 reply.cancels)
    exact ⟨_, hev.trans hes, hP _ _ ho rfl rfl⟩

lemma adapt {m : Run σ β} {P : Conduct β} (h : rig.Ensures m P)
    (f : Failure Float → Failure Float) :
    rig.Ensures (ExceptT.adapt f m) fun c es r => ∃ r', P c es r' ∧ r = r'.mapError f := by
  intro s
  obtain ⟨es, hes, hP⟩ := h s
  have hrun : (ExceptT.adapt f m).run.run s =
      ((m.run.run s).1.mapError f, (m.run.run s).2) := rfl
  rw [hrun]
  exact ⟨es, hes, _, hP, rfl⟩

lemma map {m : Run σ α} {P : Conduct α} (h : rig.Ensures m P) (f : α → β) :
    rig.Ensures (f <$> m) fun c es r => ∃ r', P c es r' ∧ r = r'.map f := by
  intro s
  obtain ⟨es, hes, hP⟩ := h s
  rw [run_map]
  exact ⟨es, hes, _, hP, rfl⟩

lemma tryCatch {m : Run σ β} {handle : Failure Float → Run σ β} {P : Conduct β}
    {Q : Failure Float → Conduct β} (hm : rig.Ensures m P)
    (hh : ∀ e, rig.Ensures (handle e) (Q e)) :
    rig.Ensures (tryCatch m handle) fun c es r =>
      (∃ b, P c es (.ok b) ∧ r = .ok b) ∨
        ∃ e es₁ es₂, es = es₁ ++ es₂ ∧ P c es₁ (.error e) ∧
          Q e (c || History.cancels es₁) es₂ r := by
  intro s
  obtain ⟨es, hes, hP⟩ := hm s
  rw [run_tryCatch]
  rcases hr : m.run.run s with ⟨e | b, s₁⟩ <;> rw [hr] at hes hP
  · obtain ⟨fs, hfs, hQ⟩ := hh e s₁
    exact ⟨es ++ fs, hes.trans hfs, .inr ⟨e, es, fs, rfl, hP, hes.cancelled ▸ hQ⟩⟩
  · exact ⟨es, hes, .inl ⟨b, hP, rfl⟩⟩

end Ensures

end ImpedanceBench.Rig
