import ImpedanceBench.CommandLine
import ImpedanceBench.Proofs.Bench.Latency
import ImpedanceBench.Proofs.Rig.Baseline

/-!
Whole runs of the program. The bench that it builds is triggered at the first poll, so a sweep on it
either measures every pass at every frequency or finds no current; a baseline then has an entry for
each frequency, and the correction cannot miss one.
-/

namespace ImpedanceBench

open SimulatedBench

/-- Each frequency of the sweep is entered with all of its passes. -/
structure ResultTable.Complete (table : ResultTable Float) (sweep : ValidatedSweep Float) :
    Prop where
  entries : table.entries.map (fun e => (e.frequency, e.passes.toNat)) =
    sweep.frequencies.map fun f => (f, sweep.passesPerPoint.toNat)
  skipped : table.skipped = []

namespace ResultTable.Complete

variable {sweep : ValidatedSweep Float} {table measured short : ResultTable Float}

lemma frequency_entries (h : table.Complete sweep) :
    table.entries.map (·.frequency) = sweep.frequencies := by
  have hfst := congrArg (List.map Prod.fst) h.entries
  simpa [Function.comp_def] using hfst

lemma along (h : table.Complete sweep) : table.Along sweep := by
  rw [ResultTable.Along, h.frequency_entries]

lemma exists_at? (h : table.Complete sweep) (valid : sweep.Accepted) {f : Float}
    (hf : f ∈ sweep.frequencies) : ∃ b, table.at? f = some b := by
  rw [← h.frequency_entries] at hf
  obtain ⟨e, he, rfl⟩ := List.mem_map.1 hf
  have hself := h.along.sameFrequency_self valid he
  refine Option.isSome_iff_exists.1 (List.find?_isSome.2 ⟨e, he, ?_⟩)
  simpa using hself

/-- A correction changes neither the frequencies nor the passes. -/
lemma correct_entries {es es' : List (FrequencyResult Float)}
    (h : List.Forall₂ (fun e e' => short.correct e = .ok e') es es') :
    es'.map (fun e => (e.frequency, e.passes.toNat)) =
      es.map fun e => (e.frequency, e.passes.toNat) := by
  refine map_eq_map_of_forall₂ h fun e e' hcorrect => ?_
  obtain ⟨b, -, rfl⟩ := ResultTable.correct_eq_ok_iff.1 hcorrect
  rfl

/-- A complete baseline corrects every entry of a complete table. -/
lemma correctedBy (h : measured.Complete sweep) (hshort : short.Complete sweep)
    (valid : sweep.Accepted) : ∃ t, measured.correctedBy short = .ok t ∧ t.Complete sweep := by
  rw [ResultTable.correctedBy_eq]
  rcases hlist : measured.entries.mapM short.correct with e | entries
  · obtain ⟨before, x, after, hsplit, -, herror⟩ := mapM_eq_error_iff.1 hlist
    have hx : x ∈ measured.entries := by simp [hsplit]
    obtain ⟨b, hb⟩ := hshort.exists_at? valid (h.along.mem hx)
    obtain ⟨hnone, -⟩ := ResultTable.correct_eq_error_iff.1 herror
    cases hb.symm.trans hnone
  · refine ⟨_, rfl, ?_, h.skipped⟩
    rw [← h.entries]
    exact correct_entries (mapM_eq_ok_iff.1 hlist)

end ResultTable.Complete

namespace SimulatedBench

/-- A bench that is triggered at once and that a sweep can start on. -/
structure Ready (sweep : ValidatedSweep Float) (s : Session SimulatedBench) : Prop where
  steady : Steady sweep s.devices
  prompt : Waits s.devices 0 0
  going : s.cancelled = false

/-- The table of a schedule on which every pass gets a trace. -/
lemma complete_of_shares {sweep : ValidatedSweep Float} {table : ResultTable Float}
    (some : 1 ≤ sweep.passesPerPoint.toNat) :
    let shares := sweep.frequencies.zipIdx.map fun (f, j) =>
      (f, share 1 sweep.passesPerPoint.toNat j)
    table.entries.map (fun e => (e.frequency, e.passes.toNat)) = shares.filter (0 < ·.2) →
      table.skipped = (shares.filter (·.2 = 0)).map Prod.fst → table.Complete sweep := by
  intro shares hentries hskipped
  have hshares : shares = sweep.frequencies.map fun f => (f, sweep.passesPerPoint.toNat) := by
    simp only [shares, share_one]
    conv_rhs => rw [← List.zipIdx_map_fst 0 sweep.frequencies, List.map_map]
    rfl
  have hpositive : ∀ x ∈ shares, 0 < x.2 := by
    rw [hshares]
    intro x hx
    obtain ⟨f, -, rfl⟩ := List.mem_map.1 hx
    exact some
  constructor
  · rw [hentries, List.filter_eq_self.2 fun x hx => decide_eq_true (hpositive x hx), hshares]
  · rw [hskipped, List.map_eq_nil_iff, List.filter_eq_nil_iff]
    exact fun x hx => by simpa using Nat.ne_of_gt (hpositive x hx)

/-- Whatever the retry policy and the timeout policy are, a sweep measures every pass, unless there
is no current somewhere. -/
lemma Ready.runSweep {sweep : ValidatedSweep Float} {s : Session SimulatedBench}
    (h : Ready sweep s) (valid : sweep.Accepted) :
    (∃ table s', (rig.runSweep sweep).run.run s = (.ok table, s') ∧ table.Complete sweep ∧
        Ready sweep s') ∨
      ∃ f ∈ sweep.frequencies, ∃ s',
        (rig.runSweep sweep).run.run s = (.error (.noCurrent f), s') := by
  -- The first poll of a pass is triggered, and it comes before the budget and the deadline are
  -- looked at.
  have hpending (i : ℕ) : sweep.config.retry.pendingAt 0 i = 0 := by
    simp [RetryPolicy.pendingAt]
  have hperiod : sweep.config.retry.period 0 = 1 := by
    rw [RetryPolicy.period_eq, Nat.zero_div]
  have hbefore : Before s.devices sweep.config.retry 0 0 := by
    rw [Before, hpending]
    exact h.prompt
  obtain ⟨es, hes, hsweep⟩ := rig.runSweep_sweeps sweep s
  rcases hrun : (rig.runSweep sweep).run.run s with ⟨r, s'⟩
  rw [hrun] at hes hsweep
  obtain ⟨⟨n, -, -, hresult⟩, -⟩ := hbefore.sweeps h.steady valid.sound hsweep hes.plays h.going
    (.inr rfl) (.inr hperiod)
  rcases hresult with ⟨⟨table, rfl⟩, -, hlast⟩ | ⟨f, hf, rfl⟩
  · obtain ⟨hentries, hskipped⟩ := hbefore.table h.steady valid.sound hsweep hes.plays h.going
      (.inr rfl) (.inr hperiod)
    rw [hperiod] at hentries hskipped
    rw [Before, hpending] at hlast
    have hgoing : s'.cancelled = false := by
      rw [hes.cancelled, h.going, cancels_of_plays hes.plays]
      rfl
    exact .inl ⟨table, s', rfl,
      complete_of_shares valid.sound.passes hentries hskipped,
      h.steady.of_plays hes.plays, hlast, hgoing⟩
  · exact .inr ⟨f, hf, s', rfl⟩

end SimulatedBench

namespace CommandLine

/-- The bench file of a run: the one that the arguments name, or the demonstration. -/
def Reads (args : List String) (files : String → Option String) (file : BenchFile) : Prop :=
  (Invocation.parse args >>= fun i => i.benchFile files) = .ok file

/-- How a run may end, with an operator who agrees or not. -/
inductive Ends (args : List String) (files : String → Option String) (agrees : Bool) :
    Except Fault (ResultTable Float) → Prop
  | unknownFlag {flag} (given : flag ∈ args) (isFlag : flag.startsWith "--" = true)
    (unknown : flag ≠ "--json") : Ends args files agrees (.error (.unknownFlag flag))
  | unreadable {i path} (parsed : Invocation.parse args = .ok i) (named : i.path = some path)
    (missing : files path = none) : Ends args files agrees (.error (.unreadableFile path))
  | malformed {i path text} (parsed : Invocation.parse args = .ok i) (named : i.path = some path)
    (found : files path = some text) (bad : (Json.parse? text).bind BenchFile.record.read = none) :
    Ends args files agrees (.error (.malformedFile path))
  | refused {file e} (read : Reads args files file) (configuration : e.isConfiguration = true)
    (invalid : ((file.sweep.validate file.profile).run.run []).1 = .error e) :
    Ends args files agrees (.error (.invalidSweep e))
  | declined {file} (read : Reads args files file) (calibrates : file.sweep.calibration = true)
    (answer : agrees = false) : Ends args files agrees (.error (.calibration .calibrationDeclined))
  | noCurrentInBaseline {file sweep f} (read : Reads args files file)
    (valid : ((file.sweep.validate file.profile).run.run []).1 = .ok sweep)
    (calibrates : file.sweep.calibration = true) (visited : f ∈ sweep.frequencies) :
    Ends args files agrees (.error (.calibration (.noCurrent f)))
  | noCurrent {file sweep f} (read : Reads args files file)
    (valid : ((file.sweep.validate file.profile).run.run []).1 = .ok sweep)
    (visited : f ∈ sweep.frequencies) :
    Ends args files agrees (.error (.measurement (.noCurrent f)))
  | reported {file sweep table} (read : Reads args files file)
    (valid : ((file.sweep.validate file.profile).run.run []).1 = .ok sweep)
    (ascending : sweep.frequencies.Pairwise (· < ·)) (complete : table.Complete sweep) :
    Ends args files agrees (.ok table)

/-! The stages of a run. -/

lemma Invocation.unknownFlag_of_parse {args : List String} {i : Invocation} {fault : Fault}
    (h : args.foldlM Invocation.add i = .error fault) :
    ∃ flag ∈ args, flag.startsWith "--" = true ∧ flag ≠ "--json" ∧ fault = .unknownFlag flag := by
  induction args generalizing i with
  | nil => cases h
  | cons arg args ih =>
    rw [List.foldlM_cons] at h
    unfold Invocation.add at h
    split at h
    · obtain ⟨flag, hflag, hrest⟩ := ih h
      exact ⟨flag, by simp [hflag], hrest⟩
    rename_i hjson
    split at h
    · rename_i hflag
      cases h
      exact ⟨arg, by simp, hflag, hjson, rfl⟩
    · obtain ⟨flag, hflag, hrest⟩ := ih h
      exact ⟨flag, by simp [hflag], hrest⟩

lemma Ends.of_benchFile {args : List String} {files : String → Option String} {agrees : Bool}
    {i : Invocation} {fault : Fault} (hparse : Invocation.parse args = .ok i)
    (h : i.benchFile files = .error fault) : Ends args files agrees (.error fault) := by
  unfold Invocation.benchFile at h
  split at h
  · cases h
  rename_i path hpath
  split at h
  · rename_i hmissing
    cases h
    exact .unreadable hparse hpath hmissing
  rename_i text hfound
  split at h
  · rename_i hbad
    cases h
    exact .malformed hparse hpath hfound hbad
  · cases h

/-- A bench that was built for a sweep and brought up is ready for it. -/
structure Prepared.Sound (p : Prepared) (file : BenchFile) : Prop where
  valid : ((file.sweep.validate file.profile).run.run []).1 = .ok p.sweep
  calibration : p.sweep.config.calibration = file.sweep.calibration
  ready : Ready p.sweep p.session

lemma of_validate {c : SweepConfig Float} {p : HardwareProfile Float}
    {sweep : ValidatedSweep Float} (h : ((c.validate p).run.run []).1 = .ok sweep) :
    sweep.profile = p ∧ sweep.config.calibration = c.calibration := by
  rw [SweepConfig.run_validate, SweepConfig.outcome_eq_ok_iff] at h
  obtain ⟨n, mode, points, -, rfl, -⟩ := SweepConfig.eq_of_resolve h.2
  exact ⟨rfl, rfl⟩

lemma prepare_cases (timing : Timing) (file : BenchFile) :
    (∃ e, prepare timing file = .error (.invalidSweep e) ∧ e.isConfiguration = true ∧
        ((file.sweep.validate file.profile).run.run []).1 = .error e) ∨
      ∃ p, prepare timing file = .ok p ∧ p.Sound file := by
  unfold prepare
  rcases hvalid : ((file.sweep.validate file.profile).run.run []).1 with e | sweep
  · refine .inl ⟨e, rfl, ?_, rfl⟩
    rw [SweepConfig.run_validate] at hvalid
    exact SweepConfig.isConfiguration_of_outcome hvalid
  · obtain ⟨hprofile, hcalibration⟩ := of_validate hvalid
    let bench : SimulatedBench :=
      { make file.profile file.load file.sweep.shuntOhms with
        noise := .seeded file.noise noiseSeed
        timing
        dcBias := sweep.config.dcBias }
    obtain ⟨es, hes, hinit⟩ := rig.gives_init (Session.start bench)
    have hobeyed := obeys_init (b := bench) rfl hinit hes.plays
    rcases hrun : rig.init.run.run (Session.start bench) with ⟨r, s⟩
    rw [hrun] at hes hinit hobeyed
    obtain rfl : r = .ok () := hobeyed
    have hsteady : Steady sweep bench := ⟨hprofile.symm, rfl, rfl⟩
    have hprompt : Waits bench 0 0 := ⟨rfl, rfl, rfl⟩
    have hgoing : s.cancelled = false := by
      rw [hes.cancelled, cancels_of_plays hes.plays]
      rfl
    refine .inr ⟨⟨sweep, file.load, s⟩, ?_, hvalid, hcalibration, hsteady.of_plays hes.plays,
      hprompt.of_commands hes.plays hinit.commands, hgoing⟩
    dsimp only
    rw [hrun]

/-- Neither the load nor a question to the operator matters to whether the bench is ready. -/
lemma ready_withLoad {sweep : ValidatedSweep Float} {s : Session SimulatedBench}
    (h : Ready sweep s) (load : LoadModel Float) : Ready sweep (Prepared.withLoad s load) :=
  ⟨⟨h.steady.profile, h.steady.starts, h.steady.triggers⟩,
    ⟨h.prompt.triggers, h.prompt.notReady, h.prompt.pending⟩, h.going⟩

lemma run_runCalibration {sweep : ValidatedSweep Float} {s : Session SimulatedBench}
    (h : Ready sweep s) (agrees : Bool) : ∃ s₁, Ready sweep s₁ ∧
      (rig.runCalibration (fun _ => agrees) sweep).run.run s =
        if agrees then (rig.runSweep sweep).run.run s₁ else (.error .calibrationDeclined, s₁) := by
  refine ⟨{ s with prompts := Rig.calibrationPrompt :: s.prompts },
    ⟨h.steady, h.prompt, h.going⟩, ?_⟩
  cases agrees <;> rfl

/-- The measurement of a bench that is ready, whatever noise it has. -/
lemma Prepared.Sound.ends {p : Prepared} {file : BenchFile} (h : p.Sound file)
    {args : List String} {files : String → Option String} (read : Reads args files file)
    (agrees : Bool) : Ends args files agrees (p.measure fun _ => agrees) := by
  have accepted : p.sweep.Accepted := ⟨_, _, _, h.valid⟩
  have hsweep {s : Session SimulatedBench} (hs : Ready p.sweep s) :
      (∃ table, p.sweepTable s = .ok table ∧ table.Complete p.sweep) ∨
        ∃ f ∈ p.sweep.frequencies, p.sweepTable s = .error (.measurement (.noCurrent f)) := by
    unfold Prepared.sweepTable
    rcases hs.runSweep accepted with ⟨table, s', hrun, hcomplete, -⟩ | ⟨f, hf, s', hrun⟩
    · exact .inl ⟨table, by rw [hrun], hcomplete⟩
    · exact .inr ⟨f, hf, by rw [hrun]⟩
  unfold Prepared.measure
  split
  · rename_i hasks
    have hcalibrates : file.sweep.calibration = true := h.calibration ▸ hasks
    obtain ⟨s₁, hready, hrun⟩ := run_runCalibration (ready_withLoad h.ready .short) agrees
    rw [hrun]
    cases agrees with
    | false => exact .declined read hcalibrates rfl
    | true =>
      rw [if_pos rfl]
      rcases hready.runSweep accepted with ⟨short, s', hshort, hbaseline, hready'⟩ |
        ⟨f, hf, s', hshort⟩ <;> rw [hshort]
      · dsimp only
        rcases hsweep (ready_withLoad hready' p.load) with
          ⟨measured, hmeasured, hcomplete⟩ | ⟨f, hf, hmeasured⟩ <;> rw [hmeasured]
        · obtain ⟨table, htable, hcorrected⟩ := hcomplete.correctedBy hbaseline accepted
          dsimp only [bind, Except.bind]
          rw [htable]
          exact .reported read h.valid accepted.sound.ascending hcorrected
        · exact .noCurrent read h.valid hf
      · exact .noCurrentInBaseline read h.valid hcalibrates hf
  · rcases hsweep h.ready with ⟨table, hrun, hcomplete⟩ | ⟨f, hf, hrun⟩ <;> rw [hrun]
    · exact .reported read h.valid accepted.sound.ascending hcomplete
    · exact .noCurrent read h.valid hf

/-- The same bench with a noise of its own. -/
def Prepared.withNoise (p : Prepared) (noise : Noise) : Prepared :=
  { p with session := { p.session with devices := { p.session.devices with noise } } }

lemma Prepared.Sound.withNoise {p : Prepared} {file : BenchFile} (h : p.Sound file)
    (noise : Noise) : (p.withNoise noise).Sound file :=
  ⟨h.valid, h.calibration, ⟨h.ready.steady.profile, h.ready.steady.starts, h.ready.steady.triggers⟩,
    ⟨h.ready.prompt.triggers, h.ready.prompt.notReady, h.ready.prompt.pending⟩, h.ready.going⟩

/-- **How a run of the program ends.** For all arguments, files and answers, and however long the
calls take, it ends in one of the ways listed, and so it does when the noise of the oscilloscope
takes any other values. It fails
because of an unknown flag, of a file that cannot be read or understood, of settings that are
refused, of an operator who declines a calibration that was asked for, or for want of current at a
frequency of the sweep. Otherwise it reports every frequency of the sweep with all of its passes. -/
theorem run_ends (args : List String) (files : String → Option String) (input : String)
    (timing : Timing) :
    Ends args files (agreesIn input) (run args files input timing).result ∧
      ∀ file p noise, Reads args files file → prepare timing file = .ok p →
        Ends args files (agreesIn input) ((p.withNoise noise).measure fun _ => agreesIn input) := by
  refine ⟨?_, fun file p noise read hp => ?_⟩
  · unfold run
    cases hparse : Invocation.parse args with
    | error fault =>
      obtain ⟨flag, hmem, hflag, hjson, rfl⟩ := Invocation.unknownFlag_of_parse hparse
      exact .unknownFlag hmem hflag hjson
    | ok i =>
      dsimp only
      cases hfile : i.benchFile files with
      | error fault => exact Ends.of_benchFile hparse hfile
      | ok file =>
        have read : Reads args files file := by
          rw [Reads, hparse]
          exact hfile
        rcases prepare_cases timing file with
          ⟨e, hprepare, hconfiguration, hinvalid⟩ | ⟨p, hprepare, hp⟩
        · rw [show (Except.ok file >>= prepare timing) = _ from hprepare]
          exact .refused read hconfiguration hinvalid
        · rw [show (Except.ok file >>= prepare timing) = _ from hprepare]
          exact hp.ends read _
  · rcases prepare_cases timing file with ⟨e, hprepare, -⟩ | ⟨p', hprepare, hsound⟩
    · cases hp.symm.trans hprepare
    · cases hp.symm.trans hprepare
      exact (hsound.withNoise noise).ends read _

/-- The demonstration is not refused, and it ends so when the oscilloscope is noisy as well. -/
theorem run_ends_demonstration : ∃ p, Reads [] (fun _ => none) .demonstration ∧
    prepare .instant .demonstration = .ok p ∧
    Ends [] (fun _ => none) true
      ((p.withNoise (.seeded 50.0 noiseSeed)).measure fun _ => true) := by
  have read : Reads [] (fun _ => none) .demonstration := rfl
  rcases prepare_cases .instant .demonstration with ⟨e, hprepare, -, hinvalid⟩ | ⟨p, hprepare, -⟩
  · obtain ⟨sweep, hvalid⟩ : ∃ sweep, ((BenchFile.demonstration.sweep.validate
        BenchFile.demonstration.profile).run.run []).1 = .ok sweep := ⟨_, rfl⟩
    cases hvalid.symm.trans hinvalid
  · exact ⟨p, read, hprepare, (run_ends [] (fun _ => none) "y" .instant).2 _ p _ read hprepare⟩

end CommandLine

end ImpedanceBench
