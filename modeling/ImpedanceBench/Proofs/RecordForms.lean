import ImpedanceBench.Proofs.Json.Keyed
import ImpedanceBench.Records

/-!
Both input forms of the library's records: settings may be given in part, signals and results must
be given whole, and neither reading sees more of an object than which field has which value.
-/

namespace ImpedanceBench

open Json (Codec)

/-! The slots of each record. Its fields say what they are, the rest is computation. -/

/-- The decimation bands stay as they are in the standard profile. -/
def HardwareProfile.slots : { slots // HardwareProfile.record.Slotted slots (·.bands) } :=
  ⟨[.mk _ _ _ _, .mk _ _ _ _, .mk _ _ _ _, .mk _ _ _ _, .mk _ _ _ _, .mk _ _ _ _,
    .mk _ _ _ _, .mk _ _ _ _, .mk _ _ _ _, .mk _ _ _ _, .mk _ _ _ _, .mk _ _ _ _,
    .mk _ _ _ _, .mk _ _ _ _, .mk _ _ _ _, .mk _ _ _ _, .mk _ _ _ _, .mk _ _ _ _],
    { fields := rfl }⟩

def SquareTransition.slots : { slots // SquareTransition.record.Slotted slots fun _ => () } :=
  ⟨[.mk _ _ _ _, .mk _ _ _ _, .mk _ _ _ _, .mk _ _ _ _, .mk _ _ _ _, .mk _ _ _ _],
    { fields := rfl }⟩

def SweepConfig.slots : { slots // SweepConfig.record.Slotted slots fun _ => () } :=
  ⟨[.mk _ _ _ _, .mk _ _ _ _, .mk _ _ _ _, .mk _ _ _ _, .mk _ _ _ _, .mk _ _ _ _,
    .mk _ _ _ _, .mk _ _ _ _, .mk _ _ _ _, .mk _ _ _ _, .mk _ _ _ _, .mk _ _ _ _,
    .mk _ _ _ _, .mk _ _ _ _, .mk _ _ _ _, .mk _ _ _ _, .mk _ _ _ _, .mk _ _ _ _],
    { fields := rfl }⟩

def RetryPolicy.slots : { slots // RetryPolicy.record.Slotted slots fun _ => () } :=
  ⟨[.mk _ _ _ _, .mk _ _ _ _, .mk _ _ _ _], { fields := rfl }⟩

def LoadModel.slots : { slots // LoadModel.record.Slotted slots fun _ => () } :=
  ⟨[.mk _ _ _ _, .mk _ _ _ _, .mk _ _ _ _], { fields := rfl }⟩

def SignalSpec.slots : { slots // SignalSpec.record.Slotted slots fun _ => () } :=
  ⟨[.mk _ _ _ _, .mk _ _ _ _, .mk _ _ _ _, .mk _ _ _ _], { fields := rfl }⟩

def ImpedancePoint.slots : { slots // ImpedancePoint.record.Slotted slots fun _ => () } :=
  ⟨[.mk _ _ _ _, .mk _ _ _ _, .mk _ _ _ _, .mk _ _ _ _, .mk _ _ _ _], { fields := rfl }⟩

def FrequencyResult.slots : { slots // FrequencyResult.record.Slotted slots fun _ => () } :=
  ⟨[.mk _ _ _ _, .mk _ _ _ _, .mk _ _ _ _, .mk _ _ _ _], { fields := rfl }⟩

def ResultTable.slots : { slots // ResultTable.record.Slotted slots fun _ => () } :=
  ⟨[.mk _ _ _ _, .mk _ _ _ _], { fields := rfl }⟩

lemma Json.Codec.list_read_congr {β : Type} {c : Codec β} {vs vs' : List Json}
    (h : List.Forall₂ (fun v v' => c.read v = c.read v') vs vs') :
    c.list.read (.array vs) = c.list.read (.array vs') := by
  change vs.mapM c.read = vs'.mapM c.read
  induction h with
  | nil => rfl
  | cons hv _ ih => rw [List.mapM_cons, List.mapM_cons, hv, ih]

/-- How the records are read. What stands in no slot is the decimation bands of a profile. Of a
record inside another one, it matters only what is read of it. -/
structure RecordForms : Prop where
  hardwareProfile : ∃ slots, HardwareProfile.record.Lenient slots (·.bands) ∧
    "decimation_bands" ∉ slots.map (·.name)
  nestedTransition : ∀ {v v'}, SquareTransition.record.read v = SquareTransition.record.read v' →
    ∀ before after,
      HardwareProfile.record.read (.object (before ++ ("square_transition", v) :: after)) =
        HardwareProfile.record.read (.object (before ++ ("square_transition", v') :: after))
  squareTransition : ∃ slots, SquareTransition.record.Lenient slots fun _ => ()
  sweepConfig : ∃ slots, SweepConfig.record.Lenient slots fun _ => ()
  nestedRetry : ∀ {v v'}, RetryPolicy.record.read v = RetryPolicy.record.read v' →
    ∀ before after, SweepConfig.record.read (.object (before ++ ("retry", v) :: after)) =
      SweepConfig.record.read (.object (before ++ ("retry", v') :: after))
  retryPolicy : ∃ slots, RetryPolicy.record.Lenient slots fun _ => ()
  loadModel : ∃ slots, LoadModel.record.Lenient slots fun _ => ()
  signalSpec : ∃ slots, SignalSpec.record.Strict slots fun _ => ()
  impedancePoint : ∃ slots, ImpedancePoint.record.Strict slots fun _ => ()
  frequencyResult : ∃ slots, FrequencyResult.record.Strict slots fun _ => ()
  nestedEntries : ∀ {vs vs'}, List.Forall₂ (fun v v' =>
      FrequencyResult.record.read v = FrequencyResult.record.read v') vs vs' →
    ∀ before after,
      ResultTable.record.read (.object (before ++ ("entries", .array vs) :: after)) =
        ResultTable.record.read (.object (before ++ ("entries", .array vs') :: after))
  resultTable : ∃ slots, ResultTable.record.Strict slots fun _ => ()

/-- **What is read of a record depends only on which field is given which value.** The order of the
members and members of other names do not matter, a name given twice is refused, and an array gives
its items to the first fields. What settings leave out is as in the standard ones; signals and
results leave nothing out. -/
theorem records_read_by_name : RecordForms where
  hardwareProfile := ⟨_, HardwareProfile.slots.2.lenient rfl, by decide⟩
  nestedTransition h before after :=
    HardwareProfile.slots.2.keyed.replaced (HardwareProfile.record.fields[7])
      (List.getElem_mem _) _ _ (funext fun r => congrArg (Option.map _) h) before after
  squareTransition := ⟨_, SquareTransition.slots.2.lenient rfl⟩
  sweepConfig := ⟨_, SweepConfig.slots.2.lenient rfl⟩
  nestedRetry h before after :=
    SweepConfig.slots.2.keyed.replaced (SweepConfig.record.fields[15])
      (List.getElem_mem _) _ _ (funext fun r => congrArg (Option.map _) h) before after
  retryPolicy := ⟨_, RetryPolicy.slots.2.lenient rfl⟩
  loadModel := ⟨_, LoadModel.slots.2.lenient rfl⟩
  signalSpec := ⟨_, SignalSpec.slots.2.strict rfl⟩
  impedancePoint := ⟨_, ImpedancePoint.slots.2.strict rfl⟩
  frequencyResult := ⟨_, FrequencyResult.slots.2.strict rfl⟩
  nestedEntries h before after :=
    ResultTable.slots.2.keyed.replaced (ResultTable.record.fields[0])
      (List.getElem_mem _) _ _
      (funext fun r => congrArg (Option.map _) (Codec.list_read_congr h)) before after
  resultTable := ⟨_, ResultTable.slots.2.strict rfl⟩

end ImpedanceBench
