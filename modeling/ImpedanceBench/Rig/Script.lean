import ImpedanceBench.Rig.Basic

/-!
Devices that follow a script: which commands they refuse, and what each poll gives. After the last
line of the script every poll is empty.
-/

namespace ImpedanceBench

structure Script where
  polls : List (Reply (Option (Trace Float)))
  refuses : Command → Option (Failure Float)

namespace Script

def perform (c : Command) (s : Script) : Reply Unit × Script :=
  match s.refuses c with
  | some f => (.failed f, s)
  | none => (.done (), s)

def poll (s : Script) : Reply (Option (Trace Float)) × Script :=
  match s.polls with
  | [] => (.done none, s)
  | reply :: rest => (reply, { s with polls := rest })

def rig : Rig Script := ⟨perform, poll⟩

end Script

end ImpedanceBench
