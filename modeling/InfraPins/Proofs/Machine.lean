import InfraPins.Files.Machine
import InfraPins.Proofs.Ends

namespace InfraPins

open Result

namespace FileTree

end FileTree

namespace Machine

variable {machine : Machine} {path : Path}

/-- A file whose octets are not UTF-8. -/
def Undecoded (machine : Machine) (path : Path) (fault : Text.Utf8.Fault) : Prop :=
  ∃ place octets, machine.find path = .ok (place, .file octets) ∧
    Text.Utf8.decode octets = .error fault

/-- It cannot be told whether a path leads to a file when looking it up fails and that does not count as
leading nowhere. -/
theorem isFile_eq_error_iff {fault : FileFault} :
    machine.isFile path = .error fault ↔ machine.find path = .error fault ∧ isAbsence fault = false := by
  unfold isFile leadsTo
  cases found : machine.find path with
  | ok entry => simp only [reduceCtorEq, false_and]
  | error other =>
    dsimp only
    by_cases absent : isAbsence other = true
    · rw [if_pos absent]
      constructor
      · nofun
      · rintro ⟨same, untold⟩
        obtain rfl := Except.error.inj same
        cases absent.symm.trans untold
    · rw [if_neg absent]
      constructor
      · intro same
        obtain rfl := Except.error.inj same
        exact ⟨rfl, Bool.eq_false_iff.mpr absent⟩
      · rintro ⟨same, _⟩
        obtain rfl := Except.error.inj same
        rfl

/-- A path that starts with a tilde and a user's name for which no home is known. -/
inductive Homeless (machine : Machine) (path : Path) : Failure → Prop where
  | user {first : String} {user : List Char} {rest : List String} {cause : Failure}
    (relative : path.root = "") (opens : path.parts = first :: rest)
    (tilde : first.toList = '~' :: user)
    (unknown : machine.homeOf (String.ofList user) = .error cause) : Homeless machine path cause

/-- A home that is not known is no fault of a configuration. -/
theorem Homeless.cause {cause : Failure} (homeless : machine.Homeless path cause) :
    cause = .unknownUser ∨ cause = .file .notPath := by
  cases homeless with
  | user relative opens tilde unknown =>
    unfold homeOf at unknown
    split at unknown
    · exact .inr (Except.error.inj unknown).symm
    · split at unknown
      · exact .inl (Except.error.inj unknown).symm
      · dsimp only at unknown
        split at unknown
        · exact .inl (Except.error.inj unknown).symm
        · cases unknown

end Machine

end InfraPins
