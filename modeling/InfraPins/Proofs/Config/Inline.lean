import InfraPins.Proofs.Config.Placeholders
import InfraPins.Proofs.Path

namespace InfraPins.Token

open Text

variable {σ : Type} {machine : Machine} {token : String} {path : Path}

/-- A token that is written out where it is given: without the beginning of a placeholder or a tilde in
front, and not the path of a file. -/
structure Inline (machine : Machine) (token : String) : Prop where
  plain : ¬ ['$', '{'] <:+: token.toList
  untilded : token.toList.head? ≠ some '~'
  fileless : lookup machine token ≠ .ok true

/-- A token without the beginning of a placeholder that is looked up and found to name no file. -/
structure Untold (machine : Machine) (token : String) : Prop where
  plain : ¬ ['$', '{'] <:+: token.toList
  missing : NamesNoFile machine token

/-- A token that stands for a path that cannot be looked up. -/
structure Unseen (machine : Machine) (token : String) (path : Path) (fault : FileFault) : Prop where
  filled : token ≠ ""
  expanded : machine.expand (Path.ofText token) = .ok path
  refused : machine.isFile path = .error fault

/-- A path cannot be looked up when it is too long, or when the system refuses to follow it. -/
theorem Unseen.cause {fault : FileFault} (unseen : Unseen machine token path fault) :
    fault = .nameTooLong ∨
      ∃ refusal, fault = .refused refusal ∧ refusal.number ∉ Machine.absenceNumbers := by
  obtain ⟨_, untold⟩ := Machine.isFile_eq_error_iff.mp unseen.refused
  cases fault with
  | nameTooLong => exact .inl rfl
  | refused refusal =>
    right
    refine ⟨refusal, rfl, ?_⟩
    intro listed
    cases untold.symm.trans (List.contains_iff_mem.mpr listed)
  | _ => cases untold

/-- The warning about a path that cannot be looked up. -/
def refusal (path : Path) (fault : FileFault) : Event :=
  .log .warning ("Failed to read token file " ++ quoted path.text ++ ": " ++ fault.message path.text)

theorem pieces_of_plain {text : List Char} (plain : ¬ ['$', '{'] <:+: text) :
    pieces text = (Part.plain (String.ofList text)).pieces := by
  rw [Part.pieces, String.toList_ofList]
  induction text with
  | nil => exact pieces_nil
  | cons c rest ih =>
    have here : ¬ ['$', '{'] <+: c :: rest := fun opens => plain opens.isInfix
    have later : ¬ ['$', '{'] <:+: rest := fun inside => plain (List.infix_cons inside)
    rw [pieces_cons here, ih later, List.map_cons]

/-- Plain text is not changed by expanding it, and nothing is logged. -/
theorem expand_of_plain (plain : ¬ ['$', '{'] <:+: token.toList) (start : σ) :
    expand machine token start = ⟨.ok token, [], start⟩ := by
  have read := pieces_of_plain plain
  rw [String.ofList_toList] at read
  rw [expand_apply, expansion, read, join_meaning_pieces, warnings_pieces]
  rfl

theorem resolve_of_plain (plain : ¬ ['$', '{'] <:+: token.toList) (start : σ) :
    resolve machine token start =
      if token = "" then ⟨.ok token, [], start⟩ else ofFile machine token start := by
  simp only [resolve, Act.bind_apply, expand_of_plain plain, List.nil_append]
  by_cases empty : token = ""
  · simp [empty, Act.pure_apply]
  · simp [empty]

/-- A token that is found to name no file is what it stands for. -/
theorem Untold.resolve_apply (untold : Untold machine token) (start : σ) :
    resolve machine token start = ⟨.ok token, [], start⟩ := by
  rw [resolve_of_plain untold.plain]
  by_cases empty : token = ""
  · rw [if_pos empty]
  · rw [if_neg empty, ofFile_apply (untold.missing empty)]

theorem Unseen.lookup_eq {fault : FileFault} (unseen : Unseen machine token path fault) :
    lookup machine token = .error (.file fault) := by
  rw [lookup, unseen.expanded]
  show (machine.isFile path).mapError Failure.file = _
  rw [unseen.refused]
  rfl

theorem Unseen.refusal?_eq {fault : FileFault} (unseen : Unseen machine token path fault) :
    refusal? path (.file fault) = some (fault.message path.text) := by
  rcases unseen.cause with rfl | ⟨refusal, rfl, _⟩
  · rfl
  · rfl

/-- A path that cannot be looked up is told. -/
theorem Unseen.events_eq {fault : FileFault} (unseen : Unseen machine token path fault)
    (plain : ¬ ['$', '{'] <:+: token.toList) (start : σ) :
    (resolve machine token start).events = [refusal path fault] := by
  have held : held? machine path start = ⟨.error (.file fault), [], start⟩ := by
    simp only [held?, Act.bind_apply, Act.lift, unseen.refused, Except.mapError]
  have said := unseen.refusal?_eq
  rw [resolve_of_plain plain, if_neg unseen.filled]
  simp only [ofFile, Act.bind_apply, Act.lift, unseen.expanded, Act.attempt, held, said]
  rfl

/-- Of any other token that is written out where it is given, nothing is logged. -/
theorem Inline.events_eq_nil (inline : Inline machine token)
    (seen : ∀ path fault, ¬ Unseen machine token path fault) (start : σ) :
    (resolve machine token start).events = [] := by
  rw [resolve_of_plain inline.plain]
  by_cases empty : token = ""
  · rw [if_pos empty]
  · rw [if_neg empty]
    cases expanded : machine.expand (Path.ofText token) with
    | error cause =>
      simp only [ofFile, Act.bind_apply, Act.lift, expanded]
    | ok path =>
      cases led : machine.isFile path with
      | error fault => exact absurd ⟨empty, expanded, led⟩ (seen path fault)
      | ok there =>
        have found := lookup_eq_ok.mpr ⟨path, expanded, led⟩
        cases there with
        | false => rw [ofFile_apply found]
        | true => exact absurd found inline.fileless

/-- In an open tree, a token that is short enough for a path, and that no home is put into, is looked up.
-/
theorem Inline.untold (inline : Inline machine token) (isOpen : machine.files.Open)
    (fits : (Path.ofText token).Fits) (homeless : (Path.ofText token).Untilded) :
    Untold machine token where
  plain := inline.plain
  missing := by
    intro _
    have expanded := machine.expand_of_untilded homeless
    cases led : machine.isFile (Path.ofText token) with
    | error fault => exact absurd led (Machine.isFile_ne_error fits isOpen fault)
    | ok there =>
      have found := lookup_eq_ok.mpr ⟨_, expanded, led⟩
      cases there with
      | false => exact found
      | true => exact absurd found inline.fileless

theorem Untold.not_unseen {fault : FileFault} (untold : Untold machine token) :
    ¬ Unseen machine token path fault := by
  intro unseen
  cases (untold.missing unseen.filled).symm.trans unseen.lookup_eq

/-- A name of more octets than a name may have is told as it stands. -/
theorem unseen_of_name (single : '/' ∉ token.toList) (clean : '\x00' ∉ token.toList)
    (untilded : token.toList.head? ≠ some '~') (long : FileTree.maxName < token.utf8ByteSize)
    (there : machine.files.look? machine.directory = some .directory) :
    Unseen machine token ⟨"", [token]⟩ .nameTooLong where
  filled := by
    rintro rfl
    exact absurd long (by decide)
  expanded := by
    rw [Path.ofText_eq_of_name single (lt_trans (by decide) long)]
    apply Machine.expand_of_untilded
    intro _ first here
    obtain rfl : token = first := Option.some.inj here
    exact untilded
  refused := Machine.isFile_eq_error_iff.mpr ⟨Machine.find_eq_nameTooLong clean long there, rfl⟩

end InfraPins.Token
