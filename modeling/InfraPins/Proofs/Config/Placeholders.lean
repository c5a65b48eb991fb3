import InfraPins.Proofs.Config.Token
import InfraPins.Proofs.Scan.Pattern

/-! Tokens with placeholders. A raw token that is put together from plain text and placeholders stands for
the text with the values of the variables between it. A value is taken as it is: what looks like a
placeholder in it is none, and nothing in it is an escape. Each variable that is not set is warned of
where it stands. -/

namespace InfraPins.Token

open Text

variable {σ : Type} {machine : Machine}

/-- The warning about a variable that is not set. -/
def unset (name : String) : Event :=
  .log .warning ("Environment variable " ++ quoted name ++ " is not set")

/-- What is logged when a piece is expanded. -/
def Piece.warnings (machine : Machine) : Piece → List Event
  | .literal _ => []
  | .variable name => if (machine.value? name).isSome then [] else [unset name]

theorem expandPiece_apply (piece : Piece) (start : σ) :
    expandPiece machine piece start = ⟨.ok (piece.meaning machine), piece.warnings machine, start⟩ := by
  cases piece with
  | literal c => rfl
  | «variable» name =>
    cases set : machine.value? name with
    | some value =>
      simp only [expandPiece, Piece.meaning, Piece.warnings, set]
      rfl
    | none =>
      simp only [expandPiece, Piece.meaning, Piece.warnings, set]
      rfl

theorem expandPieces_apply (pieces : List Piece) (start : σ) :
    pieces.mapM (expandPiece machine) start = ⟨.ok (pieces.map (Piece.meaning machine)),
      pieces.flatMap (Piece.warnings machine), start⟩ := by
  induction pieces with
  | nil => rfl
  | cons piece pieces ih =>
    simp only [List.mapM_cons, Act.bind_apply, Act.pure_apply, expandPiece_apply, ih, List.append_nil,
      List.map_cons, List.flatMap_cons]

/-- Expanding a raw token gives what it expands to, with a warning for each variable that is not set. -/
theorem expand_apply (raw : String) (start : σ) :
    expand machine raw start = ⟨.ok (expansion machine raw),
      (pieces raw.toList).flatMap (Piece.warnings machine), start⟩ := by
  simp only [expand, Act.bind_apply, Act.pure_apply, expandPieces_apply, List.append_nil]
  rfl

/-- What looking up the path that a token writes answers: whether it leads to a file. A home that the path
begins with is put in first. -/
def lookup (machine : Machine) (token : String) : Except Failure Bool := do
  let path ← machine.expand (Path.ofText token)
  (machine.isFile path).mapError .file

/-- A token that names no file is taken as it stands. The empty one is not looked up. -/
def NamesNoFile (machine : Machine) (token : String) : Prop :=
  token ≠ "" → lookup machine token = .ok false

theorem lookup_eq_ok {token : String} {there : Bool} :
    lookup machine token = .ok there ↔
      ∃ path, machine.expand (Path.ofText token) = .ok path ∧ machine.isFile path = .ok there := by
  rw [lookup, Result.bind_eq_ok]
  simp only [Result.mapError_eq_ok]

theorem ofFile_apply {token : String} (missing : lookup machine token = .ok false) (start : σ) :
    ofFile machine token start = ⟨.ok token, [], start⟩ := by
  obtain ⟨path, expanded, absent⟩ := lookup_eq_ok.mp missing
  have nothing : held? machine path start = ⟨.ok none, [], start⟩ := by
    simp only [held?, Act.bind_apply, Act.lift, absent]
    rfl
  simp only [ofFile, Act.bind_apply, Act.lift, expanded, Act.attempt, nothing]
  rfl

/-- What a raw token expands to is what it stands for, if that names no file. -/
theorem resolve_apply {raw : String} (missing : NamesNoFile machine (expansion machine raw))
    (start : σ) :
    resolve machine raw start = ⟨.ok (expansion machine raw),
      (pieces raw.toList).flatMap (Piece.warnings machine), start⟩ := by
  simp only [resolve, Act.bind_apply, expand_apply]
  by_cases empty : expansion machine raw = ""
  · simp [empty, Act.pure_apply]
  · have filled : (expansion machine raw).isEmpty = false := by simpa using empty
    simp [filled, ofFile_apply (missing empty)]

/-- A part of a raw token: plain text, or a placeholder for the variable of that name. -/
inductive Part where
  | plain (text : String)
  | placeholder (name : String)
  deriving DecidableEq

namespace Part

/-- Plain text has no dollar sign. A name is not empty and has no closing brace; anything else may stand in
it. -/
def WellFormed : Part → Prop
  | .plain text => '$' ∉ text.toList
  | .placeholder name => name ≠ "" ∧ '}' ∉ name.toList

instance (part : Part) : Decidable part.WellFormed :=
  match part with
  | .plain text => inferInstanceAs (Decidable ('$' ∉ text.toList))
  | .placeholder name => inferInstanceAs (Decidable (name ≠ "" ∧ '}' ∉ name.toList))

def written : Part → String
  | .plain text => text
  | .placeholder name => String.ofList ('$' :: '{' :: (name.toList ++ ['}']))

/-- What a part stands for: itself, or the value of its variable, which is empty when it is not set. -/
def value (environment : List (String × String)) : Part → String
  | .plain text => text
  | .placeholder name => (environment.lookup name).getD ""

/-- A warning, where a part is a placeholder for a variable that is not set, or empty. -/
def warnings (environment : List (String × String)) : Part → List Event
  | .plain _ => []
  | .placeholder name => if (environment.lookup name).getD "" = "" then [unset name] else []

def pieces : Part → List Piece
  | .plain text => text.toList.map .literal
  | .placeholder name => [.variable name]

end Part

variable {part : Part} {parts : List Part}

theorem placeholder?_eq_none {text : List Char} (other : ¬ ['$', '{'] <+: text) :
    placeholder? text = none := by
  have unopened : after? ['$', '{'] text = none := after?_eq_none_iff.mpr other
  rw [placeholder?, unopened]
  rfl

theorem pieces_nil : pieces [] = [] := by
  rw [pieces]
  rfl

theorem pieces_cons {c : Char} {rest : List Char} (other : ¬ ['$', '{'] <+: c :: rest) :
    pieces (c :: rest) = .literal c :: pieces rest := by
  rw [pieces]
  split
  · rename_i found
    cases (placeholder?_eq_none other).symm.trans found
  · rfl

theorem pieces_text_append {text : List Char} (plain : '$' ∉ text) (rest : List Char) :
    pieces (text ++ rest) = text.map .literal ++ pieces rest := by
  induction text with
  | nil => rfl
  | cons c text ih =>
    have different : c ≠ '$' := fun same => plain (by simp [same])
    have other : ¬ ['$', '{'] <+: c :: (text ++ rest) := by
      intro opens
      exact different (List.cons_prefix_cons.mp opens).1.symm
    rw [List.cons_append, pieces_cons other, ih fun member => plain (List.mem_cons_of_mem c member)]
    rfl

/-- A placeholder ends at the first closing brace. -/
theorem pieces_placeholder_append {name : List Char} (filled : name ≠ []) (closed : '}' ∉ name)
    (rest : List Char) :
    pieces ('$' :: '{' :: (name ++ '}' :: rest)) = .variable (String.ofList name) :: pieces rest := by
  have found : placeholder? ('$' :: '{' :: (name ++ '}' :: rest)) = some (name, rest) := by
    simp [placeholder?, after?, cutAt?_of_notMem closed, filled]
  rw [pieces]
  split
  · rename_i found'
    obtain ⟨rfl, rfl⟩ := Prod.mk.inj (Option.some.inj (found.symm.trans found'))
    rfl
  · rename_i missed
    cases found.symm.trans missed

theorem pieces_written_append (wellFormed : part.WellFormed) (rest : List Char) :
    pieces (part.written.toList ++ rest) = part.pieces ++ pieces rest := by
  cases part with
  | plain text => exact pieces_text_append wellFormed rest
  | placeholder name =>
    obtain ⟨filled, closed⟩ := wellFormed
    have named : name.toList ≠ [] := by simpa using filled
    have read := pieces_placeholder_append named closed rest
    simpa [Part.written, Part.pieces] using read

/-- A raw token put together from parts is read as the pieces of those. -/
theorem pieces_join (wellFormed : ∀ part ∈ parts, part.WellFormed) :
    pieces (String.join (parts.map Part.written)).toList = parts.flatMap Part.pieces := by
  induction parts with
  | nil => exact pieces_nil
  | cons part parts ih =>
    obtain ⟨first, others⟩ := List.forall_mem_cons.mp wellFormed
    rw [List.map_cons, String.join_cons, String.toList_append, pieces_written_append first, ih others,
      List.flatMap_cons]

/-- A variable that is set to nothing counts as not set. -/
theorem value?_eq (name : String) :
    machine.value? name =
      let value := (machine.environment.lookup name).getD ""
      if value = "" then none else some value := by
  unfold Machine.value?
  cases machine.environment.lookup name with
  | none => rfl
  | some value => simp

theorem join_meaning_pieces (part : Part) :
    String.join (part.pieces.map (Piece.meaning machine)) = part.value machine.environment := by
  cases part with
  | plain text =>
    apply String.toList_injective
    simp only [Part.pieces, Part.value, String.toList_join, List.map_map, List.flatMap_map]
    exact (List.flatMap_congr fun c _ => String.toList_singleton c).trans
      (List.flatMap_singleton' text.toList)
  | placeholder name =>
    simp only [Part.pieces, Part.value, List.map_singleton, String.join_cons, String.join_nil,
      String.append_empty, Piece.meaning, value?_eq]
    split
    · rename_i empty
      exact empty.symm
    · rfl

theorem expansion_join (machine : Machine) (wellFormed : ∀ part ∈ parts, part.WellFormed) :
    expansion machine (String.join (parts.map Part.written)) =
      String.join (parts.map (Part.value machine.environment)) := by
  rw [expansion, pieces_join wellFormed]
  clear wellFormed
  induction parts with
  | nil => rfl
  | cons part parts ih =>
    rw [List.flatMap_cons, List.map_append, String.join_append, join_meaning_pieces, ih, List.map_cons,
      String.join_cons]

theorem warnings_pieces (part : Part) :
    part.pieces.flatMap (Piece.warnings machine) = part.warnings machine.environment := by
  cases part with
  | plain text => simp [Part.pieces, Part.warnings, List.flatMap_map, Piece.warnings]
  | placeholder name =>
    simp only [Part.pieces, Part.warnings, List.flatMap_singleton, Piece.warnings, value?_eq]
    split
    · rfl
    · rfl

/-- A raw token put together from plain text and placeholders stands for the text with the values of the
variables in their places, if that names no file; a variable that is not set, or empty, leaves nothing and
one warning for each time that it is asked for, in the order of the placeholders. -/
theorem placeholders_expand_once (machine : Machine) (parts : List Part)
    (wellFormed : ∀ part ∈ parts, part.WellFormed)
    (missing : NamesNoFile machine (String.join (parts.map (Part.value machine.environment))))
    (start : σ) :
    resolve machine (String.join (parts.map Part.written)) start =
      ⟨.ok (String.join (parts.map (Part.value machine.environment))),
        parts.flatMap (Part.warnings machine.environment), start⟩ := by
  have expanded := expansion_join machine wellFormed
  have warned : (pieces (String.join (parts.map Part.written)).toList).flatMap
      (Piece.warnings machine) = parts.flatMap (Part.warnings machine.environment) := by
    rw [pieces_join wellFormed, List.flatMap_assoc]
    exact List.flatMap_congr fun part _ => warnings_pieces part
  rw [resolve_apply (expanded.symm ▸ missing), expanded, warned]

/-- A machine without files, on which one variable holds what looks like a placeholder and another is
empty. -/
private def variablesMachine : Machine where
  environment := [("A", "$\x7bB\x7d\\"), ("E", "")]
  homes := []
  directory := []
  files := []

private def sampleParts : List Part :=
  [.plain "x", .placeholder "A", .placeholder "\x7b $", .placeholder "E"]

/-- The value of a variable is not expanded again, and a name may hold an opening brace and a dollar sign.
-/
theorem placeholders_expand_once_sample :
    (∀ part ∈ sampleParts, part.WellFormed) ∧
      NamesNoFile variablesMachine
        (String.join (sampleParts.map (Part.value variablesMachine.environment))) ∧
      resolve variablesMachine "x$\x7bA\x7d$\x7b\x7b $\x7d$\x7bE\x7d" () =
        ⟨.ok "x$\x7bB\x7d\\", [unset "\x7b $", unset "E"], ()⟩ := by
  have wellFormed : ∀ part ∈ sampleParts, part.WellFormed := by decide
  have missing : NamesNoFile variablesMachine
      (String.join (sampleParts.map (Part.value variablesMachine.environment))) := by
    intro _
    decide +kernel
  exact ⟨wellFormed, missing, placeholders_expand_once variablesMachine sampleParts wellFormed missing ()⟩

end InfraPins.Token
