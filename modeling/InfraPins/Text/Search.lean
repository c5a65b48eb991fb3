namespace InfraPins.Text

/-- What a leftmost search finds: the text before the place, and what was recognised there. -/
structure Found (α : Type) where
  before : List Char
  value : α
  deriving Repr, DecidableEq

/-- The leftmost place at which a recogniser succeeds. The recogniser sees the character before
the place and the text from the place on. -/
def findFirst (recognise : Option Char → List Char → Option α) (previous : Option Char) :
    List Char → Option (Found α)
  | [] => (recognise previous []).map (⟨[], ·⟩)
  | c :: rest =>
    match recognise previous (c :: rest) with
    | some value => some ⟨[], value⟩
    | none => (findFirst recognise (some c) rest).map fun found =>
      { found with before := c :: found.before }

def after? : (opening text : List Char) → Option (List Char)
  | [], text => some text
  | _ :: _, [] => none
  | expected :: opening, c :: rest => if expected == c then after? opening rest else none

theorem after?_eq_some_iff {opening text rest : List Char} :
    after? opening text = some rest ↔ text = opening ++ rest := by
  induction opening generalizing text with
  | nil => simp [after?]
  | cons expected opening ih =>
    cases text with
    | nil => simp [after?]
    | cons c text =>
      by_cases same : expected = c
      · simp [after?, same, ih]
      · simp [after?, same, Ne.symm same]

def occurs (part text : List Char) : Bool :=
  (findFirst (fun _ rest => after? part rest) none text).isSome

/-- A text cut at each occurrence of one character. -/
def splitAt (separator : Char) : List Char → List (List Char)
  | [] => [[]]
  | c :: rest =>
    if c == separator then [] :: splitAt separator rest
    else match splitAt separator rest with
      | [] => [[c]]
      | piece :: pieces => (c :: piece) :: pieces

/-- A text cut in two at the first occurrence of one character, if there is one. -/
def cutAt? (separator : Char) : List Char → Option (List Char × List Char)
  | [] => none
  | c :: rest =>
    if c == separator then some ([], rest)
    else (cutAt? separator rest).map fun (before, after) => (c :: before, after)

theorem cutAt?_length {separator : Char} {text before after : List Char}
    (cut : cutAt? separator text = some (before, after)) : after.length < text.length := by
  induction text generalizing before with
  | nil => simp [cutAt?] at cut
  | cons c rest ih =>
    by_cases same : (c == separator) = true
    · simp only [cutAt?, same, if_true, Option.some.injEq, Prod.mk.injEq] at cut
      simp [cut.2]
    · simp only [cutAt?, same, if_false, Option.map_eq_some_iff, Bool.false_eq_true] at cut
      obtain ⟨⟨first, last⟩, found, same⟩ := cut
      simp only [Prod.mk.injEq] at same
      have shorter := ih (same.2 ▸ found)
      simp only [List.length_cons]
      omega

/-- Pieces of text with a separator between each two. -/
def join (separator : List Char) : List (List Char) → List Char
  | [] => []
  | [piece] => piece
  | piece :: pieces => piece ++ separator ++ join separator pieces

/-- The part of a text that a test accepts from the start, and the rest. -/
def spanWhile (accept : Char → Bool) (text : List Char) : List Char × List Char :=
  (text.takeWhile accept, text.dropWhile accept)

/-- Text in which every line end, `\r\n` or a lone `\r`, has become `\n`. -/
def normaliseLineEnds : List Char → List Char
  | [] => []
  | '\r' :: '\n' :: rest => '\n' :: normaliseLineEnds rest
  | '\r' :: rest => '\n' :: normaliseLineEnds rest
  | c :: rest => c :: normaliseLineEnds rest

def lineAfter (before : List Char) : Nat :=
  before.count '\n' + 1

/-- A text cut at each `\r\n`; a lone `\r` or `\n` belongs to its line. -/
def splitAtCrlf : List Char → List (List Char)
  | [] => [[]]
  | '\r' :: '\n' :: rest => [] :: splitAtCrlf rest
  | c :: rest =>
    match splitAtCrlf rest with
    | [] => [[c]]
    | piece :: pieces => (c :: piece) :: pieces

end InfraPins.Text
