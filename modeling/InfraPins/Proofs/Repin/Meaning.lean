import InfraPins.Hcl.Value
import InfraPins.Proofs.Repin.Ahead

namespace InfraPins.Repin

open Text Hcl

variable {repin : Repin}

/-- A reference with a version, from the quote before it to the quote behind it. -/
def pinnedAt (repin : Repin) (front version closing : List Char) : List Char :=
  front ++ repin.mark :: (Source.refKey ++ (version ++ closing))

/-- A text between quotes before and after: the same, or around the version. -/
def Repinned (repin : Repin) (first second : List Char) : Prop :=
  second = first ∨ ∃ front closing, '"' :: front <:+ repin.before ∧
    closing ++ ['"'] <+: repin.tail ∧ first = repin.pinnedAt front repin.old closing ∧
    second = repin.pinnedAt front repin.new closing

/-- Texts between quotes before and after: a plain one stands in the file. -/
def AlikeSource (repin : Repin) (first second : List Char) : Prop :=
  (∀ c ∈ first, isPlainChar c = true) →
    inQuotes first <:+: repin.text repin.old ∧ Repinned repin first second

/-- Texts that are values before and after. They are not plain themselves, but may be so between
quotes. -/
structure Quoted (repin : Repin) (first second : List Char) : Prop where
  marked : ∃ c ∈ first, isPlainChar c = false
  stands : ∀ source, first = inQuotes source →
    ∃ source', second = inQuotes source' ∧ AlikeSource repin source source'

/-- Values before and after. What objects hold is left open. -/
inductive RenewedDatum (repin : Repin) : Datum → Datum → Prop where
  | scalar {datum : Datum} (plain : ∀ text items, datum ≠ .text text ∧ datum ≠ .list items) :
      RenewedDatum repin datum datum
  | text {first second : String} (renewed : Renewed repin first.toList second.toList)
      (quoted : Quoted repin first.toList second.toList) :
      RenewedDatum repin (.text first) (.text second)
  | list {first second : List Datum} (items : List.Forall₂ (RenewedDatum repin) first second) :
      RenewedDatum repin (.list first) (.list second)
  | object {first second : List (Datum × Datum)} :
      RenewedDatum repin (.object first) (.object second)

/-- Printed texts before and after. -/
def RenewedText (repin : Repin) (first second : String) : Prop :=
  Renewed repin first.toList second.toList

theorem RenewedText.ofList {first second : List Char} (renewed : Renewed repin first second) :
    RenewedText repin (String.ofList first) (String.ofList second) := by
  rwa [RenewedText, String.toList_ofList, String.toList_ofList]

theorem RenewedText.refl (text : String) : RenewedText repin text text :=
  Renewed.refl text.toList

theorem RenewedText.append {first second third fourth : String}
    (left : RenewedText repin first second) (right : RenewedText repin third fourth) :
    RenewedText repin (first ++ third) (second ++ fourth) := by
  unfold RenewedText
  rw [String.toList_append, String.toList_append]
  exact Renewed.append left right

/-- Expressions before and after. -/
structure AlikeExpr (repin : Repin) (first second : Expr) : Prop where
  print : RenewedText repin first.print second.print
  value : RenewedDatum repin first.value second.value

/-- Access steps before and after. -/
def AlikeStep (repin : Repin) (first second : Step) : Prop :=
  RenewedText repin first.print second.print

/-- Parts of a string before and after. -/
inductive AlikePart (repin : Repin) : Part → Part → Prop where
  | plain {first second : List Char} (renewed : Renewed repin first second) :
      AlikePart repin (.plain first) (.plain second)
  | interpolation {first second : Expr} (inner : AlikeExpr repin first second) :
      AlikePart repin (.interpolation first) (.interpolation second)
  | ifStart {first second : Expr} (marks : StripMarks) (condition : AlikeExpr repin first second) :
      AlikePart repin (.ifStart marks first) (.ifStart marks second)
  | forStart {first second : Expr} (marks : StripMarks) (binders : List String)
      (source : AlikeExpr repin first second) :
      AlikePart repin (.forStart marks binders first) (.forStart marks binders second)
  | elseMark (marks : StripMarks) : AlikePart repin (.elseMark marks) (.elseMark marks)
  | endIf (marks : StripMarks) : AlikePart repin (.endIf marks) (.endIf marks)
  | endFor (marks : StripMarks) : AlikePart repin (.endFor marks) (.endFor marks)

/-- Strings before and after. -/
abbrev AlikeParts (repin : Repin) : List Part → List Part → Prop :=
  List.Forall₂ (AlikePart repin)

theorem AlikePart.print {first second : Part} (alike : AlikePart repin first second) :
    RenewedText repin first.print second.print := by
  cases alike with
  | plain renewed => simpa [Part.print, RenewedText] using renewed
  | interpolation inner => exact ((RenewedText.refl "$\x7b").append inner.print).append (.refl "\x7d")
  | ifStart marks condition =>
    exact ((RenewedText.refl (marks.opening ++ "if ")).append condition.print).append
      (.refl marks.closing)
  | forStart marks binders source =>
    exact ((RenewedText.refl (marks.opening ++ "for " ++ printNames binders ++ " in ")).append
      source.print).append (.refl marks.closing)
  | elseMark marks => exact .refl _
  | endIf marks => exact .refl _
  | endFor marks => exact .refl _

theorem AlikeParts.print {first second : List Part} (alike : AlikeParts repin first second) :
    RenewedText repin (printParts first) (printParts second) := by
  induction alike with
  | nil => exact .refl _
  | cons here _ ih => exact here.print.append ih

theorem AlikeParts.directivesClose {first second : List Part}
    (alike : AlikeParts repin first second) : directivesClose first = directivesClose second := by
  suffices same : ∀ opened, first.foldl directivesClose.step opened =
      second.foldl directivesClose.step opened by
    simp only [Hcl.directivesClose, same]
  induction alike with
  | nil => exact fun _ => rfl
  | cons here _ ih =>
    intro opened
    rw [List.foldl_cons, List.foldl_cons, ih]
    cases here <;> rfl

theorem AlikeParts.consText {chars chars' : List Char} {first second : List Part}
    (renewed : Renewed repin chars chars') (alike : AlikeParts repin first second) :
    AlikeParts repin (consText chars first) (consText chars' second) := by
  cases alike with
  | nil => exact .cons (.plain renewed) .nil
  | cons here rest =>
    cases here with
    | plain more => exact .cons (.plain (renewed.append more)) rest
    | interpolation inner => exact .cons (.plain renewed) (.cons (.interpolation inner) rest)
    | ifStart marks inner => exact .cons (.plain renewed) (.cons (.ifStart marks inner) rest)
    | forStart marks binders inner =>
      exact .cons (.plain renewed) (.cons (.forStart marks binders inner) rest)
    | elseMark marks => exact .cons (.plain renewed) (.cons (.elseMark marks) rest)
    | endIf marks => exact .cons (.plain renewed) (.cons (.endIf marks) rest)
    | endFor marks => exact .cons (.plain renewed) (.cons (.endFor marks) rest)

theorem printItems_renewed {first second : List Expr}
    (items : List.Forall₂ (AlikeExpr repin) first second) :
    RenewedText repin (printItems first) (printItems second) := by
  induction items with
  | nil => exact .refl _
  | cons here rest ih =>
    cases rest with
    | nil => exact here.print
    | cons next rest => exact (here.print.append (.refl ", ")).append ih

/-- Fields of an object before and after. -/
def AlikeField (repin : Repin) (first second : Expr × Expr) : Prop :=
  AlikeExpr repin first.1 second.1 ∧ AlikeExpr repin first.2 second.2

theorem printFields_renewed {first second : List (Expr × Expr)}
    (fields : List.Forall₂ (AlikeField repin) first second) :
    RenewedText repin (printFields first) (printFields second) := by
  induction fields with
  | nil => exact .refl _
  | cons here rest ih =>
    have field := (here.1.print.append (.refl " = ")).append here.2.print
    cases rest with
    | nil => exact field
    | cons next rest => exact (field.append (.refl ", ")).append ih

/-- Operators with their right operands before and after. -/
def AlikeLink (repin : Repin) (first second : Symbol × Expr) : Prop :=
  first.1 = second.1 ∧ AlikeExpr repin first.2 second.2

theorem printChain_renewed {first second : List (Symbol × Expr)}
    (links : List.Forall₂ (AlikeLink repin) first second) :
    RenewedText repin (printChain first) (printChain second) := by
  induction links with
  | nil => exact .refl _
  | @cons here there first second link _ ih =>
    obtain ⟨operator, operand⟩ := here
    obtain ⟨operator', operand'⟩ := there
    obtain ⟨rfl, alike⟩ : operator = operator' ∧ AlikeExpr repin operand operand' := link
    exact ((RenewedText.refl (" " ++ operator.text ++ " ")).append alike.print).append ih

theorem printCondition_renewed {first second : Option Expr}
    (condition : Option.Rel (AlikeExpr repin) first second) :
    RenewedText repin (printCondition first) (printCondition second) := by
  cases condition with
  | none => exact .refl _
  | some here => exact (RenewedText.refl " if ").append here.print

private theorem quoted_of_head? {first second : List Char} {c : Char} (head : first.head? = some c)
    (marked : isPlainChar c = false) (other : c ≠ '"') : Quoted repin first second := by
  refine ⟨⟨c, List.mem_of_head? head, marked⟩, fun source same => ?_⟩
  rw [same] at head
  exact absurd (Option.some.inj head).symm other

private theorem renewed_marked {first second : Expr}
    (print : RenewedText repin first.print second.print) :
    RenewedDatum repin first.marked second.marked := by
  refine .text (((RenewedText.refl "$\x7b").append print).append (.refl "\x7d")) ?_
  exact quoted_of_head? (c := '$') (by simp) (by decide) (by decide)

namespace AlikeExpr

variable {first second : Expr}

theorem of_marked (print : RenewedText repin first.print second.print)
    (value : first.value = first.marked) (value' : second.value = second.marked) :
    AlikeExpr repin first second := by
  refine ⟨print, ?_⟩
  rw [value, value']
  exact renewed_marked print

theorem reference (name : String) : AlikeExpr repin (.reference name) (.reference name) :=
  of_marked (.refl _) rfl rfl

theorem integer (digits : List Char) : AlikeExpr repin (.integer digits) (.integer digits) :=
  ⟨.refl _, .scalar fun _ _ => ⟨nofun, nofun⟩⟩

theorem decimal (digits : List Char) : AlikeExpr repin (.decimal digits) (.decimal digits) := by
  refine ⟨.refl _, ?_⟩
  simp only [Expr.value]
  split
  · exact .text (.refl _) (quoted_of_head? (c := '$') (by simp) (by decide) (by decide))
  · split <;> exact .scalar fun _ _ => by simp

theorem constant (word : Constant) : AlikeExpr repin (.constant word) (.constant word) := by
  refine ⟨.refl _, .scalar fun _ _ => ?_⟩
  cases word <;> exact ⟨nofun, nofun⟩

theorem quoted {first second : List Part} (parts : AlikeParts repin first second)
    (stands : AlikeSource repin (printParts first).toList (printParts second).toList) :
    AlikeExpr repin (.quoted first) (.quoted second) := by
  have print := ((RenewedText.refl "\"").append parts.print).append (.refl "\"")
  have text (parts : List Part) :
      ("\"" ++ printParts parts ++ "\"").toList = inQuotes (printParts parts).toList := by
    simp [inQuotes]
  refine ⟨print, .text print ?_⟩
  rw [text, text]
  refine ⟨⟨'"', List.mem_cons_self, by decide⟩, fun source same => ⟨_, rfl, ?_⟩⟩
  rwa [← List.append_cancel_right (List.cons.inj same).2]

theorem group (inner : AlikeExpr repin first second) :
    AlikeExpr repin (.group first) (.group second) :=
  of_marked (((RenewedText.refl "(").append inner.print).append (.refl ")")) rfl rfl

theorem call {first second : List Expr} (path : List String) (spread : Bool)
    (items : List.Forall₂ (AlikeExpr repin) first second) :
    AlikeExpr repin (.call path first spread) (.call path second spread) :=
  of_marked ((((RenewedText.refl ("::".intercalate path ++ "(")).append
    (printItems_renewed items)).append (.refl (if spread then " ..." else ""))).append (.refl ")"))
    rfl rfl

theorem tuple {first second : List Expr} (items : List.Forall₂ (AlikeExpr repin) first second) :
    AlikeExpr repin (.tuple first) (.tuple second) := by
  refine ⟨((RenewedText.refl "[").append (printItems_renewed items)).append (.refl "]"), .list ?_⟩
  induction items with
  | nil => exact .nil
  | cons here _ ih => exact .cons here.value ih

theorem object {first second : List (Expr × Expr)}
    (fields : List.Forall₂ (AlikeField repin) first second) :
    AlikeExpr repin (.object first) (.object second) :=
  ⟨((RenewedText.refl "\x7b").append (printFields_renewed fields)).append (.refl "\x7d"), .object⟩

theorem forTuple {source source' value value' : Expr} {condition condition' : Option Expr}
    (binders : List String) (sources : AlikeExpr repin source source')
    (values : AlikeExpr repin value value')
    (conditions : Option.Rel (AlikeExpr repin) condition condition') :
    AlikeExpr repin (.forTuple binders source value condition)
      (.forTuple binders source' value' condition') :=
  of_marked ((((((RenewedText.refl ("[for " ++ printNames binders ++ " in ")).append
    sources.print).append (.refl " : ")).append values.print).append
    (printCondition_renewed conditions)).append (.refl "]")) rfl rfl

theorem forObject {source source' key key' value value' : Expr}
    {condition condition' : Option Expr} (binders : List String) (grouped : Bool)
    (sources : AlikeExpr repin source source') (keys : AlikeExpr repin key key')
    (values : AlikeExpr repin value value')
    (conditions : Option.Rel (AlikeExpr repin) condition condition') :
    AlikeExpr repin (.forObject binders source key value grouped condition)
      (.forObject binders source' key' value' grouped condition') :=
  of_marked (((((((((RenewedText.refl ("\x7bfor " ++ printNames binders ++ " in ")).append
    sources.print).append (.refl " : ")).append keys.print).append (.refl " => ")).append
    values.print).append (.refl (if grouped then "..." else ""))).append
    (printCondition_renewed conditions)).append (.refl "\x7d")) rfl rfl

theorem access {step step' : Step} (subject : AlikeExpr repin first second)
    (steps : AlikeStep repin step step') :
    AlikeExpr repin (.access first step) (.access second step') :=
  of_marked (subject.print.append steps) rfl rfl

theorem unary (operator : Symbol) (operand : AlikeExpr repin first second) :
    AlikeExpr repin (.unary operator first) (.unary operator second) :=
  of_marked ((RenewedText.refl operator.text).append operand.print) rfl rfl

theorem chain {rest rest' : List (Symbol × Expr)} (start : AlikeExpr repin first second)
    (links : List.Forall₂ (AlikeLink repin) rest rest') :
    AlikeExpr repin (.chain first rest) (.chain second rest') :=
  of_marked (start.print.append (printChain_renewed links)) rfl rfl

theorem conditional {yes yes' no no' : Expr} (condition : AlikeExpr repin first second)
    (yeses : AlikeExpr repin yes yes') (noes : AlikeExpr repin no no') :
    AlikeExpr repin (.conditional first yes no) (.conditional second yes' no') :=
  of_marked ((((condition.print.append (.refl " ? ")).append yeses.print).append
    (.refl " : ")).append noes.print) rfl rfl

end AlikeExpr

theorem AlikeStep.index {first second : Expr} (key : AlikeExpr repin first second) :
    AlikeStep repin (.index first) (.index second) :=
  ((RenewedText.refl "[").append key.print).append (.refl "]")

private theorem heredocText_append (body : List Char) :
    (heredocText (body ++ ['\n'])).toList = inQuotes body := by
  simp [heredocText, inQuotes]

private theorem heredocText_of_getLast? {text : List Char} (other : text.getLast? ≠ some '\n') :
    (heredocText text).toList = inQuotes text := by
  unfold heredocText
  split
  · rename_i rest reversed
    have same : text = rest.reverse ++ ['\n'] := by rw [← List.reverse_reverse text, reversed]; simp
    simp [same] at other
  · simp [inQuotes]

theorem AlikeExpr.heredoc {first second : List Char} (renewed : Renewed repin first second)
    (opened : first.head? = some '<') : AlikeExpr repin (.heredoc first) (.heredoc second) := by
  have around {body body' : List Char} (inner : Renewed repin body body')
      (opened : body.head? = some '<') (text : (heredocText first).toList = inQuotes body)
      (text' : (heredocText second).toList = inQuotes body') :
      RenewedDatum repin (.text (heredocText first)) (.text (heredocText second)) := by
    refine .text ?_ ?_
    · rw [text, text']
      exact .cons _ (inner.append (.refl _))
    · rw [text, text']
      refine ⟨⟨'"', List.mem_cons_self, by decide⟩, fun source same => ⟨_, rfl, fun plain => ?_⟩⟩
      rw [← List.append_cancel_right (List.cons.inj same).2] at plain
      exact absurd (plain '<' (List.mem_of_head? opened)) (by decide)
  refine ⟨.ofList renewed, ?_⟩
  simp only [Expr.value]
  rcases renewed.concat_cases (d := '\n') (by decide) (by decide) with
    ⟨body, body', rfl, rfl, inner⟩ | ⟨other, other'⟩
  · refine around inner ?_ (heredocText_append body) (heredocText_append body')
    cases body with
    | nil => simp at opened
    | cons c body => exact opened
  · exact around renewed opened (heredocText_of_getLast? other) (heredocText_of_getLast? other')

theorem AlikeExpr.escapedText {first second : List Char} (renewed : Renewed repin first second)
    (opened : first.head? = some '\\') :
    AlikeExpr repin (.escapedText first) (.escapedText second) := by
  refine ⟨.ofList renewed, .text ?_ ?_⟩
  · simpa using renewed
  · exact quoted_of_head? (c := '\\') (by simpa using opened) (by decide) (by decide)

end InfraPins.Repin
