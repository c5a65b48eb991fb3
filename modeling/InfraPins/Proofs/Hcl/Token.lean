import InfraPins.Proofs.Hcl.Number
import InfraPins.Proofs.Search

namespace InfraPins.Text

theorem after?_append_cons {opening : List Char} {c : Char} (front back : List Char)
    (absent : c ∉ opening) :
    after? opening (front ++ c :: back) = (after? opening front).map (· ++ c :: back) := by
  induction opening generalizing front with
  | nil => rfl
  | cons d opening ih =>
    have different : d ≠ c := fun same => absent (by simp [same])
    cases front with
    | nil => simp [after?, different]
    | cons e front =>
      simp only [List.cons_append, after?]
      split
      · exact ih front fun member => absent (List.mem_cons_of_mem _ member)
      · rfl

theorem eq_of_cutAt? {separator : Char} {text before rest : List Char}
    (cut : cutAt? separator text = some (before, rest)) : text = before ++ separator :: rest := by
  induction text generalizing before with
  | nil => cases cut
  | cons c text ih =>
    unfold cutAt? at cut
    split at cut
    · simp_all
    · obtain ⟨found, here, same⟩ := Option.map_eq_some_iff.mp cut
      obtain ⟨rfl, rfl⟩ := Prod.mk.inj same
      rw [ih here, List.cons_append]

theorem cutAt?_append (separator : Char) (front back : List Char) :
    cutAt? separator (front ++ back) =
      match cutAt? separator front with
      | some (before, rest) => some (before, rest ++ back)
      | none => (cutAt? separator back).map fun found => (front ++ found.1, found.2) := by
  induction front with
  | nil => simp [cutAt?]
  | cons c front ih =>
    simp only [List.cons_append, cutAt?, ih]
    split
    · rfl
    · cases cutAt? separator front <;> cases cutAt? separator back <;> rfl

theorem cutAt?_eq_none_iff {separator : Char} {text : List Char} :
    cutAt? separator text = none ↔ separator ∉ text := by
  constructor
  · intro missed member
    induction text with
    | nil => cases member
    | cons c text ih =>
      unfold cutAt? at missed
      split at missed
      · cases missed
      · rename_i other
        rcases List.mem_cons.mp member with same | member
        · exact other (by simp [same])
        · exact ih (Option.map_eq_none_iff.mp missed) member
  · intro absent
    cases cut : cutAt? separator text with
    | none => rfl
    | some found => exact absurd (by simp [eq_of_cutAt? cut]) absent

end InfraPins.Text

namespace InfraPins.Hcl

open Text

variable {c : Char} {text rest : List Char}

theorem eq_of_commentBody? {body : List Char} (found : commentBody? text = some (body, rest)) :
    text = body ++ rest := by
  fun_induction commentBody? text generalizing body with
  | case1 after =>
    obtain ⟨rfl, rfl⟩ := Prod.mk.inj (Option.some.inj found)
    rfl
  | case2 c text _ ih =>
    obtain ⟨⟨inner, after⟩, earlier, same⟩ := Option.map_eq_some_iff.mp found
    obtain ⟨rfl, rfl⟩ := Prod.mk.inj same
    rw [ih earlier, List.cons_append]
  | case3 => cases found

theorem commentBody?_append (front : List Char) {back : List Char} (apart : back.head? ≠ some '/') :
    commentBody? (front ++ back) =
      match commentBody? front with
      | some (body, rest) => some (body, rest ++ back)
      | none => (commentBody? back).map fun found => (front ++ found.1, found.2) := by
  fun_induction commentBody? front with
  | case1 after => simp [commentBody?]
  | case2 c text inside ih =>
    have inside' : ∀ rest, c = '*' → text ++ back = '/' :: rest → False := by
      rintro rest rfl split
      cases text with
      | nil => exact apart (by simp_all)
      | cons d text => exact inside text rfl (by simp_all)
    rw [List.cons_append, commentBody?.eq_2 _ _ inside', ih]
    cases commentBody? text <;> cases commentBody? back <;> rfl
  | case3 => simp

/-- A comment goes on over a text without a star. -/
theorem commentBody?_append_of_notMem {front : List Char} (back : List Char)
    (absent : '*' ∉ front) :
    commentBody? (front ++ back) =
      (commentBody? back).map fun found => (front ++ found.1, found.2) := by
  induction front with
  | nil => simp
  | cons c front ih =>
    have other : c ≠ '*' := fun same => absent (by simp [same])
    rw [List.cons_append, commentBody?.eq_2 _ _ fun _ same _ => other same,
      ih fun member => absent (List.mem_cons_of_mem _ member)]
    cases commentBody? back <;> rfl

theorem suffix_of_afterLineEnd? (found : afterLineEnd? text = some rest) :
    rest <:+ text ∧ rest.length < text.length := by
  unfold afterLineEnd? at found
  split at found
  · obtain rfl := Option.some.inj found
    exact ⟨List.suffix_cons _ _, by simp⟩
  · obtain rfl := Option.some.inj found
    exact ⟨(List.suffix_cons _ _).trans (List.suffix_cons _ _), by simp only [List.length_cons]; omega⟩
  · cases found

theorem afterLineEnd?_append (front back : List Char) (inline : c ≠ '\n' ∧ c ≠ '\r') :
    afterLineEnd? (front ++ c :: back) = (afterLineEnd? front).map (· ++ c :: back) := by
  match front with
  | [] => simp [afterLineEnd?, inline]
  | [a] =>
    by_cases feed : a = '\n'
    · simp [afterLineEnd?, feed]
    · simp [afterLineEnd?, feed, inline]
  | a :: b :: front =>
    by_cases feed : a = '\n'
    · simp [afterLineEnd?, feed]
    · by_cases both : a = '\r' ∧ b = '\n'
      · simp [afterLineEnd?, both]
      · have missed (text : List Char) : afterLineEnd? (a :: b :: text) = none := by
          unfold afterLineEnd?
          split <;> simp_all
        rw [List.cons_append, List.cons_append, missed, missed]
        rfl

theorem suffix_of_heredocClose? {marker : List Char} (found : heredocClose? marker text = some rest) :
    rest <:+ text := by
  obtain ⟨after, here, ended⟩ := Option.bind_eq_some_iff.mp found
  have trimmed : trimStart text <:+ text := List.dropWhile_suffix isBlank
  have behind : after <:+ trimStart text := ⟨marker, (after?_eq_some_iff.mp here).symm⟩
  exact ((suffix_of_afterLineEnd? ended).1.trans behind).trans trimmed

theorem suffix_of_heredocEnd? {marker : List Char} {lineStart : Bool}
    (found : heredocEnd? marker lineStart text = some rest) : rest <:+ text := by
  fun_induction heredocEnd? marker lineStart text with
  | case1 => exact suffix_of_heredocClose? found
  | case2 => cases found
  | case3 c text after closed =>
    obtain rfl := Option.some.inj found
    exact suffix_of_heredocClose? closed
  | case4 c text _ ih => exact (ih found).trans (List.suffix_cons _ _)
  | case5 c text ih => exact (ih found).trans (List.suffix_cons _ _)

/-- A character that stands in no marker of a heredoc and in none of the white space about it. -/
def isForeign (marker : List Char) (c : Char) : Prop :=
  c ∉ marker ∧ isBlank c = false

variable {marker : List Char}

theorem heredocClose?_append (front back : List Char) (foreign : isForeign marker c) :
    heredocClose? marker (front ++ c :: back) = (heredocClose? marker front).map (· ++ c :: back) := by
  have inline : c ≠ '\n' ∧ c ≠ '\r' := by
    constructor <;>
    · rintro rfl
      cases foreign.2
  rw [heredocClose?, heredocClose?, trimStart, trimStart, dropWhile_append_cons _ _ foreign.2,
    after?_append_cons _ _ foreign.1]
  cases after? marker (front.dropWhile isBlank) with
  | none => rfl
  | some after => exact afterLineEnd?_append after back inline

/-- The body of a heredoc ends before a foreign character, or the character belongs to it. -/
theorem heredocEnd?_append (front : List Char) (lineStart : Bool) (foreign : isForeign marker c) :
    (∃ rest, rest <:+ front ∧
        ∀ back, heredocEnd? marker lineStart (front ++ c :: back) = some (rest ++ c :: back)) ∨
      ∀ back, heredocEnd? marker lineStart (front ++ c :: back) = heredocEnd? marker false back := by
  have inline : (c == '\n') = false := by
    rw [beq_eq_false_iff_ne]
    rintro rfl
    cases foreign.2
  induction front generalizing lineStart with
  | nil =>
    right
    intro back
    cases lineStart with
    | false => simp [heredocEnd?, inline]
    | true =>
      have missed : heredocClose? marker (c :: back) = none := by
        rw [← List.nil_append (c :: back), heredocClose?_append _ _ foreign]
        cases closed : heredocClose? marker [] with
        | none => rfl
        | some rest =>
          obtain ⟨after, here, ended⟩ := Option.bind_eq_some_iff.mp closed
          obtain ⟨_, rfl⟩ := List.append_eq_nil_iff.mp (after?_eq_some_iff.mp here).symm
          cases ended
      simp [heredocEnd?, missed, inline]
  | cons d front ih =>
    cases lineStart with
    | false =>
      rcases ih (d == '\n') with ⟨rest, inside, ends⟩ | passes
      · exact .inl ⟨rest, inside.trans (List.suffix_cons _ _), fun back => ends back⟩
      · exact .inr fun back => passes back
    | true =>
      cases closed : heredocClose? marker (d :: front) with
      | some rest =>
        refine .inl ⟨rest, suffix_of_heredocClose? closed, fun back => ?_⟩
        have here := heredocClose?_append (d :: front) back foreign
        rw [closed] at here
        simp only [List.cons_append] at here ⊢
        simp [heredocEnd?, here]
      | none =>
        have onward (back : List Char) : heredocEnd? marker true (d :: front ++ c :: back) =
            heredocEnd? marker (d == '\n') (front ++ c :: back) := by
          have here := heredocClose?_append (d :: front) back foreign
          rw [closed] at here
          simp only [List.cons_append] at here ⊢
          simp [heredocEnd?, here]
        simp only [onward]
        rcases ih (d == '\n') with ⟨rest, inside, ends⟩ | passes
        · exact .inl ⟨rest, inside.trans (List.suffix_cons _ _), ends⟩
        · exact .inr passes

/-- Inside a line nothing ends a heredoc. -/
theorem heredocEnd?_append_line {front : List Char} (back : List Char) (line : '\n' ∉ front) :
    heredocEnd? marker false (front ++ back) = heredocEnd? marker false back := by
  induction front with
  | nil => rfl
  | cons d front ih =>
    have inline : (d == '\n') = false := by
      rw [beq_eq_false_iff_ne]
      exact fun same => line (by simp [same])
    simp only [List.cons_append, heredocEnd?, inline]
    exact ih fun member => line (List.mem_cons_of_mem _ member)

theorem suffix_of_escapedEnd? (found : escapedEnd? text = some rest) : rest <:+ text := by
  fun_induction escapedEnd? text with
  | case1 => cases found
  | case2 => cases found
  | case3 => cases found
  | case4 c text _ after ended ih =>
    have behind := ih (ended.trans found)
    exact behind.trans ((List.suffix_cons _ _).trans (List.suffix_cons _ _))
  | case5 text _ _ _ _ =>
    obtain rfl := Option.some.inj found
    exact (List.suffix_cons _ _).trans (List.suffix_cons _ _)
  | case6 => cases found
  | case7 => cases found
  | case8 c text _ _ _ ih => exact (ih found).trans (List.suffix_cons _ _)

/-- A character that has no meaning between escaped quotes. -/
def isMute (c : Char) : Prop :=
  c ≠ '"' ∧ c ≠ '\\' ∧ c ≠ '\n'

/-- How a text between escaped quotes goes on from its front over a mute character: it ended there
for good, or it ends behind the character if it can. Otherwise it ends at the last escaped quote
of the front. -/
def Reaches (c : Char) (front : List Char) : Prop :=
  ∃ fallback : Option (List Char), (∀ rest ∈ fallback, rest <:+ front) ∧
    ((∀ back, escapedEnd? (front ++ c :: back) = fallback.map (· ++ c :: back)) ∨
      ∀ back, escapedEnd? (front ++ c :: back) =
        (escapedEnd? back).or (fallback.map (· ++ c :: back)))

private theorem escapedEnd?_pair {d : Char} (inline : d ≠ '\n') (text : List Char) :
    escapedEnd? ('\\' :: d :: text) =
      (escapedEnd? text).or (if d = '"' then some text else none) := by
  cases ended : escapedEnd? text <;> simp [escapedEnd?, inline, ended]

private theorem escapedEnd?_plain {d : Char} (unquoted : d ≠ '"') (unescaped : d ≠ '\\')
    (text : List Char) : escapedEnd? (d :: text) = escapedEnd? text := by
  rw [escapedEnd?.eq_def]
  split <;> simp_all

private theorem Reaches.pair {d : Char} {front : List Char} (reaches : Reaches c front)
    (inline : d ≠ '\n') : Reaches c ('\\' :: d :: front) := by
  obtain ⟨fallback, inside, ends⟩ := reaches
  refine ⟨fallback.or (if d = '"' then some front else none), ?_, ?_⟩
  · intro rest member
    have deeper : front <:+ '\\' :: d :: front :=
      (List.suffix_cons _ _).trans (List.suffix_cons _ _)
    rcases Option.or_eq_some_iff.mp member with here | ⟨_, here⟩
    · exact (inside rest here).trans deeper
    · simp_all
  · simp only [List.cons_append, escapedEnd?_pair inline]
    have last (back : List Char) : (if d = '"' then some (front ++ c :: back) else none) =
        (if d = '"' then some front else none).map (· ++ c :: back) := by
      split <;> rfl
    rcases ends with ends | ends
    · exact .inl fun back => by rw [ends, last, Option.map_or]
    · exact .inr fun back => by rw [ends, last, Option.map_or, Option.or_assoc]

theorem reaches_of_isMute (front : List Char) (mute : isMute c) : Reaches c front := by
  have whole : Reaches c [] :=
    ⟨none, by simp, .inr fun back => by simp [escapedEnd?_plain mute.1 mute.2.1]⟩
  fun_induction escapedEnd? front with
  | case1 => exact whole
  | case2 front => exact ⟨none, by simp, .inl fun back => by simp [escapedEnd?]⟩
  | case3 d front feed =>
    exact ⟨none, by simp, .inl fun back => by simp_all [escapedEnd?]⟩
  | case4 d front inline _ _ ih => exact ih.pair (by simpa using inline)
  | case5 d front inline _ quoted ih => exact ih.pair (by simpa using inline)
  | case6 d front inline _ _ ih => exact ih.pair (by simpa using inline)
  | case7 =>
    refine ⟨none, by simp, .inr fun back => ?_⟩
    simp [escapedEnd?_pair mute.2.2, mute.1]
  | case8 d front unquoted unescaped unended ih =>
    obtain ⟨fallback, inside, ends⟩ := ih
    refine ⟨fallback, fun rest member => (inside rest member).trans (List.suffix_cons _ _), ?_⟩
    have plain : d ≠ '\\' := by
      rintro rfl
      cases front with
      | nil => exact unended rfl rfl
      | cons e front => exact unescaped e front rfl rfl
    simpa only [List.cons_append, escapedEnd?_plain unquoted plain] using ends

/-- Over mute characters a text between escaped quotes goes on. -/
theorem escapedEnd?_append_mute {front : List Char} (back : List Char)
    (mute : ∀ d ∈ front, isMute d) : escapedEnd? (front ++ back) = escapedEnd? back := by
  induction front with
  | nil => rfl
  | cons d front ih =>
    have here := mute d List.mem_cons_self
    rw [List.cons_append, escapedEnd?_plain here.1 here.2.1]
    exact ih fun e member => mute e (List.mem_cons_of_mem _ member)

def isMarkerChar (c : Char) : Bool :=
  continuesName c || c == '.'

/-- The opening line of a heredoc: its marker, and the text after the line. -/
def heredocOpening? (text : List Char) : Option (List Char × List Char) := do
  let rest ← after? ['<', '<'] text
  let (marker, rest) := spanWhile isMarkerChar ((after? ['-'] rest).getD rest)
  let first ← marker.head?
  if first.isAlpha then (afterLineEnd? rest).map (marker, ·) else none

theorem heredoc?_eq (text : List Char) :
    heredoc? text = (heredocOpening? text).bind fun found =>
      (heredocEnd? found.1 true found.2).map fun rest =>
        (.heredoc (text.take (text.length - rest.length)), rest) := by
  unfold heredoc? heredocOpening?
  rw [show (fun c => continuesName c || c == '.') = isMarkerChar from rfl]
  cases after? ['<', '<'] text with
  | none => rfl
  | some rest =>
    simp only [Option.bind_eq_bind, Option.bind_some]
    cases (spanWhile isMarkerChar ((after? ['-'] rest).getD rest)).1.head? with
    | none => rfl
    | some first =>
      simp only [Option.bind_some]
      split
      · cases afterLineEnd? (spanWhile isMarkerChar ((after? ['-'] rest).getD rest)).2 with
        | none => rfl
        | some body =>
          simp only [Option.bind_some, Option.map_some]
          cases heredocEnd? _ true body <;> rfl
      · rfl

theorem suffix_of_heredocOpening? {marker : List Char}
    (found : heredocOpening? text = some (marker, rest)) :
    rest <:+ text ∧ rest.length < text.length ∧ ['<', '<'] <+: text ∧
      ∀ c ∈ marker, isMarkerChar c := by
  obtain ⟨after, opened, found⟩ := Option.bind_eq_some_iff.mp found
  obtain ⟨first, _, found⟩ := Option.bind_eq_some_iff.mp found
  obtain ⟨_, found⟩ := Option.ite_none_right_eq_some.mp found
  obtain ⟨body, ended, same⟩ := Option.map_eq_some_iff.mp found
  obtain ⟨rfl, rfl⟩ := Prod.mk.inj same
  have split := after?_eq_some_iff.mp opened
  have dashed : (after? ['-'] after).getD after <:+ after := by
    cases dash : after? ['-'] after with
    | none => exact List.suffix_rfl
    | some behind => exact ⟨['-'], (after?_eq_some_iff.mp dash).symm⟩
  have spanned := (suffix_of_afterLineEnd? ended).1.trans ((List.dropWhile_suffix _).trans dashed)
  refine ⟨spanned.trans ⟨['<', '<'], split.symm⟩, ?_, ⟨after, split.symm⟩, ?_⟩
  · have shorter := spanned.length_le
    simp only [split, List.cons_append, List.nil_append, List.length_cons]
    omega
  · exact fun c member => List.all_eq_true.mp List.all_takeWhile c member

/-- A character that ends every word, number and marker. -/
def endsWord (c : Char) : Prop :=
  endsNumber c = true ∧ continuesName c = false ∧ isBlank c = false ∧ c ≠ '<'

theorem heredocOpening?_append (front back : List Char) (ends : endsWord c) :
    heredocOpening? (front ++ c :: back) =
      (heredocOpening? front).map fun found => (found.1, found.2 ++ c :: back) := by
  obtain ⟨number, name, blank, different⟩ := ends
  have refused : isMarkerChar c = false := by
    simp_all [endsNumber, isMarkerChar]
  have inline : c ≠ '\n' ∧ c ≠ '\r' := by
    constructor <;>
    · rintro rfl
      cases blank
  have dash : c ∉ ['-'] := by
    simp_all [endsNumber]
  unfold heredocOpening?
  rw [after?_append_cons front back (by simpa using different)]
  cases after? ['<', '<'] front with
  | none => rfl
  | some after =>
    have dashed : (after? ['-'] (after ++ c :: back)).getD (after ++ c :: back) =
        (after? ['-'] after).getD after ++ c :: back := by
      rw [after?_append_cons after back dash]
      cases after? ['-'] after <;> rfl
    simp only [Option.map_some, Option.bind_eq_bind, Option.bind_some, dashed,
      spanWhile_append_cons _ back refused]
    cases (spanWhile isMarkerChar ((after? ['-'] after).getD after)).1.head? with
    | none => rfl
    | some first =>
      simp only [Option.bind_some, afterLineEnd?_append _ back inline]
      split
      · cases afterLineEnd? _ <;> rfl
      · rfl

theorem eq_of_heredoc? {token : Token} (found : heredoc? text = some (token, rest)) :
    ∃ marker body, heredocOpening? text = some (marker, body) ∧
      heredocEnd? marker true body = some rest ∧
      token = .heredoc (text.take (text.length - rest.length)) := by
  rw [heredoc?_eq] at found
  obtain ⟨⟨marker, body⟩, opened, found⟩ := Option.bind_eq_some_iff.mp found
  obtain ⟨after, ended, same⟩ := Option.map_eq_some_iff.mp found
  obtain ⟨rfl, rfl⟩ := Prod.mk.inj same
  exact ⟨marker, body, opened, ended, rfl⟩

theorem eq_of_escapedText? {token : Token} (found : escapedText? text = some (token, rest)) :
    ∃ body, after? ['\\', '"'] text = some body ∧ escapedEnd? body = some rest ∧
      token = .escapedText (text.take (text.length - rest.length)) := by
  obtain ⟨body, opened, found⟩ := Option.bind_eq_some_iff.mp found
  obtain ⟨after, ended, same⟩ := Option.bind_eq_some_iff.mp found
  obtain ⟨rfl, rfl⟩ := Prod.mk.inj (Option.some.inj same)
  exact ⟨body, opened, ended, rfl⟩

theorem eq_of_symbol? {token : Token} (found : symbol? text = some (token, rest)) :
    ∃ symbol, token = .symbol symbol ∧ text = symbol.text.toList ++ rest := by
  obtain ⟨symbol, _, here⟩ := List.exists_of_findSome?_eq_some found
  obtain ⟨after, behind, same⟩ := Option.map_eq_some_iff.mp here
  obtain ⟨rfl, rfl⟩ := Prod.mk.inj same
  exact ⟨symbol, rfl, after?_eq_some_iff.mp behind⟩

theorem Symbol.text_ne_nil (symbol : Symbol) : symbol.text.toList ≠ [] := by
  cases symbol <;> decide

/-- Behind at least one character, neither a slash nor a letter is part of a symbol. -/
theorem symbol?_append {front : List Char} (back : List Char) (nonempty : front ≠ [])
    (outside : c = '/' ∨ c.isAlpha = true) :
    symbol? (front ++ c :: back) =
      (symbol? front).map fun found => (found.1, found.2 ++ c :: back) := by
  have each (symbol : Symbol) : after? symbol.text.toList (front ++ c :: back) =
      (after? symbol.text.toList front).map (· ++ c :: back) := by
    by_cases slash : symbol = .over
    · subst slash
      cases front with
      | nil => exact absurd rfl nonempty
      | cons d front =>
        rw [show Symbol.over.text.toList = ['/'] from rfl, List.cons_append]
        by_cases slash : ('/' == d) = true <;> simp [after?, slash]
    · refine after?_append_cons front back ?_
      rcases outside with rfl | letter
      · cases symbol <;> first | decide | exact absurd rfl slash
      · intro member
        have unlettered : symbol.text.toList.all (fun d => !d.isAlpha) = true := by
          cases symbol <;> decide
        simpa [letter] using List.all_eq_true.mp unlettered c member
  unfold symbol?
  induction Symbol.all with
  | nil => rfl
  | cons symbol symbols ih =>
    rw [List.findSome?_cons, List.findSome?_cons, ih, each]
    cases after? symbol.text.toList front <;> rfl

theorem suffix_of_token? {expected : Expectation} {token : Token}
    (found : token? expected text = some (token, rest)) :
    rest <:+ text ∧ (token ≠ .finish → rest.length < text.length) ∧
      (token = .symbol .quote → text = '"' :: rest) := by
  have taken {front : List Char} (split : text = front ++ rest) (nonempty : front ≠ []) :
      rest <:+ text ∧ rest.length < text.length := by
    refine ⟨⟨front, split.symm⟩, ?_⟩
    have longer := List.length_pos_iff.mpr nonempty
    rw [split, List.length_append]
    omega
  unfold token? at found
  split at found
  · obtain ⟨rfl, rfl⟩ := Prod.mk.inj (Option.some.inj found)
    exact ⟨List.suffix_rfl, fun other => absurd rfl other, nofun⟩
  · rename_i c text
    split at found
    · obtain ⟨rfl, rfl⟩ := Prod.mk.inj (Option.some.inj found)
      have short := (List.dropWhile_suffix (l := text) continuesName)
      refine ⟨short.trans (List.suffix_cons _ _), fun _ => Nat.lt_succ_of_le short.length_le, ?_⟩
      intro quote
      unfold wordToken at quote
      split at quote
      · cases quote
      · split at quote <;> cases quote
    · split at found
      · rename_i here
        obtain rfl := Option.some.inj found
        obtain ⟨marker, body, opened, ended, rfl⟩ := eq_of_heredoc? here
        have opening := suffix_of_heredocOpening? opened
        have behind := suffix_of_heredocEnd? ended
        exact ⟨behind.trans opening.1,
          fun _ => Nat.lt_of_le_of_lt behind.length_le opening.2.1, nofun⟩
      · split at found
        · rename_i here
          obtain rfl := Option.some.inj found
          obtain ⟨body, opened, ended, rfl⟩ := eq_of_escapedText? here
          have split := after?_eq_some_iff.mp opened
          have behind := suffix_of_escapedEnd? ended
          refine ⟨behind.trans ⟨['\\', '"'], split.symm⟩, fun _ => ?_, nofun⟩
          have shorter := behind.length_le
          simp only [split, List.cons_append, List.nil_append, List.length_cons]
          omega
        · split at found
          · rename_i here
            obtain rfl := Option.some.inj found
            obtain ⟨⟨digits, split, nonempty⟩, _, number⟩ := eq_of_number? here
            have shorter := taken split nonempty
            exact ⟨shorter.1, fun _ => shorter.2, by rintro rfl; simp at number⟩
          · obtain ⟨symbol, rfl, split⟩ := eq_of_symbol? found
            have shorter := taken split symbol.text_ne_nil
            refine ⟨shorter.1, fun _ => shorter.2, fun quote => ?_⟩
            obtain rfl := Token.symbol.inj quote
            exact split

private theorem head?_take {d : Char} (short : rest.length < text.length)
    (head : text.head? = some d) : (text.take (text.length - rest.length)).head? = some d := by
  cases text with
  | nil => cases head
  | cons e text =>
    obtain ⟨count, same⟩ := Nat.exists_eq_succ_of_ne_zero (Nat.sub_ne_zero_of_lt short)
    rw [same, List.take_succ_cons]
    exact head

theorem wordToken_cooked (expected : Expectation) (word : String) (raw : List Char) :
    wordToken expected word ≠ .heredoc raw ∧ wordToken expected word ≠ .escapedText raw := by
  unfold wordToken
  split
  · exact ⟨nofun, nofun⟩
  · split <;> exact ⟨nofun, nofun⟩

/-- A heredoc starts with less-than signs, an escaped text with a backslash. -/
theorem head?_of_token? {expected : Expectation} {token : Token} {raw : List Char}
    (found : token? expected text = some (token, rest)) :
    (token = .heredoc raw → raw.head? = some '<') ∧
      (token = .escapedText raw → raw.head? = some '\\') := by
  unfold token? at found
  split at found
  · obtain ⟨rfl, rfl⟩ := Prod.mk.inj (Option.some.inj found)
    exact ⟨nofun, nofun⟩
  · split at found
    · obtain ⟨rfl, rfl⟩ := Prod.mk.inj (Option.some.inj found)
      exact ⟨fun same => absurd same (wordToken_cooked expected _ raw).1,
        fun same => absurd same (wordToken_cooked expected _ raw).2⟩
    · split at found
      · rename_i here
        obtain rfl := Option.some.inj found
        obtain ⟨marker, body, opened, ended, rfl⟩ := eq_of_heredoc? here
        obtain ⟨_, shorter, ⟨more, opens⟩, _⟩ := suffix_of_heredocOpening? opened
        refine ⟨fun same => ?_, nofun⟩
        rw [← Token.heredoc.inj same]
        refine head?_take (Nat.lt_of_le_of_lt (suffix_of_heredocEnd? ended).length_le shorter) ?_
        rw [← opens]
        rfl
      · split at found
        · rename_i here
          obtain rfl := Option.some.inj found
          obtain ⟨body, opened, ended, rfl⟩ := eq_of_escapedText? here
          have opens := after?_eq_some_iff.mp opened
          refine ⟨nofun, fun same => ?_⟩
          rw [← Token.escapedText.inj same]
          refine head?_take ?_ (by rw [opens]; rfl)
          have shorter := (suffix_of_escapedEnd? ended).length_le
          simp only [opens, List.cons_append, List.nil_append, List.length_cons]
          omega
        · split at found
          · rename_i here
            obtain rfl := Option.some.inj found
            obtain ⟨_, _, number⟩ := eq_of_number? here
            constructor <;> (rintro rfl; simp at number)
          · obtain ⟨symbol, rfl, _⟩ := eq_of_symbol? found
            exact ⟨nofun, nofun⟩

theorem suffix_of_break? {gap : List Char} (found : break? text = some (gap, rest)) :
    rest <:+ text := by
  have lined {opening body text : List Char} (line : lineBody? text = some (body, rest)) :
      rest <:+ opening ++ text := by
    obtain ⟨⟨inner, after⟩, cut, same⟩ := Option.map_eq_some_iff.mp line
    obtain ⟨_, rfl⟩ := Prod.mk.inj same
    exact ⟨opening ++ (inner ++ ['\n']), by simp [eq_of_cutAt? cut]⟩
  unfold break? at found
  split at found
  · obtain ⟨_, rfl⟩ := Prod.mk.inj (Option.some.inj found)
    exact (List.dropWhile_suffix _).trans (List.suffix_cons _ _)
  · obtain ⟨⟨body, after⟩, line, same⟩ := Option.map_eq_some_iff.mp found
    obtain ⟨_, rfl⟩ := Prod.mk.inj same
    exact @lined ['#'] _ _ line
  · obtain ⟨⟨body, after⟩, line, same⟩ := Option.map_eq_some_iff.mp found
    obtain ⟨_, rfl⟩ := Prod.mk.inj same
    exact @lined ['/', '/'] _ _ line
  · obtain ⟨⟨body, after⟩, comment, same⟩ := Option.map_eq_some_iff.mp found
    obtain ⟨_, rfl⟩ := Prod.mk.inj same
    exact ⟨'/' :: '*' :: body, by simp [eq_of_commentBody? comment]⟩
  · cases found

theorem suffix_skipBreaks (text : List Char) : (skipBreaks text).2 <:+ text := by
  fun_induction skipBreaks text with
  | case1 text gap rest found more ih =>
    exact ih.trans ((suffix_of_break? found).trans (List.dropWhile_suffix isGap))
  | case2 text _ => exact List.dropWhile_suffix isGap

theorem skipBreaks_cons {gap : List Char}
    (found : break? (text.dropWhile isGap) = some (gap, rest)) :
    skipBreaks text = (gap :: (skipBreaks rest).1, (skipBreaks rest).2) := by
  rw [skipBreaks.eq_def]
  split <;> simp_all

theorem skipBreaks_nil (none : break? (text.dropWhile isGap) = none) :
    skipBreaks text = ([], text.dropWhile isGap) := by
  rw [skipBreaks.eq_def]
  split <;> simp_all

/-- What is left to read from a token on: nothing at the end, else one more than the text after it. -/
def Ahead.size (ahead : Ahead) : Nat :=
  if ahead.token = .finish then 0 else ahead.rest.length + 1

/-- Whether a token takes in the line end before it. -/
def Token.joinsLines : Token → Bool
  | .symbol mark => mark.joinsLines
  | _ => false

theorem ahead?_eq (expected : Expectation) (text : List Char) :
    ahead? expected text =
      (token? (if (skipBreaks text).1.length ≤ 1 then expected else .anything)
        (skipBreaks text).2).map fun found =>
          ⟨if found.1.joinsLines then (skipBreaks text).1.dropLast else (skipBreaks text).1,
            found.1, found.2⟩ := by
  unfold ahead?
  simp only [Option.bind_eq_bind]
  cases token? _ (skipBreaks text).2 with
  | none => rfl
  | some found =>
    obtain ⟨token, rest⟩ := found
    cases token <;> rfl

theorem eq_of_ahead? {expected : Expectation} {ahead : Ahead}
    (found : ahead? expected text = some ahead) :
    ∃ expected, token? expected (skipBreaks text).2 = some (ahead.token, ahead.rest) := by
  obtain ⟨⟨token, rest⟩, here, same⟩ := Option.bind_eq_some_iff.mp found
  obtain rfl := Option.some.inj same
  exact ⟨_, here⟩

theorem size_le_of_ahead? {expected : Expectation} {ahead : Ahead}
    (found : ahead? expected text = some ahead) : ahead.size ≤ text.length := by
  obtain ⟨_, here⟩ := eq_of_ahead? found
  have short := (suffix_skipBreaks text).length_le
  unfold Ahead.size
  split
  · exact Nat.zero_le _
  · rename_i other
    exact Nat.le_trans ((suffix_of_token? here).2.1 other) short

end InfraPins.Hcl
