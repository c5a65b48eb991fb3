import InfraPins.Proofs.Hcl.Token
import InfraPins.Proofs.Repin.Basic
import Mathlib.Data.Option.Basic

/-! Tokens of a repinned text. A reader of the language meets the same tokens before and after: the
place of the version is inside a string, a comment, a heredoc or an escaped text, or in code that no
document has. -/

namespace InfraPins.Repin

open Text Hcl

/-- Texts that are left to read, before and after: both from a place up to the mark, or both from
the same place behind the version. -/
inductive Aligned (repin : Repin) : List Char → List Char → Prop where
  | before {front : List Char} (inside : front <:+ repin.before) :
      Aligned repin (front ++ repin.mark :: repin.beyond repin.old)
        (front ++ repin.mark :: repin.beyond repin.new)
  | same {text : List Char} (inside : text <:+ repin.tail) : Aligned repin text text

/-- Tokens before and after. -/
inductive RenewedToken (repin : Repin) : Token → Token → Prop where
  | same {token : Token} (cooked : ∀ text, token ≠ .heredoc text ∧ token ≠ .escapedText text) :
      RenewedToken repin token token
  | heredoc {first second : List Char} (renewed : Renewed repin first second)
      (opened : first.head? = some '<') : RenewedToken repin (.heredoc first) (.heredoc second)
  | escapedText {first second : List Char} (renewed : Renewed repin first second)
      (opened : first.head? = some '\\') :
      RenewedToken repin (.escapedText first) (.escapedText second)

variable {repin : Repin}

theorem mark_cases (repin : Repin) : repin.mark = '?' ∨ repin.mark = '&' :=
  repin.marked.imp id And.left

theorem mark_endsWord (repin : Repin) : endsWord repin.mark := by
  rcases repin.mark_cases with same | same <;> rw [same] <;> unfold endsWord <;> decide

theorem mark_isMute (repin : Repin) : isMute repin.mark := by
  rcases repin.mark_cases with same | same <;> rw [same] <;> unfold isMute <;> decide

theorem mark_isReferenceChar (repin : Repin) : isReferenceChar repin.mark = true := by
  rcases repin.mark_cases with same | same <;> rw [same] <;> decide

/-- Readers go over the parameter as over other plain characters. -/
theorem plain_of_mem_refKey_append {c : Char} {version : List Char}
    (pinned : ∀ d ∈ version, isPinChar d = true) (member : c ∈ Source.refKey ++ version) :
    isReferenceChar c = true := by
  rcases List.mem_append.mp member with member | member
  · exact List.all_eq_true.mp (by decide : Source.refKey.all isReferenceChar = true) c member
  · exact isReferenceChar_of_isPinChar (pinned c member)

theorem notMem_refKey_append {c : Char} {version : List Char}
    (pinned : ∀ d ∈ version, isPinChar d = true) (other : isReferenceChar c = false) :
    c ∉ Source.refKey ++ version := by
  intro member
  rw [plain_of_mem_refKey_append pinned member] at other
  cases other

theorem beyond_eq_append (repin : Repin) (version : List Char) :
    repin.beyond version = (Source.refKey ++ version) ++ repin.tail :=
  (List.append_assoc _ _ _).symm

theorem renewed_beyond (repin : Repin) (front back : List Char) :
    Renewed repin (front ++ repin.mark :: (Source.refKey ++ (repin.old ++ back)))
      (front ++ repin.mark :: (Source.refKey ++ (repin.new ++ back))) :=
  .prepend front (.cons _ (.version (.refl back)))

private theorem take_of_eq_append {text front rest : List Char} (split : text = front ++ rest) :
    text.take (text.length - rest.length) = front := by
  subst split
  simp

private theorem head?_of_append {front taken rest : List Char} {c : Char}
    (split : taken ++ rest = front) (shorter : rest.length < front.length)
    (head : front.head? = some c) : taken.head? = some c := by
  cases taken with
  | nil =>
    rw [← split] at shorter
    exact absurd shorter (Nat.lt_irrefl _)
  | cons d taken => rw [← split] at head; exact head

theorem rel_or {α β : Type} {relation : α → β → Prop} {first third : Option α}
    {second fourth : Option β} (left : Option.Rel relation first second)
    (right : Option.Rel relation third fourth) :
    Option.Rel relation (first.or third) (second.or fourth) := by
  cases left with
  | none => exact right
  | some here => exact .some here

theorem rel_map {α β γ δ : Type} {relation : α → β → Prop} {image : γ → δ → Prop}
    {first : Option α} {second : Option β} {change : α → γ} {change' : β → δ}
    (related : Option.Rel relation first second)
    (changed : ∀ a b, relation a b → image (change a) (change' b)) :
    Option.Rel image (first.map change) (second.map change') := by
  cases related with
  | none => exact .none
  | some here => exact .some (changed _ _ here)

theorem rel_and {α β : Type} {relation : α → β → Prop} {property : β → Prop} {first : Option α}
    {second : Option β} (related : Option.Rel relation first second)
    (holds : ∀ b, second = some b → property b) :
    Option.Rel (fun a b => relation a b ∧ property b) first second := by
  cases related with
  | none => exact .none
  | some here => exact .some ⟨here, holds _ rfl⟩

theorem rel_bind {α β γ δ : Type} {relation : α → β → Prop} {image : γ → δ → Prop}
    {first : Option α} {second : Option β} {next : α → Option γ} {next' : β → Option δ}
    (related : Option.Rel relation first second)
    (onward : ∀ a b, relation a b → Option.Rel image (next a) (next' b)) :
    Option.Rel image (first.bind next) (second.bind next') := by
  cases related with
  | none => exact .none
  | some here => exact onward _ _ here

theorem rel_findSome? {α β γ : Type} {relation : β → γ → Prop} {items : List α}
    {first : α → Option β} {second : α → Option γ}
    (related : ∀ item ∈ items, Option.Rel relation (first item) (second item)) :
    Option.Rel relation (items.findSome? first) (items.findSome? second) := by
  induction items with
  | nil => exact .none
  | cons item items ih =>
    have here := related item List.mem_cons_self
    have rest := ih fun item member => related item (List.mem_cons_of_mem _ member)
    rw [List.findSome?_cons, List.findSome?_cons]
    revert here
    cases first item <;> cases second item <;> intro here <;> cases here
    · exact rest
    · rename_i found
      exact .some found

/-- What a reader has taken, before and after, when these texts are left. -/
private structure TakenAlike (repin : Repin) (opening : Char) (front rest rest' : List Char) :
    Prop where
  renewed : Renewed repin
    ((front ++ repin.mark :: repin.beyond repin.old).take
      ((front ++ repin.mark :: repin.beyond repin.old).length - rest.length))
    ((front ++ repin.mark :: repin.beyond repin.new).take
      ((front ++ repin.mark :: repin.beyond repin.new).length - rest'.length))
  opened : ((front ++ repin.mark :: repin.beyond repin.old).take
    ((front ++ repin.mark :: repin.beyond repin.old).length - rest.length)).head? = some opening
  aligned : Aligned repin rest rest'

private theorem takenAlike_before {front body rest : List Char} {opening : Char}
    (inside : front <:+ repin.before) (head : front.head? = some opening)
    (behind : body <:+ front) (shorter : body.length < front.length) (within : rest <:+ body) :
    TakenAlike repin opening front (rest ++ repin.mark :: repin.beyond repin.old)
      (rest ++ repin.mark :: repin.beyond repin.new) := by
  obtain ⟨taken, split⟩ := within.trans behind
  have whole (back : List Char) :
      front ++ repin.mark :: back = taken ++ (rest ++ repin.mark :: back) := by simp [← split]
  refine ⟨?_, ?_, .before (List.IsSuffix.trans ⟨taken, split⟩ inside)⟩
  · rw [take_of_eq_append (whole _), take_of_eq_append (whole _)]
    exact .refl _
  · rw [take_of_eq_append (whole _)]
    exact head?_of_append split (Nat.lt_of_le_of_lt within.length_le shorter) head

private theorem takenAlike_behind {front rest : List Char} {opening : Char}
    (head : front.head? = some opening) (short : rest <:+ repin.tail) :
    TakenAlike repin opening front rest rest := by
  obtain ⟨taken, split⟩ := short
  have whole (version : List Char) : front ++ repin.mark :: repin.beyond version =
      (front ++ repin.mark :: (Source.refKey ++ (version ++ taken))) ++ rest := by
    simp [beyond, ← split]
  refine ⟨?_, ?_, .same ⟨taken, split⟩⟩
  · rw [take_of_eq_append (whole _), take_of_eq_append (whole _)]
    exact renewed_beyond repin front taken
  · rw [take_of_eq_append (whole _), List.head?_append, head, Option.some_or]

theorem heredoc?_aligned {front : List Char} (inside : front <:+ repin.before) :
    Option.Rel (fun first second => RenewedToken repin first.1 second.1 ∧
        Aligned repin first.2 second.2)
      (heredoc? (front ++ repin.mark :: repin.beyond repin.old))
      (heredoc? (front ++ repin.mark :: repin.beyond repin.new)) := by
  rw [heredoc?_eq, heredoc?_eq, heredocOpening?_append _ _ repin.mark_endsWord,
    heredocOpening?_append _ _ repin.mark_endsWord]
  cases opened : heredocOpening? front with
  | none => exact .none
  | some found =>
    obtain ⟨marker, body⟩ := found
    obtain ⟨behind, shorter, ⟨more, opens⟩, words⟩ := suffix_of_heredocOpening? opened
    have foreign : isForeign marker repin.mark := by
      refine ⟨fun member => ?_, repin.mark_endsWord.2.2.1⟩
      have word := words _ member
      rcases repin.mark_cases with same | same <;> rw [same] at word <;> revert word <;> decide
    have head : front.head? = some '<' := by rw [← opens]; rfl
    simp only [Option.map_some, Option.bind_some]
    rcases heredocEnd?_append body true foreign with ⟨rest, within, ends⟩ | passes
    · have taken := takenAlike_before inside head behind shorter within
      rw [ends, ends, Option.map_some, Option.map_some]
      exact .some ⟨.heredoc taken.renewed taken.opened, taken.aligned⟩
    · -- The version is inside the heredoc.
      have across {version : List Char} (pinned : ∀ c ∈ version, isPinChar c = true) :
          heredocEnd? marker true (body ++ repin.mark :: repin.beyond version) =
            heredocEnd? marker false repin.tail := by
        rw [passes, beyond_eq_append, heredocEnd?_append_line]
        exact notMem_refKey_append pinned (by decide)
      rw [across repin.old_pinned, across repin.new_pinned]
      cases ended : heredocEnd? marker false repin.tail with
      | none => exact .none
      | some rest =>
        have taken := takenAlike_behind head (suffix_of_heredocEnd? ended)
        exact .some ⟨.heredoc taken.renewed taken.opened, taken.aligned⟩

private theorem escapedText?_eq (text : List Char) :
    escapedText? text = (after? ['\\', '"'] text).bind fun body =>
      (escapedEnd? body).map fun rest =>
        (.escapedText (text.take (text.length - rest.length)), rest) := by
  unfold escapedText?
  cases after? ['\\', '"'] text with
  | none => rfl
  | some body =>
    simp only [Option.bind_eq_bind, Option.bind_some]
    cases escapedEnd? body <;> rfl

theorem escapedText?_aligned {front : List Char} (inside : front <:+ repin.before) :
    Option.Rel (fun first second => RenewedToken repin first.1 second.1 ∧
        Aligned repin first.2 second.2)
      (escapedText? (front ++ repin.mark :: repin.beyond repin.old))
      (escapedText? (front ++ repin.mark :: repin.beyond repin.new)) := by
  have unquoted : repin.mark ∉ ['\\', '"'] := by
    simp [repin.mark_isMute.1, repin.mark_isMute.2.1]
  rw [escapedText?_eq, escapedText?_eq, after?_append_cons _ _ unquoted,
    after?_append_cons _ _ unquoted]
  cases opened : after? ['\\', '"'] front with
  | none => exact .none
  | some body =>
    have opens := after?_eq_some_iff.mp opened
    have head : front.head? = some '\\' := by rw [opens]; rfl
    have shorter : body.length < front.length := by
      simp only [opens, List.cons_append, List.nil_append, List.length_cons]
      omega
    simp only [Option.map_some, Option.bind_some]
    obtain ⟨fallback, within, ends⟩ := reaches_of_isMute body repin.mark_isMute
    have fallen : Option.Rel (fun rest rest' => TakenAlike repin '\\' front rest rest')
        (fallback.map (· ++ repin.mark :: repin.beyond repin.old))
        (fallback.map (· ++ repin.mark :: repin.beyond repin.new)) := by
      cases fallback with
      | none => exact .none
      | some rest =>
        exact .some (takenAlike_before inside head ⟨_, opens.symm⟩ shorter (within rest rfl))
    have reached : Option.Rel (fun rest rest' => TakenAlike repin '\\' front rest rest')
        (escapedEnd? (body ++ repin.mark :: repin.beyond repin.old))
        (escapedEnd? (body ++ repin.mark :: repin.beyond repin.new)) := by
      rcases ends with ends | ends
      · rw [ends, ends]
        exact fallen
      · -- The version is inside the text if an escaped quote follows it.
        have across {version : List Char} (pinned : ∀ c ∈ version, isPinChar c = true) :
            escapedEnd? (repin.beyond version) = escapedEnd? repin.tail := by
          rw [beyond_eq_append, escapedEnd?_append_mute]
          intro c member
          have plain := plain_of_mem_refKey_append pinned member
          refine ⟨?_, ?_, ?_⟩ <;>
          · rintro rfl
            revert plain
            decide
        rw [ends, ends, across repin.old_pinned, across repin.new_pinned]
        cases ended : escapedEnd? repin.tail with
        | none => exact fallen
        | some rest => exact .some (takenAlike_behind head (suffix_of_escapedEnd? ended))
    exact rel_map reached fun _ _ taken =>
      ⟨.escapedText taken.renewed taken.opened, taken.aligned⟩

/-- What follows a token before and after. A question mark that is the mark itself leaves code that
no document has. -/
def FollowsToken (repin : Repin) (token : Token) (first second : List Char) : Prop :=
  Aligned repin first second ∨ token = .symbol .question ∧
    first = repin.beyond repin.old ∧ second = repin.beyond repin.new

theorem symbol?_aligned {front : List Char} (inside : front <:+ repin.before) :
    Option.Rel (fun first second => RenewedToken repin first.1 second.1 ∧
        FollowsToken repin first.1 first.2 second.2)
      (symbol? (front ++ repin.mark :: repin.beyond repin.old))
      (symbol? (front ++ repin.mark :: repin.beyond repin.new)) := by
  have taken (version : List Char) : symbol? (front ++ repin.mark :: repin.beyond version) =
      (symbol? (front ++ [repin.mark])).map fun found =>
        (found.1, found.2 ++ repin.beyond version) := by
    rw [show repin.beyond version = 'r' :: 'e' :: 'f' :: '=' :: (version ++ repin.tail) from rfl,
      ← symbol?_append _ (by simp) (.inr (by decide)), List.append_assoc]
    rfl
  rw [taken, taken]
  cases found : symbol? (front ++ [repin.mark]) with
  | none => exact .none
  | some pair =>
    obtain ⟨token, rest⟩ := pair
    obtain ⟨symbol, rfl, split⟩ := eq_of_symbol? found
    refine .some ⟨.same fun _ => ⟨nofun, nofun⟩, ?_⟩
    rcases List.eq_nil_or_concat rest with rfl | ⟨rest, d, rfl⟩
    · -- The symbol ends with the mark.
      rw [List.append_nil] at split
      rcases repin.marked with mark | ⟨mark, single⟩
      · refine .inr ⟨?_, rfl, rfl⟩
        have last : symbol.text.toList.getLast? = some '?' := by simp [← split, mark]
        have question : symbol.text.toList.getLast? = some '?' → symbol = .question := by
          cases symbol <;> decide
        rw [question last]
      · have double : ∀ symbol : Symbol, symbol.text.toList.getLast? = some '&' →
            symbol.text.toList = ['&'] ++ ['&'] := by
          intro symbol
          cases symbol <;> decide
        have both := double symbol (by simp [← split, mark])
        rw [← split, mark] at both
        obtain rfl := List.append_cancel_right both
        obtain ⟨outer, ends⟩ := inside
        exact absurd (by simp [← ends]) single
    · rw [List.concat_eq_append, ← List.append_assoc] at split
      obtain ⟨short, same⟩ := List.append_inj' split rfl
      obtain rfl := (List.cons.inj same).1
      have within : rest <:+ repin.before := List.IsSuffix.trans ⟨_, short.symm⟩ inside
      simpa [FollowsToken] using Or.inl (Aligned.before within)

private theorem rel_follows {first second : Option (Token × List Char)}
    (aligned : Option.Rel (fun first second => RenewedToken repin first.1 second.1 ∧
      Aligned repin first.2 second.2) first second) :
    Option.Rel (fun first second => RenewedToken repin first.1 second.1 ∧
      FollowsToken repin first.1 first.2 second.2) first second := by
  cases aligned with
  | none => exact .none
  | some here => exact .some ⟨here.1, .inl here.2⟩

theorem number?_aligned (expected : Expectation) {front : List Char}
    (inside : front <:+ repin.before) :
    Option.Rel (fun first second => RenewedToken repin first.1 second.1 ∧
        Aligned repin first.2 second.2)
      (number? expected (front ++ repin.mark :: repin.beyond repin.old))
      (number? expected (front ++ repin.mark :: repin.beyond repin.new)) := by
  rw [number?_append expected front _ repin.mark_endsWord.1,
    number?_append expected front _ repin.mark_endsWord.1]
  cases found : number? expected front with
  | none => exact .none
  | some pair =>
    obtain ⟨token, rest⟩ := pair
    obtain ⟨⟨taken, split, _⟩, digits, number⟩ := eq_of_number? found
    refine .some ⟨.same fun _ => ?_, .before (List.IsSuffix.trans ⟨taken, split.symm⟩ inside)⟩
    rcases number with rfl | rfl <;> exact ⟨nofun, nofun⟩

private theorem token?_of_not_startsName {expected : Expectation} {c : Char} (text : List Char)
    (nameless : startsName c = false) :
    token? expected (c :: text) = (heredoc? (c :: text)).or ((escapedText? (c :: text)).or
      ((number? expected (c :: text)).or (symbol? (c :: text)))) := by
  unfold token?
  simp only [nameless, Bool.false_eq_true, if_false]
  cases heredoc? (c :: text) with
  | some found => rfl
  | none => cases escapedText? (c :: text) with
    | some found => rfl
    | none => cases number? expected (c :: text) <;> rfl

theorem token?_aligned (expected : Expectation) {front : List Char}
    (inside : front <:+ repin.before) :
    Option.Rel (fun first second => RenewedToken repin first.1 second.1 ∧
        FollowsToken repin first.1 first.2 second.2)
      (token? expected (front ++ repin.mark :: repin.beyond repin.old))
      (token? expected (front ++ repin.mark :: repin.beyond repin.new)) := by
  have unnamed := rel_or (rel_follows (heredoc?_aligned inside)) <|
    rel_or (rel_follows (escapedText?_aligned inside)) <|
    rel_or (rel_follows (number?_aligned expected inside)) (symbol?_aligned inside)
  cases front with
  | nil =>
    have nameless : startsName repin.mark = false := by
      rcases repin.mark_cases with same | same <;> rw [same] <;> decide
    simpa only [List.nil_append, token?_of_not_startsName _ nameless] using unnamed
  | cons c front =>
    cases named : startsName c with
    | false => simpa only [List.cons_append, token?_of_not_startsName _ named] using unnamed
    | true =>
      have ends := repin.mark_endsWord.2.1
      simp only [List.cons_append, token?, named, if_true, spanWhile_append_cons _ _ ends]
      refine .some ⟨.same (wordToken_cooked _ _), .inl (.before ?_)⟩
      exact ((List.dropWhile_suffix _).trans (List.suffix_cons c front)).trans inside

end InfraPins.Repin
