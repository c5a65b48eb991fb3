import InfraPins.Proofs.Alike
import InfraPins.Proofs.Config.Failures
import InfraPins.Proofs.Config.Inline

/-! What the log of a configuration tells of its tokens. Two configurations that differ only in tokens of
which nothing is told are read alike: the log is the same, and so is the failure, if there is one. -/

namespace InfraPins

open Act

variable {σ : Type} {machine : Machine}

namespace Datum

/-- A field of two mappings that differ at most in what stands under one name, where the values are
related. -/
inductive Differ (name : String) (related : Datum → Datum → Prop) :
    Datum × Datum → Datum × Datum → Prop where
  | same {entry : Datum × Datum} : Differ name related entry entry
  | there {value other : Datum} (values : related value other) :
    Differ name related (.text name, value) (.text name, other)

variable {name : String} {related : Datum → Datum → Prop} {fields others : List (Datum × Datum)}

theorem lookup?_cons (asked : String) (entry : Datum × Datum) (fields : List (Datum × Datum)) :
    lookup? (.text asked) (entry :: fields) =
      if entry.1 = .text asked then some entry.2 else lookup? (.text asked) fields := by
  by_cases here : entry.1 = .text asked
  · simp [lookup?, sameKey_text, here]
  · simp [lookup?, sameKey_text, here]

/-- Two such mappings have the same under every other name. -/
theorem lookup?_differ (inStep : List.Forall₂ (Differ name related) fields others) (asked : String) :
    lookup? (.text asked) fields = lookup? (.text asked) others ∨
      asked = name ∧ ∃ value other, lookup? (.text asked) fields = some value ∧
        lookup? (.text asked) others = some other ∧ related value other := by
  induction inStep with
  | nil => exact .inl rfl
  | @cons entry _ _ _ here _ ih =>
    rw [lookup?_cons, lookup?_cons]
    cases here with
    | same =>
      by_cases found : entry.1 = .text asked
      · rw [if_pos found, if_pos found]
        exact .inl rfl
      · rw [if_neg found, if_neg found]
        exact ih
    | @there value other values =>
      by_cases found : Datum.text name = .text asked
      · rw [if_pos found, if_pos found]
        exact .inr ⟨(Datum.text.inj found).symm, value, other, rfl, rfl, values⟩
      · rw [if_neg found, if_neg found]
        exact ih

theorem lookup?_of_ne (inStep : List.Forall₂ (Differ name related) fields others) (asked : String)
    (different : asked ≠ name) :
    lookup? (.text asked) fields = lookup? (.text asked) others :=
  (lookup?_differ inStep asked).resolve_right fun ⟨same, _⟩ => different same

end Datum

open Datum

theorem orEmpty_object (fields : List (Datum × Datum)) : orEmpty (.object fields) = .object fields := by
  cases fields with
  | nil => rfl
  | cons => rfl

section Fields

variable {name : String} {related : Datum → Datum → Prop} {fields others : List (Datum × Datum)}

theorem presentField_object (fields : List (Datum × Datum)) (name : String) :
    (presentField (.object fields) name : Act σ Datum) = pure (presentIn (.object fields) name) := rfl

theorem textField_object (fields : List (Datum × Datum)) (name : String) :
    (textField (.object fields) name : Act σ String) =
      Act.lift (spelled (((lookup? (.text name) fields).getD .null).orElse (.text ""))) := by
  rw [textField, presentField_object, pure_bind, presentIn, orElse]
  by_cases present : ((lookup? (.text name) fields).getD .null).isTruthy
  · simp only [if_pos present]
    cases found : (lookup? (.text name) fields).getD .null
    case null =>
      rw [found] at present
      cases present
    all_goals rfl
  · simp only [if_neg present]
    rfl

theorem presentField_of_ne (inStep : List.Forall₂ (Differ name related) fields others) (asked : String)
    (different : asked ≠ name) :
    (presentField (.object fields) asked : Act σ Datum) = presentField (.object others) asked := by
  rw [presentField_object, presentField_object, presentIn, presentIn, lookup?_of_ne inStep asked different]

theorem textField_of_ne (inStep : List.Forall₂ (Differ name related) fields others) (asked : String)
    (different : asked ≠ name) :
    (textField (.object fields) asked : Act σ String) = textField (.object others) asked := by
  rw [textField_object, textField_object, lookup?_of_ne inStep asked different]

end Fields

/-- A value that is read as a token of which nothing is told. -/
def Discreet (machine : Machine) (value : Datum) : Prop :=
  ∃ token, spelled (value.orElse (.text "")) = .ok token ∧ Token.Untold machine token

/-- Two values that are read as such tokens. -/
def BothDiscreet (machine : Machine) (value other : Datum) : Prop :=
  Discreet machine value ∧ Discreet machine other

/-- Two providers that differ at most in their tokens, of which nothing is told. -/
inductive ProvidersAlike (machine : Machine) : Datum → Datum → Prop where
  | same {provider : Datum} : ProvidersAlike machine provider provider
  | tokens {fields others : List (Datum × Datum)}
    (inStep : List.Forall₂ (Differ "token" (BothDiscreet machine)) fields others) :
    ProvidersAlike machine (.object fields) (.object others)

/-- Two lists of providers that differ at most in their tokens, of which nothing is told. -/
inductive ListsAlike (machine : Machine) : Datum → Datum → Prop where
  | lists {items others : List Datum} (inStep : List.Forall₂ (ProvidersAlike machine) items others) :
    ListsAlike machine (.list items) (.list others)

/-- Two configurations that differ at most in their tokens, of which nothing is told. -/
def ConfigsAlike (machine : Machine) : List (Datum × Datum) → List (Datum × Datum) → Prop :=
  List.Forall₂ (Differ "providers" (ListsAlike machine))

variable {fields others : List (Datum × Datum)}

/-- Two raw tokens of which nothing is told, if they are not the same. -/
def TokensAlike (machine : Machine) (token other : String) : Prop :=
  token = other ∨ Token.Untold machine token ∧ Token.Untold machine other

theorem resolve_alike {token other : String} (tokens : TokensAlike machine token other) :
    Alike (fun _ _ => True) (Token.resolve machine token : Act σ String)
      (Token.resolve machine other) := by
  rcases tokens with rfl | ⟨untold, untold'⟩
  · exact .refl _ fun _ => trivial
  · intro start
    rw [untold.resolve_apply, untold'.resolve_apply]
    exact .gives trivial

theorem tokenField_alike
    (inStep : List.Forall₂ (Differ "token" (BothDiscreet machine)) fields others) :
    Alike (TokensAlike machine) (textField (.object fields) "token" : Act σ String)
      (textField (.object others) "token") := by
  rw [textField_object, textField_object]
  rcases lookup?_differ inStep "token" with
    same | ⟨_, value, other, found, found', ⟨token, read, untold⟩, token', read', untold'⟩
  · rw [same]
    exact .refl _ fun _ => .inl rfl
  · rw [found, found', Option.getD_some, Option.getD_some, read, read']
    exact .pure (.inr ⟨untold, untold'⟩)

theorem ProviderConfig.ofDatum_alike {value other : Datum}
    (providers : ProvidersAlike machine value other) :
    Alike (fun _ _ => True) (ofDatum machine (orEmpty value) : Act σ ProviderConfig)
      (ofDatum machine (orEmpty other)) := by
  cases providers with
  | same => exact .refl _ fun _ => trivial
  | @tokens fields others inStep =>
    rw [orEmpty_object, orEmpty_object, ofDatum, ofDatum,
      presentField_of_ne inStep "organizations" (by decide), textField_of_ne inStep "type" (by decide),
      textField_of_ne inStep "base_url" (by decide)]
    refine .seq _ fun organizations => .seq _ fun hostType => ?_
    refine (tokenField_alike inStep).bind fun raw raw' tokens => ?_
    refine (resolve_alike tokens).bind fun token token' _ => ?_
    exact .seq _ fun _ => .seq _ fun _ => .pure trivial

theorem providers_alike (alike : ConfigsAlike machine fields others) :
    Alike (List.Forall₂ (ProvidersAlike machine))
      (Act.lift (providersOf (presentIn (.object fields) "providers")) : Act σ (List Datum))
      (Act.lift (providersOf (presentIn (.object others) "providers"))) := by
  rw [presentIn, presentIn]
  rcases lookup?_differ alike "providers" with same | ⟨_, value, other, found, found', lists⟩
  · rw [same]
    exact .refl _ fun items => List.forall₂_same.mpr fun _ _ => .same
  · rw [found, found', Option.getD_some, Option.getD_some]
    cases lists with
    | lists inStep =>
      cases inStep with
      | nil => exact .pure .nil
      | cons here rest => exact .pure (.cons here rest)

/-- Two configurations that differ at most in tokens of which nothing is told are read alike. -/
theorem Config.ofDatum_alike (alike : ConfigsAlike machine fields others) (path : Option String) :
    Alike (fun _ _ => True) (ofDatum machine (.object fields) path : Act σ Config)
      (ofDatum machine (.object others) path) := by
  rw [ofDatum, ofDatum, presentField_of_ne alike "updaters" (by decide)]
  simp only [presentField_object, pure_bind]
  refine (providers_alike alike).bind fun items items' inStep => .seq _ fun settings => ?_
  refine (Alike.mapM inStep fun item item' => ProviderConfig.ofDatum_alike).bind ?_
  intro providers providers' _
  exact .seq _ fun _ => .pure trivial

namespace Config

/-- A token that is written out where it is given has no influence on the log, unless it cannot be looked
up as a path; then the log tells it. Nor have such tokens in a configuration, if each of them is found to
name no file: where everything may be looked at, those are all that are short enough for a path and that
no home is put into. -/
theorem inline_tokens_are_untold (machine : Machine) (path : Option String) (start : σ) :
    (∀ token, Token.Inline machine token →
        (∀ named fault, ¬ Token.Unseen machine token named fault) →
        (Token.resolve machine token start).events = []) ∧
      (∀ token named fault, Token.Inline machine token → Token.Unseen machine token named fault →
        (Token.resolve machine token start).events = [Token.refusal named fault]) ∧
      (∀ token, Token.Inline machine token → machine.files.Open → (Path.ofText token).Fits →
        (Path.ofText token).Untilded → Token.Untold machine token) ∧
      ∀ fields others, ConfigsAlike machine fields others →
        (ofDatum machine (.object fields) path start).events =
          (ofDatum machine (.object others) path start).events := by
  refine ⟨?_, ?_, ?_, ?_⟩
  · intro token inline seen
    exact inline.events_eq_nil seen start
  · intro token named fault inline unseen
    exact unseen.events_eq inline.plain start
  · intro token inline isOpen fits homeless
    exact inline.untold isOpen fits homeless
  · intro fields others alike
    exact (ofDatum_alike alike path start).events_eq

private def bareMachine : Machine where
  environment := []
  homes := []
  directory := []
  files := []

private def configWith (token : String) : List (Datum × Datum) :=
  [(.text "providers", .list [.object [(.text "type", .text "github"), (.text "token", .text token)]])]

/-- A token of one octet more than a name may have. -/
private def longToken : String :=
  String.ofList (List.replicate 256 'a')

private theorem toList_longToken : longToken.toList = List.replicate 256 'a' :=
  String.toList_ofList

private theorem eq_of_mem_longToken {c : Char} (member : c ∈ longToken.toList) : c = 'a' := by
  rw [toList_longToken] at member
  exact List.eq_of_mem_replicate member

private theorem unseen_longToken :
    Token.Unseen bareMachine longToken ⟨"", [longToken]⟩ .nameTooLong := by
  apply Token.unseen_of_name
  · intro slash
    exact absurd (eq_of_mem_longToken slash) (by decide)
  · intro null
    exact absurd (eq_of_mem_longToken null) (by decide)
  · intro tilde
    exact absurd (eq_of_mem_longToken (List.mem_of_mem_head? tilde)) (by decide)
  · have octets := Text.length_le_utf8Len longToken.toList
    rw [String.utf8Len_toList, toList_longToken, List.length_replicate] at octets
    exact octets
  · rfl

private theorem inline_longToken : Token.Inline bareMachine longToken where
  plain := by
    intro opens
    have dollar : '$' ∈ longToken.toList := opens.subset List.mem_cons_self
    exact absurd (eq_of_mem_longToken dollar) (by decide)
  untilded := by
    intro tilde
    exact absurd (eq_of_mem_longToken (List.mem_of_mem_head? tilde)) (by decide)
  fileless := by
    rw [unseen_longToken.lookup_eq]
    nofun

/-- Of a short token nothing is told, and a long one is told as it stands. A short token in a configuration
may be another one. -/
theorem inline_tokens_are_untold_sample :
    (Token.resolve bareMachine "a" ()).events = [] ∧
      (Token.resolve bareMachine longToken ()).events = [Token.refusal ⟨"", [longToken]⟩ .nameTooLong] ∧
      (Token.Untold bareMachine "a" ∧ Token.Untold bareMachine "b") ∧
      (ofDatum bareMachine (.object (configWith "a")) none ()).events =
        (ofDatum bareMachine (.object (configWith "b")) none ()).events := by
  obtain ⟨silent, told, untold, alike⟩ := inline_tokens_are_untold bareMachine none ()
  have first : Token.Inline bareMachine "a" := ⟨by decide, by decide, by decide +kernel⟩
  have second : Token.Inline bareMachine "b" := ⟨by decide, by decide, by decide +kernel⟩
  have untoldFirst := untold "a" first nofun (Path.fits_of_size_le (by decide)) fun _ => by decide
  have untoldSecond := untold "b" second nofun (Path.fits_of_size_le (by decide)) fun _ => by decide
  have configs : ConfigsAlike bareMachine (configWith "a") (configWith "b") := by
    have tokens : Differ "token" (BothDiscreet bareMachine) (.text "token", .text "a")
        (.text "token", .text "b") :=
      .there ⟨⟨"a", rfl, untoldFirst⟩, ⟨"b", rfl, untoldSecond⟩⟩
    have providers := ProvidersAlike.tokens (.cons (.same : Differ _ _ (.text "type", .text "github") _)
      (.cons tokens .nil))
    exact .cons (.there (.lists (.cons providers .nil))) .nil
  refine ⟨?_, ?_, ⟨untoldFirst, untoldSecond⟩, ?_⟩
  · exact silent "a" first fun _ _ => untoldFirst.not_unseen
  · exact told longToken _ _ inline_longToken unseen_longToken
  · exact alike _ _ configs

/-- The log tells a token that is too long to be looked up from one that is not. -/
theorem not_inline_tokens_are_untold :
    ¬ ∀ (machine : Machine) (token token' : String), Token.Inline machine token →
      Token.Inline machine token' →
        (Token.resolve machine token ()).events = (Token.resolve machine token' ()).events := by
  intro untold
  have inline : Token.Inline bareMachine "a" := ⟨by decide, by decide, by decide +kernel⟩
  have short := inline.untold nofun (Path.fits_of_size_le (by decide)) fun _ => by decide
  have same := untold bareMachine longToken "a" inline_longToken inline
  rw [unseen_longToken.events_eq inline_longToken.plain, short.resolve_apply] at same
  cases same

end Config

end InfraPins
