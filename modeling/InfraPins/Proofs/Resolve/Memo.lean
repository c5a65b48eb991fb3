import InfraPins.Proofs.Update.Protocol
import InfraPins.Proofs.Update.Replies
import InfraPins.Proofs.Update.Restraint

/-! The memo of a resolver. However many sources are looked up with one memo, and whatever else a host
is used for in between, it is asked for the repositories of the organization once at most and for the
tags of each name once at most. What a lookup comes to is told by the answers so far; on a host that
always answers alike it is what a lookup without a memo comes to. -/

namespace InfraPins.Resolve

open Act

variable {σ : Type} {host : Host σ} {organization source : String} {memo : TagMemo}
  {log : List Response}

/-- The name of the repository whose tags a source has. -/
def nameOf (source : String) : String :=
  String.ofList (Source.repositoryName source.toList)

/-- One question for the tags of a repository, which was looked for by a name. -/
structure Inquiry where
  name : String
  repository : Repository
  answer : Except Failure (List Datum)

namespace Inquiry

/-- The call with its answer. -/
def response (inquiry : Inquiry) : Response :=
  ⟨.listTags inquiry.repository, inquiry.answer⟩

/-- The tags, none if the host refused them. -/
def tags (inquiry : Inquiry) : List Datum :=
  inquiry.answer.toOption.getD []

end Inquiry

/-- What has been asked for a memo, with the answers: nothing; or the repositories of the organization,
and then the tags of some of them, each the first of its name there and each name once. The memo keeps
what the answers tell. -/
inductive Inquired (organization : String) : TagMemo → List Response → Prop where
  | nothing : Inquired organization TagMemo.empty []
  | refused (cause : Failure) :
      Inquired organization ⟨some none, []⟩ [⟨.discover organization, .error cause⟩]
  | listed (repositories : List Repository) (inquiries : List Inquiry)
      (first : ∀ inquiry ∈ inquiries,
        repositories.find? (·.name = .text inquiry.name) = some inquiry.repository)
      (once : (inquiries.map Inquiry.name).Nodup) :
      Inquired organization
        ⟨some (some repositories), (inquiries.map fun inquiry => (inquiry.name, inquiry.tags)).reverse⟩
        (⟨.discover organization, .ok repositories⟩ :: inquiries.map Inquiry.response)

/-- The tags of a source, as answers tell them: those of the first repository of exactly the source's
name. There are none where the source names no repository, where the organization has none of that
name, and where the host refused to tell the repositories or the tags. -/
inductive Told (organization : String) (log : List Response) (source : String) :
    List Datum → Prop where
  | unnamed (empty : nameOf source = "") : Told organization log source []
  | unlisted (cause : Failure) (refused : ⟨.discover organization, .error cause⟩ ∈ log) :
      Told organization log source []
  | unknown (repositories : List Repository)
      (listed : ⟨.discover organization, .ok repositories⟩ ∈ log)
      (absent : repositories.find? (·.name = .text (nameOf source)) = none) :
      Told organization log source []
  | asked (named : nameOf source ≠ "") (repositories : List Repository) (inquiry : Inquiry)
      (listed : ⟨.discover organization, .ok repositories⟩ ∈ log)
      (first : repositories.find? (·.name = .text (nameOf source)) = some inquiry.repository)
      (answered : inquiry.response ∈ log) : Told organization log source inquiry.tags

/-- The repositories are asked for if nothing was asked before. -/
theorem listing_converses (discreet : host.Discreet) (reporting : host.Reporting)
    (inquired : Inquired organization memo log) :
    Converses host (listing host organization memo) fun responses result =>
      ∃ answer memo', result = .ok (answer.toOption, memo') ∧
        Inquired organization memo' (log ++ responses) ∧
        ⟨.discover organization, answer⟩ ∈ log ++ responses ∧
        (log = [] → responses = [⟨.discover organization, answer⟩]) ∧
        (log ≠ [] → responses = []) := by
  unfold listing
  cases inquired with
  | nothing =>
    refine (Converses.attemptAsk discreet reporting (.discover organization)).bind ?_ ?_
    · intro responses answer came
      rcases came with ⟨repositories, _, _, rfl, same⟩ | ⟨cause, message, _, rfl, same⟩
      · obtain rfl := Except.ok.inj same
        refine Converses.done ⟨.ok repositories, _, rfl, ?_, by simp, by simp⟩
        exact .listed repositories [] nofun .nil
      · obtain rfl := Except.ok.inj same
        refine Converses.after .log (Converses.done ⟨.error cause, _, rfl, ?_, by simp, by simp⟩)
        exact .refused cause
    · intro responses cause came
      rcases came with ⟨_, _, _, _, same⟩ | ⟨_, _, _, _, same⟩ <;> cases same
  | refused cause => exact Converses.done ⟨.error cause, _, rfl, .refused cause, by simp, by simp⟩
  | listed repositories inquiries first once =>
    refine Converses.done ⟨.ok repositories, _, rfl, ?_, by simp, by simp⟩
    simpa using .listed repositories inquiries first once

theorem lookup_inquiries {inquiries : List Inquiry} {name : String} :
    (inquiries.map fun inquiry => (inquiry.name, inquiry.tags)).reverse.lookup name = none ↔
      ∀ inquiry ∈ inquiries, name ≠ inquiry.name := by
  simp [List.lookup_eq_none_iff]

/-- The tags of a repository are asked for if none of its name were asked for before. -/
theorem tagsOf_converses (discreet : host.Discreet) (reporting : host.Reporting)
    {repositories : List Repository} {rest : List Response} {repository : Repository} {name : String}
    (inquired : Inquired organization memo (⟨.discover organization, .ok repositories⟩ :: rest))
    (found : repositories.find? (·.name = .text name) = some repository) :
    Converses host (tagsOf host repository name memo) fun responses result =>
      ∃ inquiry memo', Inquiry.repository inquiry = repository ∧
        result = .ok (inquiry.tags, memo') ∧
        Inquired organization memo' (⟨.discover organization, .ok repositories⟩ :: rest ++ responses) ∧
        inquiry.response ∈ rest ++ responses ∧
        ∀ response ∈ responses, response = inquiry.response := by
  cases inquired with
  | listed repositories inquiries first once =>
  unfold tagsOf
  dsimp only
  split
  · rename_i known kept
    obtain ⟨inquiry, member, same⟩ :=
      List.mem_map.mp (List.mem_reverse.mp (Update.mem_of_lookup kept))
    obtain ⟨rfl, rfl⟩ := Prod.mk.inj same
    refine Converses.done ⟨inquiry, _, ?_, rfl, ?_, ?_, nofun⟩
    · exact Option.some.inj ((first inquiry member).symm.trans found)
    · simpa using .listed repositories inquiries first once
    · simpa using ⟨inquiry, member, rfl⟩
  · rename_i unknown
    have fresh := lookup_inquiries.mp unknown
    have more (answer : Except Failure (List Datum)) :
        Inquired organization
          ⟨some (some repositories), (name, answer.toOption.getD []) ::
            (inquiries.map fun inquiry => (inquiry.name, inquiry.tags)).reverse⟩
          (⟨.discover organization, .ok repositories⟩ ::
            (inquiries.map Inquiry.response ++ [⟨.listTags repository, answer⟩])) := by
      have listed : Inquired organization _ _ :=
        .listed repositories (inquiries ++ [⟨name, repository, answer⟩]) ?_ ?_
      · simpa [Inquiry.response, Inquiry.tags] using listed
      · intro inquiry member
        rcases List.mem_append.mp member with member | member
        · exact first inquiry member
        · obtain rfl := List.mem_singleton.mp member
          exact found
      · rw [List.map_append, List.nodup_append]
        refine ⟨once, by simp, ?_⟩
        intro earlier before other here
        obtain ⟨inquiry, member, rfl⟩ := List.mem_map.mp before
        obtain rfl := List.mem_singleton.mp here
        exact (fresh inquiry member).symm
    refine (Converses.attemptAsk discreet reporting (.listTags repository)).bind ?_ ?_
    · intro responses answer came
      rcases came with ⟨tags, _, _, rfl, same⟩ | ⟨cause, message, _, rfl, same⟩
      · obtain rfl := Except.ok.inj same
        exact Converses.done ⟨⟨name, repository, .ok tags⟩, _, rfl, rfl, more (.ok tags),
          by simp [Inquiry.response], by simp [Inquiry.response]⟩
      · obtain rfl := Except.ok.inj same
        exact Converses.after .log (Converses.done ⟨⟨name, repository, .error cause⟩, _, rfl, rfl,
          more (.error cause), by simp [Inquiry.response], by simp [Inquiry.response]⟩)
    · intro responses cause came
      rcases came with ⟨_, _, _, _, same⟩ | ⟨_, _, _, _, same⟩ <;> cases same

/-- The repositories are asked for before anything else. -/
theorem Inquired.eq_cons (inquired : Inquired organization memo log)
    {answer : Except Failure (List Repository)}
    (member : ⟨.discover organization, answer⟩ ∈ log) :
    ∃ rest, log = ⟨.discover organization, answer⟩ :: rest := by
  cases inquired with
  | nothing => cases member
  | refused cause => exact ⟨[], congrArg ([·]) (List.mem_singleton.mp member).symm⟩
  | listed repositories inquiries first once =>
    rcases List.mem_cons.mp member with same | behind
    · exact ⟨_, congrArg (· :: _) same.symm⟩
    · obtain ⟨inquiry, _, same⟩ := List.mem_map.mp behind
      cases congrArg Response.call same

/-- A lookup comes to what the answers tell, those that it asked for included. -/
theorem resolve_converses (discreet : host.Discreet) (reporting : host.Reporting)
    (inquired : Inquired organization memo log) (source : String) :
    Converses host (resolve host organization source memo) fun responses result =>
      ∃ tags memo', result = .ok (tags, memo') ∧ Inquired organization memo' (log ++ responses) ∧
        Told organization (log ++ responses) source tags ∧
        (nameOf source = "" → responses = []) ∧ (nameOf source ≠ "" → log ++ responses ≠ []) := by
  unfold resolve
  dsimp only
  split
  · rename_i empty
    have unnamed : nameOf source = "" := String.isEmpty_iff.mp empty
    exact Converses.done ⟨[], memo, rfl, by simpa using inquired, .unnamed unnamed, by simp,
      fun named => absurd unnamed named⟩
  · rename_i nonempty
    have named : nameOf source ≠ "" := fun empty => nonempty (String.isEmpty_iff.mpr empty)
    refine (listing_converses discreet reporting inquired).bind ?_ fun _ _ ⟨_, _, same, _⟩ => nomatch same
    rintro asked ⟨_, memo'⟩ ⟨answer, _, same, inquired', member, -⟩
    obtain ⟨rfl, rfl⟩ := Prod.mk.inj (Except.ok.inj same)
    have spoken {more : List Response} : log ++ (asked ++ more) ≠ [] := by
      intro silent
      simp_all
    -- What is asked after the listing leaves the answer to it where it is.
    have kept {more : List Response} : ⟨.discover organization, answer⟩ ∈ log ++ (asked ++ more) := by
      rw [← List.append_assoc]
      exact List.mem_append_left more member
    have idle (told : Told organization (log ++ asked) source []) :
        Converses host (pure ([], memo') : Act σ (List Datum × TagMemo)) fun more result =>
          ∃ tags memo', result = .ok (tags, memo') ∧
            Inquired organization memo' (log ++ (asked ++ more)) ∧
            Told organization (log ++ (asked ++ more)) source tags ∧
            (nameOf source = "" → asked ++ more = []) ∧
            (nameOf source ≠ "" → log ++ (asked ++ more) ≠ []) := by
      refine Converses.done ⟨[], memo', rfl, ?_, ?_, fun empty => absurd empty named, fun _ => spoken⟩
      · rwa [List.append_nil]
      · rwa [List.append_nil]
    dsimp only
    cases answer with
    | error cause => exact idle (.unlisted cause member)
    | ok repositories =>
      cases repositories with
      | nil => exact idle (.unknown [] member rfl)
      | cons repository others =>
        obtain ⟨rest, starts⟩ := inquired'.eq_cons member
        dsimp only [Except.toOption]
        split
        · rename_i found first
          rw [starts] at inquired'
          refine (tagsOf_converses discreet reporting inquired' first).weaken fun more result came => ?_
          obtain ⟨inquiry, memo'', rfl, came, inquired'', answered, -⟩ := came
          have joined : ⟨.discover organization, .ok (repository :: others)⟩ :: rest ++ more =
              log ++ (asked ++ more) := by
            rw [← starts, List.append_assoc]
          rw [joined] at inquired''
          refine ⟨inquiry.tags, memo'', came, inquired'', ?_, fun empty => absurd empty named,
            fun _ => spoken⟩
          refine .asked named _ inquiry kept first ?_
          rw [← joined]
          exact List.mem_cons_of_mem _ answered
        · rename_i absent
          exact Converses.after .log (idle (.unknown _ member absent))

/-- A source that was looked up, what the host was asked for it with the answers, and what came of
it. -/
structure Lookup where
  source : String
  responses : List Response
  result : Except Failure (List Datum)

/-- Sources looked up one after another with one memo. Each lookup starts from a state of its own, as
the host may be used for other things in between. -/
def lookups (host : Host σ) (organization : String) : TagMemo → List (String × σ) → List Lookup
  | _, [] => []
  | memo, (source, state) :: rest =>
    let outcome := resolve host organization source memo state
    let left := match outcome.result with
      | .ok (_, memo) => memo
      | .error _ => memo
    ⟨source, host.responses state (calls outcome.events), outcome.result.map Prod.fst⟩ ::
      lookups host organization left rest

/-- How lookups go after some answers: each comes to what the answers tell then, and asks for nothing
if its source has no name, while there has been an answer if it has one. -/
inductive Life (organization : String) : List Response → List Lookup → Prop where
  | nil {memo : TagMemo} {log : List Response} (inquired : Inquired organization memo log) :
      Life organization log []
  | cons {memo : TagMemo} {log : List Response} {lookup : Lookup} {rest : List Lookup}
      {tags : List Datum} (inquired : Inquired organization memo (log ++ lookup.responses))
      (came : lookup.result = .ok tags)
      (told : Told organization (log ++ lookup.responses) lookup.source tags)
      (silent : nameOf lookup.source = "" → lookup.responses = [])
      (spoken : nameOf lookup.source ≠ "" → log ++ lookup.responses ≠ [])
      (tail : Life organization (log ++ lookup.responses) rest) : Life organization log (lookup :: rest)

theorem lookups_life (discreet : host.Discreet) (reporting : host.Reporting)
    (inquired : Inquired organization memo log) (turns : List (String × σ)) :
    Life organization log (lookups host organization memo turns) := by
  induction turns generalizing memo log with
  | nil => exact .nil inquired
  | cons turn rest ih =>
    obtain ⟨source, state⟩ := turn
    have went := (resolve_converses discreet reporting inquired source).post state
    unfold lookups
    generalize resolve host organization source memo state = outcome at went ⊢
    obtain ⟨tags, memo', came, inquired', told, silent, spoken⟩ := went
    simp only [came]
    exact .cons inquired' rfl told silent spoken (ih inquired')

theorem map_source_lookups (turns : List (String × σ)) :
    (lookups host organization memo turns).map Lookup.source = turns.map Prod.fst := by
  induction turns generalizing memo with
  | nil => rfl
  | cons turn rest ih => simp only [lookups, List.map_cons, ih]

namespace Life

variable {life before after : List Lookup} {lookup : Lookup}

theorem inquired (lived : Life organization log life) :
    ∃ memo, Inquired organization memo (log ++ life.flatMap Lookup.responses) := by
  induction lived with
  | nil inquired => exact ⟨_, by simpa using inquired⟩
  | cons _ _ _ _ _ _ ih => simpa using ih

/-- What lookups leave behind, and where the next one goes on from there. -/
theorem split (lived : Life organization log (before ++ lookup :: after)) :
    Life organization (log ++ before.flatMap Lookup.responses) (lookup :: after) := by
  induction before generalizing log with
  | nil => simpa using lived
  | cons first before ih =>
    cases lived with
    | cons _ _ _ _ _ tail => simpa using ih tail

theorem prefixed (lived : Life organization log (before ++ after)) :
    log ++ before.flatMap Lookup.responses = [] ↔
      log = [] ∧ ∀ earlier ∈ before, nameOf earlier.source = "" := by
  induction before generalizing log with
  | nil => simp
  | cons first before ih =>
    cases lived with
    | cons _ _ _ silent spoken tail =>
      have rest := ih tail
      rw [List.append_assoc, ← List.flatMap_cons] at rest
      rw [rest, List.forall_mem_cons, List.append_eq_nil_iff]
      constructor
      · rintro ⟨⟨empty, quiet⟩, others⟩
        refine ⟨empty, ?_, others⟩
        by_contra named
        exact spoken named (by rw [empty, quiet]; rfl)
      · rintro ⟨empty, unnamed, others⟩
        exact ⟨⟨empty, silent unnamed⟩, others⟩

end Life

/-- The repositories are asked for by the first question. -/
theorem Inquired.discovers_iff {more : List Response}
    (inquired : Inquired organization memo (log ++ more)) :
    (∃ answer, ⟨.discover organization, answer⟩ ∈ more) ↔ log = [] ∧ more ≠ [] := by
  cases log with
  | nil =>
    rw [List.nil_append] at inquired
    constructor
    · rintro ⟨answer, member⟩
      exact ⟨rfl, List.ne_nil_of_mem member⟩
    · rintro ⟨-, spoken⟩
      cases inquired with
      | nothing => exact absurd rfl spoken
      | refused cause => exact ⟨_, List.mem_cons_self⟩
      | listed repositories inquiries first once => exact ⟨_, List.mem_cons_self⟩
  | cons response log =>
    refine ⟨fun ⟨answer, member⟩ => ?_, fun ⟨empty, _⟩ => nomatch empty⟩
    -- What follows the first answer is about tags.
    generalize whole : response :: log ++ more = asked at inquired
    cases inquired with
    | nothing => cases whole
    | refused cause =>
      obtain ⟨_, none⟩ := List.cons.inj whole
      rw [(List.append_eq_nil_iff.mp none).2] at member
      cases member
    | listed repositories inquiries first once =>
      obtain ⟨_, rest⟩ := List.cons.inj whole
      have inside : ⟨.discover organization, answer⟩ ∈ inquiries.map Inquiry.response := by
        rw [← rest]
        exact List.mem_append_right log member
      obtain ⟨inquiry, _, same⟩ := List.mem_map.mp inside
      cases congrArg Response.call same

/-- Each lookup comes to what the answers until then tell, and asks for the repositories if it is the
first of a source with a name. -/
theorem Life.tells {life : List Lookup} (lived : Life organization [] life)
    (before : List Lookup) (lookup : Lookup) (after : List Lookup)
    (split : life = before ++ lookup :: after) :
    (∃ tags, lookup.result = .ok tags ∧
      Told organization ((before ++ [lookup]).flatMap Lookup.responses) lookup.source tags) ∧
    ((∃ answer, ⟨.discover organization, answer⟩ ∈ lookup.responses) ↔
      nameOf lookup.source ≠ "" ∧ ∀ earlier ∈ before, nameOf earlier.source = "") := by
  subst split
  have left := lived.prefixed
  have onward := lived.split
  rw [List.nil_append] at left onward
  cases onward with
  | cons inquired came told silent spoken _ =>
    refine ⟨⟨_, came, by simpa using told⟩, inquired.discovers_iff.trans ?_⟩
    rw [left]
    constructor
    · rintro ⟨⟨-, unnamed⟩, asked⟩
      exact ⟨fun empty => asked (silent empty), unnamed⟩
    · rintro ⟨named, unnamed⟩
      rw [left.mpr ⟨rfl, unnamed⟩, List.nil_append] at spoken
      exact ⟨⟨rfl, unnamed⟩, spoken named⟩

theorem responses_steady {replies : Replies}
    (steady : ∀ call state, (host.perform call state).result = replies call) (asked : List Call)
    (state : σ) : ∀ response ∈ host.responses state asked, response.answer = replies response.call := by
  induction asked generalizing state with
  | nil => exact nofun
  | cons call asked ih => exact List.forall_mem_cons.mpr ⟨steady call state, ih _⟩

theorem lookups_steady {replies : Replies}
    (steady : ∀ call state, (host.perform call state).result = replies call)
    (turns : List (String × σ)) : ∀ lookup ∈ lookups host organization memo turns,
      ∀ response ∈ lookup.responses, response.answer = replies response.call := by
  induction turns generalizing memo with
  | nil => exact nofun
  | cons turn rest ih =>
    obtain ⟨source, state⟩ := turn
    unfold lookups
    generalize resolve host organization source memo state = outcome
    intro lookup member
    rcases List.mem_cons.mp member with same | behind
    · subst same
      exact responses_steady steady (calls outcome.events) state
    · exact ih lookup behind

/-- The answers of a host that always answers alike tell the tags of a source. -/
theorem Told.eq_sourceTags {replies : Replies} {tags : List Datum}
    (steady : ∀ response ∈ log, response.answer = replies response.call)
    (told : Told organization log source tags) : tags = replies.sourceTags organization source := by
  have unlike (named : nameOf source ≠ "") : ¬ (nameOf source).isEmpty = true :=
    fun empty => named (String.isEmpty_iff.mp empty)
  show tags = if (nameOf source).isEmpty then []
    else ((replies.named? organization (nameOf source)).map replies.tagsOf).getD []
  have listing {repositories : List Repository}
      (listed : ⟨.discover organization, .ok repositories⟩ ∈ log) :
      replies.named? organization (nameOf source) =
        repositories.find? (·.name = .text (nameOf source)) := by
    have reply : .ok repositories = replies (.discover organization) := steady _ listed
    rw [Replies.named?, Replies.listing, ← reply]
    rfl
  cases told with
  | unnamed empty => rw [if_pos (String.isEmpty_iff.mpr empty)]
  | unlisted cause refused =>
    have reply : .error cause = replies (.discover organization) := steady _ refused
    rw [Replies.named?, Replies.listing, ← reply]
    split <;> rfl
  | unknown repositories listed absent =>
    rw [listing listed, absent]
    split <;> rfl
  | asked named repositories inquiry listed first answered =>
    have reply : inquiry.answer = replies (.listTags inquiry.repository) := steady _ answered
    rw [if_neg (unlike named), listing listed, first, Inquiry.tags, reply]
    rfl

/-- On a host that always answers alike a lookup comes to the tags of the source. -/
theorem resolveOnce_result (discreet : host.Discreet) (reporting : host.Reporting)
    {replies : Replies} (steady : ∀ call state, (host.perform call state).result = replies call)
    (organization source : String) (state : σ) :
    (resolveOnce host organization source state).result =
      .ok (replies.sourceTags organization source) := by
  have unasked : Inquired organization TagMemo.empty [] := .nothing
  have went := (resolve_converses discreet reporting unasked source).post state
  unfold resolveOnce
  rw [bind_apply]
  generalize resolve host organization source TagMemo.empty state = outcome at went ⊢
  obtain ⟨result, events, last⟩ := outcome
  obtain ⟨tags, memo', came, _, told, _⟩ := went
  obtain rfl : result = .ok (tags, memo') := came
  have same := told.eq_sourceTags (responses_steady steady _ state)
  exact congrArg Except.ok same

/-- Sources that are looked up with one memo: no lookup fails; the host is asked for the repositories
of the organization by the first source with a name, and then for the tags of each name once at most;
each source has the tags that the answers so far tell; and on a host that always answers alike it has
the tags that it would have if it were looked up alone. -/
theorem lookups_share_memo (host : Host σ) (discreet : host.Discreet) (reporting : host.Reporting)
    (organization : String) (turns : List (String × σ)) :
    (lookups host organization TagMemo.empty turns).map Lookup.source = turns.map Prod.fst ∧
    (∃ memo, Inquired organization memo
      ((lookups host organization TagMemo.empty turns).flatMap Lookup.responses)) ∧
    (∀ before lookup after,
      lookups host organization TagMemo.empty turns = before ++ lookup :: after →
        (∃ tags, lookup.result = .ok tags ∧
          Told organization ((before ++ [lookup]).flatMap Lookup.responses) lookup.source tags) ∧
        ((∃ answer, ⟨.discover organization, answer⟩ ∈ lookup.responses) ↔
          nameOf lookup.source ≠ "" ∧ ∀ earlier ∈ before, nameOf earlier.source = "")) ∧
    (host.Steady → ∀ lookup ∈ lookups host organization TagMemo.empty turns, ∀ state,
      (resolveOnce host organization lookup.source state).result = lookup.result) := by
  have lived : Life organization [] (lookups host organization TagMemo.empty turns) :=
    lookups_life discreet reporting .nothing turns
  have tells := lived.tells
  refine ⟨map_source_lookups turns, by simpa using lived.inquired, tells, ?_⟩
  rintro ⟨replies, steady⟩ lookup member state
  obtain ⟨before, after, split⟩ := List.append_of_mem member
  obtain ⟨⟨tags, came, told⟩, _⟩ := tells before lookup after split
  have same : tags = Replies.sourceTags replies organization lookup.source := by
    refine told.eq_sourceTags fun response answered => ?_
    obtain ⟨earlier, inside, answered⟩ := List.mem_flatMap.mp answered
    have here : earlier ∈ lookups host organization TagMemo.empty turns := by
      rw [split, List.append_cons]
      exact List.mem_append_left after inside
    exact lookups_steady steady turns earlier here response answered
  rw [resolveOnce_result discreet reporting steady, came, same]

/-- A source with the newest versions of `net`, one of a module that nobody has, and one without a
name. -/
theorem lookups_share_memo_sample :
    (Update.agreeable Update.pinnedText).Discreet ∧ (Update.agreeable Update.pinnedText).Steady ∧
    (lookups (Update.agreeable Update.pinnedText) "o" TagMemo.empty
        [("", ()), ("git::net", ()), ("git::lost", ()), ("git::net", ())]).map Lookup.result =
      [.ok [], .ok [.text "v2"], .ok [], .ok [.text "v2"]] ∧
    ∀ lookup ∈ lookups (Update.agreeable Update.pinnedText) "o" TagMemo.empty
        [("", ()), ("git::net", ()), ("git::lost", ()), ("git::net", ())],
      (resolveOnce (Update.agreeable Update.pinnedText) "o" lookup.source ()).result =
        lookup.result := by
  have orderly : (Update.agreeable Update.pinnedText).Orderly :=
    Update.agreeable_orderly Update.pinnedText_legible
  have steady : (Update.agreeable Update.pinnedText).Steady :=
    ⟨fun call => ((Update.agreeable Update.pinnedText).perform call ()).result, fun _ _ => rfl⟩
  obtain ⟨_, _, _, alike⟩ := lookups_share_memo (Update.agreeable Update.pinnedText) orderly.discreet
    orderly.reporting "o" [("", ()), ("git::net", ()), ("git::lost", ()), ("git::net", ())]
  exact ⟨orderly.discreet, steady, by decide +kernel, fun lookup member => alike steady lookup member ()⟩

end InfraPins.Resolve
