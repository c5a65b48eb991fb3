import InfraPins.Proofs.Host.Failures
import InfraPins.Proofs.Version.Grammar
import InfraPins.Proofs.Version.Tags
import InfraPins.Proofs.Wire.Paging

namespace InfraPins

open Act

def Answer.items? (answer : Answer) : Option (List Datum) :=
  answer.accepted?.bind fun reply => reply.value?.bind Datum.items?

namespace GitHub

/-- How things are listed: the pages are numbered, and one that is not full is the last. -/
def paging (client : Client) (path : String) : Paging Nat where
  request page := client.requestOf
    (.get path (some [("per_page", toString perPage), ("page", toString page)]))
  page? page answer := answer.items?.bind fun entries =>
    some (entries, if entries.length < perPage then none else some (page + 1))

theorem paginate_speaks (client : Client) (path : String) :
    Speaks (paginate client path) fun held _ result => (paging client path).Listed 1 held result := by
  let page (place : Nat) : Act Wire (List Datum × Option Nat) := do
    let entries ← client.requestList
      (.get path (some [("per_page", toString perPage), ("page", toString place)]))
    return (entries, if entries.length < perPage then none else some (place + 1))
  refine Paging.speaks_of_steps page (pages client path) ?_ (fun _ => rfl) ?_
  · exact fun place => (Asks.requestList client _).bind fun _ => .pure
  · intro most place
    simp only [page, bind_assoc, pure_bind]
    refine congrArg (_ >>= ·) (funext fun entries => ?_)
    by_cases short : entries.length < perPage
    · simp only [short, if_true, Paging.goOn]
    · simp only [short, if_false, Paging.goOn]

/-- The pages are asked for in order from the first. -/
theorem asked_of_listed {client : Client} {path : String} {start : Nat} {held : List Exchange}
    {result : Except Failure (List Datum)} (listed : (paging client path).Listed start held result) :
    held.map Prod.fst = (List.range' start held.length).map (paging client path).request := by
  refine listed.asked fun place answer batch further given => ?_
  obtain ⟨entries, _, same⟩ := Option.bind_eq_some_iff.mp given
  have next := (Prod.mk.inj (Option.some.inj same)).2
  split at next
  · cases next
  · exact (Option.some.inj next).symm

end GitHub

namespace GitLab

/-- How things are listed: a header gives the next page, unless there is none. -/
def paging (client : Client) (path : String) (parameters : Parameters) : Paging String where
  request page := client.requestOf
    (.get path (some (parameters ++ [("per_page", toString perPage), ("page", page)])))
  page? _ answer := answer.accepted?.bind fun reply => (reply.value?.bind Datum.items?).bind fun entries =>
    some (entries, Paging.place? (reply.header nextPageHeader))

theorem paginate_speaks (client : Client) (path : String) (parameters : Parameters) :
    Speaks (paginate client path parameters) fun held _ result =>
      (paging client path parameters).Listed "1" held result := by
  let draft (place : String) : Client.Draft :=
    .get path (some (parameters ++ [("per_page", toString perPage), ("page", place)]))
  let page (place : String) : Act Wire (List Datum × Option String) := do
    let reply ← client.request (draft place)
    let entries ← client.decodeList (draft place) reply
    return (entries, Paging.place? (reply.header nextPageHeader))
  refine Paging.speaks_of_steps page (pages client path parameters) ?_ (fun _ => rfl) ?_
  · exact fun place => (Asks.request client _).bind fun _ => Yields.decodeList.bind fun _ => .pure
  · intro most place
    simp only [page, bind_assoc, pure_bind]
    refine congrArg (_ >>= ·) (funext fun reply => congrArg (_ >>= ·) (funext fun entries => ?_))
    by_cases last : (reply.header nextPageHeader).isEmpty = true
    · simp only [last, if_true, Paging.place?, Paging.goOn]
    · simp only [last, Paging.place?, Paging.goOn]
      rfl

end GitLab

namespace AzureDevOps

def continuation (token : String) : Parameters :=
  if token.isEmpty then [] else [("continuationToken", token)]

/-- How things are listed: a header gives the token of the next page, unless there is none. -/
def paging (client : Client) (path : String) (parameters : Parameters) : Paging String where
  request token := client.requestOf
    (.get path (some (parameters ++ [version] ++ continuation token)))
  page? _ answer := answer.accepted?.bind fun reply => reply.value?.bind fun value =>
    (do (← value.field "value").elements : Except Misuse (List Datum)).toOption.bind fun entries =>
      some (entries, Paging.place? (reply.header continuationHeader))

theorem collect_speaks (client : Client) (path : String) (parameters : Parameters) :
    Speaks (collect client path parameters) fun held _ result =>
      (paging client path parameters).Listed "" held result := by
  let draft (token : String) : Client.Draft :=
    .get path (some (parameters ++ [version] ++ continuation token))
  let page (token : String) : Act Wire (List Datum × Option String) := do
    let reply ← client.request (draft token)
    let value ← client.decode (draft token) reply
    let entries ← client.expecting "list" (Act.use (do (← value.field "value").elements))
    return (entries, Paging.place? (reply.header continuationHeader))
  refine Paging.speaks_of_steps page (pages client path parameters) ?_ (fun _ => rfl) ?_
  · exact fun place => (Asks.request client _).bind fun _ => Yields.decode.bind fun _ =>
      Yields.expect.bind fun _ => .pure
  · intro most place
    simp only [page, bind_assoc, pure_bind]
    refine congrArg (_ >>= ·) (funext fun reply => congrArg (_ >>= ·) (funext fun value =>
      congrArg (_ >>= ·) (funext fun entries => ?_)))
    by_cases last : (reply.header continuationHeader).isEmpty = true
    · simp only [last, if_true, Paging.place?, Paging.goOn]
    · simp only [last, Paging.place?, Paging.goOn]
      rfl

def tagName (name : String) : String :=
  match Text.after? tagsOpening.toList name.toList with
  | some rest => String.ofList rest
  | none => name

theorem tagName_suffix (name : String) : (tagName name).toList <:+ name.toList := by
  unfold tagName
  split
  · rename_i rest found
    rw [String.toList_ofList, Text.after?_eq_some_iff.mp found]
    exact List.suffix_append _ rest
  · exact List.suffix_rfl

theorem tagOf_eq_ok {reference : Datum} {name : String}
    (named : reference.field "name" = .ok (.text name)) : tagOf reference = .ok (.text (tagName name)) := by
  unfold tagOf
  rw [named]
  rfl

/-- A client with a token that nobody has, and a repository that is known by its name. -/
def plainClient : Client :=
  ⟨"azuredevops", defaultBase, headers "t"⟩

def plainRepository : Repository where
  name := .text "net"
  organization := "o"

theorem repositoryPath_plain : repositoryPath plainRepository = pure "/o/_apis/git/repositories/net" := by
  show Act.use _ = Act.use (.ok _)
  exact congrArg Act.use (by decide +kernel)

end AzureDevOps

/-- What comes of the tags that are listed page by page: none if a page cannot be had, and otherwise,
where all names are texts that can be compared, each of them once. -/
def TagsOf {Place : Type} (paging : Paging Place) (first : Place) (tag : String → String)
    (held : List Exchange) (result : Except Failure (List Datum)) : Prop :=
  ∃ listing, paging.Listed first held listing ∧
    (∀ cause, listing = .error cause → result = .error cause) ∧
    ∀ entries names, listing = .ok entries →
      List.Forall₂ (fun entry name => entry.field "name" = .ok (.text name)) entries names →
      (∀ name ∈ names, Version.ShortNumbers name.toList) →
      ∃ sorted : List String, result = .ok (sorted.map .text) ∧ sorted.Perm (names.map tag)

theorem sortTags_of_names {client : Client} {read : Datum → Except Misuse Datum} {tag : String → String}
    (reads : ∀ entry name, entry.field "name" = .ok (.text name) → read entry = .ok (.text (tag name)))
    (shorter : ∀ name, (tag name).toList <:+ name.toList) {entries : List Datum} {names : List String}
    (named : List.Forall₂ (fun entry name => entry.field "name" = .ok (.text name)) entries names)
    (short : ∀ name ∈ names, Version.ShortNumbers name.toList) (wire : Wire) :
    ∃ sorted : List String, sorted.Perm (names.map tag) ∧
      ((client.expecting "tag list" do
        let names ← Act.use (entries.mapM read)
        Act.lift (Version.sortTags names)) wire).result = .ok (sorted.map .text) := by
  have tags : entries.mapM read = .ok ((names.map tag).map .text) := by
    rw [Result.mapM_eq_ok, List.map_map, List.forall₂_map_right_iff]
    exact named.imp fun entry name same => reads entry name same
  have legible : ∀ name ∈ names.map tag, Version.Legible name.toList := by
    intro _ member
    obtain ⟨name, inside, rfl⟩ := List.mem_map.mp member
    exact ((short name inside).part (shorter name).isInfix).legible
  obtain ⟨sorted, found, perm⟩ := Version.sortTags_of_legible legible
  refine ⟨sorted, perm, ?_⟩
  rw [tags]
  show (Version.sortTags ((names.map tag).map .text)).mapError _ = _
  rw [found]
  rfl

theorem TagsOf.speaks {Place : Type} {paging : Paging Place} {first : Place} {client : Client}
    {listing : Act Wire (List Datum)} {read : Datum → Except Misuse Datum} {tag : String → String}
    (lists : Speaks listing fun held _ result => paging.Listed first held result)
    (reads : ∀ entry name, entry.field "name" = .ok (.text name) → read entry = .ok (.text (tag name)))
    (shorter : ∀ name, (tag name).toList <:+ name.toList) :
    Speaks (do
      let entries ← listing
      client.expecting "tag list" do
        let names ← Act.use (entries.mapM read)
        Act.lift (Version.sortTags names)) fun held _ result => TagsOf paging first tag held result := by
  refine lists.bind ?_ ?_
  · intro held events entries listed
    refine .of_silent (fun wire => ?_) (fun wire => ?_) fun wire => ?_
    · cases entries.mapM read <;> rfl
    · cases entries.mapM read <;> rfl
    · rw [List.append_nil]
      refine ⟨.ok entries, listed, nofun, ?_⟩
      intro others names same named short
      obtain rfl := Except.ok.inj same
      obtain ⟨sorted, perm, found⟩ := sortTags_of_names reads shorter named short wire
      exact ⟨sorted, found, perm⟩
  · intro held events cause listed
    exact ⟨.error cause, listed, fun other same => by cases same; rfl, nofun⟩

/-- A listing asks for its pages in order up to the first that is the last, and gives the entries of all
of them; at the first that cannot be had it ends by a report. The tags of a repository are those of all
pages. -/
theorem listings_hold_every_page (client : Client) :
    (∀ path, Speaks (GitHub.paginate client path) fun held _ result =>
      (GitHub.paging client path).Listed 1 held result ∧
        held.map Prod.fst = (List.range' 1 held.length).map (GitHub.paging client path).request) ∧
    (∀ path parameters, Speaks (GitLab.paginate client path parameters) fun held _ result =>
      (GitLab.paging client path parameters).Listed "1" held result) ∧
    (∀ path parameters, Speaks (AzureDevOps.collect client path parameters) fun held _ result =>
      (AzureDevOps.paging client path parameters).Listed "" held result) ∧
    ∀ repository,
      (Speaks (GitHub.listTags client repository) fun held _ result =>
        TagsOf (GitHub.paging client (GitHub.repositoryPath repository ++ "/tags")) 1 id held result) ∧
      (Speaks (GitLab.listTags client repository) fun held _ result =>
        TagsOf (GitLab.paging client (GitLab.projectPath repository ++ "/repository/tags") []) "1" id
          held result) ∧
      ∀ place, AzureDevOps.repositoryPath repository = pure place →
        Speaks (AzureDevOps.listTags client repository) fun held _ result =>
          TagsOf (AzureDevOps.paging client (place ++ "/refs") [("filter", "tags/")]) ""
            AzureDevOps.tagName held result := by
  refine ⟨fun path => ?_, GitLab.paginate_speaks client, AzureDevOps.collect_speaks client,
    fun repository => ⟨?_, ?_, fun place known => ?_⟩⟩
  · refine (GitHub.paginate_speaks client path).weaken fun held _ result listed => ?_
    exact ⟨listed, GitHub.asked_of_listed listed⟩
  · exact TagsOf.speaks (GitHub.paginate_speaks client _) (fun _ _ => id) fun _ => List.suffix_rfl
  · exact TagsOf.speaks (GitLab.paginate_speaks client _ _) (fun _ _ => id) fun _ => List.suffix_rfl
  · unfold AzureDevOps.listTags
    rw [known, pure_bind]
    exact TagsOf.speaks (AzureDevOps.collect_speaks client _ _)
      (fun _ _ => AzureDevOps.tagOf_eq_ok) AzureDevOps.tagName_suffix

private def taggedPages : Wire :=
  [.reply ⟨200, [("x-ms-continuationtoken", "next")],
    "\x7b\"value\":[\x7b\"name\":\"refs/tags/v1\"\x7d]\x7d"⟩,
    .reply ⟨200, [], "\x7b\"value\":[\x7b\"name\":\"refs/tags/v2\"\x7d]\x7d"⟩]

theorem listings_hold_every_page_sample :
    AzureDevOps.repositoryPath AzureDevOps.plainRepository = pure "/o/_apis/git/repositories/net" ∧
    (AzureDevOps.listTags AzureDevOps.plainClient AzureDevOps.plainRepository taggedPages).result =
      .ok [.text "v2", .text "v1"] ∧
    TagsOf
      (AzureDevOps.paging AzureDevOps.plainClient "/o/_apis/git/repositories/net/refs"
        [("filter", "tags/")]) "" AzureDevOps.tagName
      (exchanges taggedPages (sent
        (AzureDevOps.listTags AzureDevOps.plainClient AzureDevOps.plainRepository taggedPages).events))
      (AzureDevOps.listTags AzureDevOps.plainClient AzureDevOps.plainRepository taggedPages).result := by
  refine ⟨AzureDevOps.repositoryPath_plain, by decide +kernel, ?_⟩
  have tags := ((listings_hold_every_page AzureDevOps.plainClient).2.2.2
    AzureDevOps.plainRepository).2.2 _ AzureDevOps.repositoryPath_plain
  exact tags.post taggedPages

end InfraPins
