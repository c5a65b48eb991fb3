import InfraPins.Proofs.Host.Pages

/-! Discovery with another listing to fall back to. What is listed under the name of an organization gives
way to another listing as soon as it cannot be had to its end, whatever the reason. -/

namespace InfraPins

open Act

/-- What comes of a listing whose items are described. -/
inductive Paging.Described {Place : Type} (paging : Paging Place) (first : Place)
    (described? : List Datum → Option (List Repository)) :
    List Exchange → Except Failure (List Repository) → Prop where
  | listed {held : List Exchange} {items : List Datum} {result : Except Failure (List Repository)}
      (listed : paging.Listed first held (.ok items)) (gives : Result.Gives (described? items) result) :
      Described paging first described? held result
  | failed {held : List Exchange} {cause : Failure} (failed : paging.Listed first held (.error cause)) :
      Described paging first described? held (.error cause)

/-- What comes of a discovery: the items of a listing are described or, where that listing fails, what
comes of another one. -/
inductive Discovered {Place : Type} (paging other : Paging Place) (first : Place)
    (described? : List Datum → Option (List Repository)) :
    List Exchange → Except Failure (List Repository) → Prop where
  | listed {held : List Exchange} {items : List Datum} {result : Except Failure (List Repository)}
      (listed : paging.Listed first held (.ok items)) (gives : Result.Gives (described? items) result) :
      Discovered paging other first described? held result
  | elsewhere {front rest : List Exchange} {cause : Failure}
      {result : Except Failure (List Repository)} (failed : paging.Listed first front (.error cause))
      (described : other.Described first described? rest result) :
      Discovered paging other first described? (front ++ rest) result

section

variable {Place : Type} {paging other : Paging Place} {first : Place}
  {listing : Act Wire (List Datum)} {describe : List Datum → Act Wire (List Repository)}
  {described? : List Datum → Option (List Repository)}

theorem Act.Yields.speaks {α : Type} {act : Act Wire α} {value? : Option α} (yields : Yields act value?) :
    Speaks act fun held _ result => held = [] ∧ Result.Gives value? result := by
  refine .of_silent yields.state (fun wire => ?_) fun wire => ⟨rfl, yields.result wire⟩
  rw [yields.events]
  rfl

theorem Paging.Described.speaks (lists : Speaks listing fun held _ result => paging.Listed first held result)
    (describes : ∀ items, Yields (describe items) (described? items)) :
    Speaks (listing >>= describe) fun held _ result => paging.Described first described? held result := by
  refine lists.bind ?_ fun held _ cause failed => .failed failed
  intro held events items listed
  refine (describes items).speaks.weaken ?_
  rintro _ _ result ⟨rfl, gives⟩
  rw [List.append_nil]
  exact .listed listed gives

theorem Discovered.speaks {next : Except String (List Datum) → Act Wire (List Repository)}
    (lists : Speaks listing fun held _ result => paging.Listed first held result)
    (describes : ∀ items, Yields (next (.ok items)) (described? items))
    (turns : ∀ message, Speaks (next (.error message)) fun held _ result =>
      other.Described first described? held result) :
    Speaks (listing.attempt Failure.hostMessage? >>= next) fun held _ result =>
      Discovered paging other first described? held result := by
  refine lists.attempt.bind ?_ ?_
  · rintro front events listed (⟨items, same, came⟩ | ⟨cause, message, same, _, came⟩ | ⟨_, same, _⟩)
    · obtain rfl := Except.ok.inj same
      refine (describes items).speaks.weaken ?_
      rintro _ _ result ⟨rfl, gives⟩
      rw [List.append_nil]
      exact .listed came gives
    · obtain rfl := Except.ok.inj same
      exact (turns message).weaken fun rest _ result described => .elsewhere came described
    · cases same
  · rintro front events cause (⟨_, same, _⟩ | ⟨_, _, same, _⟩ | ⟨other, same, untold, came⟩)
    · cases same
    · cases same
    · -- A listing fails by a report, so an attempt at it does not fail.
      obtain ⟨message, rfl⟩ := came.reports
      cases untold

end

theorem GitLab.discover_speaks (client : Client) (organization : String) :
    Speaks (discover client organization) fun held _ result =>
      Discovered
        (paging client ("/groups/" ++ Text.Percent.segment organization ++ "/projects")
          [("include_subgroups", "true"), ("archived", "false")])
        (paging client "/projects" [("owned", "true")]) "1"
        (fun items => (items.mapM (repositoryOf client organization)).toOption) held result := by
  refine Discovered.speaks (paginate_speaks client _ _) (fun _ => .expect) fun _ => ?_
  -- That the group is given up is put into the log first.
  have asksNothing : Speaks (Act.log .debug
      (organization ++ " is not a GitLab group, listing owned projects")) fun held _ result =>
        held = [] ∧ result = .ok () :=
    .of_silent (fun _ => rfl) (fun _ => rfl) fun _ => ⟨rfl, rfl⟩
  refine asksNothing.bind ?_ fun _ _ _ ⟨_, same⟩ => nomatch same
  rintro _ _ _ ⟨rfl, _⟩
  exact Paging.Described.speaks (paginate_speaks client _ _) fun _ => .expect

/-- A host turns to another listing exactly where that of the organization fails: its requests are those
of the first listing, and of the other one if the first fails, for whatever reason and at whatever page. -/
theorem discovery_turns_elsewhere (client : Client) (organization : String) :
    (Speaks (GitHub.discover client organization) fun held _ result =>
      Discovered (GitHub.paging client ("/orgs/" ++ organization ++ "/repos"))
        (GitHub.paging client ("/users/" ++ organization ++ "/repos")) 1
        (fun items => (items.mapM (GitHub.activeRepository? client organization)).toOption.map
          (·.filterMap id)) held result) ∧
    Speaks (GitLab.discover client organization) fun held _ result =>
      Discovered
        (GitLab.paging client ("/groups/" ++ Text.Percent.segment organization ++ "/projects")
          [("include_subgroups", "true"), ("archived", "false")])
        (GitLab.paging client "/projects" [("owned", "true")]) "1"
        (fun items => (items.mapM (GitLab.repositoryOf client organization)).toOption) held result := by
  constructor
  · have describes (items : List Datum) : Yields (client.expecting "repository list" do
        return (← Act.use (items.mapM (GitHub.activeRepository? client organization))).filterMap id)
        ((items.mapM (GitHub.activeRepository? client organization)).toOption.map (·.filterMap id)) := by
      rw [Client.expecting_bind, Option.map_eq_bind]
      exact Yields.expect.bind fun _ => Yields.pure
    exact Discovered.speaks (GitHub.paginate_speaks client _) describes
      fun _ => Paging.Described.speaks (GitHub.paginate_speaks client _) describes
  · exact GitLab.discover_speaks client organization

/-- A client with a token that nobody has. -/
def GitLab.plainClient : Client :=
  ⟨"gitlab", defaultBase, headers "t"⟩

private def lateGroup : Wire :=
  [.timeout "", .reply ⟨200, [], "[]"⟩]

/-- The projects of the user are listed although nothing said that there is no such group. -/
theorem not_only_unknown_groups_are_replaced :
    ¬ ∀ client organization wire,
      (∃ page, (GitLab.paging client "/projects" [("owned", "true")]).request page ∈
        sent (GitLab.discover client organization wire).events) →
      (wire.head?.getD .missing).IsNotFound := by
  intro onlyUnknown
  have asked : (GitLab.paging GitLab.plainClient "/projects" [("owned", "true")]).request "1" ∈
      sent (GitLab.discover GitLab.plainClient "acme" lateGroup).events := by
    decide +kernel
  obtain ⟨reply, same, _⟩ := onlyUnknown GitLab.plainClient "acme" lateGroup ⟨"1", asked⟩
  cases same

end InfraPins
