import InfraPins.Proofs.Datum
import InfraPins.Proofs.Host.Pages
import InfraPins.Proofs.Text.Base64
import InfraPins.Proofs.Wire.Relay

namespace InfraPins

open Act

theorem branchOf_eq_pure {branch : Datum} {name : String} (named : branch = .text name) :
    Shapes.branchOf branch = pure (stripHeads name) := by
  rw [named]
  rfl

namespace GitHub

/-- The requests that create a branch, with the values that their answers give: the commit that the
branch starts from, the tree of that commit, the tree with the changes, and the commit of that tree.
Nothing needs to be said by the answer to the last, which makes the branch. -/
def creation (client : Client) (repository : Repository) (branch : BranchInput) (base : String)
    (parent baseTree tree commit : Datum) : List Leg :=
  let path := repositoryPath repository
  [⟨client.requestOf (.get (path ++ "/git/ref/heads/" ++ Text.Percent.segment base) none),
      Answer.says? ["object", "sha"], parent⟩,
    ⟨client.requestOf (.get (path ++ "/git/commits/" ++ parent.plain) none),
      Answer.says? ["tree", "sha"], baseTree⟩,
    ⟨client.requestOf (.post (path ++ "/git/trees")
        [("base_tree", baseTree), ("tree", .list (branch.changes.map treeEntry))]),
      Answer.says? ["sha"], tree⟩,
    ⟨client.requestOf (.post (path ++ "/git/commits")
        [("message", .text branch.commitMessage), ("tree", tree), ("parents", .list [parent])]),
      Answer.says? ["sha"], commit⟩,
    ⟨client.requestOf (.post (path ++ "/git/refs")
        [("ref", .text (headsOpening ++ stripHeads branch.branchName)), ("sha", commit)]),
      fun answer => answer.accepted?.map fun _ => .null, .null⟩]

theorem createBranch_speaks (client : Client) (repository : Repository) {branch : BranchInput}
    {base : String} (named : branch.baseBranch = .text base) :
    Speaks (createBranch client repository branch) fun held _ result =>
      ∃ parent baseTree tree commit, Relay
        (creation client repository branch (stripHeads base) parent baseTree tree commit) held result := by
  unfold createBranch
  rw [branchOf_eq_pure named, pure_bind]
  dsimp only
  let legs := creation client repository branch (stripHeads base)
  rw [Client.expecting_field ["object", "sha"] fun value => by simp [List.foldlM]]
  refine (Asks.field client _ "git data" _).andThen
    (fun parent held result => ∃ baseTree tree commit,
      Relay ((legs parent baseTree tree commit).drop 1) held result)
    (fun parent => ?_) (fun answer message given => ⟨.null, .null, .null, .null, .stopped given⟩)
    fun answer parent held result given ⟨baseTree, tree, commit, relay⟩ =>
      ⟨parent, baseTree, tree, commit, .onward given relay⟩
  rw [Client.expecting_field ["tree", "sha"] fun value => by simp [List.foldlM]]
  refine (Asks.field client _ "git data" _).andThen
    (fun baseTree held result => ∃ tree commit,
      Relay ((legs parent baseTree tree commit).drop 2) held result)
    (fun baseTree => ?_) (fun answer message given => ⟨.null, .null, .null, .stopped given⟩)
    fun answer baseTree held result given ⟨tree, commit, relay⟩ =>
      ⟨baseTree, tree, commit, .onward given relay⟩
  rw [Client.expecting_field ["sha"] fun value => by simp [List.foldlM]]
  refine (Asks.field client _ "git data" _).andThen
    (fun tree held result => ∃ commit, Relay ((legs parent baseTree tree commit).drop 3) held result)
    (fun tree => ?_) (fun answer message given => ⟨.null, .null, .stopped given⟩)
    fun answer tree held result given ⟨commit, relay⟩ => ⟨tree, commit, .onward given relay⟩
  rw [Client.expecting_field ["sha"] fun value => by simp [List.foldlM]]
  refine (Asks.field client _ "git data" _).andThen
    (fun commit held result => Relay ((legs parent baseTree tree commit).drop 4) held result)
    (fun commit => ?_) (fun answer message given => ⟨.null, .stopped given⟩)
    fun answer commit held result given relay => ⟨commit, .onward given relay⟩
  rw [Client.expecting_bind, Client.expecting_request]
  exact Relay.answered client _

/-- What an entry of a new tree says of a changed file. -/
structure Writes (change : FileChange) (entry : Datum) : Prop where
  path : entry.field "path" = .ok (.text change.path)
  content : entry.field "content" = .ok (.text change.content)

theorem writes_treeEntry (change : FileChange) : Writes change (treeEntry change) := by
  constructor <;> simp [treeEntry, Datum.ofFields, Datum.field, Datum.lookup?, Datum.sameKey_text]

end GitHub

namespace AzureDevOps

inductive FirstNamed (name : String) : List Datum → Datum → Prop where
  | here {reference commit : Datum} {rest : List Datum}
      (named : reference.field "name" = .ok (.text name))
      (found : reference.field "objectId" = .ok commit) : FirstNamed name (reference :: rest) commit
  | behind {reference value commit : Datum} {rest : List Datum}
      (named : reference.field "name" = .ok value) (other : value ≠ .text name)
      (later : FirstNamed name rest commit) : FirstNamed name (reference :: rest) commit

theorem commitOf?_eq_some_iff {name : String} {references : List Datum} {commit : Datum} :
    commitOf? name references = .ok (some commit) ↔ FirstNamed name references commit := by
  induction references with
  | nil =>
    constructor
    · intro found
      cases found
    · intro first
      cases first
  | cons reference rest ih =>
    unfold commitOf?
    constructor
    · intro found
      obtain ⟨value, named, found⟩ := Result.bind_eq_ok.mp found
      by_cases same : value = .text name
      · subst same
        rw [if_pos rfl] at found
        obtain ⟨other, here, equal⟩ := Result.bind_eq_ok.mp found
        obtain rfl := Option.some.inj (Except.ok.inj equal)
        exact .here named here
      · rw [if_neg same] at found
        exact .behind named same (ih.mp found)
    · intro first
      cases first with
      | here named found =>
        refine Result.bind_eq_ok.mpr ⟨_, named, ?_⟩
        rw [if_pos rfl]
        exact Result.bind_eq_ok.mpr ⟨_, found, rfl⟩
      | behind named other later =>
        refine Result.bind_eq_ok.mpr ⟨_, named, ?_⟩
        rw [if_neg other]
        exact ih.mpr later

/-- What comes of the creation of a branch at the place of a repository. The references that a base may be
are listed first, and listing them only reads. The commit is pushed, on top of the first reference of the
very name, if there is one; otherwise nothing more is asked for. -/
inductive Created (client : Client) (place : String) (branch : BranchInput) (base : String) :
    List Exchange → Except Failure Unit → Prop where
  | pushed {front held : List Exchange} {references : List Datum} {parent : Datum}
      {result : Except Failure Unit} (reads : ∀ exchange ∈ front, exchange.1.method = "GET")
      (listed : (paging client (place ++ "/refs") [("filter", "heads/" ++ base)]).Listed "" front
        (.ok references))
      (found : FirstNamed (headsOpening ++ base) references parent)
      (came : Relay [⟨client.requestOf (.post (place ++ "/pushes")
          [("refUpdates", .list [.ofFields [("name", .text (headsOpening ++ stripHeads branch.branchName)),
              ("oldObjectId", .text emptyObject)]]),
            ("commits", .list [.ofFields [("comment", .text branch.commitMessage),
              ("parents", .list [parent]), ("changes", .list (branch.changes.map pushedChange))]])]
          (some [version])), fun answer => answer.accepted?.map fun _ => .null, .null⟩] held result) :
      Created client place branch base (front ++ held) result
  | refused {front : List Exchange} {listing : Except Failure (List Datum)} {message : String}
      (reads : ∀ exchange ∈ front, exchange.1.method = "GET")
      (listed : (paging client (place ++ "/refs") [("filter", "heads/" ++ base)]).Listed "" front listing)
      (missing : ∀ references parent, listing = .ok references →
        ¬ FirstNamed (headsOpening ++ base) references parent) :
      Created client place branch base front (.error (.host message))

theorem createBranch_speaks (client : Client) {repository : Repository} {place : String}
    (known : repositoryPath repository = pure place) {branch : BranchInput} {base : String}
    (named : branch.baseBranch = .text base) :
    Speaks (createBranch client repository branch) fun held _ result =>
      Created client place branch (stripHeads base) held result := by
  unfold createBranch branchHead
  simp only [branchOf_eq_pure named, known, pure_bind, bind_assoc]
  have onlyReads {front : List Exchange} {listing : Except Failure (List Datum)}
      (listed : (paging client (place ++ "/refs") [("filter", "heads/" ++ stripHeads base)]).Listed "" front
        listing) : ∀ exchange ∈ front, exchange.1.method = "GET" := by
    intro exchange member
    obtain ⟨token, same⟩ := listed.asked_page exchange member
    rw [same]
    rfl
  refine (collect_speaks client _ _).bind ?_ ?_
  · intro front events references listed
    cases looked : commitOf? (headsOpening ++ stripHeads base) references with
    | error cause =>
      refine .of_silent (fun _ => rfl) (fun _ => rfl) fun _ => ?_
      rw [List.append_nil]
      refine .refused (onlyReads listed) listed fun others parent same first => ?_
      obtain rfl := Except.ok.inj same
      cases looked.symm.trans (commitOf?_eq_some_iff.mpr first)
    | ok commit? =>
      rw [Client.expecting_ok_bind]
      cases commit? with
      | none =>
        refine .of_silent (fun _ => rfl) (fun _ => rfl) fun _ => ?_
        rw [List.append_nil]
        refine .refused (onlyReads listed) listed fun others parent same first => ?_
        obtain rfl := Except.ok.inj same
        cases looked.symm.trans (commitOf?_eq_some_iff.mpr first)
      | some parent =>
        rw [pure_bind]
        refine (Relay.answered client _).weaken fun held _ result came => ?_
        exact .pushed (onlyReads listed) listed (commitOf?_eq_some_iff.mp looked) came
  · intro front events cause listed
    obtain ⟨message, rfl⟩ := listed.reports
    exact .refused (onlyReads listed) listed fun _ _ same => nomatch same

/-- What a change of a push says of a changed file: its path from the root, and its content as Base64,
which is read as the UTF-8 of it. -/
structure Pushes (change : FileChange) (item : Datum) : Prop where
  kind : item.field "changeType" = .ok (.text change.changeType)
  path : (do (← item.field "item").field "path") = .ok (.text ("/" ++ withoutRoot change.path))
  content : ∃ written, (do (← item.field "newContent").field "content") = .ok (.text written) ∧
    Text.Base64.decode written.toList = some (Text.Utf8.encode change.content.toList)

theorem pushes_pushedChange (change : FileChange) : Pushes change (pushedChange change) := by
  constructor
  · simp [pushedChange, Datum.ofFields, Datum.field, Datum.lookup?, Datum.sameKey_text]
  · simp [pushedChange, Datum.ofFields, Datum.field, Datum.lookup?, Datum.sameKey_text, rooted, bind,
      Except.bind]
  · refine ⟨String.ofList (Text.Base64.encode (Text.Utf8.encode change.content.toList)), ?_, ?_⟩
    · simp [pushedChange, Datum.ofFields, Datum.field, Datum.lookup?, Datum.sameKey_text, bind,
        Except.bind]
    · rw [String.toList_ofList, Text.Base64.decode_encode]

end AzureDevOps

/-- Creating a branch goes through its requests in order up to the first that is not answered with what is
needed, which is reported. The one that makes the branch is the last, made of what the others gave: a
commit of the changes on top of the base branch. Where a commit is pushed at once, that is done only if
the base branch is listed by its very name. -/
theorem branches_are_published_whole (client : Client) (repository : Repository) (branch : BranchInput)
    (base : String) (named : branch.baseBranch = .text base) :
    (Speaks (GitHub.createBranch client repository branch) fun held _ result =>
      ∃ parent baseTree tree commit legs,
        legs = GitHub.creation client repository branch (stripHeads base) parent baseTree tree commit ∧
        Relay legs held result ∧ held.map Prod.fst <+: legs.map Leg.request ∧
        (4 < held.length → List.Forall₂ Leg.Given (legs.take 4) (held.take 4))) ∧
    List.Forall₂ GitHub.Writes branch.changes (branch.changes.map GitHub.treeEntry) ∧
    (∀ place, AzureDevOps.repositoryPath repository = pure place →
      Speaks (AzureDevOps.createBranch client repository branch) fun held _ result =>
        AzureDevOps.Created client place branch (stripHeads base) held result) ∧
    List.Forall₂ AzureDevOps.Pushes branch.changes (branch.changes.map AzureDevOps.pushedChange) := by
  refine ⟨?_, ?_, ?_, ?_⟩
  · refine (GitHub.createBranch_speaks client repository named).weaken ?_
    rintro held _ result ⟨parent, baseTree, tree, commit, relay⟩
    exact ⟨parent, baseTree, tree, commit, _, rfl, relay, relay.asked_prefix, relay.given_before⟩
  · rw [List.forall₂_map_right_iff]
    exact List.forall₂_same.mpr fun change _ => GitHub.writes_treeEntry change
  · intro place known
    exact AzureDevOps.createBranch_speaks client known named
  · rw [List.forall₂_map_right_iff]
    exact List.forall₂_same.mpr fun change _ => AzureDevOps.pushes_pushedChange change

private def branchedInput : BranchInput where
  branchName := "up"
  baseBranch := .text "refs/heads/main"
  changes := [{ path := "a.tf", content := "x" }]
  commitMessage := "m"

/-- The base branch is behind one whose name begins with its own. -/
private def branchedReplies : Wire :=
  [.reply ⟨200, [], "\x7b\"value\":[\x7b\"name\":\"refs/heads/main-old\",\"objectId\":\"1\"\x7d," ++
      "\x7b\"name\":\"refs/heads/main\",\"objectId\":\"2\"\x7d]\x7d"⟩,
    .reply ⟨201, [], "\x7b\x7d"⟩]

theorem branches_are_published_whole_sample :
    branchedInput.baseBranch = .text "refs/heads/main" ∧
    AzureDevOps.repositoryPath AzureDevOps.plainRepository = pure "/o/_apis/git/repositories/net" ∧
    (AzureDevOps.createBranch AzureDevOps.plainClient AzureDevOps.plainRepository branchedInput
      branchedReplies).result = .ok () ∧
    AzureDevOps.Created AzureDevOps.plainClient "/o/_apis/git/repositories/net" branchedInput
      (stripHeads "refs/heads/main")
      (exchanges branchedReplies (sent
        (AzureDevOps.createBranch AzureDevOps.plainClient AzureDevOps.plainRepository branchedInput
          branchedReplies).events))
      (AzureDevOps.createBranch AzureDevOps.plainClient AzureDevOps.plainRepository branchedInput
        branchedReplies).result := by
  refine ⟨rfl, AzureDevOps.repositoryPath_plain, by decide +kernel, ?_⟩
  have created := (branches_are_published_whole AzureDevOps.plainClient AzureDevOps.plainRepository
    branchedInput "refs/heads/main" rfl).2.2.1 _ AzureDevOps.repositoryPath_plain
  exact created.post branchedReplies

end InfraPins
