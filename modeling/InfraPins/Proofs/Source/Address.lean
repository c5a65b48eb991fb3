import InfraPins.Proofs.Scan.Pattern
import InfraPins.Proofs.Patch.Whole
import InfraPins.Proofs.Text.Pieces

namespace InfraPins.Source

open Text

def isParameterChar (c : Char) : Bool :=
  isWord c || c == '.' || c == '-' || c == '='

/-- A module source in full: where it is, and its query with the version as the only `ref`. -/
structure Address where
  locator : List Char
  before : List (List Char)
  version : List Char
  after : List (List Char)
  secure : "git::https://".toList <+: locator
  named : ∀ c ∈ locator, Patch.isNameChar c = true
  parameters : ∀ parameter ∈ before ++ after,
    isKeptParameter parameter = true ∧ ∀ c ∈ parameter, isParameterChar c = true
  pinned : ∀ c ∈ version, Patch.isVersionChar c = true
  versioned : version ≠ []

namespace Address

/-- Parameters, each with the mark of the next one behind it. -/
def lead (parameters : List (List Char)) : List Char :=
  parameters.flatMap (· ++ ['&'])

/-- Parameters, each behind its mark. -/
def trail (parameters : List (List Char)) : List Char :=
  parameters.flatMap ('&' :: ·)

/-- The text of an address up to its version. -/
def opening (address : Address) : List Char :=
  address.locator ++ '?' :: lead address.before

def text (address : Address) : List Char :=
  address.opening ++ refKey ++ address.version ++ trail address.after

theorem splitAt_lead {parameters : List (List Char)} (bare : ∀ p ∈ parameters, '&' ∉ p)
    (back : List Char) : splitAt '&' (lead parameters ++ back) = parameters ++ splitAt '&' back := by
  induction parameters with
  | nil => rfl
  | cons p parameters ih =>
    have split : lead (p :: parameters) ++ back = p ++ '&' :: (lead parameters ++ back) := by
      simp [lead]
    rw [split, splitAt_append, splitAt_of_notMem (bare p List.mem_cons_self),
      ih fun q member => bare q (List.mem_cons_of_mem _ member)]
    rfl

theorem splitAt_trail {front : List Char} {parameters : List (List Char)} (first : '&' ∉ front)
    (bare : ∀ p ∈ parameters, '&' ∉ p) :
    splitAt '&' (front ++ trail parameters) = front :: parameters := by
  induction parameters generalizing front with
  | nil => simp [trail, splitAt_of_notMem first]
  | cons p parameters ih =>
    have split : front ++ trail (p :: parameters) = front ++ '&' :: (p ++ trail parameters) := by
      simp [trail]
    rw [split, splitAt_append, splitAt_of_notMem first,
      ih (bare p List.mem_cons_self) fun q member => bare q (List.mem_cons_of_mem _ member)]
    rfl

variable (address : Address)

def query : List Char :=
  lead address.before ++ refKey ++ address.version ++ trail address.after

theorem text_eq : address.text = address.locator ++ '?' :: address.query := by
  simp [text, opening, query]

theorem amp_notMem_parameter {p : List Char} (member : p ∈ address.before ++ address.after) :
    '&' ∉ p := by
  intro inside
  have char := (address.parameters p member).2 '&' inside
  revert char
  decide

/-- The characters of a query. -/
theorem of_mem_query {c : Char} (member : c ∈ address.query) :
    isParameterChar c = true ∨ Patch.isVersionChar c = true ∨ c = '&' := by
  have lead_or {parameters : List (List Char)} (inside : c ∈ lead parameters ∨ c ∈ trail parameters) :
      c = '&' ∨ ∃ p ∈ parameters, c ∈ p := by
    simp only [lead, trail, List.mem_flatMap, List.mem_append, List.mem_cons, List.not_mem_nil,
      or_false] at inside
    grind
  have known (p : List Char) (here : p ∈ address.before ++ address.after) (inside : c ∈ p) :=
    (address.parameters p here).2 c inside
  simp only [query, List.mem_append, or_assoc] at member
  rcases member with member | member | member | member
  · rcases lead_or (.inl member) with same | ⟨p, here, inside⟩
    · exact .inr (.inr same)
    · exact .inl (known p (List.mem_append_left _ here) inside)
  · exact .inl (List.all_eq_true.mp (by decide : refKey.all isParameterChar = true) c member)
  · exact .inr (.inl (address.pinned c member))
  · rcases lead_or (.inr member) with same | ⟨p, here, inside⟩
    · exact .inr (.inr same)
    · exact .inl (known p (List.mem_append_right _ here) inside)

theorem notMem_query {c : Char} (unnamed : isParameterChar c = false)
    (unpinned : Patch.isVersionChar c = false) (single : c ≠ '&') : c ∉ address.query := by
  intro member
  rcases address.of_mem_query member with char | char | same
  · rw [unnamed] at char
    cases char
  · rw [unpinned] at char
    cases char
  · exact single same

theorem notMem_locator {c : Char} (unnamed : Patch.isNameChar c = false) : c ∉ address.locator := by
  intro member
  rw [address.named c member] at unnamed
  cases unnamed

theorem cutAt?_text : cutAt? '?' address.text = some (address.locator, address.query) := by
  rw [text_eq]
  exact cutAt?_of_notMem (address.notMem_locator (by decide)) _

theorem splitAt_query :
    splitAt '&' address.query = address.before ++ (refKey ++ address.version) :: address.after := by
  have first : '&' ∉ refKey ++ address.version := by
    intro member
    rcases List.mem_append.mp member with member | member
    · revert member
      decide
    · have char := address.pinned '&' member
      revert char
      decide
  rw [query, List.append_assoc, List.append_assoc, splitAt_lead, ← List.append_assoc,
    splitAt_trail first]
  · exact fun p member => address.amp_notMem_parameter (List.mem_append_right _ member)
  · exact fun p member => address.amp_notMem_parameter (List.mem_append_left _ member)

theorem lead_splitAt (front : List Char) : lead (splitAt '&' front) = front ++ ['&'] := by
  induction front with
  | nil => rfl
  | cons c front ih =>
    obtain ⟨piece, pieces, same⟩ := List.exists_cons_of_ne_nil (@splitAt_ne_nil '&' front)
    rw [same] at ih
    by_cases mark : c = '&'
    · subst mark
      simpa [splitAt, lead, same] using ih
    · simpa [splitAt, lead, same, mark] using ih

theorem lead_eq_join {parameters : List (List Char)} (nonempty : parameters ≠ []) :
    lead parameters = join ['&'] parameters ++ ['&'] := by
  induction parameters with
  | nil => exact absurd rfl nonempty
  | cons p parameters ih =>
    cases parameters with
    | nil => simp [lead, join]
    | cons q parameters =>
      show p ++ ['&'] ++ lead (q :: parameters) = p ++ ['&'] ++ join ['&'] (q :: parameters) ++ ['&']
      rw [ih (List.cons_ne_nil _ _), ← List.append_assoc]

private theorem splitAt_refKey (rest : List Char) :
    ∃ piece pieces, splitAt '&' (refKey ++ rest) = (refKey ++ piece) :: pieces := by
  obtain ⟨piece, pieces, same⟩ := List.exists_cons_of_ne_nil (@splitAt_ne_nil '&' rest)
  exact ⟨piece, pieces, by simp [refKey, splitAt, same]⟩

private theorem eq_before_of_refKey {front : List (List Char)} {piece : List Char}
    {pieces : List (List Char)}
    (same : front ++ (refKey ++ piece) :: pieces =
      address.before ++ (refKey ++ address.version) :: address.after) : front = address.before := by
  have other : refKey ++ piece ∉ address.before ++ address.after := by
    intro member
    have kept := (address.parameters _ member).1
    have key : refKey.isPrefixOf (refKey ++ piece) = true :=
      List.isPrefixOf_iff_prefix.mpr (List.prefix_append _ _)
    simp [isKeptParameter, key] at kept
  rcases List.append_eq_append_iff.mp same with ⟨more, before, ends⟩ | ⟨more, rfl, ends⟩
  · cases more with
    | nil => simpa using before.symm
    | cons p more =>
      obtain ⟨rfl, _⟩ := List.cons.inj ends
      exact absurd (by simp [before]) other
  · cases more with
    | nil => simp
    | cons p more =>
      obtain ⟨rfl, after⟩ := List.cons.inj ends
      exact absurd (by simp [after]) other

/-- What looks like the `ref` of an address is its `ref`. -/
theorem eq_opening {mark : Char} {front rest : List Char} (marked : mark = '?' ∨ mark = '&')
    (here : address.text = front ++ mark :: (refKey ++ rest)) :
    front ++ [mark] = address.opening ∧ rest = address.version ++ trail address.after := by
  obtain ⟨piece, pieces, split⟩ := splitAt_refKey rest
  have parameters := address.splitAt_query
  suffices opened : front ++ [mark] = address.opening by
    refine ⟨opened, ?_⟩
    have whole : address.opening ++ (refKey ++ rest) =
        address.opening ++ (refKey ++ (address.version ++ trail address.after)) := by
      rw [← opened]
      simpa [text, ← opened] using here.symm
    exact List.append_cancel_left (List.append_cancel_left whole)
  rw [text_eq] at here
  rcases marked with rfl | rfl
  · obtain ⟨rfl, _, query⟩ := (List.append_cons_inj_of_notMem
      (address.notMem_locator (by decide))
      (address.notMem_query (by decide) (by decide) (by decide))).mp here
    rw [query, split] at parameters
    have first : [] = address.before := address.eq_before_of_refKey parameters
    simp [opening, ← first, lead]
  · have whole : (address.locator ++ ['?']) ++ address.query = front ++ '&' :: (refKey ++ rest) := by
      rw [← here, List.append_assoc]
      rfl
    have absent : '&' ∉ address.locator ++ ['?'] := by
      simp [address.notMem_locator (show Patch.isNameChar '&' = false by decide)]
    obtain ⟨inner, rfl, query⟩ : ∃ inner, front = address.locator ++ ['?'] ++ inner ∧
        address.query = inner ++ '&' :: (refKey ++ rest) := by
      rcases List.append_eq_append_iff.mp whole with ⟨more, split, query⟩ | ⟨more, split, query⟩
      · exact ⟨more, split, query⟩
      · cases more with
        | nil => exact ⟨[], by simpa using split.symm, by simpa using query.symm⟩
        | cons c more =>
          obtain ⟨rfl, _⟩ := List.cons.inj query
          exact absurd (by simp [split]) absent
    rw [query, splitAt_append, split] at parameters
    have first := address.eq_before_of_refKey parameters
    simp [opening, ← first, lead_splitAt]

def renew (version : List Char) (pinned : ∀ c ∈ version, Patch.isVersionChar c = true)
    (versioned : version ≠ []) : Address :=
  { address with version, pinned, versioned }

theorem isRefChar_of_isVersionChar {c : Char} (pinned : Patch.isVersionChar c = true) :
    isRefChar c = true := by
  cases blank : isBlank c with
  | true =>
    simp only [Patch.isVersionChar, isWord_of_isBlank blank, Bool.false_or, Bool.or_eq_true,
      beq_iff_eq, or_assoc] at pinned
    rcases pinned with rfl | rfl | rfl <;> revert blank <;> decide
  | false =>
    have amp : c ≠ '&' := by rintro rfl; revert pinned; decide
    have quote : c ≠ '"' := by rintro rfl; revert pinned; decide
    simp [isRefChar, blank, amp, quote]

theorem opening_eq_append :
    ∃ front mark, (mark = '?' ∨ mark = '&') ∧ address.opening = front ++ [mark] := by
  by_cases first : address.before = []
  · exact ⟨address.locator, '?', .inl rfl, by simp [opening, first, lead]⟩
  · refine ⟨address.locator ++ '?' :: join ['&'] address.before, '&', .inr rfl, ?_⟩
    simp [opening, lead_eq_join first]

private theorem eq_of_refHere? {text value : List Char} (found : refHere? text = some value) :
    ∃ mark rest, (mark = '?' ∨ mark = '&') ∧ text = mark :: (refKey ++ rest) := by
  cases text with
  | nil => cases found
  | cons mark text =>
    simp only [refHere?, Bool.or_eq_true, beq_iff_eq] at found
    split at found
    · rename_i marked
      split at found
      · rename_i rest behind
        exact ⟨mark, rest, marked, by rw [after?_eq_some_iff.mp behind]⟩
      · cases found
    · cases found

theorem version_text : Source.version address.text = address.version := by
  obtain ⟨front, mark, marked, opened⟩ := address.opening_eq_append
  have value : (address.version ++ trail address.after).takeWhile isRefChar = address.version := by
    rw [List.takeWhile_append_of_pos fun c member => isRefChar_of_isVersionChar (address.pinned c member)]
    cases address.after with
    | nil => simp [trail]
    | cons p after => simp [trail, show isRefChar '&' = false by decide]
  have here : refHere? (mark :: (refKey ++ (address.version ++ trail address.after))) =
      some address.version := by
    have behind : after? refKey (refKey ++ (address.version ++ trail address.after)) =
        some (address.version ++ trail address.after) := after?_eq_some_iff.mpr rfl
    simp only [refHere?, behind, value, Bool.or_eq_true, beq_iff_eq, marked, if_true]
    simp [address.versioned]
  have found : findFirst (fun _ rest => refHere? rest) none address.text =
      some ⟨front, address.version⟩ := by
    refine findFirst_eq_some_iff.mpr ⟨_, ?_, here, fun before middle split nonempty => ?_⟩
    · simp [text, opened]
    · -- An earlier place would be the place of the `ref` too.
      cases early : refHere? (middle ++ mark :: (refKey ++ (address.version ++ trail address.after))) with
      | none => rfl
      | some value' =>
        obtain ⟨mark', rest, marked', behind⟩ := eq_of_refHere? early
        have place : address.text = before ++ mark' :: (refKey ++ rest) := by
          rw [← behind]
          simp [text, opened, split]
        have lengths := congrArg List.length ((address.eq_opening marked' place).1.trans opened)
        have positive := List.length_pos_of_ne_nil nonempty
        simp only [split, List.length_append, List.length_singleton] at lengths
        omega
  simp [Source.version, found]

def bare : List Char :=
  match address.before ++ address.after with
  | [] => address.locator
  | parameters => address.locator ++ '?' :: join ['&'] parameters

theorem withoutVersion_text : withoutVersion address.text = address.bare := by
  have kept : (address.before ++ (refKey ++ address.version) :: address.after).filter
      isKeptParameter = address.before ++ address.after := by
    have key : isKeptParameter (refKey ++ address.version) = false := by
      have named : refKey.isPrefixOf (refKey ++ address.version) = true :=
        List.isPrefixOf_iff_prefix.mpr (List.prefix_append _ _)
      simp [isKeptParameter, named]
    have all (p : List Char) (member : p ∈ address.before ++ address.after) :=
      (address.parameters p member).1
    rw [List.filter_append, List.filter_cons_of_neg (by simp [key]), ← List.filter_append,
      List.filter_eq_self.mpr all]
  unfold withoutVersion
  simp only [cutAt?_text, splitAt_query, kept]
  rfl

/-- The address with its version at the end. -/
def normal : Address :=
  { address with
    before := address.before ++ address.after
    after := []
    parameters := by simpa using address.parameters }

theorem text_normal :
    address.normal.text = address.normal.opening ++ (refKey ++ address.version) := by
  simp [text, normal, trail]

/-- The mark that a version is put behind. -/
theorem opening_normal :
    ∃ mark, (mark = '?' ∧ address.before ++ address.after = [] ∨
        mark = '&' ∧ address.before ++ address.after ≠ []) ∧
      address.normal.opening = address.bare ++ [mark] := by
  show ∃ mark, _ ∧ address.locator ++ '?' :: lead (address.before ++ address.after) = _
  unfold bare
  cases same : address.before ++ address.after with
  | nil => exact ⟨'?', .inl ⟨rfl, rfl⟩, by simp [lead]⟩
  | cons p parameters =>
    exact ⟨'&', .inr ⟨rfl, nofun⟩, by simp [lead_eq_join (List.cons_ne_nil p parameters)]⟩

theorem not_occurs_refMark : occurs refMark address.bare = false := by
  rw [Bool.eq_false_iff]
  intro found
  obtain ⟨front, back, split⟩ := occurs_iff.mp found
  obtain ⟨mark, _, opened⟩ := address.opening_normal
  have place : address.normal.text =
      front ++ '?' :: (refKey ++ (back ++ mark :: (refKey ++ address.version))) := by
    rw [text_normal, opened, ← split]
    simp [refMark]
  have again := (address.normal.eq_opening (.inl rfl) place).1
  rw [opened, ← split] at again
  have lengths := congrArg List.length again
  simp [refMark] at lengths

/-- A version is put behind the last parameter. -/
theorem withVersion_bare :
    ∃ mark, (mark = '?' ∨ mark = '&') ∧ address.normal.opening = address.bare ++ [mark] ∧
      ∀ version, withVersion address.bare version = address.bare ++ mark :: (refKey ++ version) := by
  obtain ⟨mark, marked, opened⟩ := address.opening_normal
  refine ⟨mark, marked.imp And.left And.left, opened, fun version => ?_⟩
  simp only [withVersion, address.not_occurs_refMark, Bool.false_eq_true, if_false]
  rcases marked with ⟨rfl, none⟩ | ⟨rfl, some⟩
  · have absent : address.bare.contains '?' = false := by
      simpa [bare, none] using address.notMem_locator (show Patch.isNameChar '?' = false by decide)
    simp only [absent, Bool.false_eq_true, if_false]
    simp [refMark]
  · obtain ⟨p, parameters, same⟩ := List.exists_cons_of_ne_nil some
    have present : address.bare.contains '?' = true := by simp [bare, same]
    simp only [present, if_true]
    simp

/-- A version put into a source is the text of an address. -/
theorem withVersion_bare_eq_text {version : List Char}
    (pinned : ∀ c ∈ version, Patch.isVersionChar c = true) (versioned : version ≠ []) :
    withVersion address.bare version = (address.normal.renew version pinned versioned).text := by
  obtain ⟨mark, _, opened, put⟩ := address.withVersion_bare
  show _ = address.normal.opening ++ refKey ++ version ++ trail []
  rw [put, opened]
  simp [trail]

theorem bare_normal : address.normal.bare = address.bare := by
  simp [bare, normal]

/-- No parameter is empty. -/
theorem getLast?_bare : address.bare.getLast? ≠ some '&' := by
  intro last
  cases same : address.before ++ address.after with
  | nil =>
    have form : address.bare = address.locator := by simp only [bare, same]
    exact address.notMem_locator (show Patch.isNameChar '&' = false by decide)
      (form ▸ List.mem_of_getLast? last)
  | cons p parameters =>
    have form : address.bare = address.locator ++ '?' :: join ['&'] (p :: parameters) := by
      simp only [bare, same]
    rw [form] at last
    have joined := lead_eq_join (List.cons_ne_nil p parameters)
    have bare (q : List Char) (member : q ∈ p :: parameters) : '&' ∉ q :=
      address.amp_notMem_parameter (same ▸ member)
    rcases List.eq_nil_or_concat (join ['&'] (p :: parameters)) with empty | ⟨front, c, ends⟩
    · simp [empty] at last
    · rw [ends, List.concat_eq_append, ← List.cons_append, ← List.append_assoc,
        List.getLast?_concat] at last
      obtain rfl := Option.some.inj last
      have split := splitAt_lead bare []
      rw [List.append_nil, joined, ends, List.concat_eq_append, List.append_assoc,
        List.singleton_append, splitAt_append] at split
      have parts : (splitAt '&' front ++ [[]]) ++ [[]] = (p :: parameters) ++ [[]] := by
        simpa [splitAt] using split
      have member : [] ∈ address.before ++ address.after := by
        rw [same, ← List.append_cancel_right parts]
        simp
      have kept := (address.parameters [] member).1
      simp [isKeptParameter] at kept

/-- No mark stands before another one. -/
theorem getLast?_of_opening {front : List Char} {mark : Char}
    (opened : front ++ [mark] = address.opening) : front.getLast? ≠ some '&' := by
  let short : Address := {
    address with
    after := []
    parameters := fun p member => address.parameters p (List.mem_append_left _ (by simpa using member)) }
  obtain ⟨mark', _, normal⟩ := short.opening_normal
  have same : front ++ [mark] = short.bare ++ [mark'] := by
    rw [opened, ← normal]
    simp [opening, short, Address.normal]
  rw [List.append_inj_left' same rfl]
  exact short.getLast?_bare

theorem head?_trail (parameters : List (List Char)) :
    ∀ c ∈ (trail parameters).head?, Patch.isVersionChar c = false := by
  cases parameters with
  | nil => nofun
  | cons p parameters => simp [trail]; decide

theorem eq_of_run {version version' rest rest' : List Char}
    (pinned : ∀ c ∈ version, Patch.isVersionChar c = true)
    (pinned' : ∀ c ∈ version', Patch.isVersionChar c = true)
    (ends : ∀ c ∈ rest.head?, Patch.isVersionChar c = false)
    (ends' : ∀ c ∈ rest'.head?, Patch.isVersionChar c = false)
    (same : version ++ rest = version' ++ rest') : version = version' ∧ rest = rest' := by
  have run {version rest : List Char} (pinned : ∀ c ∈ version, Patch.isVersionChar c = true)
      (ends : ∀ c ∈ rest.head?, Patch.isVersionChar c = false) :
      (version ++ rest).takeWhile Patch.isVersionChar = version := by
    rw [List.takeWhile_append_of_pos pinned]
    cases rest with
    | nil => simp
    | cons c rest => simp [ends c rfl]
  have first : version = version' := by rw [← run pinned ends, same, run pinned' ends']
  subst first
  exact ⟨rfl, List.append_cancel_left same⟩

theorem renew_text {mark : Char} {front old closing version : List Char}
    (marked : mark = '?' ∨ mark = '&')
    (here : address.text = front ++ mark :: (refKey ++ (old ++ closing)))
    (filled : ∀ c ∈ old, Patch.isVersionChar c = true)
    (ends : ∀ c ∈ closing.head?, Patch.isVersionChar c = false)
    (pinned : ∀ c ∈ version, Patch.isVersionChar c = true) (versioned : version ≠ []) :
    old = address.version ∧ closing = trail address.after ∧
      (address.renew version pinned versioned).text =
        front ++ mark :: (refKey ++ (version ++ closing)) := by
  obtain ⟨opened, behind⟩ := address.eq_opening marked here
  obtain ⟨rfl, rfl⟩ := eq_of_run filled address.pinned ends (head?_trail _) behind
  refine ⟨rfl, rfl, ?_⟩
  show (address.opening ++ refKey ++ version ++ trail address.after) = _
  simp [← opened]

theorem locator_prefix_bare : address.locator <+: address.bare := by
  unfold bare
  split
  · exact List.prefix_rfl
  · exact List.prefix_append _ _

theorem bare_prefix_text_normal : address.bare <+: address.normal.text := by
  obtain ⟨mark, _, opened⟩ := address.opening_normal
  rw [text_normal, opened, List.append_assoc]
  exact List.prefix_append _ _

theorem quote_notMem_text : '"' ∉ address.text := by
  rw [text_eq]
  intro member
  rcases List.mem_append.mp member with member | member
  · exact address.notMem_locator (by decide) member
  · rcases List.mem_cons.mp member with same | member
    · revert same
      decide
    · exact address.notMem_query (by decide) (by decide) (by decide) member

theorem quote_notMem_bare : '"' ∉ address.bare := fun member =>
  address.normal.quote_notMem_text (address.bare_prefix_text_normal.subset member)

theorem colon_mem_bare : ':' ∈ address.bare :=
  address.locator_prefix_bare.subset (address.secure.subset (by decide))

theorem isGit_text : isGit address.text = true := by
  obtain ⟨rest, secure⟩ := address.secure
  have git : "git::".toList.isPrefixOf address.text = true := by
    rw [List.isPrefixOf_iff_prefix, text_eq, ← secure]
    exact ⟨"https://".toList ++ rest ++ '?' :: address.query, by simp⟩
  have any : gitOpenings.any (fun opening => opening.toList.isPrefixOf address.text) = true :=
    List.any_eq_true.mpr ⟨"git::", by decide, git⟩
  rw [isGit, any, Bool.true_or]

end Address

end InfraPins.Source
