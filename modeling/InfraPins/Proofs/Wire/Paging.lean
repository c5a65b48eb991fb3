import InfraPins.Proofs.Wire.Asking

namespace InfraPins

/-- How things are listed page by page: what is asked for at a place, and what an answer gives there,
the entries of the page and the place of the next page unless it is the last. An answer that is not
acceptable gives nothing. -/
structure Paging (Place : Type) where
  request : Place → Request
  page? : Place → Answer → Option (List Datum × Option Place)

inductive Paging.Listed {Place : Type} (paging : Paging Place) :
    Place → List Exchange → Except Failure (List Datum) → Prop where
  /-- An answer that is not acceptable is the last, and nothing is listed. -/
  | refused {place : Place} {answer : Answer} {message : String}
      (refused : paging.page? place answer = none) :
      Listed paging place [(paging.request place, answer)] (.error (.host message))
  /-- After the last page, its entries are what is left to list. -/
  | last {place : Place} {answer : Answer} {batch : List Datum}
      (given : paging.page? place answer = some (batch, none)) :
      Listed paging place [(paging.request place, answer)] (.ok batch)
  /-- The entries of any other page go before those of the pages from the next one on. -/
  | next {place further : Place} {answer : Answer} {batch : List Datum} {held : List Exchange}
      {result : Except Failure (List Datum)}
      (given : paging.page? place answer = some (batch, some further))
      (rest : Listed paging further held result) :
      Listed paging place ((paging.request place, answer) :: held) (result.map (batch ++ ·))

namespace Paging

open Act

variable {Place : Type} {paging : Paging Place} {first place : Place} {held : List Exchange}
  {result : Except Failure (List Datum)}

/-- A place that a header gives, unless it is empty. -/
def place? (header : String) : Option String :=
  if header.isEmpty then none else some header

theorem Listed.reports {cause : Failure} (listed : paging.Listed place held (.error cause)) :
    ∃ message, cause = .host message := by
  generalize same : Except.error cause = result at listed
  induction listed with
  | refused => exact ⟨_, Except.error.inj same⟩
  | last => cases same
  | @next _ _ _ _ _ result _ _ ih =>
    cases result with
    | error other => exact ih same
    | ok items => cases same

theorem Listed.asked_page (listed : paging.Listed place held result) :
    ∀ exchange ∈ held, ∃ further, exchange.1 = paging.request further := by
  induction listed with
  | refused => exact List.forall_mem_singleton.mpr ⟨_, rfl⟩
  | last => exact List.forall_mem_singleton.mpr ⟨_, rfl⟩
  | next _ _ ih => exact List.forall_mem_cons.mpr ⟨⟨_, rfl⟩, ih⟩

/-- Where each place is the one after another, the places that are asked for follow each other. -/
theorem Listed.asked {paging : Paging Nat} {start : Nat}
    (onward : ∀ place answer batch further, paging.page? place answer = some (batch, some further) →
      further = place + 1) (listed : paging.Listed start held result) :
    held.map Prod.fst = (List.range' start held.length).map paging.request := by
  induction listed with
  | refused => rfl
  | last => rfl
  | @next place further answer batch held result given rest ih =>
    obtain rfl : further = place + 1 := onward place answer batch further given
    rw [List.map_cons, ih, List.length_cons, List.range'_succ, List.map_cons]

/-- What is left to do after a page. -/
def goOn (pages : Place → Act Wire (List Datum)) (page : List Datum × Option Place) :
    Act Wire (List Datum) :=
  match page with
  | (batch, none) => pure batch
  | (batch, some further) => do return batch ++ (← pages further)

/-- A walk through pages, of at most as many as it takes for the script to run out. -/
theorem listed_of_steps {page : Place → Act Wire (List Datum × Option Place)}
    {pages : Nat → Place → Act Wire (List Datum)}
    (asks : ∀ place, Asks (page place) (paging.request place) (paging.page? place))
    (ends : ∀ place, paging.page? place .missing = none)
    (steps : ∀ most place, pages (most + 1) place = page place >>= goOn (pages most))
    (most : Nat) (place : Place) (wire : Wire) (enough : wire.length < most) :
    (pages most place wire).state = wire.drop (sent (pages most place wire).events).length ∧
      paging.Listed place (exchanges wire (sent (pages most place wire).events))
        (pages most place wire).result := by
  induction most generalizing place wire with
  | zero => exact absurd enough (Nat.not_lt_zero _)
  | succ most ih =>
    have events := (asks place).events wire
    have state := (asks place).state wire
    have gives := (asks place).result wire
    have missing := ends place
    rw [steps, bind_apply]
    generalize page place wire = outcome at events state gives
    obtain ⟨came, listed, left⟩ := outcome
    dsimp only at events state gives
    subst events state
    generalize given : paging.page? place (wire.head?.getD .missing) = page? at gives
    have taken : wire.drop 1 = wire.tail := List.drop_one
    cases gives with
    | report => exact ⟨taken.symm, .refused given⟩
    | @value found =>
      obtain ⟨batch, further?⟩ := found
      cases further? with
      | none => exact ⟨taken.symm, .last given⟩
      | some further =>
        -- A script that has run out gives no page, so an answer of it was taken.
        have shorter : wire.tail.length < most := by
          cases wire with
          | nil =>
            rw [List.head?_nil, Option.getD_none, missing] at given
            cases given
          | cons answer rest => exact Nat.lt_of_succ_lt_succ enough
        obtain ⟨onward, behind⟩ := ih further wire.tail shorter
        dsimp only [goOn]
        rw [bind_apply]
        generalize pages most further wire.tail = outcome at onward behind
        obtain ⟨came, listed, left⟩ := outcome
        dsimp only at onward behind
        have whole := Listed.next given behind
        have dropped : left = wire.drop ((sent listed).length + 1) := by
          rw [onward, ← taken, List.drop_drop, Nat.add_comm]
        cases came with
        | error cause => exact ⟨dropped, whole⟩
        | ok items =>
          simp only [pure_apply, List.append_nil]
          exact ⟨dropped, whole⟩

/-- A listing goes through pages until one is the last or cannot be had. -/
theorem speaks_of_steps (page : Place → Act Wire (List Datum × Option Place))
    (pages : Nat → Place → Act Wire (List Datum))
    (asks : ∀ place, Asks (page place) (paging.request place) (paging.page? place))
    (ends : ∀ place, paging.page? place .missing = none)
    (steps : ∀ most place, pages (most + 1) place = page place >>= goOn (pages most)) :
    Speaks (do pages (← Client.enough) first) fun held _ result => paging.Listed first held result where
  state wire := (listed_of_steps asks ends steps _ first wire (Nat.lt_succ_self _)).1
  post wire := (listed_of_steps asks ends steps _ first wire (Nat.lt_succ_self _)).2

end Paging

end InfraPins
