/-! Sorting by a comparison that may fail and need not be transitive. The order in which items are
compared is fixed: the run that the list starts with is kept, or turned round when it descends, and
each later item is put in by binary search, behind the items that it is not less than. A library that
merges runs of longer lists, from 64 items on, is not followed there: it compares other items, and comes
to the same list wherever the comparison is an order. -/

namespace InfraPins.Sorting

variable {m : Type → Type} [Monad m] {α : Type}

/-- The longest run after an item in which each item compares with the one before it as asked, and
what follows the run. -/
def extendRun (less : α → α → m Bool) (descending : Bool) (previous : α) :
    List α → m (List α × List α)
  | [] => pure ([], [])
  | item :: rest => do
    if (← less item previous) == descending then
      let (run, after) ← extendRun less descending item rest
      pure (item :: run, after)
    else pure ([], item :: rest)

/-- The place of an item among sorted ones, between two bounds: the search halves the part of the
list that it still looks at, so its length in binary digits bounds the steps. -/
def position (less : α → α → m Bool) (pivot : α) (sorted : List α) : Nat → Nat → Nat → m Nat
  | 0, low, _ => pure low
  | fuel + 1, low, high =>
    if low < high then do
      let middle := (low + high) / 2
      match sorted[middle]? with
      | some item =>
        if (← less pivot item) then position less pivot sorted fuel low middle
        else position less pivot sorted fuel (middle + 1) high
      | none => pure low
    else pure low

/-- Sorted items with one more put in. -/
def insert (less : α → α → m Bool) (sorted : List α) (pivot : α) : m (List α) := do
  let place ← position less pivot sorted (sorted.length + 1) 0 sorted.length
  pure (sorted.take place ++ pivot :: sorted.drop place)

/-- Items in ascending order. -/
def ascending (less : α → α → m Bool) : List α → m (List α)
  | [] => pure []
  | [item] => pure [item]
  | first :: second :: rest => do
    let descending ← less second first
    let (run, rest) ← extendRun less descending second rest
    let run := first :: second :: run
    rest.foldlM (insert less) (if descending then run.reverse else run)

/-- Items in descending order, those that compare equal in the order of the input. -/
def descending (less : α → α → m Bool) (items : List α) : m (List α) := do
  let sorted ← ascending less items.reverse
  pure sorted.reverse

end InfraPins.Sorting
