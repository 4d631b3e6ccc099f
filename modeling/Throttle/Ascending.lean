/-!
Strictly ascending lists without duplicates, under a comparison.

`ofList` sorts and removes repetitions: an element that compares equal to one already present is
dropped.
-/

namespace Throttle.Ascending

variable {α : Type}

def insert (cmp : α → α → Ordering) (a : α) : List α → List α
  | [] => [a]
  | b :: rest =>
      match cmp a b with
      | .lt => a :: b :: rest
      | .eq => b :: rest
      | .gt => b :: insert cmp a rest

def ofList (cmp : α → α → Ordering) (as : List α) : List α :=
  as.foldl (fun l a => insert cmp a l) []

end Throttle.Ascending
