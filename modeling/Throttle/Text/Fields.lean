/-!
Text split at a separator.

There is one field more than there are separators, and joining the fields with the separator gives
the text back.
-/

namespace Throttle.Text

def fields (sep : Char) : List Char → List (List Char)
  | [] => [[]]
  | c :: cs =>
      match fields sep cs with
      | [] => [[c]]
      | field :: rest => if c = sep then [] :: field :: rest else (c :: field) :: rest

def join (sep : Char) : List (List Char) → List Char
  | [] => []
  | [field] => field
  | field :: rest => field ++ sep :: join sep rest

theorem fields_ne_nil (sep : Char) (cs : List Char) : fields sep cs ≠ [] := by
  cases cs with
  | nil => simp [fields]
  | cons c cs =>
      rw [fields]
      split
      · simp
      · split <;> simp

theorem fields_cons_sep (sep : Char) (cs : List Char) :
    fields sep (sep :: cs) = [] :: fields sep cs := by
  rw [fields]
  split
  next h => exact absurd h (fields_ne_nil sep cs)
  next h => simpa using h.symm

theorem join_fields (sep : Char) (cs : List Char) : join sep (fields sep cs) = cs := by
  induction cs with
  | nil => rfl
  | cons c cs ih =>
      rw [fields]
      split
      next h => exact absurd h (fields_ne_nil sep cs)
      next field rest h =>
        rw [h] at ih
        split
        next hc => subst hc; simp [join, ih]
        next hc =>
          cases rest with
          | nil => simp_all [join]
          | cons => simp_all [join]

end Throttle.Text
