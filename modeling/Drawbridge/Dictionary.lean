import Drawbridge.Text.Basic

/-!
Dictionaries that keep the order of insertion. Inserting at a key that is present keeps the place
of the key and replaces its value. `tabulate` is the table of a function over some keys.
-/

namespace Drawbridge

/-- Keys with their values, in the order of first insertion. -/
abbrev Dictionary (α : Type) := List (Text × α)

namespace Dictionary

variable {α : Type}

def get? (d : Dictionary α) (key : Text) : Option α :=
  match d with
  | [] => none
  | (k, v) :: d => if k = key then some v else get? d key

def insert (d : Dictionary α) (key : Text) (value : α) : Dictionary α :=
  match d with
  | [] => [(key, value)]
  | (k, v) :: d => if k = key then (k, value) :: d else (k, v) :: insert d key value

/-- The dictionary of a list of pairs; of equal keys the last value counts. -/
def ofList (pairs : List (Text × α)) : Dictionary α :=
  pairs.foldl (fun d (k, v) => insert d k v) []

/-- The values of a function at some keys. -/
def tabulate (f : Text → α) (keys : List Text) : Dictionary α :=
  keys.map fun k => (k, f k)

theorem get?_tabulate (f : Text → α) (keys : List Text) (key : Text) :
    get? (tabulate f keys) key = if key ∈ keys then some (f key) else none := by
  induction keys with
  | nil => rfl
  | cons k ks ih =>
    have step : get? (tabulate f (k :: ks)) key =
        if k = key then some (f k) else get? (tabulate f ks) key := rfl
    rw [step, ih]
    by_cases h : k = key
    · simp [h]
    · simp [h, Ne.symm h]

end Dictionary

end Drawbridge
