namespace Orchestration

/-- The entries with `value` under `key`: in the place of the old value, else at the end. -/
def put {κ α : Type} [DecidableEq κ] (key : κ) (value : α) : List (κ × α) → List (κ × α)
  | [] => [(key, value)]
  | (k, old) :: entries =>
    if k = key then (key, value) :: entries else (k, old) :: put key value entries

end Orchestration
