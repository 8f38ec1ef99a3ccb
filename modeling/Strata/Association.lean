/-!
# Tables in insertion order

A table is a list of entries with distinct keys. Setting a key that is already there keeps its place and
changes its value; a new key comes last.
-/

namespace Strata.Association

variable {α β : Type}

/-- The table with `key` set to `value`, keys being compared by `same`. -/
def set (same : α → α → Bool) (key : α) (value : β) : List (α × β) → List (α × β)
  | [] => [(key, value)]
  | (k, v) :: rest => if same k key then (k, value) :: rest else (k, v) :: set same key value rest

/-- The value of the first entry with that key. -/
def get? (same : α → α → Bool) (key : α) : List (α × β) → Option β
  | [] => none
  | (k, v) :: rest => if same k key then some v else get? same key rest

/-- The table made by setting the entries one after the other. -/
def ofEntries (same : α → α → Bool) (entries : List (α × β)) : List (α × β) :=
  entries.foldl (fun table e => set same e.1 e.2 table) []

end Strata.Association
