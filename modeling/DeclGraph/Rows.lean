/-!
Rows: values under text keys, in the order in which the keys first came.
-/

namespace DeclGraph

abbrev Rows (α : Type) := List (String × α)

namespace Rows

variable {α : Type}

/-- Sets the value under a key; a key that is already there keeps its place. -/
def set (rows : Rows α) (key : String) (value : α) : Rows α :=
  match rows with
  | [] => [(key, value)]
  | (other, old) :: rest =>
    if other = key then (other, value) :: rest else (other, old) :: set rest key value

def append (rows : Rows (List α)) (key : String) (value : α) : Rows (List α) :=
  match rows with
  | [] => [(key, [value])]
  | (other, old) :: rest =>
    if other = key then (other, old ++ [value]) :: rest else (other, old) :: append rest key value

def sorted (rows : Rows α) : Rows α := rows.mergeSort fun a b => decide (a.1 ≤ b.1)

end Rows

end DeclGraph
