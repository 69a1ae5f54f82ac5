/-!
# Tables

Rows by key, in the order in which each key was first entered. Entering a key again replaces its
value where it stands.
-/

namespace SearchSql

abbrev Table (κ ν : Type) := List (κ × ν)

namespace Table

variable {κ ν : Type} [DecidableEq κ]

def put (key : κ) (value : ν) : Table κ ν → Table κ ν
  | [] => [(key, value)]
  | (k, v) :: rest => if k = key then (key, value) :: rest else (k, v) :: put key value rest

def get? : Table κ ν → κ → Option ν
  | [], _ => none
  | (k, v) :: rest, key => if k = key then some v else get? rest key

def keys (t : Table κ ν) : List κ := t.map Prod.fst

/-- The table of a row of entries, of which a later one replaces an earlier one of its key. -/
def ofEntries (entries : List (κ × ν)) : Table κ ν :=
  entries.foldl (fun t (key, value) => put key value t) []

theorem get?_put (key : κ) (value : ν) (t : Table κ ν) (k : κ) :
    get? (put key value t) k = if key = k then some value else get? t k := by
  induction t with
  | nil => simp [put, get?]
  | cons row rest ih => grind [put, get?]

theorem keys_put (key : κ) (value : ν) (t : Table κ ν) :
    keys (put key value t) = if key ∈ keys t then keys t else keys t ++ [key] := by
  induction t with
  | nil => simp [put, keys]
  | cons row rest ih => grind [put, keys]

end Table

end SearchSql
