/-!
# Dictionaries in key order

A dictionary is a list of entries under text keys. Text is compared code point by code point, which
is also the order of its UTF-8 bytes. Every operation here that builds a dictionary from one whose
keys strictly increase gives one whose keys strictly increase (`Dict.Sorted`), so equal contents are
equal lists and the order of insertion leaves no trace.
-/

namespace EntityQuery

universe u

/-- Entries under text keys. -/
abbrev Dict (α : Type u) := List (String × α)

namespace Dict

variable {α : Type u}

/-- The keys, in order. -/
def keys (d : Dict α) : List String := d.map Prod.fst

/-- Every key is smaller than all keys after it. -/
def Sorted (d : Dict α) : Prop := d.keys.Pairwise (· < ·)

/-- The value of the first entry under `key`. -/
def get? (d : Dict α) (key : String) : Option α := d.lookup key

/-- Whether some entry is under `key`. -/
def contains (d : Dict α) (key : String) : Bool := (get? d key).isSome

/-- Replaces what `key` holds by `f` of it; a new key takes its place in the order. -/
def alter (key : String) (f : Option α → α) : Dict α → Dict α
  | [] => [(key, f none)]
  | (k, v) :: rest =>
    if key < k then (key, f none) :: (k, v) :: rest
    else if key = k then (k, f (some v)) :: rest
    else (k, v) :: alter key f rest

/-- The last value written under a key is the one that stays. -/
def insert (d : Dict α) (key : String) (value : α) : Dict α := alter key (fun _ => value) d

/-- Writes the entries one after the other, so that a repeated key keeps its last value. -/
def ofEntries (entries : List (String × α)) : Dict α :=
  entries.foldl (fun d entry => insert d entry.1 entry.2) []

end Dict

end EntityQuery
