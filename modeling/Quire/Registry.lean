/-!
# Registries

Entries under unique text keys, in the order in which the keys first came.
-/

namespace Quire

structure Registry (α : Type) where
  entries : List (String × α) := []
  deriving DecidableEq, Repr

namespace Registry

variable {α : Type}

def empty : Registry α := {}

def keys (r : Registry α) : List String := r.entries.map (·.1)

def size (r : Registry α) : Nat := r.entries.length

def find? (r : Registry α) (key : String) : Option α :=
  (r.entries.find? (·.1 == key)).map (·.2)

def contains (r : Registry α) (key : String) : Bool := r.entries.any (·.1 == key)

/-- The entry at a position in order of registration. -/
def entryAt? (r : Registry α) (i : Nat) : Option (String × α) := r.entries[i]?

/-- Put a new entry last. Meant for a key that is not there yet. -/
def push (r : Registry α) (key : String) (value : α) : Registry α :=
  ⟨r.entries ++ [(key, value)]⟩

/-- Register a value. A key that is there already keeps its place and takes the new value. -/
def insert (r : Registry α) (key : String) (value : α) : Registry α :=
  if r.contains key then
    ⟨r.entries.map fun e => if e.1 == key then (key, value) else e⟩
  else r.push key value

def erase (r : Registry α) (key : String) : Registry α :=
  ⟨r.entries.filter (·.1 != key)⟩

/-- Register pairs one after another, so the last value of a key stays. -/
def ofList (pairs : List (String × α)) : Registry α :=
  pairs.foldl (fun r e => r.insert e.1 e.2) empty

end Registry
end Quire
