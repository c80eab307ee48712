import TreeQuery.Path.Parser

/-!
A bounded cache of compiled paths. When it is full, further paths are compiled without being kept;
nothing is ever dropped but by clearing.
-/

namespace TreeQuery

/-- A path is kept under its text and its treatment of nulls. -/
structure PathCache where
  capacity : Nat
  entries : List ((String × Bool) × Path)
  /-- The places taken so far, counted as paths are kept. -/
  taken : Nat
  hits : Nat
  misses : Nat
deriving Inhabited

namespace PathCache

def empty (capacity : Nat) : PathCache := ⟨capacity, [], 0, 0, 0⟩

def size (cache : PathCache) : Nat := cache.entries.length

def clear (cache : PathCache) : PathCache := empty cache.capacity

/-- Keeps a path if there is room, and gives the one that is kept. A place is taken first, and given back if there is
a path under the key already. -/
def keep (cache : PathCache) (key : String × Bool) (path : Path) : Path × PathCache :=
  if cache.taken < cache.capacity then
    let cache := { cache with taken := cache.taken + 1 }
    match cache.entries.lookup key with
    | some kept => (kept, { cache with taken := cache.taken - 1 })
    | none => (path, { cache with entries := (key, path) :: cache.entries })
  else (path, cache)

def compile (cache : PathCache) (text : String) (dropNulls : Bool) : Except Fault Path × PathCache :=
  match cache.entries.lookup (text, dropNulls) with
  | some path => (.ok path, { cache with hits := cache.hits + 1 })
  | none =>
    let cache := { cache with misses := cache.misses + 1 }
    match Path.compile text dropNulls with
    | .ok path =>
      let (kept, cache) := cache.keep (text, dropNulls) path
      (.ok kept, cache)
    | .error fault => (.error fault, cache)

end PathCache

end TreeQuery
