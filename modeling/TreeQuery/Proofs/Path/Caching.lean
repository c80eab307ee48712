import TreeQuery.Path.Cache
import Mathlib.Data.List.DropRight

/-!
# The cache of compiled paths

What may be asked of a cache is to compile a path or to clear it. Whatever was asked before, a path is compiled as it
would be without the cache; what the cache holds and counts is decided by the requests since it was last cleared.
-/

namespace TreeQuery

inductive CacheRequest
  | compile (text : String) (dropNulls : Bool)
  | clear
deriving DecidableEq

namespace CacheRequest

def isClear : CacheRequest → Bool
  | compile .. => false
  | clear => true

def answer? : CacheRequest → Option (Except Fault Path)
  | compile text dropNulls => some (Path.compile text dropNulls)
  | clear => none

end CacheRequest

namespace PathCache

def holds (cache : PathCache) : CacheRequest → Bool
  | .compile text dropNulls => (cache.entries.lookup (text, dropNulls)).isSome
  | .clear => false

def serve (cache : PathCache) : CacheRequest → Option (Except Fault Path) × PathCache
  | .compile text dropNulls => ((cache.compile text dropNulls).1, (cache.compile text dropNulls).2)
  | .clear => (none, cache.clear)

def after (cache : PathCache) (requests : List CacheRequest) : PathCache :=
  requests.foldl (fun cache request => (cache.serve request).2) cache

def answers : PathCache → List CacheRequest → List (Option (Except Fault Path))
  | _, [] => []
  | cache, request :: requests => (cache.serve request).1 :: answers (cache.serve request).2 requests

def found : PathCache → List CacheRequest → Nat
  | _, [] => 0
  | cache, request :: requests => (cache.holds request).toNat + found (cache.serve request).2 requests

/-- What holds of a cache whatever was asked of it: paths are kept as they are compiled, each once and in a place of its
own, within the capacity. -/
structure Consistent (cache : PathCache) : Prop where
  compiled : ∀ text dropNulls path, cache.entries.lookup (text, dropNulls) = some path →
    Path.compile text dropNulls = .ok path
  distinct : (cache.entries.map Prod.fst).Nodup
  counted : cache.size = cache.taken
  bounded : cache.size ≤ cache.capacity

variable {cache : PathCache} {text : String} {dropNulls : Bool} {path : Path} {key : String × Bool}
  {request : CacheRequest} {requests : List CacheRequest}

theorem consistent_empty (capacity : Nat) : (empty capacity).Consistent where
  compiled _ _ _ hlookup := by cases hlookup
  distinct := List.nodup_nil
  counted := rfl
  bounded := Nat.zero_le capacity

/-! ### One request -/

theorem keep_of_lookup_eq_none (hlookup : cache.entries.lookup key = none) :
    cache.keep key path =
      (path, if cache.taken < cache.capacity then
        { cache with entries := (key, path) :: cache.entries, taken := cache.taken + 1 } else cache) := by
  rw [keep]
  split
  · simp only [hlookup]
  · rfl

/-- A request for a path is a hit, or a miss that fails, or a miss after which the path may be kept. -/
theorem compile_cases (cache : PathCache) (text : String) (dropNulls : Bool) :
    (∃ path, cache.entries.lookup (text, dropNulls) = some path ∧
      cache.compile text dropNulls = (.ok path, { cache with hits := cache.hits + 1 })) ∨
    (cache.entries.lookup (text, dropNulls) = none ∧
      cache.compile text dropNulls = (Path.compile text dropNulls, { cache with misses := cache.misses + 1 })) ∨
    ∃ path, cache.entries.lookup (text, dropNulls) = none ∧ cache.taken < cache.capacity ∧
      Path.compile text dropNulls = .ok path ∧
      cache.compile text dropNulls = (.ok path, { cache with
        entries := ((text, dropNulls), path) :: cache.entries
        taken := cache.taken + 1
        misses := cache.misses + 1 }) := by
  cases hlookup : cache.entries.lookup (text, dropNulls) with
  | some path =>
      refine .inl ⟨path, rfl, ?_⟩
      simp only [compile, hlookup]
  | none =>
      right
      cases hcompile : Path.compile text dropNulls with
      | error fault =>
          refine .inl ⟨rfl, ?_⟩
          simp only [compile, hlookup, hcompile]
      | ok path =>
          have hmissing : { cache with misses := cache.misses + 1 }.entries.lookup (text, dropNulls) = none := hlookup
          by_cases hroom : cache.taken < cache.capacity
          · refine .inr ⟨path, rfl, hroom, rfl, ?_⟩
            simp only [compile, hlookup, hcompile, keep_of_lookup_eq_none hmissing, if_pos hroom]
          · refine .inl ⟨rfl, ?_⟩
            simp only [compile, hlookup, hcompile, keep_of_lookup_eq_none hmissing, if_neg hroom]

theorem Consistent.serve (hcache : cache.Consistent) (request : CacheRequest) :
    (cache.serve request).1 = request.answer? ∧ (cache.serve request).2.Consistent ∧
      (cache.serve request).2.capacity = cache.capacity := by
  cases request with
  | clear => exact ⟨rfl, consistent_empty cache.capacity, rfl⟩
  | compile text dropNulls =>
      rw [PathCache.serve, CacheRequest.answer?]
      rcases cache.compile_cases text dropNulls with
        ⟨path, hlookup, heq⟩ | ⟨-, heq⟩ | ⟨path, hlookup, hroom, hcompile, heq⟩
      · rw [heq, hcache.compiled text dropNulls path hlookup]
        exact ⟨rfl, ⟨hcache.compiled, hcache.distinct, hcache.counted, hcache.bounded⟩, rfl⟩
      · rw [heq]
        exact ⟨rfl, ⟨hcache.compiled, hcache.distinct, hcache.counted, hcache.bounded⟩, rfl⟩
      · rw [heq, hcompile]
        refine ⟨rfl, ⟨fun text' dropNulls' path' hlookup' => ?_, ?_, congrArg (· + 1) hcache.counted, ?_⟩, rfl⟩
        · rw [List.lookup_cons] at hlookup'
          split at hlookup'
          · next hkey =>
              obtain ⟨rfl, rfl⟩ := Prod.mk.inj (beq_iff_eq.mp hkey)
              obtain rfl := Option.some.inj hlookup'
              exact hcompile
          · exact hcache.compiled text' dropNulls' path' hlookup'
        · refine List.nodup_cons.mpr ⟨fun hmem => ?_, hcache.distinct⟩
          obtain ⟨entry, hentry, hkey⟩ := List.mem_map.mp hmem
          exact absurd hkey.symm (bne_iff_ne.mp (List.lookup_eq_none_iff.mp hlookup entry hentry))
        · have hcounted := hcache.counted
          change cache.size + 1 ≤ cache.capacity
          omega

theorem lookup_serve (hclear : request.isClear = false) (hlookup : cache.entries.lookup key = some path) :
    (cache.serve request).2.entries.lookup key = some path := by
  cases request with
  | clear => cases hclear
  | compile text dropNulls =>
      rw [serve]
      rcases cache.compile_cases text dropNulls with ⟨_, -, heq⟩ | ⟨-, heq⟩ | ⟨_, hmissing, -, -, heq⟩
      · rw [heq]
        exact hlookup
      · rw [heq]
        exact hlookup
      · have hkey : (key == (text, dropNulls)) = false := by
          refine beq_eq_false_iff_ne.mpr ?_
          rintro rfl
          rw [hmissing] at hlookup
          cases hlookup
        rw [heq]
        simp only [List.lookup_cons, hkey, hlookup]

theorem counters_serve (cache : PathCache) (hclear : request.isClear = false) :
    (cache.serve request).2.hits = cache.hits + (cache.holds request).toNat ∧
      (cache.serve request).2.hits + (cache.serve request).2.misses = cache.hits + cache.misses + 1 := by
  cases request with
  | clear => cases hclear
  | compile text dropNulls =>
      rw [serve, holds]
      rcases cache.compile_cases text dropNulls with ⟨_, hlookup, heq⟩ | ⟨hlookup, heq⟩ | ⟨_, hlookup, -, -, heq⟩
      · rw [heq, hlookup]
        exact ⟨rfl, by simp only; omega⟩
      · rw [heq, hlookup]
        exact ⟨rfl, by simp only; omega⟩
      · rw [heq, hlookup]
        exact ⟨rfl, by simp only; omega⟩

/-! ### Requests one after another -/

theorem Consistent.after (hcache : cache.Consistent) (requests : List CacheRequest) :
    (cache.after requests).Consistent ∧ (cache.after requests).capacity = cache.capacity ∧
      cache.answers requests = requests.map CacheRequest.answer? := by
  induction requests generalizing cache with
  | nil => exact ⟨hcache, rfl, rfl⟩
  | cons request requests ih =>
      obtain ⟨hanswer, hserved, hcapacity⟩ := hcache.serve request
      obtain ⟨hafter, hcapacity', hanswers⟩ := ih hserved
      exact ⟨hafter, hcapacity'.trans hcapacity, congrArg₂ List.cons hanswer hanswers⟩

theorem lookup_after (hclear : ∀ request ∈ requests, request.isClear = false)
    (hlookup : cache.entries.lookup key = some path) : (cache.after requests).entries.lookup key = some path := by
  induction requests generalizing cache with
  | nil => exact hlookup
  | cons request requests ih =>
      obtain ⟨hrequest, hrequests⟩ := List.forall_mem_cons.mp hclear
      exact ih hrequests (lookup_serve hrequest hlookup)

theorem counters_after (cache : PathCache) (hclear : ∀ request ∈ requests, request.isClear = false) :
    (cache.after requests).hits = cache.hits + cache.found requests ∧
      (cache.after requests).hits + (cache.after requests).misses = cache.hits + cache.misses + requests.length := by
  induction requests generalizing cache with
  | nil => exact ⟨rfl, rfl⟩
  | cons request requests ih =>
      obtain ⟨hrequest, hrequests⟩ := List.forall_mem_cons.mp hclear
      obtain ⟨hhits, htotal⟩ := counters_serve cache hrequest
      obtain ⟨hhits', htotal'⟩ := ih (cache.serve request).2 hrequests
      rw [found, List.length_cons]
      refine ⟨hhits'.trans ?_, htotal'.trans ?_⟩ <;> omega

/-- A cleared cache is a new one, so what came before does not matter. -/
theorem after_empty (capacity : Nat) (requests : List CacheRequest) :
    (empty capacity).after requests = (empty capacity).after (requests.rtakeWhile (!·.isClear)) := by
  induction requests using List.reverseRecOn with
  | nil => rfl
  | append_singleton requests request ih =>
      have hcapacity := ((consistent_empty capacity).after requests).2.1
      cases request with
      | clear =>
          rw [List.rtakeWhile_concat_neg _ _ _ (by simp [CacheRequest.isClear]), after, List.foldl_concat]
          exact congrArg empty hcapacity
      | compile text dropNulls =>
          rw [List.rtakeWhile_concat_pos _ _ _ rfl, after, List.foldl_concat, after, List.foldl_concat]
          exact congrArg (fun cache => (serve cache (.compile text dropNulls)).2) ih

/-- **The cache cannot be told from its absence.** Whatever is asked of a new cache, every path is compiled as it would
be without the cache, and with the same fault where it does not compile. The cache holds one entry for each key, no more
of them than its capacity and as many as it counts, and an entry stays until the next clearing. Since the last clearing
each request was counted as a hit or as a miss, and the hits are the requests for which a path was kept when they
came. -/
theorem answers_empty (capacity : Nat) (requests : List CacheRequest) :
    let cache := (empty capacity).after requests
    let recent := requests.rtakeWhile (!·.isClear)
    (empty capacity).answers requests = requests.map CacheRequest.answer? ∧
      (cache.entries.map Prod.fst).Nodup ∧ cache.size ≤ capacity ∧ cache.size = cache.taken ∧
      (∀ earlier later, requests = earlier ++ later → (∀ request ∈ later, request.isClear = false) →
        ∀ key path, ((empty capacity).after earlier).entries.lookup key = some path →
          cache.entries.lookup key = some path) ∧
      cache.hits + cache.misses = recent.length ∧ cache.hits = (empty capacity).found recent := by
  intro cache recent
  obtain ⟨hcache, hcapacity, hanswers⟩ := (consistent_empty capacity).after requests
  have hrecent : ∀ request ∈ recent, request.isClear = false := fun request hmem => by
    simpa using List.mem_rtakeWhile_imp hmem
  obtain ⟨hhits, htotal⟩ := counters_after (empty capacity) hrecent
  rw [← after_empty] at hhits htotal
  refine ⟨hanswers, hcache.distinct, hcache.bounded.trans (Nat.le_of_eq hcapacity), hcache.counted, ?_,
    htotal.trans (Nat.zero_add _), hhits.trans (Nat.zero_add _)⟩
  rintro earlier later hrequests hlater key path hlookup
  have hcache' : cache = ((empty capacity).after earlier).after later := by
    rw [show cache = (empty capacity).after requests from rfl, hrequests, after, List.foldl_append]
    rfl
  rw [hcache']
  exact lookup_after hlater hlookup

/-- In a cache for one path, only the first of two paths is found again, and a fault is never kept. -/
example : (empty 1).found [.compile "$.a" true, .compile "$.b" true, .compile "$.a" true, .compile "$.b" true,
    .compile "$.a b" true, .compile "$.a b" true] = 1 := by decide

end PathCache

end TreeQuery
