import Mathlib.Data.List.Induction
import LinkState.Proofs.Avl.Traversal
import LinkState.Proofs.Avl.Validity

/-!
# The AVL tree is an ordered finite map

A finite map from the 64-bit keys is a function that gives each key its value, if it has one; its
listing goes through all keys in ascending order. `Request` is everything that can be asked of a
map. `Map.serve` answers with the tree, `FiniteMap.serve` with the function, and `Agrees` relates
their states: the map is valid and finds under every key what the function gives. One request keeps
the two in agreement and gets the same answer from both (`serve_agrees`), and so does a run of
requests of any length (`trace_agrees`), in particular one that starts without entries
(`refines_finiteMap`).
-/

namespace LinkState.Avl

open Ranked (rank)

variable {α : Type u}

/-! ### Requests and answers -/

/-- A request to a map. -/
inductive Request (α : Type u) where
  /-- Put a value under a key; a present one is replaced only on request. -/
  | insert (key : UInt64) (value : α) (overwrite : Bool)
  | erase (key : UInt64)
  /-- Change the value under a key in place. -/
  | modify (key : UInt64) (change : α → α)
  /-- Start anew from a list of entries. -/
  | build (entries : List (UInt64 × α))
  | find (key : UInt64)
  | contains (key : UInt64)
  | size
  /-- Traverse the map by that many calls of its cursor. -/
  | traverse (calls : Nat)

/-- The answer to a request. -/
inductive Answer (α : Type u) where
  | insertion (insertion : Insertion)
  /-- The value that was found, removed or changed. -/
  | value (value : Option α)
  | built
  | presence (present : Bool)
  | size (size : Nat)
  | entries (entries : List (UInt64 × α))

/-- The answers to a row of requests, each with the state after it. -/
def trace {σ : Type v} (serve : σ → Request α → Answer α × σ) :
    σ → List (Request α) → List (Answer α × σ)
  | _, [] => []
  | state, request :: requests =>
    let answered := serve state request
    answered :: trace serve answered.2 requests

/-- The map's answer to a request and the map after it. -/
def Map.serve (map : Map α) : Request α → Answer α × Map α
  | .insert key value overwrite =>
    let (map, insertion) := map.insert key value overwrite
    (.insertion insertion, map)
  | .erase key =>
    let (map, removed) := map.erase key
    (.value removed, map)
  | .modify key change => (.value (map.find? key), map.modify key change)
  | .build entries => (.built, .ofList entries)
  | .find key => (.value (map.find? key), map)
  | .contains key => (.presence (map.contains key), map)
  | .size => (.size map.size, map)
  | .traverse calls => (.entries (map.tree.cursor.take calls), map)

/-! ### Finite maps -/

/-- A map from the 64-bit keys: the value of each key that has one. -/
abbrev FiniteMap (α : Type u) := UInt64 → Option α

namespace FiniteMap

/-- No key has a value. -/
def empty : FiniteMap α := fun _ => none

/-- Gives a key another value, or none. -/
def set (map : FiniteMap α) (key : UInt64) (value : Option α) : FiniteMap α := fun key' =>
  if key' = key then value else map key'

/-- A key of a list of entries has the value that stands last under it. -/
def ofList (entries : List (UInt64 × α)) : FiniteMap α := fun key =>
  (entries.reverse.find? fun entry => entry.1 = key).map (·.2)

/-- All keys in ascending order. -/
def keys : List UInt64 := (List.range UInt64.size).map UInt64.ofNat

/-- The keys that have a value, in ascending order, with their values. -/
def listing (map : FiniteMap α) : List (UInt64 × α) :=
  keys.filterMap fun key => (map key).map fun value => (key, value)

/-- The number of keys that have a value. -/
def size (map : FiniteMap α) : Nat := keys.countP fun key => (map key).isSome

/-- The answer of a finite map to a request and the map after it. -/
def serve (map : FiniteMap α) : Request α → Answer α × FiniteMap α
  | .insert key value overwrite =>
    match map key with
    | none => (.insertion .inserted, map.set key (some value))
    | some _ =>
      if overwrite then (.insertion .replaced, map.set key (some value))
      else (.insertion .unchanged, map)
  | .erase key => (.value (map key), map.set key none)
  | .modify key change => (.value (map key), map.set key ((map key).map change))
  | .build entries => (.built, ofList entries)
  | .find key => (.value (map key), map)
  | .contains key => (.presence (map key).isSome, map)
  | .size => (.size map.size, map)
  | .traverse calls => (.entries (map.listing.take calls), map)

/-- The keys are in strictly ascending order. -/
theorem ascending_keys : keys.Pairwise fun a b => rank a < rank b := by
  rw [keys, List.pairwise_map]
  -- Numbers below the bound are the numbers of their keys.
  refine List.pairwise_lt_range.imp_of_mem fun {a b} ha hb hlt => ?_
  change (UInt64.ofNat a).toNat < (UInt64.ofNat b).toNat
  rw [UInt64.toNat_ofNat_of_lt' (List.mem_range.1 ha),
    UInt64.toNat_ofNat_of_lt' (List.mem_range.1 hb)]
  exact hlt

/-- No key is left out. -/
theorem mem_keys (key : UInt64) : key ∈ keys :=
  List.mem_map.2 ⟨key.toNat, List.mem_range.2 key.toNat_lt, UInt64.ofNat_toNat⟩

/-- The listing holds every key that has a value, with that value. -/
theorem mem_listing {map : FiniteMap α} {key : UInt64} {value : α} :
    (key, value) ∈ map.listing ↔ map key = some value := by
  rw [listing, List.mem_filterMap]
  constructor
  · rintro ⟨key', -, hentry⟩
    obtain ⟨value', hvalue, heq⟩ := Option.map_eq_some_iff.1 hentry
    obtain ⟨rfl, rfl⟩ := Prod.mk.inj heq
    exact hvalue
  · intro hvalue
    exact ⟨key, mem_keys key, by rw [hvalue]; rfl⟩

/-- The listing is in strictly ascending key order. -/
theorem ascending_listing (map : FiniteMap α) :
    map.listing.Pairwise fun a b => rank a.1 < rank b.1 := by
  rw [listing, List.pairwise_filterMap]
  refine ascending_keys.imp fun {a b} hlt entry hentry entry' hentry' => ?_
  obtain ⟨value, -, rfl⟩ := Option.map_eq_some_iff.1 hentry
  obtain ⟨value', -, rfl⟩ := Option.map_eq_some_iff.1 hentry'
  exact hlt

/-- The size is the length of the listing. -/
theorem length_listing (map : FiniteMap α) : map.listing.length = map.size := by
  rw [listing, size, List.length_filterMap_eq_countP]
  simp only [Option.isSome_map]

end FiniteMap

/-! ### Agreement -/

/-- A valid map that finds under every key the value that a finite map gives it. -/
structure Agrees (map : Map α) (reference : FiniteMap α) : Prop where
  valid : map.Valid
  find?_eq : ∀ key, map.find? key = reference key

namespace Agrees

variable {map : Map α} {reference : FiniteMap α}

theorem empty : Agrees (.empty : Map α) .empty := ⟨Map.valid_empty, fun _ => rfl⟩

/-- A map lists its entries as the finite map does. -/
theorem toList_eq (h : Agrees map reference) : map.toList = reference.listing := by
  refine Table.entries_unique h.valid.ascending reference.ascending_listing ?_
  rintro ⟨key, value⟩
  rw [← h.valid.find?_eq_some_iff, FiniteMap.mem_listing, h.find?_eq]

/-- The size of a map is that of the finite map. -/
theorem size_eq (h : Agrees map reference) : map.size = reference.size := by
  rw [h.valid.size_eq, ← Tree.length_toList, ← FiniteMap.length_listing, ← h.toList_eq]
  rfl

/-- Setting the value of one key on both sides keeps the agreement. -/
theorem set {map' : Map α} (h : Agrees map reference) (hvalid : map'.Valid) {key : UInt64}
    {value : Option α}
    (hfind : ∀ key', map'.find? key' = if key' = key then value else map.find? key') :
    Agrees map' (reference.set key value) := by
  refine ⟨hvalid, fun key' => ?_⟩
  rw [hfind, h.find?_eq, FiniteMap.set]

end Agrees

/-- A map that is built from a list finds under a key the value that stands last under it. -/
theorem agrees_ofList (entries : List (UInt64 × α)) :
    Agrees (.ofList entries) (.ofList entries) := by
  refine ⟨Map.valid_ofList entries, fun key => ?_⟩
  -- The last entry is the last one put and the first one met from the end.
  induction entries using List.reverseRecOn with
  | nil => rfl
  | append_singleton entries entry ih =>
    have hput : Map.ofList (entries ++ [entry]) = (Map.ofList entries).put entry.1 entry.2 := by
      rw [Map.ofList, List.foldl_append]; rfl
    rw [hput, Map.find?_put (Map.valid_ofList entries), ih, FiniteMap.ofList, FiniteMap.ofList,
      List.reverse_append, List.reverse_singleton, List.singleton_append, List.find?_cons]
    by_cases hkey : key = entry.1
    · rw [if_pos hkey, decide_eq_true hkey.symm]; rfl
    · rw [if_neg hkey, decide_eq_false fun heq => hkey heq.symm]

/-- One request gets the same answer from both sides and keeps them in agreement. -/
theorem serve_agrees {map : Map α} {reference : FiniteMap α} (h : Agrees map reference)
    (request : Request α) :
    (map.serve request).1 = (reference.serve request).1 ∧
      Agrees (map.serve request).2 (reference.serve request).2 := by
  cases request with
  | insert key value overwrite =>
    have hvalid := Map.valid_insert h.valid key value overwrite
    have hanswer : (map.insert key value overwrite).2 =
        match map.find? key with
        | none => .inserted
        | some _ => if overwrite then .replaced else .unchanged :=
      Tree.insert_snd overwrite
    have hfind (key' : UInt64) : (map.insert key value overwrite).1.find? key' =
        if key' = key ∧ (overwrite ∨ map.find? key = none) then some value else map.find? key' :=
      Map.find?_insert h.valid overwrite key'
    change Answer.insertion (map.insert key value overwrite).2 = _ ∧
      Agrees (map.insert key value overwrite).1 _
    rw [hanswer, h.find?_eq, FiniteMap.serve]
    -- Whether the key is present and is to be replaced decides both sides alike.
    cases hpresent : reference key with
    | none =>
      refine ⟨rfl, h.set hvalid fun key' => ?_⟩
      rw [hfind, h.find?_eq, hpresent]
      simp only [or_true, and_true]
    | some present =>
      cases overwrite with
      | true =>
        refine ⟨rfl, h.set hvalid fun key' => ?_⟩
        rw [hfind]
        simp only [true_or, and_true]
      | false =>
        refine ⟨rfl, hvalid, fun key' => ?_⟩
        rw [hfind, h.find?_eq, hpresent, h.find?_eq]
        simp only [Bool.false_eq_true, reduceCtorEq, or_self, and_false, if_false]
  | erase key =>
    have hanswer : (map.erase key).2 = map.find? key := Tree.erase_snd map.tree
    refine ⟨?_, h.set (Map.valid_erase h.valid key) (Map.find?_erase h.valid)⟩
    change Answer.value (map.erase key).2 = Answer.value (reference key)
    rw [hanswer, h.find?_eq]
  | modify key change =>
    refine ⟨congrArg Answer.value (h.find?_eq key),
      h.set (Map.valid_modify h.valid key change) fun key' => ?_⟩
    rw [Map.find?_modify change, ← h.find?_eq]
    split
    · rename_i hkey
      rw [hkey]
    · rfl
  | build entries => exact ⟨rfl, agrees_ofList entries⟩
  | find key => exact ⟨congrArg Answer.value (h.find?_eq key), h⟩
  | contains key =>
    refine ⟨?_, h⟩
    rw [Map.serve, Map.contains, h.find?_eq, FiniteMap.serve]
  | size => exact ⟨congrArg Answer.size h.size_eq, h⟩
  | traverse calls =>
    -- The cursor gives the entries in key order, and the map lists them as the finite map does.
    refine ⟨?_, h⟩
    rw [Map.serve, Cursor.take_cursor, ← Map.toList, h.toList_eq]
    rfl

/-- A run of requests gets the same answers from both sides and keeps them in agreement after every
request. -/
theorem trace_agrees {map : Map α} {reference : FiniteMap α} (h : Agrees map reference)
    (requests : List (Request α)) :
    (trace Map.serve map requests).map (·.1) =
        (trace FiniteMap.serve reference requests).map (·.1) ∧
      ∀ answered ∈ trace Map.serve map requests, answered.2.Valid := by
  induction requests generalizing map reference with
  | nil => exact ⟨rfl, fun _ h => absurd h List.not_mem_nil⟩
  | cons request requests ih =>
    obtain ⟨hanswer, hnext⟩ := serve_agrees h request
    obtain ⟨hanswers, hvalid⟩ := ih hnext
    constructor
    · rw [trace, trace, List.map_cons, List.map_cons, hanswer, hanswers]
    · intro answered hmem
      rcases List.mem_cons.1 hmem with rfl | hmem
      · exact hnext.valid
      · exact hvalid answered hmem

/-- The map that a row of requests makes of the one without entries. -/
def Map.served (requests : List (Request α)) : Map α :=
  requests.foldl (fun map request => (map.serve request).2) .empty

/-- Every request keeps a map valid. -/
theorem Map.valid_serve {map : Map α} (h : map.Valid) (request : Request α) :
    (map.serve request).2.Valid := by
  have hagrees : Agrees map map.find? := ⟨h, fun _ => rfl⟩
  exact (serve_agrees hagrees request).2.valid

/-- Every row of requests makes a valid map. -/
theorem Map.valid_served (requests : List (Request α)) : (served requests).Valid :=
  List.foldlRecOn requests _ valid_empty fun _ h request _ => valid_serve h request

/-- From the map without entries on, every request of every run gets the answer that a finite map
gives, and the tree is a balanced search tree of the counted size all along. -/
theorem refines_finiteMap (requests : List (Request α)) :
    (trace Map.serve .empty requests).map (·.1) =
        (trace FiniteMap.serve .empty requests).map (·.1) ∧
      (Map.empty : Map α).Valid ∧
      ∀ answered ∈ trace Map.serve (.empty : Map α) requests, answered.2.Valid := by
  obtain ⟨hanswers, hvalid⟩ := trace_agrees Agrees.empty requests
  exact ⟨hanswers, Map.valid_empty, hvalid⟩

end LinkState.Avl
