import LinkState.LspId
import LinkState.Ip.V4

/-!
# Tables in key order

A table is a list of entries in strictly ascending key order, so that two tables with the same
entries are equal. Keys are compared by a rank, an injective numbering: database keys by their
value, networks by address and then length, candidates of a shortest-path search by distance and
then system ID.
-/

namespace LinkState

/-- A type of keys that are told apart and ordered by a number. -/
class Ranked (κ : Type u) where
  rank : κ → Nat
  rank_inj : ∀ {a b : κ}, rank a = rank b → a = b

instance : Ranked UInt64 := ⟨UInt64.toNat, UInt64.toNat_inj.1⟩

/-- Networks are ordered by address, then length. -/
instance : Ranked Ipv4.Network where
  rank network := network.address.word.toNat * 33 + network.length.val
  rank_inj {a b} h := by
    obtain ⟨⟨word⟩, ⟨length, hlength⟩⟩ := a
    obtain ⟨⟨word'⟩, ⟨length', hlength'⟩⟩ := b
    have hword : word.toNat = word'.toNat := by simp only at h; omega
    have hlen : length = length' := by simp only at h; omega
    simp [UInt32.toNat_inj.1 hword, hlen]

/-- Distances with a system ID are ordered by distance, then system ID. -/
instance : Ranked (UInt32 × SystemId) where
  rank key := key.1.toNat * Octets.count 6 + Octets.toNat key.2.toOctets
  rank_inj {a b} h := by
    have ha := a.2.toNat_toOctets_lt
    have hb := b.2.toNat_toOctets_lt
    rw [show Octets.count 6 = 0x1000000000000 from rfl] at h ha hb
    refine Prod.ext (UInt32.toNat_inj.1 ?_) (SystemId.eq_of_toNat_toOctets ?_) <;> omega

open Ranked (rank)

/-- A map whose entries are in strictly ascending key order. -/
structure Table (κ : Type u) (α : Type v) [Ranked κ] where
  entries : List (κ × α)
  ascending : entries.Pairwise fun a b => rank a.1 < rank b.1

namespace Table

variable {κ : Type u} {α : Type v} [Ranked κ]

instance [DecidableEq κ] [DecidableEq α] : DecidableEq (Table κ α) := fun s t =>
  decidable_of_iff (s.entries = t.entries)
    ⟨fun h => by cases s; cases t; simp_all, fun h => h ▸ rfl⟩

/-- The table without entries. -/
def empty : Table κ α := ⟨[], .nil⟩

instance : Inhabited (Table κ α) := ⟨empty⟩

/-- The value under a key. -/
def find? (table : Table κ α) (key : κ) : Option α :=
  (table.entries.find? fun entry => rank entry.1 = rank key).map (·.2)

/-- The values in key order. -/
def values (table : Table κ α) : List α := table.entries.map (·.2)

/-- The number of entries. -/
def size (table : Table κ α) : Nat := table.entries.length

/-- Puts an entry at its place among entries in key order. -/
def place (key : κ) (value : α) : List (κ × α) → List (κ × α)
  | [] => [(key, value)]
  | entry :: rest =>
    if rank key < rank entry.1 then (key, value) :: entry :: rest
    else if rank entry.1 < rank key then entry :: place key value rest
    else (key, value) :: rest

theorem rank_mem_place {key : κ} {value : α} {entries : List (κ × α)} {entry : κ × α}
    (h : entry ∈ place key value entries) : entry.1 = key ∨ entry ∈ entries := by
  induction entries with
  | nil => simp_all [place]
  | cons first rest ih =>
    unfold place at h
    split at h
    · rcases List.mem_cons.1 h with rfl | h <;> simp_all
    · split at h
      · rcases List.mem_cons.1 h with rfl | h
        · simp
        · rcases ih h with h | h <;> simp [h]
      · rcases List.mem_cons.1 h with rfl | h <;> simp_all

/-- Placing an entry keeps the order. -/
theorem ascending_place (key : κ) (value : α) {entries : List (κ × α)}
    (h : entries.Pairwise fun a b => rank a.1 < rank b.1) :
    (place key value entries).Pairwise fun a b => rank a.1 < rank b.1 := by
  induction entries with
  | nil => simp [place]
  | cons first rest ih =>
    obtain ⟨hfirst, hrest⟩ := List.pairwise_cons.1 h
    unfold place
    split
    · rename_i hlt
      refine List.pairwise_cons.2 ⟨fun entry hentry => ?_, h⟩
      rcases List.mem_cons.1 hentry with rfl | hentry
      · exact hlt
      · exact Nat.lt_trans hlt (hfirst entry hentry)
    · split
      · rename_i hgt
        refine List.pairwise_cons.2 ⟨fun entry hentry => ?_, ih hrest⟩
        rcases rank_mem_place hentry with heq | hentry
        · rw [heq]; exact hgt
        · exact hfirst entry hentry
      · have heq : rank first.1 = rank key := by omega
        exact List.pairwise_cons.2 ⟨fun entry hentry => heq ▸ hfirst entry hentry, hrest⟩

/-- Puts a value under a key, replacing a present one. -/
def insert (table : Table κ α) (key : κ) (value : α) : Table κ α :=
  ⟨place key value table.entries, ascending_place key value table.ascending⟩

/-- Removes a key. -/
def erase (table : Table κ α) (key : κ) : Table κ α :=
  ⟨table.entries.filter fun entry => rank entry.1 ≠ rank key, table.ascending.filter _⟩

/-- Changes every value. -/
def map (table : Table κ α) (change : α → α) : Table κ α :=
  ⟨table.entries.map fun entry => (entry.1, change entry.2),
    List.pairwise_map.2 table.ascending⟩

/-- The first entry and the table without it. -/
def popFirst? (table : Table κ α) : Option ((κ × α) × Table κ α) :=
  table.entries.head?.map fun entry => (entry, ⟨table.entries.tail, table.ascending.tail⟩)

end Table

end LinkState
