import LinkState.LspId
import LinkState.Proofs.Wire.Words

/-!
# Keys tell IDs apart

The key of a system ID and the key of an LSP ID are the numbers that their octets write. Both fit 64
bits (`toNat_key`), so that different IDs have different keys (`key_inj`) and no two LSPs share a
place in the database. Keys are in the order of the IDs (`key_lt_key_iff`). Every 64-bit number is
the key of one LSP ID, and `LspId.ofKey` finds it (`LspId.key_ofKey`, `LspId.ofKey_key`).
-/

namespace LinkState

namespace SystemId

/-- The key of a system ID is the number that its octets write. -/
theorem toNat_key (s : SystemId) : s.key.toNat = Octets.toNat s.toOctets := by
  have hlt := s.toNat_toOctets_lt
  rw [show Octets.count 6 = 2 ^ 48 from rfl] at hlt
  unfold key
  rw [UInt64.toNat_ofNat', Nat.mod_eq_of_lt (by omega)]

/-- Different system IDs have different keys. -/
theorem key_inj {a b : SystemId} (h : a.key = b.key) : a = b := by
  apply eq_of_toNat_toOctets
  rw [← toNat_key, ← toNat_key, h]

/-- The keys of system IDs are in the order of the system IDs. -/
theorem key_lt_key_iff {a b : SystemId} : a.key < b.key ↔ a < b := by
  rw [UInt64.lt_iff_toNat_lt, toNat_key, toNat_key]
  exact Octets.toNat_lt_toNat_iff rfl

theorem lt_irrefl (a : SystemId) : ¬a < a := by
  rw [← key_lt_key_iff]
  exact UInt64.lt_irrefl a.key

theorem lt_asymm {a b : SystemId} (h : a < b) : ¬b < a := by
  rw [← key_lt_key_iff] at h ⊢
  exact UInt64.lt_asymm h

/-- System IDs neither of which is lower are the same. -/
theorem eq_of_not_lt {a b : SystemId} (hlt : ¬a < b) (hgt : ¬b < a) : a = b := by
  rw [← key_lt_key_iff] at hlt hgt
  exact key_inj (UInt64.le_antisymm (UInt64.not_lt.1 hgt) (UInt64.not_lt.1 hlt))

end SystemId

namespace LspId

/-- The key of an LSP ID is the number that its octets write. -/
theorem toNat_key (id : LspId) : id.key.toNat = Octets.toNat id.toOctets := by
  have hlt : Octets.toNat id.toOctets < 2 ^ 64 := Octets.toNat_lt id.toOctets
  unfold key
  rw [UInt64.toNat_ofNat', Nat.mod_eq_of_lt hlt]

/-- Different LSP IDs have different keys. -/
theorem key_inj {a b : LspId} (h : a.key = b.key) : a = b := by
  have hnumber : Octets.toNat a.toOctets = Octets.toNat b.toOctets := by
    rw [← toNat_key, ← toNat_key, h]
  have hoctets : a.toOctets = b.toOctets := Octets.eq_of_toNat_eq rfl hnumber
  obtain ⟨⟨a0, a1, a2, a3, a4, a5⟩, a6, a7⟩ := a
  obtain ⟨⟨b0, b1, b2, b3, b4, b5⟩, b6, b7⟩ := b
  simp only [toOctets, SystemId.toOctets, List.cons_append, List.nil_append, List.cons.injEq,
    and_true] at hoctets
  simp only [LspId.mk.injEq, SystemId.mk.injEq]
  simp only [hoctets, and_self]

/-- The key of an LSP ID is made of the key of its system ID, the pseudonode and the fragment. -/
theorem toNat_key_eq (id : LspId) :
    id.key.toNat =
      65536 * id.systemId.key.toNat + 256 * id.pseudonode.toNat + id.fragment.toNat := by
  have hlast : id.toOctets = id.systemId.toOctets ++ [id.pseudonode] ++ [id.fragment] := by
    rw [List.append_assoc]
    rfl
  rw [toNat_key, hlast, Octets.toNat_concat, Octets.toNat_concat, SystemId.toNat_key]
  omega

/-- The keys of LSP IDs are in the order of the LSP IDs. -/
theorem key_lt_key_iff {a b : LspId} : a.key < b.key ↔ a < b := by
  have hpseudonode := a.pseudonode.toNat_lt
  have hpseudonode' := b.pseudonode.toNat_lt
  have hfragment := a.fragment.toNat_lt
  have hfragment' := b.fragment.toNat_lt
  -- The octets behind the system ID count for less than one of its numbers.
  have hsystem : a.systemId = b.systemId ↔ a.systemId.key.toNat = b.systemId.key.toNat :=
    ⟨fun h => congrArg (UInt64.toNat ∘ SystemId.key) h,
      fun h => SystemId.key_inj (UInt64.toNat_inj.1 h)⟩
  change _ ↔ a.systemId < b.systemId ∨ a.systemId = b.systemId ∧
    (a.pseudonode < b.pseudonode ∨ a.pseudonode = b.pseudonode ∧ a.fragment < b.fragment)
  rw [UInt64.lt_iff_toNat_lt, toNat_key_eq, toNat_key_eq, hsystem, ← SystemId.key_lt_key_iff,
    UInt64.lt_iff_toNat_lt, UInt8.lt_iff_toNat_lt, UInt8.lt_iff_toNat_lt, ← UInt8.toNat_inj]
  omega

/-- The octets of the LSP ID with a given key are those of the key. -/
theorem toOctets_ofKey (key : UInt64) : (ofKey key).toOctets = Octets.ofNat 8 key.toNat := by
  simp only [ofKey, toOctets, SystemId.toOctets, Octets.count, Octets.ofNat, Nat.div_one,
    Nat.div_div_eq_div_mul]
  rfl

/-- Every number is the key of an LSP ID. -/
theorem key_ofKey (key : UInt64) : (ofKey key).key = key := by
  apply UInt64.toNat_inj.1
  rw [toNat_key, toOctets_ofKey, Octets.toNat_ofNat]
  exact Nat.mod_eq_of_lt key.toNat_lt

/-- The LSP ID with the key of an LSP ID is that LSP ID. -/
theorem ofKey_key (id : LspId) : ofKey id.key = id :=
  key_inj (key_ofKey id.key)

end LspId

end LinkState
