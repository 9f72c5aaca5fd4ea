import LinkState.Table

/-!
# Looking up what a table holds

The entries of a table are in strictly ascending key order, so that a key has at most one value
(`value_unique`), looking it up finds that value (`find?_eq_some_iff`) and the entries can be listed
in one way only (`entries_unique`). So a table is told by the values that are found in it
(`eq_of_find?_eq`). What the operations do is said twice: of the entries (`mem_insert`,
`mem_erase`), and of the values found under a key (`find?_insert`, `find?_map`). `place`, the
insertion into a list in key order, is also the insertion into the in-order entries of a search
tree; `place_append` and `place_append_of_lt` say on which side of an entry it works, and
`map_fst_place` that the keys alone tell.
-/

namespace LinkState.Table

open Ranked (rank)

variable {κ : Type u} {α : Type v} [Ranked κ] {key : κ} {value : α} {entries : List (κ × α)}

/-! ### Insertion into a list in key order -/

/-- Entries in front of the key are passed over. -/
theorem place_append {before after : List (κ × α)}
    (h : ∀ entry ∈ before, rank entry.1 < rank key) :
    place key value (before ++ after) = before ++ place key value after := by
  induction before with
  | nil => rfl
  | cons first before ih =>
    have hfirst : rank first.1 < rank key := h first List.mem_cons_self
    rw [List.cons_append, place, if_neg (by omega), if_pos hfirst,
      ih fun entry hentry => h entry (List.mem_cons_of_mem first hentry)]
    rfl

/-- Entries from one past the key on are not looked at. -/
theorem place_append_of_lt {before after : List (κ × α)} {entry : κ × α}
    (h : rank key < rank entry.1) :
    place key value (before ++ entry :: after) = place key value before ++ entry :: after := by
  induction before with
  | nil => rw [List.nil_append, place.eq_2, if_pos h]; rfl
  | cons first before ih =>
    rw [List.cons_append, place, place]
    split
    · rfl
    · split
      · rw [ih]; rfl
      · rfl

/-- After an insertion a list in key order holds the new entry and those under other keys. -/
theorem mem_place (h : entries.Pairwise fun a b => rank a.1 < rank b.1) {entry : κ × α} :
    entry ∈ place key value entries ↔
      entry = (key, value) ∨ entry ∈ entries ∧ entry.1 ≠ key := by
  induction entries with
  | nil => rw [place, List.mem_singleton]; simp only [List.not_mem_nil, false_and, or_false]
  | cons first rest ih =>
    obtain ⟨hfirst, hrest⟩ := List.pairwise_cons.1 h
    rw [place]
    split
    · -- The key comes first, so that no entry has it.
      rename_i hlt
      have hother : ∀ other ∈ first :: rest, other.1 ≠ key := by
        rintro other hother rfl
        rcases List.mem_cons.1 hother with rfl | hother
        · omega
        · have := hfirst other hother; omega
      rw [List.mem_cons]
      exact or_congr_right ⟨fun hmem => ⟨hmem, hother entry hmem⟩, And.left⟩
    · split
      · -- The first entry is passed over and is not under the key.
        rename_i hlt
        have hne : first.1 ≠ key := by rintro rfl; omega
        rw [List.mem_cons, ih hrest, List.mem_cons]
        constructor
        · rintro (rfl | hnew | ⟨hold, hkey⟩)
          · exact Or.inr ⟨Or.inl rfl, hne⟩
          · exact Or.inl hnew
          · exact Or.inr ⟨Or.inr hold, hkey⟩
        · rintro (hnew | ⟨rfl | hold, hkey⟩)
          · exact Or.inr (Or.inl hnew)
          · exact Or.inl rfl
          · exact Or.inr (Or.inr ⟨hold, hkey⟩)
      · -- The first entry has the key and is replaced.
        have heq : first.1 = key := Ranked.rank_inj (by omega)
        have hother : ∀ other ∈ rest, other.1 ≠ key := by
          rintro other hother rfl
          have := hfirst other hother
          rw [heq] at this
          omega
        rw [List.mem_cons, List.mem_cons]
        constructor
        · rintro (hnew | hold)
          · exact Or.inl hnew
          · exact Or.inr ⟨Or.inr hold, hother entry hold⟩
        · rintro (hnew | ⟨rfl | hold, hkey⟩)
          · exact Or.inl hnew
          · exact absurd heq hkey
          · exact Or.inr hold

/-- Where an entry is placed depends on the keys only. -/
theorem map_fst_place {β : Type w} {value' : β} {other : List (κ × β)}
    (h : entries.map (·.1) = other.map (·.1)) :
    (place key value entries).map (·.1) = (place key value' other).map (·.1) := by
  induction entries generalizing other with
  | nil =>
    cases other with
    | nil => rfl
    | cons second others => cases h
  | cons first rest ih =>
    cases other with
    | nil => cases h
    | cons second others =>
      obtain ⟨hfirst, hrest⟩ := List.cons.inj h
      have hsame : first.1 = second.1 := hfirst
      rw [place, place, hsame]
      split
      · exact congrArg (key :: ·) h
      · split
        · exact List.cons_eq_cons.2 ⟨hfirst, ih hrest⟩
        · exact congrArg (key :: ·) hrest

/-- An entry that is placed under a key that is there takes no new place. -/
theorem map_fst_place_of_mem (h : entries.Pairwise fun a b => rank a.1 < rank b.1)
    (hkey : key ∈ entries.map (·.1)) :
    (place key value entries).map (·.1) = entries.map (·.1) := by
  induction entries with
  | nil => cases hkey
  | cons first rest ih =>
    obtain ⟨hfirst, hrest⟩ := List.pairwise_cons.1 h
    rw [place]
    rcases List.mem_cons.1 hkey with rfl | hkey
    · rw [if_neg (Nat.lt_irrefl _), if_neg (Nat.lt_irrefl _)]
      rfl
    · obtain ⟨entry, hentry, rfl⟩ := List.mem_map.1 hkey
      have hlt := hfirst entry hentry
      rw [if_neg (by omega), if_pos hlt]
      exact congrArg (first.1 :: ·) (ih hrest hkey)

/-! ### Tables -/

/-- A key has at most one value. -/
theorem value_unique (h : entries.Pairwise fun a b => rank a.1 < rank b.1) {a b : κ × α}
    (ha : a ∈ entries) (hb : b ∈ entries) (hkey : a.1 = b.1) : a = b := by
  -- Either of the two may come first.
  have hforward : entries.Pairwise fun a b => a.1 = b.1 → a = b :=
    h.imp fun {a b} hlt heq => by rw [heq] at hlt; omega
  have hbackward : entries.Pairwise fun a b => b.1 = a.1 → b = a :=
    h.imp fun {a b} hlt heq => by rw [heq] at hlt; omega
  exact List.Pairwise.forall_of_forall_of_flip (R := fun a b => a.1 = b.1 → a = b)
    (fun _ _ _ => rfl) hforward hbackward ha hb hkey

/-- Two lists in key order that hold the same entries are the same list. -/
theorem entries_unique {other : List (κ × α)}
    (h : entries.Pairwise fun a b => rank a.1 < rank b.1)
    (hother : other.Pairwise fun a b => rank a.1 < rank b.1)
    (hmem : ∀ entry, entry ∈ entries ↔ entry ∈ other) : entries = other := by
  have hnodup {list : List (κ × α)} (h : list.Pairwise fun a b => rank a.1 < rank b.1) :
      list.Nodup :=
    h.imp fun {a b} hlt heq => by rw [heq] at hlt; omega
  -- Without repetitions, lists with the same entries are rearrangements of each other.
  have hperm : entries.Perm other :=
    (List.perm_ext_iff_of_nodup (hnodup h) (hnodup hother)).2 hmem
  exact hperm.eq_of_pairwise (fun a b _ _ hlt hgt => by omega) h hother

/-- The value that is found under a key is the one that is filed under it. -/
theorem find?_eq_some_iff {table : Table κ α} :
    table.find? key = some value ↔ (key, value) ∈ table.entries := by
  rw [find?, Option.map_eq_some_iff]
  constructor
  · rintro ⟨entry, hfound, rfl⟩
    have hkey : entry.1 = key := Ranked.rank_inj (by simpa using List.find?_some hfound)
    rw [← hkey]
    exact List.mem_of_find?_eq_some hfound
  · intro hmem
    have hsome : (table.entries.find? fun entry => rank entry.1 = rank key).isSome := by
      rw [List.find?_isSome]
      exact ⟨(key, value), hmem, by simp⟩
    obtain ⟨entry, hfound⟩ := Option.isSome_iff_exists.1 hsome
    have hkey : entry.1 = key := Ranked.rank_inj (by simpa using List.find?_some hfound)
    have hentry := value_unique table.ascending (List.mem_of_find?_eq_some hfound) hmem hkey
    exact ⟨entry, hfound, by rw [hentry]⟩

/-- The entries after an insertion. -/
theorem mem_insert {table : Table κ α} {entry : κ × α} :
    entry ∈ (table.insert key value).entries ↔
      entry = (key, value) ∨ entry ∈ table.entries ∧ entry.1 ≠ key :=
  mem_place table.ascending

/-- The entries after a removal. -/
theorem mem_erase {table : Table κ α} {entry : κ × α} :
    entry ∈ (table.erase key).entries ↔ entry ∈ table.entries ∧ entry.1 ≠ key := by
  rw [erase, List.mem_filter, decide_eq_true_eq]
  exact and_congr_right fun _ => not_congr ⟨fun h => Ranked.rank_inj h, fun h => h ▸ rfl⟩

/-- Two tables agree on a key if they hold the same values under it. -/
theorem find?_congr {s t : Table κ α}
    (h : ∀ value, (key, value) ∈ s.entries ↔ (key, value) ∈ t.entries) :
    s.find? key = t.find? key := by
  apply Option.ext
  intro value
  rw [find?_eq_some_iff, find?_eq_some_iff]
  exact h value

/-- Two tables that agree on every key are the same table. -/
theorem eq_of_find?_eq {s t : Table κ α} (h : ∀ key, s.find? key = t.find? key) : s = t := by
  have hentries : s.entries = t.entries := by
    refine entries_unique s.ascending t.ascending fun entry => ?_
    rw [← find?_eq_some_iff, ← find?_eq_some_iff, h entry.1]
  cases s
  cases hentries
  rfl

/-- The inserted value is found under its key, and other keys keep theirs. -/
theorem find?_insert {table : Table κ α} {key' : κ} :
    (table.insert key value).find? key' =
      if rank key' = rank key then some value else table.find? key' := by
  split
  · rename_i hrank
    rw [Ranked.rank_inj hrank]
    exact find?_eq_some_iff.2 (mem_insert.2 (Or.inl rfl))
  · rename_i hrank
    have hne : key' ≠ key := by rintro rfl; exact hrank rfl
    refine find?_congr fun value' => ?_
    rw [mem_insert]
    exact ⟨fun h => (h.resolve_left fun heq => hne (congrArg Prod.fst heq)).1,
      fun h => Or.inr ⟨h, hne⟩⟩

/-- Changing all values changes the one under a key. -/
theorem find?_map {table : Table κ α} {change : α → α} :
    (table.map change).find? key = (table.find? key).map change := by
  rw [find?, find?, map, List.find?_map, Option.map_map, Option.map_map]
  rfl

/-- The first entry of a table is its least, and the other entries stay. -/
theorem popFirst?_eq_some {table rest : Table κ α} {entry : κ × α}
    (h : table.popFirst? = some (entry, rest)) :
    table.entries = entry :: rest.entries ∧
      ∀ other ∈ rest.entries, rank entry.1 < rank other.1 := by
  rw [popFirst?, Option.map_eq_some_iff] at h
  obtain ⟨first, hhead, heq⟩ := h
  obtain ⟨rfl, rfl⟩ := Prod.mk.inj heq
  have hentries : table.entries = first :: table.entries.tail := by
    obtain ⟨tail, hentries⟩ := List.head?_eq_some_iff.1 hhead
    rw [hentries]; rfl
  have hascending := table.ascending
  rw [hentries] at hascending
  exact ⟨hentries, (List.pairwise_cons.1 hascending).1⟩

/-- Only a table without entries has no first one. -/
theorem popFirst?_eq_none {table : Table κ α} : table.popFirst? = none ↔ table.entries = [] := by
  rw [popFirst?, Option.map_eq_none_iff, List.head?_eq_none_iff]

end LinkState.Table
