/-!
# Ordered tables

Pairs of keys and values in the order in which the keys first came. Giving a key a new value
keeps its place, so a table is determined by the order of first keys and by the last value of
each. Main statements: `get?_put` and `keys_put`, `nodup_keys_put`, by which no key comes twice,
`mem_keys_iff`, and `eq_of_get?`, by which the keys in order and the value of each are all that
there is to a table; without the order, `perm_of_get?` says the same up to a permutation.
-/

namespace Barcode

/-- Pairs of keys and values. A table made by `put` has no key twice. -/
abbrev Table (α β : Type) := List (α × β)

namespace Table

variable {α β : Type} [BEq α]

def keys (table : Table α β) : List α := table.map Prod.fst

def get? (table : Table α β) (key : α) : Option β := table.lookup key

/-- Gives a key its value: in its place if the table has the key, at the end otherwise. -/
def put (table : Table α β) (key : α) (value : β) : Table α β :=
  match table with
  | [] => [(key, value)]
  | (k, v) :: rest => if k == key then (k, value) :: rest else (k, v) :: put rest key value

def ofPairs (pairs : List (α × β)) : Table α β :=
  pairs.foldl (fun table pair => put table pair.1 pair.2) []

theorem get?_put [LawfulBEq α] (table : Table α β) (key : α) (value : β) (other : α) :
    get? (put table key value) other = if other == key then some value else get? table other := by
  induction table with
  | nil => simp only [put, get?, List.lookup_cons, List.lookup_nil]; split <;> simp_all
  | cons pair rest ih =>
    obtain ⟨k, v⟩ := pair
    simp only [get?] at ih
    by_cases h : k = key <;> by_cases ho : other = k <;>
      simp_all [put, get?, List.lookup_cons] <;> grind

theorem keys_put [LawfulBEq α] (table : Table α β) (key : α) (value : β) :
    keys (put table key value) = if key ∈ keys table then keys table else keys table ++ [key] := by
  induction table with
  | nil => simp [put, keys]
  | cons pair rest ih =>
    obtain ⟨k, v⟩ := pair
    simp only [keys] at ih
    by_cases h : k = key
    · simp [put, keys, h]
    · have h' : ¬ key = k := fun e => h e.symm
      simp only [put, keys, beq_iff_eq, h, if_false, List.map_cons, List.mem_cons, h', false_or]
      rw [ih]
      split <;> simp_all

theorem nodup_keys_put [LawfulBEq α] (table : Table α β) (key : α) (value : β)
    (h : (keys table).Nodup) : (keys (put table key value)).Nodup := by
  rw [keys_put]
  split
  · exact h
  · next absent =>
    refine List.nodup_append.2 ⟨h, by simp, ?_⟩
    rintro a ha b hb rfl
    exact absent (List.mem_singleton.1 hb ▸ ha)

theorem put_of_not_mem [LawfulBEq α] {table : Table α β} {key : α} (h : key ∉ keys table)
    (value : β) : put table key value = table ++ [(key, value)] := by
  induction table with
  | nil => rfl
  | cons pair rest ih =>
    obtain ⟨k, v⟩ := pair
    obtain ⟨hne, hrest⟩ := not_or.1 fun hm => h (List.mem_cons.2 hm)
    rw [put, if_neg (by simpa using Ne.symm hne), ih hrest, List.cons_append]

/-- Pairs without a key twice are a table as they stand. -/
theorem ofPairs_of_nodup [LawfulBEq α] {pairs : List (α × β)} (h : (keys pairs).Nodup) :
    ofPairs pairs = pairs := by
  suffices ∀ table : Table α β, (keys (table ++ pairs)).Nodup →
      pairs.foldl (fun table pair => put table pair.1 pair.2) table = table ++ pairs from
    this [] h
  induction pairs with
  | nil => exact fun table _ => (List.append_nil table).symm
  | cons pair rest ih =>
    intro table hn
    have hnot : pair.1 ∉ keys table := by
      intro hm
      rw [keys, List.map_append] at hn
      exact (List.nodup_append.1 hn).2.2 pair.1 hm pair.1 (List.mem_cons_self) rfl
    rw [List.foldl_cons, put_of_not_mem hnot, ih (List.nodup_cons.1 h).2, List.append_assoc]
    · rfl
    · rwa [List.append_assoc]

theorem get?_eq_none_iff [LawfulBEq α] {table : Table α β} {key : α} :
    get? table key = none ↔ key ∉ keys table := by
  rw [get?, List.lookup_eq_none_iff, keys, List.mem_map]
  constructor
  · rintro h ⟨pair, hp, rfl⟩
    exact bne_iff_ne.1 (h pair hp) rfl
  · intro h pair hp
    exact bne_iff_ne.2 fun he => h ⟨pair, hp, he.symm⟩

/-- The keys of a table are those that have a value. -/
theorem mem_keys_iff [LawfulBEq α] {table : Table α β} {key : α} :
    key ∈ keys table ↔ ∃ value, get? table key = some value := by
  rw [← Option.isSome_iff_exists, ← Option.ne_none_iff_isSome, ne_eq, get?_eq_none_iff,
    Classical.not_not]

theorem get?_of_mem [LawfulBEq α] {table : Table α β} (h : (keys table).Nodup) {key : α} {value : β}
    (hm : (key, value) ∈ table) : get? table key = some value := by
  induction table with
  | nil => cases hm
  | cons pair rest ih =>
    obtain ⟨hnot, hrest⟩ := List.nodup_cons.1 h
    rw [get?, List.lookup_cons]
    cases hm with
    | head => rw [beq_self_eq_true]
    | tail _ hm =>
      have hne : key ≠ pair.1 := fun he => hnot (he ▸ List.mem_map_of_mem hm)
      rw [beq_eq_false_iff_ne.2 hne]
      exact ih hrest hm

/-- Tables with the same keys in the same order and the same value of each are equal. -/
theorem eq_of_get? [LawfulBEq α] {a b : Table α β} (hk : keys a = keys b) (h : (keys a).Nodup)
    (hv : ∀ key, get? a key = get? b key) : a = b := by
  induction a generalizing b with
  | nil => exact (List.map_eq_nil_iff.1 hk.symm).symm
  | cons pair rest ih =>
    obtain ⟨key, value⟩ := pair
    match b, hk with
    | (key', value') :: rest', hk =>
      have htails : keys rest = keys rest' := (List.cons.inj hk).2
      obtain rfl : key = key' := (List.cons.inj hk).1
      obtain ⟨hnot, hrest⟩ := List.nodup_cons.1 h
      have hvalue : value = value' := by simpa [get?] using hv key
      have htail : rest = rest' := by
        -- the first key does not come again, so the rest is asked for other keys only
        refine ih htails hrest fun other => ?_
        by_cases ho : other = key
        · subst ho
          rw [get?_eq_none_iff.2 hnot, get?_eq_none_iff.2 (htails ▸ hnot)]
        · simpa [get?, List.lookup_cons, beq_eq_false_iff_ne.2 ho] using hv other
      rw [hvalue, htail]

theorem mem_of_get? [LawfulBEq α] {table : Table α β} {key : α} {value : β}
    (h : get? table key = some value) : (key, value) ∈ table := by
  obtain ⟨before, after, rfl, -⟩ := List.lookup_eq_some_iff.1 h
  exact List.mem_append_right _ List.mem_cons_self

omit [BEq α] in
theorem nodup_of_nodup_keys {table : Table α β} (h : (keys table).Nodup) : table.Nodup :=
  List.Pairwise.imp (fun hne he => hne (congrArg Prod.fst he)) (List.pairwise_map.1 h)

/-- Tables with the same value of each key are equal up to the order of their keys. -/
theorem perm_of_get? [LawfulBEq α] {a b : Table α β} (ha : (keys a).Nodup) (hb : (keys b).Nodup)
    (hv : ∀ key, get? a key = get? b key) : a.Perm b := by
  refine (List.perm_ext_iff_of_nodup (nodup_of_nodup_keys ha) (nodup_of_nodup_keys hb)).2 ?_
  intro pair
  constructor
  · intro hm
    exact mem_of_get? ((hv pair.1).symm.trans (get?_of_mem ha hm))
  · intro hm
    exact mem_of_get? ((hv pair.1).trans (get?_of_mem hb hm))

end Table

end Barcode
