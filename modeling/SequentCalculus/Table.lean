/-!
# Table — finite maps that remember the order of insertion

A `Table` lists its entries in the order in which their keys first came in; writing to a key that is
already there changes the value in place.  Keys never repeat, so a table is determined by its list of
entries and read by its first match.

* `keys_put` — a new key goes to the end, an old one stays where it is.
* `get?_put` — the last write to a key is the one that is read.
-/

namespace SequentCalculus

/-- A finite map from `κ` to `ν`, in order of first insertion. -/
structure Table (κ ν : Type) where
  entries : List (κ × ν)
  nodup : (entries.map Prod.fst).Nodup

namespace Table

variable {κ ν : Type}

/-- The map without entries. -/
def empty : Table κ ν := ⟨[], List.nodup_nil⟩

/-- The keys, in order of first insertion. -/
def keys (t : Table κ ν) : List κ := t.entries.map Prod.fst

variable [DecidableEq κ]

/-- The entries after a write. -/
def putEntry (k : κ) (v : ν) : List (κ × ν) → List (κ × ν)
  | [] => [(k, v)]
  | entry :: rest => if entry.1 = k then (k, v) :: rest else entry :: putEntry k v rest

theorem fst_putEntry (k : κ) (v : ν) (es : List (κ × ν)) :
    (putEntry k v es).map Prod.fst =
      if k ∈ es.map Prod.fst then es.map Prod.fst else es.map Prod.fst ++ [k] := by
  induction es with
  | nil => simp [putEntry]
  | cons e es ih =>
    by_cases h : e.1 = k
    · simp [putEntry, h]
    · have h' : ¬ k = e.1 := fun hk => h hk.symm
      simp only [putEntry, if_neg h, List.map_cons, ih, List.mem_cons, h', false_or]
      split <;> simp

/-- Writes `v` at the key `k`. -/
def put (t : Table κ ν) (k : κ) (v : ν) : Table κ ν where
  entries := putEntry k v t.entries
  nodup := by
    rw [fst_putEntry]
    split
    · exact t.nodup
    · rename_i h
      exact List.nodup_append.mpr
        ⟨t.nodup, by simp, fun a ha b hb hab => h (by
          have hb' : b = k := by simpa using hb
          rwa [← hb', ← hab])⟩

/-- **A new key goes to the end, an old one stays where it is.** -/
theorem keys_put (t : Table κ ν) (k : κ) (v : ν) :
    (t.put k v).keys = if k ∈ t.keys then t.keys else t.keys ++ [k] :=
  fst_putEntry k v t.entries

/-- Writes the pairs one after the other. -/
def putAll (t : Table κ ν) (pairs : List (κ × ν)) : Table κ ν :=
  pairs.foldl (fun t p => t.put p.1 p.2) t

/-- The table of the pairs: the last value of a key, at the place of its first. -/
def ofList (pairs : List (κ × ν)) : Table κ ν := empty.putAll pairs

/-- The first value listed for a key. -/
def valueOf? (q : κ) : List (κ × ν) → Option ν
  | [] => none
  | entry :: rest => if entry.1 = q then some entry.2 else valueOf? q rest

/-- The value at a key. -/
def get? (t : Table κ ν) (k : κ) : Option ν := valueOf? k t.entries

theorem valueOf?_putEntry (k : κ) (v : ν) (es : List (κ × ν)) (q : κ) :
    valueOf? q (putEntry k v es) = if q = k then some v else valueOf? q es := by
  induction es with
  | nil => simp [putEntry, valueOf?, eq_comm]
  | cons e es ih =>
    by_cases h : e.1 = k
    · by_cases hq : q = k
      · simp [putEntry, valueOf?, h, hq]
      · have : ¬ k = q := fun hk => hq hk.symm
        simp [putEntry, valueOf?, h, hq, this]
    · by_cases he : e.1 = q
      · have : ¬ q = k := fun hk => h (he.trans hk)
        simp [putEntry, valueOf?, he, this]
      · simp [putEntry, valueOf?, h, he, ih]

/-- **The last write to a key is the one that is read.** -/
theorem get?_put (t : Table κ ν) (k : κ) (v : ν) (q : κ) :
    (t.put k v).get? q = if q = k then some v else t.get? q :=
  valueOf?_putEntry k v t.entries q

/-- Two tables hold the same pairs, in whatever order. -/
def sameEntries [DecidableEq ν] (t u : Table κ ν) : Bool :=
  t.entries.all (fun e => u.get? e.1 = some e.2) && u.entries.all fun e => t.get? e.1 = some e.2

/-- The table with every value sent through a function. -/
def mapValues {μ : Type} (f : ν → μ) (t : Table κ ν) : Table κ μ where
  entries := t.entries.map fun e => (e.1, f e.2)
  nodup := by
    have h : (t.entries.map fun e => (e.1, f e.2)).map Prod.fst = t.entries.map Prod.fst := by
      simp [Function.comp_def]
    rw [h]
    exact t.nodup

theorem mem_putEntry {k : κ} {v : ν} {es : List (κ × ν)} {e : κ × ν} (h : e ∈ putEntry k v es) :
    e = (k, v) ∨ e ∈ es := by
  induction es with
  | nil => simpa [putEntry] using h
  | cons d es ih =>
    by_cases hd : d.1 = k
    · simp only [putEntry, if_pos hd, List.mem_cons] at h ⊢
      exact h.imp id Or.inr
    · simp only [putEntry, if_neg hd, List.mem_cons] at h ⊢
      rcases h with h | h
      · exact Or.inr (Or.inl h)
      · exact (ih h).imp id Or.inr

/-- Every entry of a written table was there or was written. -/
theorem mem_entries_putAll {t : Table κ ν} {pairs : List (κ × ν)} {e : κ × ν}
    (h : e ∈ (t.putAll pairs).entries) : e ∈ t.entries ∨ e ∈ pairs := by
  induction pairs generalizing t with
  | nil => exact Or.inl h
  | cons p pairs ih =>
    rcases ih h with h | h
    · rcases mem_putEntry h with rfl | h
      · exact Or.inr (List.mem_cons_self ..)
      · exact Or.inl h
    · exact Or.inr (List.mem_cons_of_mem _ h)

/-- Every entry of the table of a list of pairs is one of the pairs. -/
theorem mem_of_mem_ofList {pairs : List (κ × ν)} {e : κ × ν}
    (h : e ∈ (ofList pairs).entries) : e ∈ pairs :=
  (mem_entries_putAll h).resolve_left (by simp [empty])

end Table

end SequentCalculus
