import SequentCalculus.Distinct
import SequentCalculus.Table

/-!
# Proofs/Tables — what is read from a table and in which order it stands

A table is read by its keys and listed in the order in which they came in.  Each key has one entry, so
reading at a key and being an entry are the same (`get?_eq_some_iff`), and a table is settled by its
keys, in order, and what is read at them (`entries_prefix`).  Writing pairs one after the other
collects their keys without repetition (`keys_putAll`) and leaves the last value of each
(`get?_putAll`).
-/

namespace SequentCalculus

/-! ## Collecting without repetition -/

section Distinct

variable {α : Type} [DecidableEq α]

/-- What is there stays in front. -/
theorem prefix_appendNew (acc xs : List α) : acc <+: appendNew acc xs := by
  induction xs generalizing acc with
  | nil => exact List.prefix_refl _
  | cons x xs ih =>
    rw [appendNew_cons]
    split
    · exact ih acc
    · exact (List.prefix_append acc [x]).trans (ih _)

theorem appendNew_of_nodup {acc xs : List α} (h : (acc ++ xs).Nodup) :
    appendNew acc xs = acc ++ xs := by
  induction xs generalizing acc with
  | nil => rw [appendNew_nil, List.append_nil]
  | cons x xs ih =>
    have hx : x ∉ acc := fun hmem =>
      (List.nodup_append.1 h).2.2 x hmem x List.mem_cons_self rfl
    rw [appendNew_cons, if_neg hx, ih (by simpa using h), List.append_assoc, List.singleton_append]

/-- **Repetitions may be dropped piece by piece**: adding a list that was itself collected adds what it
was collected from. -/
theorem appendNew_appendNew (acc xs ys : List α) :
    appendNew acc (appendNew xs ys) = appendNew (appendNew acc xs) ys := by
  induction ys generalizing xs with
  | nil => rfl
  | cons y ys ih =>
    by_cases hy : y ∈ xs
    · rw [appendNew_cons, appendNew_cons, if_pos hy, if_pos (mem_appendNew.2 (Or.inr hy)), ih]
    · rw [appendNew_cons, if_neg hy, ih, appendNew_append]
      rfl

/-- **Repetitions may be dropped before a function is applied or afterwards.** -/
theorem distinct_map_appendNew {β : Type} [DecidableEq β] (f : α → β) (acc xs : List α) :
    distinct ((appendNew acc xs).map f) = appendNew (distinct (acc.map f)) (xs.map f) := by
  induction xs generalizing acc with
  | nil => rfl
  | cons x xs ih =>
    rw [appendNew_cons, List.map_cons, appendNew_cons]
    by_cases hx : x ∈ acc
    · have hfx : f x ∈ distinct (acc.map f) := mem_appendNew.2 (Or.inr (List.mem_map_of_mem hx))
      rw [if_pos hx, if_pos hfx, ih]
    · rw [if_neg hx, ih, distinct, List.map_append, appendNew_append]
      rfl

section EraseDups

variable [BEq α] [LawfulBEq α]

/-- **What is added is what was not there, without what repeats an earlier element.** -/
theorem appendNew_eq_append_eraseDups (acc xs : List α) :
    appendNew acc xs = acc ++ (xs.filter (· ∉ acc)).eraseDups := by
  induction xs generalizing acc with
  | nil => rw [appendNew_nil, List.filter_nil, List.eraseDups_nil, List.append_nil]
  | cons x xs ih =>
    by_cases hx : x ∈ acc
    · rw [appendNew_cons, if_pos hx, ih, List.filter_cons_of_neg (by simpa using hx)]
    · have hfilter : xs.filter (· ∉ acc ++ [x]) =
          (xs.filter (· ∉ acc)).filter fun y => !y == x := by
        rw [List.filter_filter]
        refine List.filter_congr fun y _ => ?_
        rw [Bool.eq_iff_iff]
        simp [and_comm]
      rw [appendNew_cons, if_neg hx, ih, List.filter_cons_of_pos (by simpa using hx),
        List.eraseDups_cons, hfilter, List.append_assoc, List.singleton_append]

/-- **Collecting a list keeps every element at its first occurrence and nowhere else.** -/
theorem distinct_eq_eraseDups (xs : List α) : distinct xs = xs.eraseDups := by
  rw [distinct, appendNew_eq_append_eraseDups, List.nil_append, List.filter_eq_self.2 (by simp)]

theorem appendNew_eq_append_filter {acc xs : List α} (h : xs.Nodup) :
    appendNew acc xs = acc ++ xs.filter (· ∉ acc) := by
  have hself : (xs.filter (· ∉ acc)).eraseDups = xs.filter (· ∉ acc) := by
    rw [← distinct_eq_eraseDups]
    exact appendNew_of_nodup (h.filter _)
  rw [appendNew_eq_append_eraseDups, hself]

end EraseDups

end Distinct

namespace Table

variable {κ ν μ : Type}

theorem eq_of_entries {t u : Table κ ν} (h : t.entries = u.entries) : t = u := by
  cases t
  cases u
  congr

variable [DecidableEq κ]

/-! ## Reading -/

theorem valueOf?_of_mem {k : κ} {v : ν} : ∀ {es : List (κ × ν)},
    (es.map Prod.fst).Nodup → (k, v) ∈ es → valueOf? k es = some v
  | e :: es, hnodup, hmem => by
    rw [List.map_cons, List.nodup_cons] at hnodup
    rw [valueOf?]
    rcases List.mem_cons.1 hmem with rfl | hmem
    · rw [if_pos rfl]
    · have hne : e.1 ≠ k := fun h => hnodup.1 (h ▸ List.mem_map_of_mem hmem)
      rw [if_neg hne]
      exact valueOf?_of_mem hnodup.2 hmem

/-- **Every entry of a table is the one that is read at its key.** -/
theorem get?_of_mem_entries {t : Table κ ν} {k : κ} {v : ν} (h : (k, v) ∈ t.entries) :
    t.get? k = some v :=
  valueOf?_of_mem t.nodup h

theorem mem_of_valueOf? {k : κ} {v : ν} {es : List (κ × ν)} (h : valueOf? k es = some v) :
    (k, v) ∈ es := by
  induction es with
  | nil => cases h
  | cons e es ih =>
    rw [valueOf?] at h
    split at h
    · rename_i hk
      obtain rfl := Option.some.inj h
      exact hk ▸ List.mem_cons_self
    · exact List.mem_cons_of_mem _ (ih h)

theorem valueOf?_map (f : κ → ν → μ) (k : κ) (es : List (κ × ν)) :
    valueOf? k (es.map fun e => (e.1, f e.1 e.2)) = (valueOf? k es).map (f k) := by
  induction es with
  | nil => rfl
  | cons e es ih =>
    rw [List.map_cons, valueOf?, valueOf?, ih]
    split
    · rename_i hk
      rw [hk, Option.map_some]
    · rfl

theorem get?_eq_some_iff {t : Table κ ν} {k : κ} {v : ν} :
    t.get? k = some v ↔ (k, v) ∈ t.entries :=
  ⟨mem_of_valueOf?, get?_of_mem_entries⟩

theorem get?_eq_none_of_not_mem {t : Table κ ν} {k : κ} (h : k ∉ t.keys) : t.get? k = none := by
  match hget : t.get? k with
  | none => rfl
  | some v => exact absurd (List.mem_map_of_mem (get?_eq_some_iff.1 hget)) h

theorem exists_get?_of_mem_keys {t : Table κ ν} {k : κ} (h : k ∈ t.keys) :
    ∃ v, t.get? k = some v := by
  obtain ⟨e, he, rfl⟩ := List.mem_map.1 h
  exact ⟨e.2, get?_eq_some_iff.2 he⟩

theorem mem_keys_iff {t : Table κ ν} {k : κ} :
    k ∈ t.keys ↔ t.get? k ≠ none := by
  refine ⟨fun h => ?_, fun h => Classical.byContradiction fun hk => h (get?_eq_none_of_not_mem hk)⟩
  obtain ⟨v, hv⟩ := exists_get?_of_mem_keys h
  rw [hv]
  exact Option.some_ne_none v

/-- **Two tables hold the same pairs exactly when they are read alike.** -/
theorem sameEntries_iff [DecidableEq ν] {t u : Table κ ν} :
    t.sameEntries u = true ↔ ∀ k, t.get? k = u.get? k := by
  simp only [sameEntries, Bool.and_eq_true, List.all_eq_true, decide_eq_true_eq]
  constructor
  · rintro ⟨htu, hut⟩ k
    refine Option.ext fun v => ?_
    rw [get?_eq_some_iff, get?_eq_some_iff]
    exact ⟨fun h => get?_eq_some_iff.1 (htu _ h), fun h => get?_eq_some_iff.1 (hut _ h)⟩
  · intro h
    exact ⟨fun e he => (h e.1).symm.trans (get?_of_mem_entries he),
      fun e he => (h e.1).trans (get?_of_mem_entries he)⟩

omit [DecidableEq κ] in
theorem nodup_entries (t : Table κ ν) : t.entries.Nodup :=
  List.Pairwise.of_map Prod.fst (fun _ _ hne heq => hne (congrArg Prod.fst heq)) t.nodup

/-- Reading at the keys, in order, gives the values. -/
theorem map_get?_keys (t : Table κ ν) : t.keys.map t.get? = (t.entries.map Prod.snd).map some := by
  rw [keys, List.map_map, List.map_map]
  exact List.map_congr_left fun e he => get?_of_mem_entries he

/-! ## Order -/

omit [DecidableEq κ] in
theorem prefix_of_keys_prefix {es us : List (κ × ν)}
    (hkeys : es.map Prod.fst <+: us.map Prod.fst)
    (hvalues : ∀ e ∈ es, ∀ v, (e.1, v) ∈ us → v = e.2) : es <+: us := by
  induction es generalizing us with
  | nil => exact List.nil_prefix
  | cons e es ih =>
    rcases us with _ | ⟨u, us⟩
    · exact absurd (List.prefix_nil.1 hkeys) (List.cons_ne_nil _ _)
    · rw [List.map_cons, List.map_cons, List.cons_prefix_cons] at hkeys
      have hvalue : u.2 = e.2 :=
        hvalues e List.mem_cons_self u.2 (hkeys.1 ▸ List.mem_cons_self)
      have hentry : e = u := Prod.ext hkeys.1 hvalue.symm
      rw [hentry, List.cons_prefix_cons]
      exact ⟨rfl, ih hkeys.2 fun e' he' v hv =>
        hvalues e' (List.mem_cons_of_mem _ he') v (List.mem_cons_of_mem _ hv)⟩

/-- A table whose keys come first in another, with the same values, comes first in it. -/
theorem entries_prefix {t u : Table κ ν} (hkeys : t.keys <+: u.keys)
    (hvalues : ∀ e ∈ t.entries, u.get? e.1 = some e.2) : t.entries <+: u.entries := by
  refine prefix_of_keys_prefix hkeys fun e he v hv => ?_
  rw [← get?_eq_some_iff, hvalues e he] at hv
  exact (Option.some.inj hv).symm

/-! ## Writing -/

/-- **Old keys stay in order, new ones come behind, each at its first occurrence.** -/
theorem keys_putAll (t : Table κ ν) (pairs : List (κ × ν)) :
    (t.putAll pairs).keys = appendNew t.keys (pairs.map Prod.fst) := by
  induction pairs generalizing t with
  | nil => rfl
  | cons p pairs ih =>
    rw [List.map_cons, appendNew_cons, ← keys_put t p.1 p.2]
    exact ih (t.put p.1 p.2)

theorem putEntry_of_not_mem {k : κ} {v : ν} {es : List (κ × ν)} (h : k ∉ es.map Prod.fst) :
    putEntry k v es = es ++ [(k, v)] := by
  induction es with
  | nil => rfl
  | cons e es ih =>
    rw [List.map_cons, List.mem_cons, not_or] at h
    rw [putEntry, if_neg (Ne.symm h.1), ih h.2, List.cons_append]

/-- **Pairs with new keys are listed as they are written.** -/
theorem entries_putAll_of_nodup {t : Table κ ν} {pairs : List (κ × ν)}
    (h : ((t.entries ++ pairs).map Prod.fst).Nodup) :
    (t.putAll pairs).entries = t.entries ++ pairs := by
  induction pairs generalizing t with
  | nil => exact (List.append_nil _).symm
  | cons p pairs ih =>
    have hput : (t.put p.1 p.2).entries = t.entries ++ [p] := by
      rw [List.map_append, List.nodup_append] at h
      exact putEntry_of_not_mem fun hmem => h.2.2 p.1 hmem p.1 List.mem_cons_self rfl
    have hrest := ih (t := t.put p.1 p.2) (by rwa [hput, List.append_assoc])
    rw [hput, List.append_assoc] at hrest
    exact hrest

theorem entries_ofList_of_nodup {pairs : List (κ × ν)} (h : (pairs.map Prod.fst).Nodup) :
    (ofList pairs).entries = pairs :=
  entries_putAll_of_nodup h

/-- **The last write to a key is the one that is read**, and without a write what was there. -/
theorem get?_putAll (t : Table κ ν) (pairs : List (κ × ν)) (k : κ) :
    (t.putAll pairs).get? k =
      ((pairs.filter (·.1 = k)).getLast?.map Prod.snd).or (t.get? k) := by
  induction pairs generalizing t with
  | nil => rfl
  | cons p pairs ih =>
    have hput := ih (t.put p.1 p.2)
    rw [get?_put] at hput
    refine hput.trans ?_
    by_cases hk : p.1 = k
    · rw [if_pos hk.symm, List.filter_cons_of_pos (by simpa using hk), List.getLast?_cons]
      cases (pairs.filter (·.1 = k)).getLast? <;> rfl
    · rw [if_neg (Ne.symm hk), List.filter_cons_of_neg (by simpa using hk)]

theorem get?_ofList (pairs : List (κ × ν)) (k : κ) :
    (ofList pairs).get? k = (pairs.filter (·.1 = k)).getLast?.map Prod.snd := by
  rw [ofList, get?_putAll]
  exact Option.or_none

theorem ofList_entries (t : Table κ ν) : ofList t.entries = t :=
  eq_of_entries (entries_ofList_of_nodup t.nodup)

theorem getLast?_filter_entries (t : Table κ ν) (k : κ) :
    (t.entries.filter (·.1 = k)).getLast?.map Prod.snd = t.get? k := by
  rw [← get?_ofList, ofList_entries]

/-- A table is settled by its keys, in order, and what is read at them. -/
theorem entries_eq_of_keys {t : Table κ ν} {es : List (κ × ν)} (hkeys : es.map Prod.fst = t.keys)
    (hvalues : ∀ e ∈ es, t.get? e.1 = some e.2) : t.entries = es := by
  have hfront : es <+: t.entries := by
    refine prefix_of_keys_prefix (hkeys ▸ List.prefix_refl _) fun e he v hv => ?_
    rw [← get?_eq_some_iff, hvalues e he] at hv
    exact (Option.some.inj hv).symm
  refine (hfront.eq_of_length ?_).symm
  rw [← List.length_map Prod.fst, hkeys, keys, List.length_map]

/-- **Writing one table over another changes values in place and adds the rest behind.** -/
theorem entries_putAll (t u : Table κ ν) :
    (t.putAll u.entries).entries =
      t.entries.map (fun e => (e.1, (u.get? e.1).getD e.2)) ++
        u.entries.filter (·.1 ∉ t.keys) := by
  refine entries_eq_of_keys ?_ fun e he => ?_
  · rw [keys_putAll, appendNew_eq_append_filter u.nodup, List.map_append, List.map_map,
      List.filter_map]
    rfl
  · rw [get?_putAll, getLast?_filter_entries]
    rcases List.mem_append.1 he with he | he
    · obtain ⟨d, hd, rfl⟩ := List.mem_map.1 he
      rw [get?_of_mem_entries hd]
      cases u.get? d.1 <;> rfl
    · rw [get?_of_mem_entries (List.mem_filter.1 he).1]
      rfl

theorem map_putEntry (f : ν → μ) (k : κ) (v : ν) (es : List (κ × ν)) :
    (putEntry k v es).map (fun e => (e.1, f e.2)) =
      putEntry k (f v) (es.map fun e => (e.1, f e.2)) := by
  induction es with
  | nil => rfl
  | cons e es ih =>
    rw [putEntry, List.map_cons, putEntry, ← ih]
    split <;> rfl

/-- **Values may be sent through a function before they are written or afterwards.** -/
theorem mapValues_putAll (f : ν → μ) (t : Table κ ν) (pairs : List (κ × ν)) :
    (t.putAll pairs).mapValues f = (t.mapValues f).putAll (pairs.map fun p => (p.1, f p.2)) := by
  induction pairs generalizing t with
  | nil => rfl
  | cons p pairs ih =>
    have hput : (t.put p.1 p.2).mapValues f = (t.mapValues f).put p.1 (f p.2) :=
      eq_of_entries (map_putEntry f p.1 p.2 t.entries)
    rw [List.map_cons]
    exact (ih (t.put p.1 p.2)).trans (congrArg (Table.putAll · _) hput)

/-- Whatever is read from one table is read from the other as well. -/
def IsWithin (t u : Table κ ν) : Prop := ∀ k v, t.get? k = some v → u.get? k = some v

theorem IsWithin.trans {t u w : Table κ ν} (h : t.IsWithin u) (h' : u.IsWithin w) : t.IsWithin w :=
  fun k v hv => h' k v (h k v hv)

theorem isWithin_put {t : Table κ ν} {k : κ} (h : k ∉ t.keys) (v : ν) : t.IsWithin (t.put k v) := by
  intro q w hw
  have hne : q ≠ k := by
    rintro rfl
    rw [get?_eq_none_of_not_mem h] at hw
    cases hw
  rw [get?_put, if_neg hne, hw]

end Table

end SequentCalculus
