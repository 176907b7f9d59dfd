/-!
# Ordered associations

A mapping whose order is part of its meaning: a list of pairs with one entry per key. A new key goes
to the end, and a key that is written again keeps its place and takes the new value.
-/

namespace ComponentTags

/-! ## Distinct elements -/

theorem eraseDups_of_nodup {α : Type} [DecidableEq α] {l : List α} (h : l.Nodup) :
    l.eraseDups = l := by
  induction l with
  | nil => rfl
  | cons a l ih =>
    rw [List.nodup_cons] at h
    have others : ∀ b ∈ l, (!b == a) = true := by
      intro b hb
      have hne : b ≠ a := fun heq => h.1 (heq ▸ hb)
      simp [hne]
    rw [List.eraseDups_cons, List.filter_eq_self.2 others, ih h.2]

theorem eraseDups_append_cons_of_mem {α : Type} [DecidableEq α] {a : α} {l m : List α}
    (h : a ∈ l) : (l ++ a :: m).eraseDups = (l ++ m).eraseDups := by
  simp [List.eraseDups_append, List.removeAll, h]

/-! ## Associations -/

/-- Entries in the order of their keys' first insertion. -/
abbrev Assoc (κ α : Type) := List (κ × α)

namespace Assoc

variable {κ α : Type} [DecidableEq κ]

/-- The value under a key. -/
def get? (m : Assoc κ α) (key : κ) : Option α :=
  match m with
  | [] => none
  | (k, a) :: rest => if k = key then some a else get? rest key

/-- Writes a value under a key. -/
def insert (m : Assoc κ α) (key : κ) (value : α) : Assoc κ α :=
  match m with
  | [] => [(key, value)]
  | (k, a) :: rest => if k = key then (k, value) :: rest else (k, a) :: insert rest key value

/-- Writes further entries, one after another. -/
def insertAll (m entries : Assoc κ α) : Assoc κ α :=
  entries.foldl (fun m entry => m.insert entry.1 entry.2) m

/-- The association of a list of pairs, in which a key may come more than once. -/
def ofList (entries : List (κ × α)) : Assoc κ α :=
  insertAll [] entries

/-- The keys in order. -/
def keys (m : Assoc κ α) : List κ :=
  m.map (·.1)

@[simp]
theorem get?_insert (m : Assoc κ α) (key key' : κ) (value : α) :
    get? (insert m key value) key' = if key = key' then some value else get? m key' := by
  induction m with
  | nil => simp [insert, get?]
  | cons entry rest ih =>
    obtain ⟨k, a⟩ := entry
    by_cases hk : k = key
    · subst hk
      by_cases hk' : k = key' <;> simp [insert, get?, hk']
    · by_cases hk' : k = key'
      · subst hk'
        simp [insert, get?, hk, Ne.symm hk]
      · simp [insert, get?, hk, hk', ih]

/-- What is written last under a key stands. -/
theorem insert_insert (m : Assoc κ α) (key : κ) (first last : α) :
    insert (insert m key first) key last = insert m key last := by
  induction m with
  | nil => simp [insert]
  | cons entry rest ih =>
    obtain ⟨k, a⟩ := entry
    by_cases hk : k = key <;> simp [insert, hk, ih]

/-- Writing keeps the order of the keys and adds a new key at the end. -/
@[simp]
theorem keys_insert (m : Assoc κ α) (key : κ) (value : α) :
    keys (insert m key value) = if key ∈ keys m then keys m else keys m ++ [key] := by
  induction m with
  | nil => simp [insert, keys]
  | cons entry rest ih =>
    obtain ⟨k, a⟩ := entry
    by_cases hk : k = key
    · subst hk; simp [insert, keys]
    · have ih' : (insert rest key value).map (·.1) =
          if key ∈ rest.map (·.1) then rest.map (·.1) else rest.map (·.1) ++ [key] := ih
      by_cases hm : key ∈ rest.map (·.1)
      · simp only [keys, insert, hk, if_false, List.map_cons, ih', hm, if_true, List.mem_cons,
          or_true]
      · simp only [keys, insert, hk, if_false, List.map_cons, ih', hm, List.mem_cons,
          Ne.symm hk, or_self, List.cons_append]

theorem mem_of_get? {m : Assoc κ α} {key : κ} {value : α} (h : get? m key = some value) :
    (key, value) ∈ m := by
  induction m with
  | nil => cases h
  | cons entry rest ih =>
    obtain ⟨k, a⟩ := entry
    rw [get?] at h
    split at h
    · rename_i hk
      cases h
      simp [hk]
    · exact List.mem_cons_of_mem _ (ih h)

variable {m entries : Assoc κ α} {key k : κ} {value a : α}

theorem get?_of_mem (distinct : (keys m).Nodup) (h : (key, value) ∈ m) : get? m key = some value := by
  induction m with
  | nil => cases h
  | cons entry rest ih =>
    obtain ⟨k, a⟩ := entry
    obtain ⟨hnew, hrest⟩ := List.nodup_cons.1 distinct
    rcases List.mem_cons.1 h with heq | hmem
    · cases heq
      rw [get?, if_pos rfl]
    · have hkey : key ∈ keys rest := List.mem_map_of_mem hmem
      have hk : k ≠ key := by
        rintro rfl
        exact hnew hkey
      rw [get?, if_neg hk, ih hrest hmem]

theorem mem_iff_get? (distinct : (keys m).Nodup) : (key, value) ∈ m ↔ get? m key = some value :=
  ⟨get?_of_mem distinct, mem_of_get?⟩

/-- The value under a key is that of its first entry. -/
theorem get?_eq_some_iff :
    get? m key = some value ↔ ∃ before behind, m = before ++ (key, value) :: behind ∧ key ∉ keys before := by
  induction m with
  | nil => simp [get?]
  | cons entry rest ih =>
    obtain ⟨k, a⟩ := entry
    by_cases hk : k = key
    · subst hk
      rw [get?, if_pos rfl]
      constructor
      · rintro h
        cases h
        exact ⟨[], rest, rfl, by simp [keys]⟩
      · rintro ⟨before, behind, heq, hnew⟩
        cases before with
        | nil =>
          cases heq
          rfl
        | cons first before =>
          cases heq
          simp [keys] at hnew
    · rw [get?, if_neg hk, ih]
      constructor
      · rintro ⟨before, behind, rfl, hnew⟩
        exact ⟨(k, a) :: before, behind, rfl, by simpa [keys, Ne.symm hk] using hnew⟩
      · rintro ⟨before, behind, heq, hnew⟩
        cases before with
        | nil =>
          cases heq
          exact absurd rfl hk
        | cons first before =>
          cases heq
          exact ⟨before, behind, rfl, fun hmem => hnew (List.mem_cons_of_mem _ hmem)⟩

/-- A value that is written where it stands changes nothing. -/
theorem insert_eq_self (h : get? m key = some value) : insert m key value = m := by
  induction m with
  | nil => cases h
  | cons entry rest ih =>
    obtain ⟨k, a⟩ := entry
    by_cases hk : k = key
    · rw [get?, if_pos hk, Option.some.injEq] at h
      rw [insert, if_pos hk, h]
    · rw [get?, if_neg hk] at h
      rw [insert, if_neg hk, ih h]

/-- A key that is written again keeps its place. -/
theorem insert_append_cons {before behind : Assoc κ α} (hnew : key ∉ keys before) (first last : α) :
    insert (before ++ (key, first) :: behind) key last = before ++ (key, last) :: behind := by
  induction before with
  | nil => rw [List.nil_append, insert, if_pos rfl, List.nil_append]
  | cons entry before ih =>
    obtain ⟨k, a⟩ := entry
    obtain ⟨hk, hrest⟩ := not_or.1 (mt List.mem_cons.2 hnew)
    rw [List.cons_append, insert, if_neg (Ne.symm hk), ih hrest, List.cons_append]

theorem get?_eq_none (h : key ∉ keys m) : get? m key = none := by
  cases hget : get? m key with
  | none => rfl
  | some a => exact absurd (List.mem_map_of_mem (mem_of_get? hget)) h

theorem nodup_keys_insert (h : (keys m).Nodup) (key : κ) (value : α) :
    (keys (insert m key value)).Nodup := by
  rw [keys_insert]
  split
  · exact h
  · rename_i hnew
    refine List.nodup_append.2 ⟨h, by simp, ?_⟩
    rintro a ha b hb rfl
    exact hnew (List.mem_singleton.1 hb ▸ ha)

/-- Further entries that are written keep the order of the keys and add the new ones at the end. -/
theorem keys_insertAll (h : (keys m).Nodup) (entries : Assoc κ α) :
    keys (insertAll m entries) = (keys m ++ keys entries).eraseDups := by
  induction entries generalizing m with
  | nil =>
    show keys m = (keys m ++ []).eraseDups
    rw [List.append_nil, eraseDups_of_nodup h]
  | cons entry rest ih =>
    obtain ⟨k, a⟩ := entry
    have hrest := ih (nodup_keys_insert h k a)
    rw [keys_insert] at hrest
    show keys (insertAll (insert m k a) rest) = (keys m ++ k :: keys rest).eraseDups
    rw [hrest]
    split
    · rename_i hmem
      rw [eraseDups_append_cons_of_mem hmem]
    · rw [List.append_assoc, List.singleton_append]

theorem nodup_keys_insertAll (h : (keys m).Nodup) (entries : Assoc κ α) :
    (keys (insertAll m entries)).Nodup := by
  induction entries generalizing m with
  | nil => exact h
  | cons entry rest ih => exact ih (nodup_keys_insert h entry.1 entry.2)

theorem nodup_keys_ofList (entries : Assoc κ α) : (keys (ofList entries)).Nodup := by
  have hnone : (keys ([] : Assoc κ α)).Nodup := List.nodup_nil
  exact nodup_keys_insertAll hnone entries

/-- The keys of a list of pairs stand in the order of their first entries. -/
theorem keys_ofList (entries : Assoc κ α) : keys (ofList entries) = (keys entries).eraseDups := by
  have hnone : (keys ([] : Assoc κ α)).Nodup := List.nodup_nil
  exact keys_insertAll hnone entries

theorem get?_append (m later : Assoc κ α) (key : κ) :
    get? (m ++ later) key = (get? m key).or (get? later key) := by
  induction m with
  | nil => rfl
  | cons entry rest ih =>
    obtain ⟨k, a⟩ := entry
    by_cases hk : k = key <;> simp [get?, hk, ih]

/-- Under each key stands what was written last. -/
theorem get?_insertAll (m entries : Assoc κ α) (key : κ) :
    get? (insertAll m entries) key = (get? entries.reverse key).or (get? m key) := by
  induction entries generalizing m with
  | nil => rfl
  | cons entry rest ih =>
    obtain ⟨k, a⟩ := entry
    show get? (insertAll (insert m k a) rest) key = _
    rw [ih, get?_insert, List.reverse_cons, get?_append, Option.or_assoc]
    by_cases hk : k = key <;> simp [get?, hk]

theorem get?_ofList (entries : Assoc κ α) (key : κ) :
    get? (ofList entries) key = get? entries.reverse key := by
  rw [ofList, get?_insertAll, get?, Option.or_none]

/-- The entries of a list of pairs that last are those behind which their keys do not come again. -/
theorem mem_ofList_iff :
    (key, value) ∈ ofList entries ↔
      ∃ before behind, entries = before ++ (key, value) :: behind ∧ key ∉ keys behind := by
  rw [mem_iff_get? (nodup_keys_ofList entries), get?_ofList, get?_eq_some_iff]
  constructor
  · rintro ⟨before, behind, heq, hnew⟩
    refine ⟨behind.reverse, before.reverse, ?_, by simpa [keys] using hnew⟩
    simpa using congrArg List.reverse heq
  · rintro ⟨before, behind, rfl, hnew⟩
    exact ⟨behind.reverse, before.reverse, by simp, by simpa [keys] using hnew⟩

theorem get?_reverse (distinct : (keys m).Nodup) (key : κ) : get? m.reverse key = get? m key := by
  induction m with
  | nil => rfl
  | cons entry rest ih =>
    obtain ⟨k, a⟩ := entry
    obtain ⟨hnew, hrest⟩ := List.nodup_cons.1 distinct
    rw [List.reverse_cons, get?_append, ih hrest]
    by_cases hk : k = key
    · have habsent : get? rest key = none := get?_eq_none (hk ▸ hnew)
      simp [get?, hk, habsent]
    · simp [get?, hk]

theorem eq_or_mem_of_mem_insert (h : (k, a) ∈ insert m key value) :
    (k, a) = (key, value) ∨ (k, a) ∈ m := by
  induction m with
  | nil => exact .inl (List.mem_singleton.1 h)
  | cons entry rest ih =>
    obtain ⟨k', a'⟩ := entry
    unfold insert at h
    split at h
    · rename_i hk
      rcases List.mem_cons.1 h with h | h
      · exact .inl (by rw [h, hk])
      · exact .inr (List.mem_cons_of_mem _ h)
    · rcases List.mem_cons.1 h with h | h
      · exact .inr (by simp [h])
      · rcases ih h with h | h
        · exact .inl h
        · exact .inr (List.mem_cons_of_mem _ h)

theorem mem_or_mem_of_mem_insertAll (h : (k, a) ∈ insertAll m entries) :
    (k, a) ∈ m ∨ (k, a) ∈ entries := by
  induction entries generalizing m with
  | nil => exact .inl h
  | cons entry rest ih =>
    rcases ih h with h | h
    · rcases eq_or_mem_of_mem_insert h with h | h
      · exact .inr (List.mem_cons.2 (.inl h))
      · exact .inl h
    · exact .inr (List.mem_cons_of_mem _ h)

/-- An association holds no other entries than the list that it was made of. -/
theorem mem_of_mem_ofList (h : (k, a) ∈ ofList entries) : (k, a) ∈ entries := by
  rcases mem_or_mem_of_mem_insertAll h with h | h
  · cases h
  · exact h

end Assoc

end ComponentTags
