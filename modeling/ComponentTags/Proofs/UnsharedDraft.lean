import Mathlib.Data.List.Nodup
import ComponentTags.Shared.Draft

/-!
# Drafts in which no object is shared

What is written to a shared object shows at every place where it stands. In a draft in which every object stands at
one place, writing at a path changes the values at that path only. Numbers are counted with their places, so that
an object is shared exactly if its number counts twice. The induction goes along the path: what is written inside
an object leaves everything around it alone, for none of the numbers around it occurs inside.
-/

namespace ComponentTags

variable {key : Key} {v : Value} {path : List Key}

/-! ## Writing to fields -/

namespace Settings

/-- The fields of the object under a key; there are none where no object stands. -/
def innerFields (fields : Fields) (key : Key) : Fields :=
  ((Assoc.get? fields key).map Value.fields).getD []

/-- Writes a value at a path of fields. -/
def writeAt (fields : Fields) : List Key → Value → Fields
  | [], _ => fields
  | [key], v => fields.insert key v
  | key :: path, v => fields.insert key (.object (writeAt (innerFields fields key) path v))

theorem writeAt_cons (fields : Fields) (key : Key) (hpath : path ≠ []) (v : Value) :
    writeAt fields (key :: path) v = fields.insert key (.object (writeAt (innerFields fields key) path v)) := by
  cases path with
  | nil => exact absurd rfl hpath
  | cons next path => rfl

/-- What is no object gives way to one. -/
theorem writeAt_insert_object {fields : Fields} (hnone : innerFields fields key = []) (hpath : path ≠ []) (v : Value) :
    writeAt (fields.insert key (.object [])) (key :: path) v = writeAt fields (key :: path) v := by
  have hinner : innerFields (fields.insert key (.object [])) key = [] := by
    rw [innerFields, Assoc.get?_insert, if_pos rfl]
    rfl
  rw [writeAt_cons _ key hpath, writeAt_cons _ key hpath, hinner, hnone, Assoc.insert_insert]

end Settings

/-! ## How often a number occurs -/

namespace Shared

variable {x y : Shared} {fields : Assoc Key Shared} {target : Nat}

theorem fieldNumbers_append (a b : List (Key × Shared)) :
    fieldNumbers (a ++ b) = fieldNumbers a ++ fieldNumbers b := by
  induction a with
  | nil => rfl
  | cons field a ih =>
    obtain ⟨k, x⟩ := field
    rw [List.cons_append, fieldNumbers, ih, fieldNumbers, List.append_assoc]

/-- The numbers of what stands under a key. -/
def numbersAt (fields : Assoc Key Shared) (key : Key) : List Nat :=
  ((fields.get? key).map numbers).getD []

theorem numbers_subset_of_get? (h : fields.get? key = some x) : x.numbers ⊆ fieldNumbers fields := by
  induction fields with
  | nil => cases h
  | cons field rest ih =>
    obtain ⟨k, y⟩ := field
    rw [Assoc.get?] at h
    split at h
    · cases h
      exact List.subset_append_left _ _
    · exact List.subset_append_of_subset_right _ (ih h)

/-- A value takes the place of what stood under its key. -/
theorem count_insert (fields : Assoc Key Shared) (key : Key) (x : Shared) (n : Nat) :
    (fieldNumbers (fields.insert key x)).count n + (numbersAt fields key).count n =
      (fieldNumbers fields).count n + x.numbers.count n := by
  induction fields with
  | nil => simp [Assoc.insert, fieldNumbers, numbersAt, Assoc.get?]
  | cons field rest ih =>
    obtain ⟨k, y⟩ := field
    by_cases hk : k = key
    · simp only [Assoc.insert, numbersAt, Assoc.get?, hk, if_true, fieldNumbers, List.count_append,
        Option.map_some, Option.getD_some]
      omega
    · simp only [numbersAt] at ih
      simp only [Assoc.insert, numbersAt, Assoc.get?, hk, if_false, fieldNumbers, List.count_append]
      omega

mutual

/-- A layer adds its own objects at most. -/
theorem count_overlay (lower : Option Shared) (n : Nat) :
    (upper : Shared) → (overlay lower upper).numbers.count n ≤
      ((lower.map numbers).getD []).count n + upper.numbers.count n
  | scalar _ => Nat.le_add_left _ _
  | list _ => Nat.le_add_left _ _
  | object _ upper =>
    match lower with
    | some (object _ fields) => by
      have hinner := count_overlayFields fields n upper
      simp only [overlay, numbers, Option.map_some, Option.getD_some, List.count_cons]
      omega
    | none | some (list _) | some (scalar _) => Nat.le_add_left _ _

theorem count_overlayFields (lower : Assoc Key Shared) (n : Nat) :
    (upper : List (Key × Shared)) → (fieldNumbers (overlayFields lower upper)).count n ≤
      (fieldNumbers lower).count n + (fieldNumbers upper).count n
  | [] => Nat.le_add_right _ _
  | (key, upper) :: rest => by
    have hrest := count_overlayFields (lower.insert key (overlay (lower.get? key) upper)) n rest
    have hinsert := count_insert lower key (overlay (lower.get? key) upper) n
    have hupper := count_overlay (lower.get? key) n upper
    simp only [numbersAt] at hinsert
    rw [overlayFields, fieldNumbers, List.count_append]
    omega

end

mutual

theorem numbers_renumber (f : Nat → Nat) : (x : Shared) → (x.renumber f).numbers = x.numbers.map f
  | scalar _ => rfl
  | list items => itemNumbers_renumber f items
  | object number fields => congrArg (f number :: ·) (fieldNumbers_renumber f fields)

theorem itemNumbers_renumber (f : Nat → Nat) :
    (items : List Shared) → itemNumbers (renumberItems f items) = (itemNumbers items).map f
  | [] => rfl
  | item :: items => by
    rw [renumberItems, itemNumbers, numbers_renumber, itemNumbers_renumber, itemNumbers, List.map_append]

theorem fieldNumbers_renumber (f : Nat → Nat) :
    (fields : List (Key × Shared)) → fieldNumbers (renumberFields f fields) = (fieldNumbers fields).map f
  | [] => rfl
  | (_, x) :: fields => by
    rw [renumberFields, fieldNumbers, numbers_renumber, fieldNumbers_renumber, fieldNumbers, List.map_append]

end

mutual

/-- Only the object with the number is written to. -/
theorem setField_of_notMem (key : Key) (y : Shared) :
    (x : Shared) → target ∉ x.numbers → setField target key y x = x
  | scalar _, _ => rfl
  | list items, h => congrArg list (setFieldItems_of_notMem key y items h)
  | object number fields, h => by
    obtain ⟨hnumber, hfields⟩ := not_or.1 (mt List.mem_cons.2 h)
    rw [setField, setFieldFields_of_notMem key y fields hfields, if_neg (Ne.symm hnumber)]

theorem setFieldItems_of_notMem (key : Key) (y : Shared) :
    (items : List Shared) → target ∉ itemNumbers items → setFieldItems target key y items = items
  | [], _ => rfl
  | item :: items, h => by
    obtain ⟨hitem, hitems⟩ := not_or.1 (mt List.mem_append.2 h)
    rw [setFieldItems, setField_of_notMem key y item hitem, setFieldItems_of_notMem key y items hitems]

theorem setFieldFields_of_notMem (key : Key) (y : Shared) :
    (fields : List (Key × Shared)) → target ∉ fieldNumbers fields → setFieldFields target key y fields = fields
  | [], _ => rfl
  | (k, x) :: fields, h => by
    obtain ⟨hx, hfields⟩ := not_or.1 (mt List.mem_append.2 h)
    rw [setFieldFields, setField_of_notMem key y x hx, setFieldFields_of_notMem key y fields hfields]

end

theorem setFieldFields_append (target : Nat) (key : Key) (y : Shared) (a b : List (Key × Shared)) :
    setFieldFields target key y (a ++ b) = setFieldFields target key y a ++ setFieldFields target key y b := by
  induction a with
  | nil => rfl
  | cons field a ih =>
    obtain ⟨k, x⟩ := field
    rw [List.cons_append, setFieldFields, ih, setFieldFields, List.cons_append]

/-! ## New numbers -/

/-- How often a number occurs if those from `next` up to `last` occur once each. -/
def occursFresh (next last n : Nat) : Nat := if next ≤ n ∧ n < last then 1 else 0

theorem occursFresh_le_one (next last n : Nat) : occursFresh next last n ≤ 1 := by
  unfold occursFresh
  split <;> omega

theorem occursFresh_pos_iff {next last n : Nat} : 0 < occursFresh next last n ↔ next ≤ n ∧ n < last := by
  unfold occursFresh
  split <;> simp [*]

theorem occursFresh_add {a b c : Nat} (hab : a ≤ b) (hbc : b ≤ c) (n : Nat) :
    occursFresh a b n + occursFresh b c n = occursFresh a c n := by
  unfold occursFresh
  split <;> split <;> split <;> omega

theorem count_le_occursFresh_iff {next last : Nat} {numbers : List Nat} :
    (∀ n, numbers.count n ≤ occursFresh next last n) ↔
      numbers.Nodup ∧ ∀ n ∈ numbers, next ≤ n ∧ n < last := by
  constructor
  · intro h
    refine ⟨List.nodup_iff_count.2 fun n => Nat.le_trans (h n) (occursFresh_le_one ..), fun n hmem => ?_⟩
    exact occursFresh_pos_iff.1 (Nat.lt_of_lt_of_le (List.count_pos_iff.2 hmem) (h n))
  · rintro ⟨distinct, within⟩ n
    by_cases hmem : n ∈ numbers
    · rw [occursFresh, if_pos (within n hmem)]
      exact List.nodup_iff_count.1 distinct n
    · rw [List.count_eq_zero.2 hmem]
      exact Nat.zero_le _

/-- The numbers are different ones from `next` up to `last`. -/
def Fresh (next last : Nat) (numbers : List Nat) : Prop :=
  next ≤ last ∧ ∀ n, numbers.count n ≤ occursFresh next last n

theorem Fresh.nil (next : Nat) : Fresh next next [] :=
  ⟨Nat.le_refl next, fun n => by simp⟩

theorem Fresh.append {a b c : Nat} {first last : List Nat} (h : Fresh a b first) (h' : Fresh b c last) :
    Fresh a c (first ++ last) := by
  refine ⟨Nat.le_trans h.1 h'.1, fun n => ?_⟩
  rw [List.count_append, ← occursFresh_add h.1 h'.1]
  exact Nat.add_le_add (h.2 n) (h'.2 n)

theorem Fresh.cons {a b : Nat} {numbers : List Nat} (h : Fresh (a + 1) b numbers) : Fresh a b (a :: numbers) := by
  have hone : Fresh a (a + 1) [a] := ⟨Nat.le_succ a, count_le_occursFresh_iff.2 (by simp)⟩
  exact hone.append h

mutual

/-- The objects of a value that is new have new numbers. -/
theorem fresh_ofValue (next : Nat) : (v : Value) → Fresh next (ofValue next v).2 (ofValue next v).1.numbers
  | .null | .bool _ | .int _ | .float _ | .text _ | .moment _ => .nil next
  | .list items => fresh_ofItems next items
  | .object fields => (fresh_ofFields (next + 1) fields).cons

theorem fresh_ofItems (next : Nat) :
    (items : List Value) → Fresh next (ofItems next items).2 (itemNumbers (ofItems next items).1)
  | [] => .nil next
  | v :: rest => (fresh_ofValue next v).append (fresh_ofItems _ rest)

theorem fresh_ofFields (next : Nat) :
    (fields : List (Key × Value)) → Fresh next (ofFields next fields).2 (fieldNumbers (ofFields next fields).1)
  | [] => .nil next
  | (_, v) :: rest => (fresh_ofValue next v).append (fresh_ofFields _ rest)

end

end Shared

namespace Draft

open Shared Settings

variable {d after : Draft} {values : Fields}

/-- Every object stands at one place, and the numbers from `next` on are free. -/
structure Unshared (d : Draft) : Prop where
  nodup : d.numbers.Nodup
  lt_next : ∀ n ∈ d.numbers, n < d.next

theorem unshared_iff : d.Unshared ↔ ∀ n, d.numbers.count n ≤ occursFresh 0 d.next n := by
  rw [count_le_occursFresh_iff]
  constructor
  · rintro ⟨distinct, below⟩
    exact ⟨distinct, fun n hn => ⟨Nat.zero_le n, below n hn⟩⟩
  · rintro ⟨distinct, within⟩
    exact ⟨distinct, fun n hn => (within n hn).2⟩

/-- Settings of which every object is new share none. -/
theorem unshared_ofFields (fields : Fields) : (ofFields fields).Unshared := by
  refine unshared_iff.2 fun n => ?_
  exact (fresh_ofFields 1 fields).cons.2 n

/-- The draft `after` holds the values, and its objects are those of `d` or new ones. -/
structure Writes (d : Draft) (values : Fields) (after : Draft) : Prop where
  number : after.number = d.number
  values : after.values = values
  next_le : d.next ≤ after.next
  count_le : ∀ n, after.numbers.count n ≤ d.numbers.count n + occursFresh d.next after.next n

theorem Writes.unshared (h : d.Writes values after) (unshared : d.Unshared) : after.Unshared := by
  refine unshared_iff.2 fun n => ?_
  rw [← occursFresh_add (Nat.zero_le _) h.next_le]
  exact Nat.le_trans (h.count_le n) (Nat.add_le_add_right (unshared_iff.1 unshared n) _)

/-! ## Writing to the object itself -/

theorem set_self (unshared : d.Unshared) (key : Key) (x : Shared) :
    d.set d.number key x = { d with fields := d.fields.insert key x } := by
  have hnumber : d.number ∉ fieldNumbers d.fields := (List.nodup_cons.1 unshared.nodup).1
  rw [set, setFieldFields_of_notMem key x d.fields hnumber, if_pos rfl]

theorem setNew_eq (d : Draft) (target : Nat) (key : Key) (v : Value) :
    d.setNew target key v = { d.set target key (ofValue d.next v).1 with next := (ofValue d.next v).2 } :=
  rfl

theorem writes_setNew (unshared : d.Unshared) (key : Key) (v : Value) :
    d.Writes (d.values.insert key v) (d.setNew d.number key v) := by
  obtain ⟨hnext, hcount⟩ := fresh_ofValue d.next v
  rw [setNew_eq, set_self unshared]
  refine ⟨rfl, ?_, hnext, fun n => ?_⟩
  · rw [Draft.values, fieldValues_insert, value_ofValue]
    rfl
  · have hinsert := count_insert d.fields key (ofValue d.next v).1 n
    have hnew := hcount n
    simp only [numbers, List.count_cons]
    omega

/-! ## Writing inside an object -/

/-- A draft that holds `c` under a key, between other fields. -/
def around (c : Draft) (number : Nat) (before behind : List (Key × Shared)) (key : Key) : Draft :=
  ⟨number, before ++ (key, .object c.number c.fields) :: behind, c.next⟩

variable {c : Draft} {number target : Nat} {before behind : List (Key × Shared)} {fields : Assoc Key Shared}

/-- What is written to an object inside of `c` leaves alone what is around it. -/
theorem set_around (hnumber : number ≠ target) (hbefore : target ∉ fieldNumbers before)
    (hbehind : target ∉ fieldNumbers behind) (key k : Key) (x : Shared) :
    (c.around number before behind key).set target k x = (c.set target k x).around number before behind key := by
  simp only [set, around, setFieldFields_append, setFieldFields, setField, if_neg hnumber,
    setFieldFields_of_notMem k x before hbefore, setFieldFields_of_notMem k x behind hbehind]

/-- The numbers around a field. -/
def surrounding (number : Nat) (before behind : List (Key × Shared)) : List Nat :=
  number :: (fieldNumbers before ++ fieldNumbers behind)

/-- The numbers outside are in use, none of them is the target and none occurs in the fields. -/
def AroundOnly (outside : List Nat) (next target : Nat) (fields : List (Key × Shared)) : Prop :=
  ∀ n ∈ outside, n < next ∧ n ≠ target ∧ n ∉ fieldNumbers fields

theorem setNew_around (outside : AroundOnly (surrounding number before behind) c.next target fields)
    (key k : Key) (v : Value) :
    (c.around number before behind key).setNew target k v = (c.setNew target k v).around number before behind key := by
  have hnumber : number ≠ target := (outside number List.mem_cons_self).2.1
  have hbefore : target ∉ fieldNumbers before := fun hmem => (outside target (by simp [surrounding, hmem])).2.1 rfl
  have hbehind : target ∉ fieldNumbers behind := fun hmem => (outside target (by simp [surrounding, hmem])).2.1 rfl
  rw [setNew_eq, setNew_eq, set_around hnumber hbefore hbehind]
  rfl

theorem writeFrom_cons (d : Draft) (target : Nat) (fields : Assoc Key Shared) (key : Key) (hpath : path ≠ [])
    (v : Value) :
    d.writeFrom target fields (key :: path) v =
      match fields.get? key with
      | some (.object number inner) => d.writeFrom number inner path v
      | _ => (d.setNew target key (.object [])).writeFrom d.next [] path v := by
  cases path with
  | nil => exact absurd rfl hpath
  | cons next path => rfl

theorem writeFrom_around (outside : AroundOnly (surrounding number before behind) c.next target fields)
    (key : Key) (path : List Key) (v : Value) :
    (c.around number before behind key).writeFrom target fields path v =
      (c.writeFrom target fields path v).around number before behind key := by
  induction path generalizing c target fields with
  | nil => rfl
  | cons k path ih =>
    by_cases hpath : path = []
    · subst hpath
      exact setNew_around outside key k v
    · rw [writeFrom_cons _ _ _ _ hpath, writeFrom_cons _ _ _ _ hpath]
      split
      · rename_i inner fields' hget
        refine ih fun n hn => ?_
        obtain ⟨hnext, -, hfields⟩ := outside n hn
        have hobject : n ∉ (Shared.object inner fields').numbers := mt (fun h => numbers_subset_of_get? hget h) hfields
        obtain ⟨hinner, hfields'⟩ := not_or.1 (mt List.mem_cons.2 hobject)
        exact ⟨hnext, hinner, hfields'⟩
      · rw [setNew_around outside]
        refine ih fun n hn => ?_
        have hnext := (outside n hn).1
        exact ⟨Nat.lt_succ_of_lt hnext, Nat.ne_of_lt hnext, by simp [fieldNumbers]⟩

/-! ## Writing at a path -/

theorem count_around (c : Draft) (number : Nat) (before behind : List (Key × Shared)) (key : Key) (n : Nat) :
    (c.around number before behind key).numbers.count n =
      c.numbers.count n + (surrounding number before behind).count n := by
  simp only [numbers, around, surrounding, fieldNumbers_append, fieldNumbers, Shared.numbers, List.count_cons,
    List.count_append]
  omega

theorem values_around (c : Draft) (number : Nat) (before behind : List (Key × Shared)) (key : Key) :
    (c.around number before behind key).values =
      fieldValues before ++ (key, .object c.values) :: fieldValues behind := by
  simp only [Draft.values, around, fieldValues_eq_map, List.map_append, List.map_cons, value]

theorem Writes.around (h : c.Writes values after) (hnew : key ∉ Assoc.keys before) :
    (c.around number before behind key).Writes
      ((c.around number before behind key).values.insert key (.object values))
      (after.around number before behind key) := by
  have hkeys : key ∉ Assoc.keys (fieldValues before) := by
    simpa [Assoc.keys, fieldValues_eq_map] using hnew
  refine ⟨rfl, ?_, h.next_le, fun n => ?_⟩
  · rw [values_around, values_around, Assoc.insert_append_cons hkeys, h.values]
  · have hcount := h.count_le n
    rw [count_around, count_around]
    simp only [Draft.around]
    omega

theorem Writes.trans {d' : Draft} {values' : Fields} (h : d.Writes values d') (h' : d'.Writes values' after) :
    d.Writes values' after := by
  refine ⟨h'.number.trans h.number, h'.values, Nat.le_trans h.next_le h'.next_le, fun n => ?_⟩
  have hfirst := h.count_le n
  have hlast := h'.count_le n
  rw [← occursFresh_add h.next_le h'.next_le]
  omega

theorem Unshared.inside (unshared : (c.around number before behind key).Unshared) :
    c.Unshared ∧ AroundOnly (surrounding number before behind) c.next c.number c.fields := by
  have hcount (n : Nat) : c.numbers.count n + (surrounding number before behind).count n ≤
      occursFresh 0 c.next n :=
    (count_around c number before behind key n).symm ▸ unshared_iff.1 unshared n
  refine ⟨unshared_iff.2 fun n => Nat.le_trans (Nat.le_add_right _ _) (hcount n), fun n hn => ?_⟩
  have hpos := List.count_pos_iff.2 hn
  have hle := hcount n
  have hone := occursFresh_le_one 0 c.next n
  have hfree : n ∉ c.numbers := List.count_eq_zero.1 (by omega)
  have hnext : n < c.next := (occursFresh_pos_iff.1 (by omega : 0 < occursFresh 0 c.next n)).2
  obtain ⟨hnumber, hfields⟩ := not_or.1 (mt List.mem_cons.2 hfree)
  exact ⟨hnext, hnumber, hfields⟩

/-- Writing goes on in the object under the first key. -/
theorem writes_writeAt_around (unshared : (c.around number before behind key).Unshared)
    (hnew : key ∉ Assoc.keys before) (hpath : path ≠ [])
    (ih : c.Unshared → c.Writes (Settings.writeAt c.values path v) (c.writeAt path v)) :
    (c.around number before behind key).Writes
      (Settings.writeAt (c.around number before behind key).values (key :: path) v)
      ((c.around number before behind key).writeAt (key :: path) v) := by
  obtain ⟨inside, outside⟩ := unshared.inside
  have hget : (c.around number before behind key).fields.get? key = some (.object c.number c.fields) :=
    Assoc.get?_eq_some_iff.2 ⟨before, behind, rfl, hnew⟩
  have hwritten : (c.around number before behind key).writeAt (key :: path) v =
      (c.writeAt path v).around number before behind key := by
    rw [Draft.writeAt, writeFrom_cons _ _ _ _ hpath, hget]
    exact writeFrom_around outside key path v
  have hinner : innerFields (c.around number before behind key).values key = c.values := by
    rw [innerFields, Draft.values, get?_fieldValues, hget]
    rfl
  rw [hwritten, writeAt_cons _ _ hpath, hinner]
  exact (ih inside).around hnew

theorem get?_setNew_object (unshared : d.Unshared) (key : Key) :
    (d.setNew d.number key (.object [])).fields.get? key = some (.object d.next []) := by
  rw [setNew_eq, set_self unshared, Assoc.get?_insert, if_pos rfl]
  rfl

/-- No object stands under the key. -/
def LacksObject (fields : Assoc Key Shared) (key : Key) : Prop :=
  ∀ number inner, fields.get? key ≠ some (.object number inner)

theorem innerFields_of_lacksObject (h : LacksObject d.fields key) : innerFields d.values key = [] := by
  rw [innerFields, Draft.values, get?_fieldValues]
  cases hget : d.fields.get? key with
  | none => rfl
  | some x =>
    cases x with
    | scalar y => cases y <;> rfl
    | list items => rfl
    | object number inner => exact absurd hget (h number inner)

/-- Where no object stands under the first key, writing begins with a new one. -/
theorem writeAt_of_lacksObject (unshared : d.Unshared) (h : LacksObject d.fields key) (hpath : path ≠ [])
    (v : Value) : d.writeAt (key :: path) v = (d.setNew d.number key (.object [])).writeAt (key :: path) v := by
  rw [writeAt, writeAt, writeFrom_cons _ _ _ _ hpath, writeFrom_cons _ _ _ _ hpath, get?_setNew_object unshared]
  split
  · rename_i hget
    exact absurd hget (h _ _)
  · rfl

/-- Where no object is shared, writing at a path writes to the values. -/
theorem writes_writeAt (unshared : d.Unshared) (path : List Key) (v : Value) :
    d.Writes (Settings.writeAt d.values path v) (d.writeAt path v) := by
  induction path generalizing d with
  | nil => exact ⟨rfl, rfl, Nat.le_refl _, fun n => Nat.le_add_right _ _⟩
  | cons key path ih =>
    by_cases hpath : path = []
    · subst hpath
      exact writes_setNew unshared key v
    · have object {d : Draft} {number : Nat} {inner : Assoc Key Shared} (unshared : d.Unshared)
          (hget : d.fields.get? key = some (.object number inner)) :
          d.Writes (Settings.writeAt d.values (key :: path) v) (d.writeAt (key :: path) v) := by
        obtain ⟨own, fields, next⟩ := d
        obtain ⟨before, behind, rfl, hnew⟩ := Assoc.get?_eq_some_iff.1 hget
        exact writes_writeAt_around (c := ⟨number, inner, next⟩) unshared hnew hpath ih
      by_cases hobject : ∃ number inner, d.fields.get? key = some (.object number inner)
      · obtain ⟨number, inner, hget⟩ := hobject
        exact object unshared hget
      · have lacks : LacksObject d.fields key := fun number inner hget => hobject ⟨number, inner, hget⟩
        have begun := writes_setNew unshared key (.object [])
        have written : (d.setNew d.number key (.object [])).Writes _ _ :=
          object (begun.unshared unshared) (get?_setNew_object unshared key)
        rw [begun.values, writeAt_insert_object (innerFields_of_lacksObject lacks) hpath] at written
        rw [writeAt_of_lacksObject unshared lacks hpath]
        exact begun.trans written

/-! ## Layers -/

/-- The objects of a layer as they get their place in a draft. -/
def laid (d : Draft) (upper : List (Key × Shared)) : List Nat :=
  fieldNumbers (renumberFields (d.next + ·) upper)

theorem next_lay (d : Draft) (upper : List (Key × Shared)) :
    d.next ≤ (d.lay upper).next ∧ ∀ n ∈ d.laid upper, n < (d.lay upper).next := by
  simp only [lay, laid]
  induction fieldNumbers (renumberFields (d.next + ·) upper) with
  | nil => simp
  | cons first rest ih =>
    obtain ⟨hnext, hrest⟩ := ih
    rw [List.foldr_cons]
    refine ⟨by omega, fun n hn => ?_⟩
    rcases List.mem_cons.1 hn with rfl | hmem
    · omega
    · have := hrest n hmem
      omega

theorem fresh_laid {upper : List (Key × Shared)} (h : (fieldNumbers upper).Nodup) :
    Fresh d.next (d.lay upper).next (d.laid upper) := by
  obtain ⟨hnext, hbelow⟩ := next_lay d upper
  refine ⟨hnext, count_le_occursFresh_iff.2 ⟨?_, fun n hn => ⟨?_, hbelow n hn⟩⟩⟩
  · rw [laid, fieldNumbers_renumber]
    exact h.map fun _ _ => Nat.add_left_cancel
  · rw [laid, fieldNumbers_renumber] at hn
    obtain ⟨m, -, rfl⟩ := List.mem_map.1 hn
    exact Nat.le_add_right _ _

/-- A layer in which no object is shared brings no sharing about. -/
theorem Unshared.lay (unshared : d.Unshared) {upper : List (Key × Shared)} (h : (fieldNumbers upper).Nodup) :
    (d.lay upper).Unshared := by
  obtain ⟨hnext, hnew⟩ := fresh_laid (d := d) h
  refine unshared_iff.2 fun n => ?_
  have hold := unshared_iff.1 unshared n
  have hadded := hnew n
  have hlay : (d.lay upper).numbers.count n ≤ d.numbers.count n + (d.laid upper).count n := by
    have hfields := count_overlayFields d.fields n (renumberFields (d.next + ·) upper)
    simp only [numbers, Draft.lay, laid, List.count_cons]
    omega
  rw [← occursFresh_add (Nat.zero_le _) hnext]
  omega

end Draft

end ComponentTags
