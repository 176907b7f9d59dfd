import ComponentTags.Value.Overlay

/-!
# What shows through a layer

One object is laid over another field by field, and so are the objects in them. At a path of keys the upper
object comes first: what it has there stands, and where it has nothing, the lower object shows through, unless
the upper one has something on the way that is no object. Laying the same object over the result once more
changes nothing, and neither does laying an object over itself.
-/

namespace ComponentTags

namespace Value

variable {lower : Option Value} {upper u v w inner : Value} {fields a b : Fields} {key : Key} {path : List Key}

/-! ## Objects whose keys are distinct -/

mutual

/-- Whether no object has a key twice, neither the value nor an object in its fields. -/
def hasDistinctKeys : Value → Bool
  | object fields => decide (Assoc.keys fields).Nodup && haveDistinctKeys fields
  | null | bool _ | int _ | float _ | text _ | moment _ | list _ => true

def haveDistinctKeys : List (Key × Value) → Bool
  | [] => true
  | (_, v) :: rest => v.hasDistinctKeys && haveDistinctKeys rest

end

theorem haveDistinctKeys_iff : haveDistinctKeys fields = true ↔ ∀ entry ∈ fields, entry.2.hasDistinctKeys = true := by
  induction fields with
  | nil => simp [haveDistinctKeys]
  | cons entry rest ih => simp [haveDistinctKeys, ih]

theorem hasDistinctKeys_object :
    (object fields).hasDistinctKeys = true ↔
      (Assoc.keys fields).Nodup ∧ ∀ entry ∈ fields, entry.2.hasDistinctKeys = true := by
  rw [hasDistinctKeys, Bool.and_eq_true, decide_eq_true_eq, haveDistinctKeys_iff]

theorem nodup_keys_fields (h : v.hasDistinctKeys = true) : (Assoc.keys v.fields).Nodup := by
  cases v with
  | object fields => exact (hasDistinctKeys_object.1 h).1
  | null | bool | int | float | text | moment | list => exact List.nodup_nil

theorem hasDistinctKeys_of_get? (h : v.hasDistinctKeys = true) (hget : v.get? key = some inner) :
    inner.hasDistinctKeys = true := by
  cases v with
  | object fields => exact (hasDistinctKeys_object.1 h).2 _ (Assoc.mem_of_get? hget)
  | null | bool | int | float | text | moment | list => cases hget

/-! ## One field -/

theorem eq_object_of_isObject (h : v.isObject = true) : v = object v.fields := by
  cases v with
  | object fields => rfl
  | null | bool | int | float | text | moment | list => cases h

theorem get?_of_not_object (h : v.isObject = false) (key : Key) : v.get? key = none := by
  cases v with
  | object fields => cases h
  | null | bool | int | float | text | moment | list => rfl

/-- What is no object replaces what lies below. -/
theorem overlay_of_not_object (lower : Option Value) (h : upper.isObject = false) :
    overlay lower upper = upper := by
  cases upper with
  | object fields => cases h
  | null | bool | int | float | text | moment | list => rfl

/-- A value is kept if no object lies below. -/
theorem overlay_of_below (h : ∀ v ∈ lower, v.isObject = false) (upper : Value) : overlay lower upper = upper := by
  cases upper with
  | object fields =>
    unfold overlay
    split
    · exact absurd (h _ rfl) (by simp [isObject])
    · rfl
  | null | bool | int | float | text | moment | list => rfl

@[simp]
theorem overlay_none (upper : Value) : overlay none upper = upper :=
  overlay_of_below (by simp) upper

@[simp]
theorem isObject_overlay (lower : Option Value) (upper : Value) :
    (overlay lower upper).isObject = upper.isObject := by
  cases upper with
  | object fields =>
    unfold overlay
    split <;> rfl
  | null | bool | int | float | text | moment | list => rfl

theorem overlay_eq_iff (lower : Option Value) (h : v.isObject = false) : overlay lower upper = v ↔ upper = v := by
  cases hupper : upper.isObject with
  | true =>
    have hne {w : Value} (hw : w.isObject = true) : w ≠ v := by
      rintro rfl
      rw [hw] at h
      cases h
    exact iff_of_false (hne (by rw [isObject_overlay, hupper])) (hne hupper)
  | false => rw [overlay_of_not_object lower hupper]

theorem get?_overlayFields (lower : Fields) {upper : Fields} (distinct : (Assoc.keys upper).Nodup) (key : Key) :
    Assoc.get? (overlayFields lower upper) key =
      match Assoc.get? upper key with
      | some u => some (overlay (Assoc.get? lower key) u)
      | none => Assoc.get? lower key := by
  induction upper generalizing lower with
  | nil => rfl
  | cons entry rest ih =>
    obtain ⟨k, u⟩ := entry
    obtain ⟨hnew, hrest⟩ := List.nodup_cons.1 distinct
    rw [overlayFields, ih _ hrest, Assoc.get?]
    by_cases hk : k = key
    · subst hk
      have habsent : Assoc.get? rest k = none := Assoc.get?_eq_none hnew
      rw [habsent, if_pos rfl, Assoc.get?_insert, if_pos rfl]
    · rw [if_neg hk, Assoc.get?_insert, if_neg hk]

/-- A field of one value laid over another: that of the upper value, laid over that of the lower one. Where the
upper value is an object without the field, the lower one's shows. -/
theorem get?_overlay (lower : Option Value) (distinct : (Assoc.keys upper.fields).Nodup) (key : Key) :
    (overlay lower upper).get? key =
      match upper.get? key with
      | some u => some (overlay (lower.bind (·.get? key)) u)
      | none => if upper.isObject then lower.bind (·.get? key) else none := by
  cases hupper : upper.isObject with
  | false => rw [overlay_of_not_object lower hupper, get?_of_not_object hupper]; rfl
  | true =>
    by_cases hlower : ∃ v ∈ lower, v.isObject = true
    · obtain ⟨v, rfl, hv⟩ := hlower
      rw [eq_object_of_isObject hv, eq_object_of_isObject hupper]
      exact get?_overlayFields v.fields distinct key
    · have hbelow : ∀ v ∈ lower, v.isObject = false := fun v hv =>
        Bool.eq_false_iff.2 fun hobject => hlower ⟨v, hv, hobject⟩
      have hnone : lower.bind (·.get? key) = none :=
        Option.bind_eq_none_iff.2 fun v hv => get?_of_not_object (hbelow v hv) key
      rw [overlay_of_below hbelow, hnone]
      cases upper.get? key with
      | none => rfl
      | some u => simp only [overlay_none]

/-! ## Paths -/

/-- The lower layer shows through at a path: the upper one has nothing there, and on the way it has objects
only. -/
def ShowsThrough (upper : Value) (path : List Key) : Prop :=
  upper.atPath? path = none ∧
    ∀ front, front <+: path → front ≠ path → ∀ v, upper.atPath? front = some v → v.isObject = true

theorem not_showsThrough_of_not_object (h : upper.isObject = false) : ¬ ShowsThrough upper path := by
  rintro ⟨hnone, hway⟩
  cases path with
  | nil => cases hnone
  | cons key path =>
    have hroot := hway [] List.nil_prefix (List.cons_ne_nil key path).symm upper rfl
    rw [h] at hroot
    cases hroot

theorem showsThrough_cons (h : upper.isObject = true) :
    ShowsThrough upper (key :: path) ↔ ∀ inner, upper.get? key = some inner → ShowsThrough inner path := by
  constructor
  · rintro ⟨hnone, hway⟩ inner hget
    rw [atPath?_cons, hget] at hnone
    refine ⟨hnone, fun front hfront hne v hv => ?_⟩
    refine hway (key :: front) (List.cons_prefix_cons.2 ⟨rfl, hfront⟩) ?_ v ?_
    · exact fun heq => hne (List.cons.inj heq).2
    · rw [atPath?_cons, hget]
      exact hv
  · intro hinner
    refine ⟨?_, fun front hfront hne v hv => ?_⟩
    · rw [atPath?_cons]
      exact Option.bind_eq_none_iff.2 fun inner hget => (hinner inner hget).1
    · cases front with
      | nil =>
        cases hv
        exact h
      | cons key' front =>
        obtain ⟨rfl, hinside⟩ := List.cons_prefix_cons.1 hfront
        rw [atPath?_cons] at hv
        obtain ⟨inner, hget, hv⟩ := Option.bind_eq_some_iff.1 hv
        exact (hinner inner hget).2 front hinside (fun heq => hne (congrArg _ heq)) v hv

/-- What is found below at a path. -/
theorem bind_atPath?_cons (lower : Option Value) (key : Key) (path : List Key) :
    lower.bind (·.atPath? (key :: path)) = (lower.bind (·.get? key)).bind (·.atPath? path) := by
  cases lower with
  | none => rfl
  | some v => exact atPath?_cons v key path

/-- A value of the upper layer is laid over what stands below at its path. -/
theorem atPath?_overlay_of_some (lower : Option Value) (distinct : upper.hasDistinctKeys = true)
    (h : upper.atPath? path = some u) :
    (overlay lower upper).atPath? path = some (overlay (lower.bind (·.atPath? path)) u) := by
  induction path generalizing lower upper with
  | nil =>
    cases h
    cases lower <;> rfl
  | cons key path ih =>
    rw [atPath?_cons] at h
    obtain ⟨inner, hget, hinner⟩ := Option.bind_eq_some_iff.1 h
    rw [atPath?_cons, get?_overlay lower (nodup_keys_fields distinct), hget, bind_atPath?_cons]
    exact ih _ (hasDistinctKeys_of_get? distinct hget) hinner

/-- Where the upper layer has nothing, the lower one shows through or nothing is there. -/
theorem atPath?_overlay_of_none (lower : Option Value) (distinct : upper.hasDistinctKeys = true)
    (h : upper.atPath? path = none) :
    (overlay lower upper).atPath? path = some v ↔
      lower.bind (·.atPath? path) = some v ∧ ShowsThrough upper path := by
  induction path generalizing lower upper with
  | nil => cases h
  | cons key path ih =>
    rw [atPath?_cons] at h
    rw [atPath?_cons, get?_overlay lower (nodup_keys_fields distinct), bind_atPath?_cons]
    cases hupper : upper.isObject with
    | false =>
      rw [get?_of_not_object hupper]
      exact iff_of_false (fun heq => nomatch heq) fun hand => not_showsThrough_of_not_object hupper hand.2
    | true =>
      rw [showsThrough_cons hupper]
      cases hget : upper.get? key with
      | none => simp
      | some inner =>
        rw [hget, Option.bind_some] at h
        simpa using ih _ (hasDistinctKeys_of_get? distinct hget) h

/-- What stands at a path: the value of the upper layer, laid over what is below, or a value of the lower layer that
shows through. -/
theorem atPath?_overlay_iff (lower : Option Value) (distinct : upper.hasDistinctKeys = true) :
    (overlay lower upper).atPath? path = some v ↔
      (∃ u, upper.atPath? path = some u ∧ overlay (lower.bind (·.atPath? path)) u = v) ∨
        lower.bind (·.atPath? path) = some v ∧ ShowsThrough upper path := by
  cases hupper : upper.atPath? path with
  | none => simpa using atPath?_overlay_of_none lower distinct hupper
  | some u =>
    have hidden : ¬ ShowsThrough upper path := fun h => nomatch hupper.symm.trans h.1
    simp [atPath?_overlay_of_some lower distinct hupper, hidden]

/-! ## Laying the same once more -/

/-- Nothing changes where each field is there and stays what it is. -/
theorem overlayFields_eq_self {lower upper : Fields}
    (h : ∀ entry ∈ upper, ∃ v, Assoc.get? lower entry.1 = some v ∧ overlay (some v) entry.2 = v) :
    overlayFields lower upper = lower := by
  induction upper with
  | nil => rfl
  | cons entry rest ih =>
    obtain ⟨key, u⟩ := entry
    obtain ⟨⟨v, hget, hkept⟩, hrest⟩ := List.forall_mem_cons.1 h
    rw [overlayFields, hget, hkept, Assoc.insert_eq_self hget, ih hrest]

/-- What holds of all values that are no objects, and of each object whose fields it holds of, holds of every
value. -/
theorem object_induction {p : Value → Prop} (plain : ∀ v, v.isObject = false → p v)
    (nested : ∀ fields, (∀ entry ∈ fields, p entry.2) → p (object fields)) (v : Value) : p v :=
  match v with
  | object fields => nested fields fun entry _ => object_induction plain nested entry.2
  | null | bool _ | int _ | float _ | text _ | moment _ | list _ => plain _ rfl
termination_by sizeOf v
decreasing_by
  rename_i hentry
  have hlist := List.sizeOf_lt_of_mem hentry
  have hpair : sizeOf entry = 1 + sizeOf entry.1 + sizeOf entry.2 := rfl
  simp only [object.sizeOf_spec]
  omega

/-- A value that was laid over another one is laid over the result without effect. -/
theorem overlay_overlay (lower : Option Value) (distinct : upper.hasDistinctKeys = true) :
    overlay (some (overlay lower upper)) upper = overlay lower upper := by
  induction upper using object_induction generalizing lower with
  | plain v hv => rw [overlay_of_not_object lower hv, overlay_of_not_object _ hv]
  | nested fields ih =>
    obtain ⟨hkeys, hfields⟩ := hasDistinctKeys_object.1 distinct
    have hmerged := eq_object_of_isObject (isObject_overlay lower (object fields))
    have absorbed : overlayFields (overlay lower (object fields)).fields fields =
        (overlay lower (object fields)).fields := by
      refine overlayFields_eq_self fun entry hentry => ?_
      have hget : (object fields).get? entry.1 = some entry.2 := Assoc.get?_of_mem hkeys hentry
      have hupper : (Assoc.keys (object fields).fields).Nodup := hkeys
      have hfield := get?_overlay lower hupper entry.1
      rw [hget] at hfield
      exact ⟨_, hfield, ih entry hentry _ (hfields entry hentry)⟩
    rw [hmerged]
    exact congrArg object absorbed

/-! ## The layers of two objects -/

/-- At a path of two layers stands a value that is no object exactly if the upper layer has it there, or the lower
one has it and shows through; and an object exactly if the upper layer has one there, or the lower one has one and
shows through. A layer changes nothing if it is laid over the result again, or over itself. -/
theorem atPath?_overlayFields {lower upper : Fields} (distinct : (object lower).hasDistinctKeys = true)
    (distinct' : (object upper).hasDistinctKeys = true) :
    (∀ path v, v.isObject = false →
      ((object (overlayFields lower upper)).atPath? path = some v ↔
        (object upper).atPath? path = some v ∨
          (object lower).atPath? path = some v ∧ ShowsThrough (object upper) path)) ∧
    (∀ path,
      (∃ v, (object (overlayFields lower upper)).atPath? path = some v ∧ v.isObject = true) ↔
        (∃ v, (object upper).atPath? path = some v ∧ v.isObject = true) ∨
          (∃ v, (object lower).atPath? path = some v ∧ v.isObject = true) ∧ ShowsThrough (object upper) path) ∧
    overlayFields (overlayFields lower upper) upper = overlayFields lower upper ∧
    overlayFields lower lower = lower := by
  have found {path : List Key} {v : Value} :
      (object (overlayFields lower upper)).atPath? path = some v ↔
        (∃ u, (object upper).atPath? path = some u ∧ overlay ((object lower).atPath? path) u = v) ∨
          (object lower).atPath? path = some v ∧ ShowsThrough (object upper) path :=
    atPath?_overlay_iff (some (object lower)) distinct'
  refine ⟨fun path v hv => ?_, fun path => ⟨?_, ?_⟩, ?_, ?_⟩
  · simp [found, overlay_eq_iff _ hv]
  · rintro ⟨v, hpath, hv⟩
    rcases found.1 hpath with ⟨u, hu, rfl⟩ | ⟨hlower, hshows⟩
    · exact .inl ⟨u, hu, by rwa [isObject_overlay] at hv⟩
    · exact .inr ⟨⟨v, hlower, hv⟩, hshows⟩
  · rintro (⟨u, hu, hobject⟩ | ⟨⟨v, hlower, hv⟩, hshows⟩)
    · exact ⟨_, found.2 (.inl ⟨u, hu, rfl⟩), by rwa [isObject_overlay]⟩
    · exact ⟨v, found.2 (.inr ⟨hlower, hshows⟩), hv⟩
  · exact object.inj (overlay_overlay (some (object lower)) distinct')
  · exact object.inj (overlay_overlay none distinct)

/-- Settings of a project over other settings: a field of an inner object shows through, the list does not, and
neither does anything behind a text. -/
theorem atPath?_overlayFields_of_settings :
    let lower : Fields :=
      [("context", object [("enabled", bool true), ("view", "main")]), ("syntax", object [("stack", "s")]),
        ("components", list [])]
    let upper : Fields := [("context", object [("view", "page")]), ("syntax", "none")]
    let merged := object (overlayFields lower upper)
    (object lower).hasDistinctKeys = true ∧ (object upper).hasDistinctKeys = true ∧
      merged.atPath? ["context", "enabled"] = some (bool true) ∧
      merged.atPath? ["context", "view"] = some (text "page") ∧ merged.atPath? ["components"] = some (list []) ∧
      merged.atPath? ["syntax", "stack"] ≠ some (text "s") ∧
      (∃ v, merged.atPath? ["context"] = some v ∧ v.isObject = true) ∧
      overlayFields (overlayFields lower upper) upper = overlayFields lower upper ∧
      overlayFields lower lower = lower := by
  intro lower upper merged
  have distinct : (object lower).hasDistinctKeys = true := by decide +kernel
  have distinct' : (object upper).hasDistinctKeys = true := by decide +kernel
  obtain ⟨plain, nested, again, self⟩ := atPath?_overlayFields distinct distinct'
  have shows (key : Key) (path : List Key)
      (h : ∀ inner, (object upper).get? key = some inner → ShowsThrough inner path) :
      ShowsThrough (object upper) (key :: path) := (showsThrough_cons rfl).2 h
  refine ⟨distinct, distinct', ?_, ?_, ?_, ?_, ?_, again, self⟩
  · refine (plain _ _ rfl).2 (.inr ⟨rfl, shows _ _ fun inner hinner => ?_⟩)
    cases hinner
    exact (showsThrough_cons rfl).2 fun inner hinner => nomatch hinner
  · exact (plain _ _ rfl).2 (.inl rfl)
  · exact (plain _ _ rfl).2 (.inr ⟨rfl, shows _ _ fun inner hinner => nomatch hinner⟩)
  · intro hstack
    rcases (plain _ _ rfl).1 hstack with hupper | ⟨-, hshows⟩
    · cases hupper
    · have inner : ShowsThrough (text "none") ["stack"] := (showsThrough_cons rfl).1 hshows _ rfl
      exact not_showsThrough_of_not_object rfl inner
  · exact (nested _).2 (.inl ⟨_, rfl, rfl⟩)

end Value

end ComponentTags
