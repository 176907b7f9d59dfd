import ComponentTags.Proofs.GarbledSettings
import ComponentTags.Proofs.TextPieces
import ComponentTags.Proofs.UnsharedDraft

/-!
# Overrides from the environment

Variables write their values one after another into the same draft. Where it shares no object, writing at a path
changes what stands at that path, on the way to it and behind it, and nothing else. So a value stays unless a later
variable writes at a path that begins with its own, or that its own begins with. The latter cannot be: the name of
the shorter path is the beginning of the longer one's name, so it comes first in the order of names. An object that
stands at two places is written to at both.
-/

namespace ComponentTags

namespace Settings

variable {fields : Fields} {path other : List Key} {v : Value} {rest : List Char}

/-! ## Writing at a path -/

/-- Only an object has something at a longer path. -/
theorem atPath?_fields (v : Value) (hpath : path ≠ []) :
    (Value.object v.fields).atPath? path = v.atPath? path := by
  cases path with
  | nil => exact absurd rfl hpath
  | cons key path => rfl

theorem atPath?_innerFields (fields : Fields) (key : Key) (hpath : path ≠ []) :
    (Value.object (innerFields fields key)).atPath? path = (Value.object fields).atPath? (key :: path) := by
  have hstep : (Value.object fields).atPath? (key :: path) = (Assoc.get? fields key).bind (·.atPath? path) :=
    Value.atPath?_cons _ _ _
  rw [hstep, innerFields]
  cases Assoc.get? fields key with
  | none =>
    cases path with
    | nil => exact absurd rfl hpath
    | cons next path => rfl
  | some inner => exact atPath?_fields inner hpath

/-- What was written at a path stands there. -/
theorem atPath?_writeAt_self (fields : Fields) (hpath : path ≠ []) (v : Value) :
    (Value.object (writeAt fields path v)).atPath? path = some v := by
  induction path generalizing fields with
  | nil => exact absurd rfl hpath
  | cons key path ih =>
    rw [Value.atPath?_cons]
    by_cases hnil : path = []
    · subst hnil
      simp [writeAt, Value.get?, Value.fields]
    · rw [writeAt_cons fields key hnil]
      simpa [Value.get?, Value.fields] using ih _ hnil

/-- Neither of two paths begins with the other one. -/
def Apart (path other : List Key) : Prop := ¬ path <+: other ∧ ¬ other <+: path

instance (path other : List Key) : Decidable (Apart path other) :=
  inferInstanceAs (Decidable (¬ path <+: other ∧ ¬ other <+: path))

theorem Apart.symm (h : Apart path other) : Apart other path := ⟨h.2, h.1⟩

/-- What stands elsewhere stays. -/
theorem atPath?_writeAt_of_apart (fields : Fields) (h : Apart path other) (v : Value) :
    (Value.object (writeAt fields path v)).atPath? other = (Value.object fields).atPath? other := by
  induction path generalizing fields other with
  | nil => exact absurd List.nil_prefix h.1
  | cons key path ih =>
    cases other with
    | nil => exact absurd List.nil_prefix h.2
    | cons key' other =>
      by_cases hkey : key = key'
      · subst hkey
        have inner : Apart path other :=
          ⟨fun hpre => h.1 (List.cons_prefix_cons.2 ⟨rfl, hpre⟩),
            fun hpre => h.2 (List.cons_prefix_cons.2 ⟨rfl, hpre⟩)⟩
        have hpath : path ≠ [] := fun hnil => inner.1 (hnil ▸ List.nil_prefix)
        have hother : other ≠ [] := fun hnil => inner.2 (hnil ▸ List.nil_prefix)
        have hinner := ih (innerFields fields key) inner
        rw [atPath?_innerFields fields key hother] at hinner
        rw [writeAt_cons fields key hpath, Value.atPath?_cons, Value.get?, Value.fields, Assoc.get?_insert,
          if_pos rfl]
        exact hinner
      · have hget : Assoc.get? (writeAt fields (key :: path) v) key' = Assoc.get? fields key' := by
          by_cases hnil : path = []
          · subst hnil
            simp [writeAt, hkey]
          · simp [writeAt_cons fields key hnil, hkey]
        rw [Value.atPath?_cons, Value.atPath?_cons, Value.get?, Value.get?, Value.fields, Value.fields, hget]

/-! ## The name of a path -/

/-- The characters of a name behind the mark: capital letters, digits and underscores. -/
def isOverrideChar (c : Char) : Bool := c.isUpper || c.isDigit || c == '_'

/-- The name that overrides a path: its keys in capital letters, with double underscores in between. -/
def overrideName (path : List Key) : List Char :=
  ['_', '_'].intercalate (path.map fun key => key.plain.toList.map Char.toUpper)

theorem lt_of_isOverrideChar {c : Char} (h : isOverrideChar c = true) : c.toNat < 128 := by
  simp only [isOverrideChar, Bool.or_eq_true, beq_iff_eq] at h
  rcases h with (hupper | hdigit) | rfl
  · have hle : c.toNat ≤ 90 := by
      unfold Char.isUpper at hupper
      exact (of_decide_eq_true hupper).2
    omega
  · have hle : c.toNat ≤ 57 := (Char.isDigit_iff_toNat.1 hdigit).2
    omega
  · decide

theorem toUpper_toLower {c : Char} (h : isOverrideChar c = true) : c.toLower.toUpper = c := by
  have all : ∀ n : Fin 128, isOverrideChar (Char.ofNat n) = true →
      (Char.ofNat n).toLower.toUpper = Char.ofNat n := by decide
  have hc := all ⟨c.toNat, lt_of_isOverrideChar h⟩
  rw [Char.ofNat_toNat] at hc
  exact hc h

theorem overridePath?_eq_some (h : overridePath? rest = some path) :
    path = (Text.splitOn ['_', '_'] rest).map fun part => .text (String.ofList (Text.lower part)) := by
  simp only [overridePath?] at h
  split at h
  · cases h
  · exact (Option.some.inj h).symm

theorem overridePath?_ne_nil (h : overridePath? rest = some path) : path ≠ [] := by
  rw [overridePath?_eq_some h, ne_eq, List.map_eq_nil_iff]
  exact Text.splitOn_ne_nil _ _

/-- The name of the path that a name overrides is that name. -/
theorem overrideName_of_overridePath? (plain : ∀ c ∈ rest, isOverrideChar c = true)
    (h : overridePath? rest = some path) : overrideName path = rest := by
  have raised : ∀ part ∈ Text.splitOn ['_', '_'] rest,
      (Text.lower part).map Char.toUpper = part := by
    intro part hpart
    have hplain : ∀ c ∈ part, isOverrideChar c = true := by
      intro c hc
      have hmem : c ∈ ['_', '_'].intercalate (Text.splitOn ['_', '_'] rest) := Text.subset_intercalate hpart hc
      rw [Text.intercalate_splitOn] at hmem
      exact plain c hmem
    rw [Text.lower_eq_map fun c hc => lt_of_isOverrideChar (hplain c hc), List.map_map]
    exact (List.map_congr_left fun c hc => toUpper_toLower (hplain c hc)).trans (List.map_id part)
  have names : path.map (fun key => key.plain.toList.map Char.toUpper) = Text.splitOn ['_', '_'] rest := by
    rw [overridePath?_eq_some h, List.map_map]
    refine (List.map_congr_left fun part hpart => ?_).trans (List.map_id _)
    have hkey : (Key.text (String.ofList (Text.lower part))).plain.toList = Text.lower part :=
      String.toList_ofList
    rw [Function.comp_apply, hkey, raised part hpart]
    rfl
  rw [overrideName, names, Text.intercalate_splitOn]

/-- A path that another one begins with has a name that the other one's name begins with. -/
theorem overrideName_prefix (h : path <+: other) : overrideName path <+: overrideName other :=
  Text.intercalate_prefix _ (h.map _)

/-! ## Writing one after another -/

/-- What a variable writes, and where, if it is an override and takes effect. -/
def write? [Services] (entry : String × String) : Option (List Key × Value) :=
  (marked? entry.1).bind fun rest => (override? entry.1 rest entry.2).toOption

/-- Where no variable stops the others, all that are overrides write. -/
theorem applyVariables_fields [Services] {σ : Type} {write : σ → List Key → Value → σ}
    {entries : List (String × String)} (fields : σ) (succeeds : (applyVariables write fields entries).error = none) :
    (applyVariables write fields entries).fields =
      (entries.filterMap write?).foldl (fun fields entry => write fields entry.1 entry.2) fields := by
  induction entries generalizing fields with
  | nil => rfl
  | cons entry entries ih =>
    obtain ⟨name, value⟩ := entry
    simp only [applyVariables] at succeeds ⊢
    cases hmarked : Text.afterLiteral environmentMark.toList name.toList with
    | none =>
      have hwrite : write? (name, value) = none := by simp [write?, marked?, hmarked]
      rw [hmarked] at succeeds
      rw [List.filterMap_cons_none hwrite]
      exact ih fields succeeds
    | some rest =>
      rw [hmarked] at succeeds
      cases hoverride : override? name rest value with
      | error e => simp [hoverride] at succeeds
      | ok found =>
        have hwrite : write? (name, value) = some found := by
          simp [write?, marked?, hmarked, hoverride, Except.toOption]
        simp only [hoverride] at succeeds
        rw [List.filterMap_cons_some hwrite]
        simp only [hoverride]
        exact ih (write fields found.1 found.2) succeeds

/-- Writes values at their paths, one after another. -/
def writeAll (fields : Fields) (writes : List (List Key × Value)) : Fields :=
  writes.foldl (fun fields write => writeAt fields write.1 write.2) fields

/-- Where no object is shared, what is written to a draft is written to its values. -/
theorem values_foldl_writeAt {draft : Draft} (unshared : draft.Unshared) (writes : List (List Key × Value)) :
    (writes.foldl (fun draft write => draft.writeAt write.1 write.2) draft).values =
      writeAll draft.values writes := by
  induction writes generalizing draft with
  | nil => rfl
  | cons write writes ih =>
    have written := draft.writes_writeAt unshared write.1 write.2
    exact (ih (written.unshared unshared)).trans (congrArg (writeAll · writes) written.values)

theorem atPath?_writeAll_of_apart {writes : List (List Key × Value)} (fields : Fields)
    (h : ∀ write ∈ writes, Apart write.1 path) :
    (Value.object (writeAll fields writes)).atPath? path = (Value.object fields).atPath? path := by
  induction writes generalizing fields with
  | nil => rfl
  | cons write writes ih =>
    obtain ⟨hwrite, hrest⟩ := List.forall_mem_cons.1 h
    exact (ih (writeAt fields write.1 write.2) hrest).trans (atPath?_writeAt_of_apart fields hwrite write.2)

/-- A value stands if all that is written later is written elsewhere. -/
theorem atPath?_writeAll_append {behind : List (List Key × Value)} (fields : Fields)
    (before : List (List Key × Value)) (hpath : path ≠ []) (v : Value)
    (h : ∀ write ∈ behind, Apart write.1 path) :
    (Value.object (writeAll fields (before ++ (path, v) :: behind))).atPath? path = some v := by
  rw [writeAll, List.foldl_append, List.foldl_cons]
  exact (atPath?_writeAll_of_apart _ h).trans (atPath?_writeAt_self _ hpath v)

/-! ## The order of the names -/

theorem write?_eq_some [Services] {entry : String × String} (h : write? entry = some (path, v)) :
    ∃ rest, marked? entry.1 = some rest ∧ overridePath? rest = some path ∧ coerce entry.2 = .ok v := by
  obtain ⟨rest, hmarked, hoverride⟩ := Option.bind_eq_some_iff.1 h
  refine ⟨rest, hmarked, ?_⟩
  unfold override? at hoverride
  cases hpath : overridePath? rest with
  | none => simp [hpath, Except.toOption] at hoverride
  | some found =>
    cases hdeep : tooDeep? entry.2 with
    | some c => simp [hpath, hdeep, Except.toOption] at hoverride
    | none =>
      cases hvalue : coerce entry.2 with
      | error e => simp [hpath, hdeep, hvalue, Except.toOption] at hoverride
      | ok w =>
        simp only [hpath, hdeep, hvalue, Except.toOption, Option.some.injEq, Prod.mk.injEq] at hoverride
        rw [hoverride.1, hoverride.2]
        exact ⟨rfl, rfl⟩

/-- Behind the mark, if it has one, the name is one of capital letters, digits and underscores. -/
def IsPlain (name : String) : Prop :=
  ∀ rest ∈ marked? name, rest.all isOverrideChar = true

instance (name : String) : Decidable (IsPlain name) :=
  inferInstanceAs (Decidable (∀ rest ∈ marked? name, rest.all isOverrideChar = true))

theorem toList_of_write? [Services] {entry : String × String} (plain : IsPlain entry.1) (h : write? entry = some (path, v)) :
    entry.1.toList = environmentMark.toList ++ overrideName path := by
  obtain ⟨rest, hmarked, hpath, -⟩ := write?_eq_some h
  rw [overrideName_of_overridePath? (List.all_eq_true.1 (plain rest hmarked)) hpath]
  exact Text.afterLiteral_eq_some_iff.1 hmarked

/-- Of two variables the later one writes elsewhere, unless it writes behind the path of the earlier one. -/
theorem apart_of_lt [Services] {first last : String × String} {w : Value} (plain : IsPlain first.1)
    (plain' : IsPlain last.1) (h : write? first = some (path, v)) (h' : write? last = some (other, w))
    (hlt : first.1 < last.1) (shorter : path <+: other → other = path) : Apart other path := by
  have later : ¬ other <+: path := by
    intro hpre
    have hnames : last.1.toList <+: first.1.toList := by
      rw [toList_of_write? plain h, toList_of_write? plain' h', List.prefix_append_right_inj]
      exact overrideName_prefix hpre
    exact hnames.le (String.lt_iff.1 hlt)
  exact ⟨later, fun hpre => later (shorter hpre ▸ List.prefix_rfl)⟩

/-- The names of a mapping increase when they are sorted. -/
theorem Environment.sorted_increases {environment : Environment} (distinct : (Assoc.keys environment).Nodup) :
    environment.sorted.Pairwise fun a b => a.1 < b.1 := by
  have htrans (a b c : String × String) (hab : decide (a.1 ≤ b.1) = true) (hbc : decide (b.1 ≤ c.1) = true) :
      decide (a.1 ≤ c.1) = true :=
    decide_eq_true (String.le_trans (of_decide_eq_true hab) (of_decide_eq_true hbc))
  have htotal (a b : String × String) : (decide (a.1 ≤ b.1) || decide (b.1 ≤ a.1)) = true := by
    simpa using String.le_total a.1 b.1
  have ordered : environment.sorted.Pairwise fun a b => decide (a.1 ≤ b.1) = true :=
    List.pairwise_mergeSort htrans htotal environment
  have apart : environment.sorted.Pairwise fun a b => a.1 ≠ b.1 := by
    have hperm : environment.sorted.Perm environment := List.mergeSort_perm _ _
    have hkeys : (Assoc.keys environment.sorted).Perm (Assoc.keys environment) := hperm.map Prod.fst
    exact List.pairwise_map.1 (hkeys.nodup_iff.2 distinct)
  exact (ordered.and apart).imp fun h =>
    String.not_le.1 fun hge => h.2 (String.le_antisymm (of_decide_eq_true h.1) hge)

/-! ## The overrides of an environment -/

/-- The paths that the variables of an environment override. -/
def Environment.paths (environment : Environment) : List (List Key) :=
  environment.filterMap fun entry => (marked? entry.1).bind overridePath?

theorem mem_paths [Services] {environment : Environment} {entry : String × String} (h : entry ∈ environment)
    (hwrite : write? entry = some (path, v)) : path ∈ environment.paths := by
  obtain ⟨rest, hmarked, hpath, -⟩ := write?_eq_some hwrite
  exact List.mem_filterMap.2 ⟨entry, h, by rw [hmarked, Option.bind_some, hpath]⟩

/-- An override that does not stop the others writes. -/
theorem exists_write? [Services] {name value : String} (hmarked : marked? name = some rest)
    (unstopped : stop? (name, value) = none) :
    ∃ path v, overridePath? rest = some path ∧ coerce value = .ok v ∧ write? (name, value) = some (path, v) := by
  cases hoverride : override? name rest value with
  | error e => simp [stop?, hmarked, hoverride] at unstopped
  | ok found =>
    have hwrite : write? (name, value) = some found := by simp [write?, hmarked, hoverride, Except.toOption]
    obtain ⟨rest', hmarked', hpath, hvalue⟩ := write?_eq_some hwrite
    rw [hmarked, Option.some.injEq] at hmarked'
    exact ⟨found.1, found.2, hmarked' ▸ hpath, hvalue, hwrite⟩

/-- Where no object is shared and no variable stops the others, none is lost and none has an effect elsewhere: the
value of each override stands at its path, unless another one writes behind that path; and what stands neither at
the path of an override nor behind it nor on the way to it stays what it was. -/
theorem override_of_unshared [Services] {draft : Draft} (unshared : draft.Unshared) {environment : Environment}
    (distinct : (Assoc.keys environment).Nodup) (plain : ∀ name ∈ Assoc.keys environment, IsPlain name)
    (succeeds : (override draft environment).error = none) :
    let settings := Value.object (override draft environment).fields.values
    (∀ name value rest, (name, value) ∈ environment → marked? name = some rest →
      ∃ path v, overridePath? rest = some path ∧ coerce value = .ok v ∧
        ((∀ other ∈ environment.paths, path <+: other → other = path) → settings.atPath? path = some v)) ∧
    ∀ path, (∀ other ∈ environment.paths, Apart path other) →
      settings.atPath? path = (Value.object draft.values).atPath? path := by
  intro settings
  have hvalues : (override draft environment).fields.values =
      writeAll draft.values (environment.sorted.filterMap write?) := by
    rw [← values_foldl_writeAt unshared]
    exact congrArg Draft.values (applyVariables_fields draft succeeds)
  have hsettings : settings = .object (writeAll draft.values (environment.sorted.filterMap write?)) :=
    congrArg Value.object hvalues
  have sorted {entry : String × String} : entry ∈ environment.sorted ↔ entry ∈ environment := List.mem_mergeSort
  have plainEntry {entry : String × String} (h : entry ∈ environment) : IsPlain entry.1 :=
    plain entry.1 (List.mem_map_of_mem h)
  rw [hsettings]
  constructor
  · intro name value rest hentry hmarked
    have unstopped : stop? (name, value) = none := by
      have herror := (applyVariables_error Draft.writeAt draft environment.sorted).symm.trans succeeds
      exact List.findSome?_eq_none_iff.1 herror _ (sorted.2 hentry)
    obtain ⟨path, v, hpath, hvalue, hwrite⟩ := exists_write? hmarked unstopped
    refine ⟨path, v, hpath, hvalue, fun longest => ?_⟩
    obtain ⟨before, behind, hsplit⟩ := List.append_of_mem (sorted.2 hentry)
    have increases := Environment.sorted_increases distinct
    rw [hsplit] at increases ⊢
    rw [List.filterMap_append, List.filterMap_cons_some hwrite]
    refine atPath?_writeAll_append draft.values _ (overridePath?_ne_nil hpath) v fun write hmem => ?_
    -- what is written later is written elsewhere
    obtain ⟨last, hlast, hlastWrite⟩ := List.mem_filterMap.1 hmem
    have hlastEntry : last ∈ environment := sorted.1 (hsplit ▸ by simp [hlast])
    have hlt : name < last.1 := (List.pairwise_cons.1 (List.pairwise_append.1 increases).2.1).1 last hlast
    exact apart_of_lt (plainEntry hentry) (plainEntry hlastEntry) hwrite hlastWrite hlt
      (longest write.1 (mem_paths hlastEntry hlastWrite))
  · intro path elsewhere
    apply atPath?_writeAll_of_apart
    intro write hmem
    obtain ⟨entry, hentry, hwrite⟩ := List.mem_filterMap.1 hmem
    exact (elsewhere write.1 (mem_paths (sorted.1 hentry) hwrite)).symm

/-- A variable for an object, variables for its fields, and one that is no override. -/
def nestedOverrides : Environment :=
  [("BLADETAGS_CONTEXT__STACK_2", " 7 "), ("BLADETAGS_CONTEXT__VIEW__NAME", "page"), ("LANG", "c"),
    ("BLADETAGS_CONTEXT", "\x7b\"view\": 1\x7d")]

/-- Settings with another layer over them. -/
def layeredDraft : Draft :=
  (Draft.ofFields [("context", "none"), ("prefix", "x-")]).lay
    [("context", .object 0 [("view", .object 1 []), ("stack", .scalar (.text "s"))])]

/-- The fields of an object are set after the object, and a field that is no object gives way to one. -/
theorem override_of_nested :
    let settings := Value.object (override layeredDraft nestedOverrides).fields.values
    (layeredDraft.Unshared ∧ (Assoc.keys nestedOverrides).Nodup ∧
        (∀ name ∈ Assoc.keys nestedOverrides, IsPlain name) ∧
        (override layeredDraft nestedOverrides).error = none) ∧
      settings.atPath? ["context", "stack_2"] = some (.int 7) ∧
      settings.atPath? ["context", "view", "name"] = some "page" ∧ settings.atPath? ["prefix"] = some "x-" := by
  intro settings
  have unshared : layeredDraft.Unshared := (Draft.unshared_ofFields _).lay (by decide)
  have distinct : (Assoc.keys nestedOverrides).Nodup := by decide +kernel
  have plain : ∀ name ∈ Assoc.keys nestedOverrides, IsPlain name := by decide +kernel
  have unstopped : ∀ entry ∈ nestedOverrides, stop? entry = none := by decide +kernel
  have succeeds : (override layeredDraft nestedOverrides).error = none := by
    refine (applyVariables_error Draft.writeAt layeredDraft _).trans
      (List.findSome?_eq_none_iff.2 fun entry hentry => ?_)
    exact unstopped entry (List.mem_mergeSort.1 hentry)
  let stack : List Key := ["context", "stack_2"]
  let view : List Key := ["context", "view", "name"]
  have paths : nestedOverrides.paths = [stack, view, ["context"]] := by decide +kernel
  obtain ⟨kept, untouched⟩ := override_of_unshared unshared distinct plain succeeds
  rw [paths] at kept untouched
  have stands (name value : String) (rest : List Char) {path : List Key} {v : Value}
      (hentry : (name, value) ∈ nestedOverrides) (hmarked : marked? name = some rest)
      (hpath : overridePath? rest = some path) (hvalue : coerce value = .ok v)
      (longest : ∀ other ∈ [stack, view, ["context"]], path <+: other → other = path) :
      settings.atPath? path = some v := by
    obtain ⟨path', v', hpath', hvalue', hkept⟩ := kept name value rest hentry hmarked
    rw [hpath, Option.some.injEq] at hpath'
    rw [hvalue, Except.ok.injEq] at hvalue'
    subst hpath' hvalue'
    exact hkept longest
  refine ⟨⟨unshared, distinct, plain, succeeds⟩, ?_, ?_, ?_⟩
  · exact stands "BLADETAGS_CONTEXT__STACK_2" " 7 " "CONTEXT__STACK_2".toList (by decide) rfl
      (by decide +kernel) rfl (by decide)
  · exact stands "BLADETAGS_CONTEXT__VIEW__NAME" "page" "CONTEXT__VIEW__NAME".toList (by decide) rfl
      (by decide +kernel) rfl (by decide)
  · exact untouched ["prefix"] (by decide)

/-- A settings file in which one object stands under two keys. -/
def aliasedFile : FileTree :=
  ⟨⟨"/", []⟩, [(["bladetags.yaml"], Text.encodeUtf8 "foo: &a \x7bx: 1\x7d\nbar: *a\n")], []⟩

/-- A variable for a field of one key writes under the other key too. -/
theorem override_of_alias :
    let environment : Environment := [("BLADETAGS_FOO__X", "2")]
    let looksUp (environment : Environment) : Option (Bool × Option String) :=
      (loadFiles aliasedFile ⟨⟨"/", []⟩, none⟩).result.toOption.map fun draft =>
        let overridden := override draft environment
        (overridden.error.isNone,
          ((Value.object overridden.fields.values).atPath? ["bar", "x"]).map Value.display)
    (∀ name ∈ Assoc.keys environment, IsPlain name) ∧
      (∀ other ∈ environment.paths, Apart ["bar", "x"] other) ∧
      looksUp [] = some (true, some "1") ∧ looksUp environment = some (true, some "2") := by
  decide +kernel

end Settings

end ComponentTags
