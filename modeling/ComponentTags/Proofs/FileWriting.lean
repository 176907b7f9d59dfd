import ComponentTags.FileTree

/-!
# Written files

A file that is written holds what was written, and nothing else in the tree is touched: not another file, not
a directory. The directories on the way to a file are there before it is, so that a new file makes none. A device
takes what is written to it, and nothing is touched at all.
-/

namespace ComponentTags

namespace FileTree

variable {t written : FileTree} {p : Path} {place start : List String} {segments : List String}
  {content : Text.Bytes}

theorem write_eq_ok_iff : t.write p content = .ok written ↔
    ∃ place, t.place p = .ok place ∧ t.entry? place ≠ some .directory ∧
      written = if t.entry? place = some .device then t else { t with files := t.files.insert place content } := by
  unfold write
  cases t.place p with
  | error fault => simp
  | ok place =>
    cases hentry : t.entry? place with
    | none => simp [hentry, eq_comm]
    | some entry => cases entry <;> simp [hentry, eq_comm]

theorem read_of_entry? (hplace : t.place p = .ok place) (hentry : t.entry? place = some (.file content)) :
    t.read p = .ok content := by
  unfold read access
  simp only [hplace, hentry]

/-! ## Ways through a tree -/

/-- All places above a place are directories. -/
def Reached (t : FileTree) (place : List String) : Prop :=
  ∀ above, above <+: place → above ≠ place → t.entry? above = some .directory

theorem reached_nil (t : FileTree) : t.Reached [] := by
  intro above habove hne
  exact absurd (List.prefix_nil.1 habove) hne

theorem Reached.dropLast (h : t.Reached place) : t.Reached place.dropLast := by
  intro above habove hne
  refine h above (habove.trans (List.dropLast_prefix place)) fun heq => hne ?_
  exact habove.eq_of_length_le (by simp [heq])

theorem Reached.append (h : t.Reached place) (hplace : t.entry? place = some .directory) (segment : String) :
    t.Reached (place ++ [segment]) := by
  intro above habove hne
  rcases List.prefix_concat_iff.1 habove with rfl | habove
  · exact absurd rfl hne
  · by_cases heq : above = place
    · rw [heq, hplace]
    · exact h above habove heq

/-- A place that was walked to has directories above it. -/
theorem reached_of_walk (h : t.walk start segments = .ok place) (hstart : t.Reached start) :
    t.Reached place := by
  induction segments generalizing start with
  | nil =>
    cases h
    exact hstart
  | cons segment rest ih =>
    rw [walk] at h
    split at h
    · cases h
    · cases h
    · cases h
    · rename_i hdirectory
      refine ih h ?_
      split
      · exact hstart.dropLast
      · exact hstart.append hdirectory segment

/-- A way through a tree is one through every tree that has its directories. -/
theorem walk_of_directories (hkept : ∀ q, t.entry? q = some .directory → written.entry? q = some .directory)
    (h : t.walk start segments = .ok place) : written.walk start segments = .ok place := by
  induction segments generalizing start with
  | nil => exact h
  | cons segment rest ih =>
    rw [walk] at h ⊢
    split at h
    · cases h
    · cases h
    · cases h
    · rename_i hdirectory
      rw [hkept _ hdirectory]
      exact ih h

/-! ## What a written file changes -/

theorem entry?_insert_self (t : FileTree) (place : List String) (content : Text.Bytes) :
    entry? { t with files := t.files.insert place content } place = some (.file content) := by
  unfold entry?
  simp

/-- Whether something is listed at a place or below it. -/
def lists (t : FileTree) (place : List String) : Bool :=
  (nullDevice :: t.root.segments :: t.directories ++ t.files.keys).any (place.isPrefixOf ·)

theorem entry?_eq (t : FileTree) (q : List String) :
    t.entry? q = match t.files.get? q with
      | some content => some (.file content)
      | none => if q = nullDevice then some .device else if t.lists q then some .directory else none :=
  rfl

theorem lists_of_directory {q : List String} (h : t.entry? q = some .directory) : t.lists q = true := by
  rw [entry?_eq] at h
  split at h
  · cases h
  · split at h
    · cases h
    · split at h
      · assumption
      · cases h

theorem lists_insert {q : List String} : lists { t with files := t.files.insert place content } q =
    (t.lists q || q.isPrefixOf place) := by
  simp only [lists, Assoc.keys_insert]
  split
  · rename_i hmem
    cases hprefix : q.isPrefixOf place with
    | false => simp
    | true =>
      have hany : t.files.keys.any (q.isPrefixOf ·) = true := List.any_eq_true.2 ⟨place, hmem, hprefix⟩
      simp [hany]
  · simp [Bool.or_assoc]

/-- Nothing but the file is touched if it stands below directories. -/
theorem entry?_insert_of_ne {q : List String} (h : t.Reached place) (hne : q ≠ place) :
    entry? { t with files := t.files.insert place content } q = t.entry? q := by
  have hlists : (t.lists q || q.isPrefixOf place) = t.lists q := by
    cases hprefix : q.isPrefixOf place with
    | false => simp
    | true => simp [lists_of_directory (h q (List.isPrefixOf_iff_prefix.1 hprefix) hne)]
  simp only [entry?_eq, lists_insert, hlists, Assoc.get?_insert, if_neg (Ne.symm hne)]

theorem reached_of_place (h : t.place p = .ok place) : t.Reached place :=
  reached_of_walk h t.reached_nil

/-- Between two trees a content was written to a path: it is read there, unless a device has taken it, and nothing
else was touched. -/
def Wrote (before after : FileTree) (p : Path) (content : Text.Bytes) : Prop :=
  ∃ place, before.place p = .ok place ∧ (∀ q ≠ place, after.entry? q = before.entry? q) ∧
    if before.entry? place = some .device then after = before else after.read p = .ok content

/-- The place of a path stays when something is written to it. -/
theorem place_of_write (h : t.write p content = .ok written) (hplace : t.place p = .ok place) :
    written.place p = .ok place ∧ (∀ q ≠ place, written.entry? q = t.entry? q) ∧
      written.entry? place = if t.entry? place = some .device then some .device else some (.file content) := by
  obtain ⟨place', hplace', hdirectory, rfl⟩ := write_eq_ok_iff.1 h
  obtain rfl : place = place' := Except.ok.inj (hplace.symm.trans hplace')
  split
  · rename_i hdevice
    exact ⟨hplace, fun _ _ => rfl, hdevice⟩
  · have hothers : ∀ q ≠ place, entry? { t with files := t.files.insert place content } q = t.entry? q :=
      fun q hne => entry?_insert_of_ne (reached_of_place hplace) hne
    refine ⟨walk_of_directories (fun q hq => ?_) hplace, hothers, entry?_insert_self t place content⟩
    rw [hothers q fun heq => hdirectory (heq ▸ hq), hq]

theorem wrote_of_write (h : t.write p content = .ok written) : t.Wrote written p content := by
  obtain ⟨place, hplace, -, hwritten⟩ := write_eq_ok_iff.1 h
  obtain ⟨hlast, hothers, hentry⟩ := place_of_write h hplace
  refine ⟨place, hplace, hothers, ?_⟩
  split
  · rename_i hdevice
    rw [hwritten, if_pos hdevice]
  · rename_i hdevice
    rw [if_neg hdevice] at hentry
    exact read_of_entry? hlast hentry

/-- Whether a file can be written does not depend on what is to be written. -/
theorem write_eq_error_of_write_eq_error {e : AccessError} (h : t.write p content = .error e)
    (other : Text.Bytes) : t.write p other = .error e := by
  unfold write at h ⊢
  split at h
  · exact h
  · split at h
    · exact h
    · cases h
    · cases h
    · cases h

/-- So one that can be written with one content can be with every other. -/
theorem exists_write_of_write (h : t.write p content = .ok written) (other : Text.Bytes) :
    ∃ written', t.write p other = .ok written' := by
  cases hother : t.write p other with
  | ok written' => exact ⟨written', rfl⟩
  | error e => cases h.symm.trans (write_eq_error_of_write_eq_error hother content)

/-- A file that was written can be written again, and then holds what was written last. -/
theorem write_of_write {first : Text.Bytes} (h : t.write p first = .ok written) (content : Text.Bytes) :
    written.write p content = t.write p content := by
  obtain ⟨place, hplace, hdirectory, hwritten⟩ := write_eq_ok_iff.1 h
  obtain ⟨hlast, -, hentry⟩ := place_of_write h hplace
  have honce : t.write p content = .ok _ := write_eq_ok_iff.2 ⟨place, hplace, hdirectory, rfl⟩
  refine Eq.trans (write_eq_ok_iff.2 ⟨place, hlast, ?_, ?_⟩) honce.symm
  · rw [hentry]
    split <;> exact fun heq => by cases heq
  · rw [hentry, hwritten]
    by_cases hdevice : t.entry? place = some .device
    · simp only [if_pos hdevice, if_true]
    · simp [hdevice, Assoc.insert_insert]

end FileTree

end ComponentTags
