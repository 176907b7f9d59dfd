import ComponentTags.ContextStack

/-!
# Frames below a scope

However steps, scopes and attempts are nested, a run is one trace of single moves of the stack: a frame is
put on top, the top one is taken off, or all go. Along a trace that never gets down to a frame, that frame and
those below it stay where they are. So a scope whose body takes off no frame but its own finds its frame when
it closes, and gives back the stack that it was entered with if the body took off all of its frames.
-/

namespace ComponentTags.ContextStack

variable {s t last : ContextStack}

/-! ## Reading -/

/-- No frame has a key twice. -/
def WellFormed (s : ContextStack) : Prop :=
  ∀ frame ∈ s.frames, (Assoc.keys frame).Nodup

/-- A key has its value in the last frame that holds it. -/
theorem get?_read (formed : s.WellFormed) (key : String) :
    Assoc.get? s.read key = s.frames.findSome? (Assoc.get? · key) := by
  obtain ⟨frames⟩ := s
  induction frames with
  | nil => rfl
  | cons frame rest ih =>
    have hrest := ih fun other hother => formed other (List.mem_cons_of_mem _ hother)
    have hread : read ⟨frame :: rest⟩ = Assoc.insertAll (read ⟨rest⟩) frame := rfl
    rw [hread, Assoc.get?_insertAll, Assoc.get?_reverse (formed frame List.mem_cons_self), hrest,
      List.findSome?_cons]
    cases Assoc.get? frame key <;> rfl

theorem read_eq_ofList (s : ContextStack) : s.read = Assoc.ofList s.frames.reverse.flatten := by
  obtain ⟨frames⟩ := s
  induction frames with
  | nil => rfl
  | cons frame rest ih =>
    have hread : read ⟨frame :: rest⟩ = Assoc.insertAll (read ⟨rest⟩) frame := rfl
    simp [hread, ih, Assoc.ofList, Assoc.insertAll]

/-- Keys stand in the order of the first frames that hold them. -/
theorem keys_read (s : ContextStack) :
    Assoc.keys s.read = (s.frames.reverse.flatMap Assoc.keys).eraseDups := by
  have hkeys : Assoc.keys s.frames.reverse.flatten = s.frames.reverse.flatMap Assoc.keys := by
    rw [Assoc.keys, List.map_flatten, List.flatMap_def]
    rfl
  rw [read_eq_ofList, Assoc.keys_ofList, hkeys]

/-! ## Moves -/

/-- A frame was put on top, unless the step was a clear. -/
def Effect.adds : Effect → Bool
  | .done | .entered => true
  | .popped _ | .refused _ | .exited | .left => false

/-- The top frame was taken off. -/
def Effect.removes : Effect → Bool
  | .popped _ | .exited | .left => true
  | .done | .entered | .refused _ => false

/-- The event is a single move of the stack. -/
inductive Move (s : ContextStack) : Event → Prop where
  | pushed (data : List (String × Value)) {effect : Effect} (adds : effect.adds = true) :
      Move s ⟨effect, s.push data⟩
  | cleared : Move s ⟨.done, empty⟩
  | popped {frame : Frame} {rest : ContextStack} {effect : Effect} (removes : effect.removes = true)
      (top : s.pop = .ok (frame, rest)) : Move s ⟨effect, rest⟩
  | refused {e : Error} (none : s.pop = .error e) : Move s ⟨.refused e, s⟩

/-- The events are moves, each from the stack that the one before it left. -/
inductive Trace : ContextStack → List Event → ContextStack → Prop where
  | nil (s : ContextStack) : Trace s [] s
  | cons {s last : ContextStack} {event : Event} {events : List Event} (move : Move s event)
      (rest : Trace event.stack events last) : Trace s (event :: events) last

variable {event : Event} {events later : List Event} {base : List Frame}

theorem Trace.append (first : Trace s events t) (second : Trace t later last) :
    Trace s (events ++ later) last := by
  induction first with
  | nil => exact second
  | cons move _ ih => exact .cons move (ih second)

theorem Trace.concat (first : Trace s events t) (move : Move t event) :
    Trace s (events ++ [event]) event.stack :=
  first.append (.cons move (.nil _))

theorem trace_closeScope {body : Run} (h : Trace s body.events body.stack) :
    Trace s (closeScope body).events (closeScope body).stack := by
  unfold closeScope
  split
  · rename_i e hpop
    exact h.concat (.refused hpop)
  · rename_i frame rest hpop
    refine h.concat (.popped ?_ hpop)
    cases body.leftEarly <;> rfl

mutual

/-- A step is a trace of moves, with the scopes inside it or without. -/
theorem trace_runStep (s : ContextStack) (step : Step) :
    Trace s (runStep s step).events (runStep s step).stack := by
  cases step with
  | push data => exact .cons (.pushed data rfl) (.nil _)
  | remove =>
    rw [runStep]
    split
    · rename_i e hpop
      exact .cons (.refused hpop) (.nil _)
    · rename_i frame rest hpop
      exact .cons (.popped rfl hpop) (.nil _)
  | clear => exact .cons .cleared (.nil _)
  | within data body =>
    exact .cons (.pushed data rfl) (trace_closeScope (trace_runSteps (s.push data) body))
  | attempt body => exact trace_runSteps s body
  | leave => exact .nil _

theorem trace_runSteps (s : ContextStack) (steps : List Step) :
    Trace s (runSteps s steps).events (runSteps s steps).stack := by
  cases steps with
  | nil => exact .nil _
  | cons step rest =>
    have first := trace_runStep s step
    rw [runSteps]
    dsimp only
    split
    · exact first
    · exact first.append (trace_runSteps _ rest)

end

/-! ## What moves keep -/

theorem pop_eq_ok {frame : Frame} (h : s.pop = .ok (frame, t)) : s.frames = frame :: t.frames := by
  unfold pop at h
  split at h
  · cases h
  · rename_i hframes
    cases h
    exact hframes

theorem pop_eq_error {e : Error} (h : s.pop = .error e) : s.frames = [] := by
  unfold pop at h
  split at h
  · assumption
  · cases h

theorem WellFormed.move (formed : s.WellFormed) (move : Move s event) : event.stack.WellFormed := by
  cases move with
  | pushed data adds =>
    intro frame hframe
    rcases List.mem_cons.1 hframe with rfl | hframe
    · exact Assoc.nodup_keys_ofList data
    · exact formed frame hframe
  | cleared => exact fun frame hframe => nomatch hframe
  | popped removes top =>
    intro frame hframe
    exact formed frame (by rw [pop_eq_ok top]; exact List.mem_cons_of_mem _ hframe)
  | refused none => exact formed

theorem WellFormed.trace (formed : s.WellFormed) (trace : Trace s events last) :
    (∀ event ∈ events, event.stack.WellFormed) ∧ last.WellFormed := by
  induction trace with
  | nil => exact ⟨List.forall_mem_nil _, formed⟩
  | cons move _ ih =>
    obtain ⟨hevents, hlast⟩ := ih (formed.move move)
    exact ⟨List.forall_mem_cons.2 ⟨formed.move move, hevents⟩, hlast⟩

/-- Moves that do not get down to some frames leave them where they are and never find the stack empty. -/
theorem Move.keeps (move : Move s event) (hne : base ≠ []) (below : base <:+ s.frames)
    (deep : base.length ≤ event.stack.depth) :
    base <:+ event.stack.frames ∧ (∀ e, event.effect ≠ .refused e) ∧
      event.stack.depth + (if event.effect.removes then 1 else 0) =
        s.depth + (if event.effect.adds then 1 else 0) := by
  have hpos := List.length_pos_iff.2 hne
  cases move with
  | pushed data adds =>
    refine ⟨below.trans (List.suffix_cons _ _), fun e heq => ?_, ?_⟩
    · cases heq
      cases adds
    · rename_i effect
      cases effect <;> simp_all [Effect.adds, Effect.removes, depth, push]
  | cleared =>
    have hnone : base.length ≤ 0 := deep
    omega
  | @popped frame rest effect removes top =>
    have hframes := pop_eq_ok top
    refine ⟨?_, fun e heq => ?_, ?_⟩
    · rw [hframes] at below
      rcases List.suffix_cons_iff.1 below with rfl | below
      · exact absurd deep (Nat.not_succ_le_self _)
      · exact below
    · cases heq
      cases removes
    · cases effect <;> simp_all [Effect.adds, Effect.removes, depth]
  | refused none =>
    rw [pop_eq_error none] at below
    exact absurd (List.suffix_nil.1 below) hne

theorem Trace.keeps (trace : Trace s events last) (hne : base ≠ []) (below : base <:+ s.frames)
    (deep : ∀ event ∈ events, base.length ≤ event.stack.depth) :
    (∀ event ∈ events, base <:+ event.stack.frames ∧ ∀ e, event.effect ≠ .refused e) ∧
      base <:+ last.frames ∧
      last.depth + events.countP (·.effect.removes) = s.depth + events.countP (·.effect.adds) := by
  induction trace with
  | nil => exact ⟨List.forall_mem_nil _, below, rfl⟩
  | cons move rest ih =>
    obtain ⟨hdeep, hlater⟩ := List.forall_mem_cons.1 deep
    obtain ⟨hbelow, heffect, hdepth⟩ := move.keeps hne below hdeep
    obtain ⟨hevents, hlast, hcount⟩ := ih hbelow hlater
    refine ⟨List.forall_mem_cons.2 ⟨⟨hbelow, heffect⟩, hevents⟩, hlast, ?_⟩
    rw [List.countP_cons, List.countP_cons]
    omega

/-! ## Scopes -/

/-- The body of a scope never gets down to the frame of the scope, neither in the scopes inside it nor in
between. -/
def StaysInside (s : ContextStack) (data : List (String × Value)) (body : List Step) : Prop :=
  ∀ event ∈ (runSteps (s.push data) body).events, s.depth + 1 ≤ event.stack.depth

instance (s : ContextStack) (data : List (String × Value)) (body : List Step) :
    Decidable (StaysInside s data body) :=
  List.decidableBAll (fun event : Event => s.depth + 1 ≤ event.stack.depth) _

/-- What a scope on a stack does: it closes without an error and ends as its body does, the frames below it
are in place all the time, and the stack is as before exactly if the body took off as many frames as it put
on. -/
structure Guards (s : ContextStack) (data : List (String × Value)) (body : List Step) : Prop where
  inPlace : ∀ event ∈ (runStep s (.within data body)).events, s.frames <:+ event.stack.frames
  faultless : ∀ event ∈ (runStep s (.within data body)).events, ∀ e, event.effect ≠ .refused e
  closes : (runStep s (.within data body)).events.getLast? =
    some ⟨if (runSteps (s.push data) body).leftEarly then .left else .exited,
      (runStep s (.within data body)).stack⟩
  endsAlike : (runStep s (.within data body)).leftEarly = (runSteps (s.push data) body).leftEarly
  restores : (runSteps (s.push data) body).events.countP (·.effect.adds) =
      (runSteps (s.push data) body).events.countP (·.effect.removes) ↔
    (runStep s (.within data body)).stack = s

/-- Frames are read with the value of the last frame that holds a key, in the order of the first ones. -/
structure ReadsFrames (s : ContextStack) : Prop where
  values : ∀ key, Assoc.get? s.read key = s.frames.findSome? (Assoc.get? · key)
  order : Assoc.keys s.read = (s.frames.reverse.flatMap Assoc.keys).eraseDups

theorem runStep_within (s : ContextStack) (data : List (String × Value)) (body : List Step) :
    runStep s (.within data body) =
      { closeScope (runSteps (s.push data) body) with
        events := ⟨.entered, s.push data⟩ :: (closeScope (runSteps (s.push data) body)).events } := by
  rw [runStep]

theorem closeScope_of_frames {body : Run} {frame : Frame} {rest : List Frame}
    (h : body.stack.frames = frame :: rest) :
    closeScope body = ⟨body.events ++ [⟨if body.leftEarly then .left else .exited, ⟨rest⟩⟩], ⟨rest⟩,
      body.leftEarly⟩ := by
  have hpop : body.stack.pop = .ok (frame, ⟨rest⟩) := by rw [pop, h]
  rw [closeScope, hpop]

/-- A body that stays inside its scope leaves a frame for the scope to pop, above those below the scope. That
is the only one exactly if the body took off as many frames as it put on. -/
theorem StaysInside.exists_frames {data : List (String × Value)} {body : List Step}
    (inside : StaysInside s data body) :
    (∀ event ∈ (runSteps (s.push data) body).events,
      s.frames <:+ event.stack.frames ∧ ∀ e, event.effect ≠ .refused e) ∧
    ∃ top rest, (runSteps (s.push data) body).stack.frames = top :: rest ∧ s.frames <:+ rest ∧
      ((runSteps (s.push data) body).events.countP (·.effect.adds) =
        (runSteps (s.push data) body).events.countP (·.effect.removes) ↔ rest = s.frames) := by
  have trace := trace_runSteps (s.push data) body
  have hbase : Assoc.ofList data :: s.frames <:+ (s.push data).frames := List.suffix_rfl
  have hown : s.frames <:+ Assoc.ofList data :: s.frames := List.suffix_cons _ _
  obtain ⟨hevents, ⟨extra, hlast⟩, hcount⟩ := trace.keeps (List.cons_ne_nil _ _) hbase inside
  obtain ⟨top, rest, hrest, hbelow⟩ : ∃ top rest,
      (runSteps (s.push data) body).stack.frames = top :: rest ∧ s.frames <:+ rest := by
    cases extra with
    | nil => exact ⟨_, s.frames, hlast.symm, List.suffix_rfl⟩
    | cons top extra => exact ⟨top, _, hlast.symm, hown.trans (List.suffix_append _ _)⟩
  refine ⟨fun event hevent => (hevents event hevent).imp_left hown.trans, top, rest, hrest, hbelow, ?_⟩
  have hinner : (runSteps (s.push data) body).stack.depth = rest.length + 1 := by
    rw [depth, hrest, List.length_cons]
  have houter : (s.push data).depth = s.frames.length + 1 := rfl
  constructor
  · intro balanced
    exact (hbelow.eq_of_length (by omega)).symm
  · rintro rfl
    omega

theorem StaysInside.guards {data : List (String × Value)} {body : List Step}
    (inside : StaysInside s data body) : Guards s data body := by
  obtain ⟨hinner, top, rest, hrest, hbelow, hcount⟩ := inside.exists_frames
  let inner := runSteps (s.push data) body
  let ending : Event := ⟨if inner.leftEarly then .left else .exited, ⟨rest⟩⟩
  have hscope : runStep s (.within data body) =
      ⟨⟨.entered, s.push data⟩ :: (inner.events ++ [ending]), ⟨rest⟩, inner.leftEarly⟩ := by
    rw [runStep_within, closeScope_of_frames hrest]
  have hending : s.frames <:+ ending.stack.frames ∧ ∀ e, ending.effect ≠ .refused e := by
    refine ⟨hbelow, fun e heq => ?_⟩
    cases hleft : inner.leftEarly <;> simp [ending, hleft] at heq
  have hevents : ∀ event ∈ (runStep s (.within data body)).events,
      s.frames <:+ event.stack.frames ∧ ∀ e, event.effect ≠ .refused e := by
    intro event hevent
    rw [hscope] at hevent
    rcases List.mem_cons.1 hevent with rfl | hevent
    · exact ⟨List.suffix_cons _ _, fun e heq => nomatch heq⟩
    · rcases List.mem_append.1 hevent with hevent | hevent
      · exact hinner event hevent
      · exact List.mem_singleton.1 hevent ▸ hending
  exact
    { inPlace := fun event hevent => (hevents event hevent).1
      faultless := fun event hevent => (hevents event hevent).2
      closes := by
        rw [hscope]
        simp [ending, inner, List.getLast?_cons]
      endsAlike := by rw [hscope]
      restores := by
        rw [hscope, hcount]
        obtain ⟨frames⟩ := s
        simp }

theorem WellFormed.readsFrames (formed : s.WellFormed) : ReadsFrames s :=
  ⟨get?_read formed, keys_read s⟩

theorem wellFormed_of_mem_run (formed : s.WellFormed) {program : List Step}
    (h : event ∈ (run s program).events) : event.stack.WellFormed := by
  obtain ⟨hevents, hlast⟩ := formed.trace (trace_runSteps s program)
  unfold run at h
  dsimp only at h
  split at h
  · rcases List.mem_append.1 h with h | h
    · exact hevents event h
    · rw [List.mem_singleton.1 h]
      exact hlast
  · exact hevents event h

/-- A scope guards the frames below it, whatever its body does that stays inside it and however the body is
left. In every state of a program, the stack is read frame by frame. -/
theorem scope_guards_frames :
    (∀ (s : ContextStack) (data : List (String × Value)) (body : List Step),
      StaysInside s data body → Guards s data body) ∧
    ∀ program : List Step, ∀ event ∈ (run empty program).events, ReadsFrames event.stack :=
  ⟨fun _ _ _ inside => inside.guards, fun _ _ hevent =>
    (wellFormed_of_mem_run (List.forall_mem_nil _) hevent).readsFrames⟩

/-- A scope inside another one is left early, and with it the outer one, before that comes to its last step. -/
theorem scope_guards_frames_of_leave :
    StaysInside ⟨[[("theme", .text "light")]]⟩ [("size", .text "sm")]
      [.within [("theme", .text "dark")] [.push [("size", .text "lg")], .remove, .leave], .clear] ∧
    Guards ⟨[[("theme", .text "light")]]⟩ [("size", .text "sm")]
      [.within [("theme", .text "dark")] [.push [("size", .text "lg")], .remove, .leave], .clear] := by
  have inside : StaysInside ⟨[[("theme", .text "light")]]⟩ [("size", .text "sm")]
      [.within [("theme", .text "dark")] [.push [("size", .text "lg")], .remove, .leave], .clear] := by
    decide
  exact ⟨inside, scope_guards_frames.1 _ _ _ inside⟩

end ComponentTags.ContextStack
