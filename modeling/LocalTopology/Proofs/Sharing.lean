import LocalTopology.Process.Shared
import LocalTopology.Proofs.Pumping

/-!
# What both pumps keep

The pumps of both streams put their lines into one buffer, in whatever order they get hold of it. No
turn of a pump loses a line or changes the order of its stream (`Moves.passed`, `Moves.added`). A
pump has the buffer to itself from adding a line to trimming, so that the two come to taking up the
line (`ReplayBuffer.trim_add`): what the buffer holds while nobody trims it, and what it will hold
once it is trimmed, are the lines that were added, taken up one after the other (`Moves.holds`).
-/

namespace LocalTopology

open OutputLine

theorem OutputLine.textsOf_concat (s : OutputStream) (lines : List OutputLine)
    (line : OutputLine) : textsOf s (lines ++ [line]) =
      textsOf s lines ++ if line.stream = s then [line.text] else [] := by
  by_cases h : line.stream = s <;> simp [textsOf, h]

theorem OutputLine.textsOf_suffix {lines lines' : List OutputLine} (h : lines <:+ lines')
    (s : OutputStream) : textsOf s lines <:+ textsOf s lines' :=
  (h.filter _).map _

/-- The line that a pump has passed on and not added to the buffer yet. -/
def StreamPump.carried (p : StreamPump) : List String :=
  match p.stage with
  | .carrying line => [line]
  | _ => []

namespace SharedReplay

/-! ## Turns -/

/-- What a turn of the pump of a stream may come to. -/
inductive Moves (r : SharedReplay) (s : OutputStream) : SharedReplay → Prop
  | waits : Moves r s r
  | reads {line coming} (hs : r.pumps s = ⟨.reading, line :: coming⟩) :
    Moves r s (r.read s line coming)
  | takes {line coming} (hs : r.pumps s = ⟨.carrying line, coming⟩) (ho : r.owner = none) :
    Moves r s { r with owner := some s }
  | adds {line coming} (hs : r.pumps s = ⟨.carrying line, coming⟩) (ho : r.owner = some s) :
    Moves r s (r.add s line coming)
  | releases {coming} (hs : r.pumps s = ⟨.trimming, coming⟩) : Moves r s (r.release s coming)

theorem moves_turn (r : SharedReplay) (s : OutputStream) : r.Moves s (r.turn s) := by
  unfold turn
  split
  · exact .waits
  · next hs => exact .reads hs
  · next hs =>
    split
    · next ho => exact .takes hs ho
    · next ho =>
      split
      · next hc => exact .adds hs (hc ▸ ho)
      · exact .waits
  · next hs => exact .releases hs

variable {r r' : SharedReplay} {s : OutputStream}

/-- No turn loses a line or changes the order of its stream. -/
theorem Moves.passed (h : r.Moves s r') (s' : OutputStream) :
    textsOf s' r'.passed ++ (r'.pumps s').coming = textsOf s' r.passed ++ (r.pumps s').coming := by
  -- The stream of the pump that moves, and the other one, for which nothing changes.
  rcases eq_or_ne s' s with rfl | hne
  · cases h with
    | waits | takes => rfl
    | reads hs => simp [read, textsOf_concat, hs]
    | adds hs => simp [add, hs]
    | releases hs => simp [release, hs]
  · cases h with
    | waits | takes => rfl
    | reads => simp [read, textsOf_concat, hne, hne.symm]
    | adds => simp [add, hne]
    | releases => simp [release, hne]

theorem Moves.added (h : r.Moves s r') (s' : OutputStream) :
    textsOf s' r'.added ++ ((r'.pumps s').carried ++ (r'.pumps s').coming) =
      textsOf s' r.added ++ ((r.pumps s').carried ++ (r.pumps s').coming) := by
  rcases eq_or_ne s' s with rfl | hne
  · cases h with
    | waits | takes => rfl
    | reads hs => simp [read, StreamPump.carried, hs]
    | adds hs => simp [add, StreamPump.carried, textsOf_concat, hs]
    | releases hs => simp [release, StreamPump.carried, hs]
  · cases h with
    | waits | takes => rfl
    | reads => simp [read, hne]
    | adds => simp [add, textsOf_concat, hne, hne.symm]
    | releases => simp [release, hne]

/-! ## The buffer -/

/-- The buffer when lines were taken up one after the other. -/
def kept (capacity : Nat) (added : List OutputLine) : ReplayBuffer :=
  (ReplayBuffer.ofCapacity capacity).pushAll (added.map (·.text))

theorem kept_concat (capacity : Nat) (added : List OutputLine) (line : OutputLine) :
    kept capacity (added ++ [line]) = (kept capacity added).push line.text := by
  simp [kept, ReplayBuffer.pushAll]

theorem lines_kept (capacity : Nat) (added : List OutputLine) : (kept capacity added).lines =
    (added.map (·.text)).rtake (min added.length (max capacity 1)) := by
  have hstart : (ReplayBuffer.ofCapacity capacity).lines.length ≤
      (ReplayBuffer.ofCapacity capacity).capacity := Nat.zero_le _
  have hlines := ReplayBuffer.lines_pushAll hstart (added.map (·.text))
  have hdrop : (added.map (·.text)).length - min added.length (max capacity 1) =
      (added.map (·.text)).length - max capacity 1 := by
    rw [List.length_map]
    omega
  rw [List.rtake, hdrop]
  exact hlines

/-- The buffer holds what was added, taken up in order, but for a line that is one too many while
the pump that added the last line has yet to trim it. -/
structure Holds (r : SharedReplay) (capacity : Nat) : Prop where
  owned : ∀ s, (r.pumps s).stage = .trimming → r.owner = some s
  whole : (∀ s, (r.pumps s).stage ≠ .trimming) → r.buffer = kept capacity r.added
  trimmed : ∀ s, (r.pumps s).stage = .trimming → r.buffer.trim = kept capacity r.added

variable {capacity : Nat}

theorem holds_start (capacity : Nat) (received : OutputStream → List String) :
    (start capacity received).Holds capacity where
  owned _ h := by cases h
  whole _ := rfl
  trimmed _ h := by cases h

theorem Holds.eq_of_trimming (h : r.Holds capacity) {s' : OutputStream} (ho : r.owner = some s)
    (hs' : (r.pumps s').stage = .trimming) : s' = s :=
  Option.some.inj ((h.owned s' hs').symm.trans ho)

theorem Holds.read (h : r.Holds capacity) {line : String} {coming : List String}
    (hs : r.pumps s = ⟨.reading, line :: coming⟩) : (r.read s line coming).Holds capacity := by
  -- Who trims is all that the three facts ask of the pumps.
  have hstage : ∀ s', ((r.read s line coming).pumps s').stage = .trimming ↔
      (r.pumps s').stage = .trimming := by
    intro s'
    rcases eq_or_ne s' s with rfl | hne
    · simp [SharedReplay.read, hs]
    · simp [SharedReplay.read, hne]
  exact ⟨fun s' hs' => h.owned s' ((hstage s').1 hs'),
    fun hnone => h.whole fun s' hs' => hnone s' ((hstage s').2 hs'),
    fun s' hs' => h.trimmed s' ((hstage s').1 hs')⟩

theorem Holds.take (h : r.Holds capacity) (ho : r.owner = none) :
    Holds { r with owner := some s } capacity where
  owned s' hs' := by simpa [ho] using h.owned s' hs'
  whole := h.whole
  trimmed := h.trimmed

theorem Holds.add (h : r.Holds capacity) {line : String} {coming : List String}
    (hs : r.pumps s = ⟨.carrying line, coming⟩) (ho : r.owner = some s) :
    (r.add s line coming).Holds capacity := by
  -- The other pump has nothing to trim, as it has not got the buffer.
  have hnone : ∀ s', (r.pumps s').stage ≠ .trimming := by
    intro s' hs'
    rw [h.eq_of_trimming ho hs', hs] at hs'
    cases hs'
  have hstage : ∀ s', ((r.add s line coming).pumps s').stage = .trimming ↔ s' = s := by
    intro s'
    rcases eq_or_ne s' s with rfl | hne
    · simp [SharedReplay.add]
    · simp [SharedReplay.add, hne, hnone]
  refine ⟨fun s' hs' => ?_, fun hall => ?_, fun s' _ => ?_⟩
  · rw [(hstage s').1 hs']
    exact ho
  · exact absurd ((hstage s).2 rfl) (hall s)
  · calc (r.buffer.add line).trim = r.buffer.push line := ReplayBuffer.trim_add r.buffer line
      _ = (kept capacity r.added).push line := by rw [h.whole hnone]
      _ = kept capacity (r.added ++ [⟨s, line⟩]) := (kept_concat capacity r.added ⟨s, line⟩).symm

theorem Holds.release (h : r.Holds capacity) {coming : List String}
    (hs : r.pumps s = ⟨.trimming, coming⟩) : (r.release s coming).Holds capacity := by
  have htrimming : (r.pumps s).stage = .trimming := by rw [hs]
  have hnone : ∀ s', ((r.release s coming).pumps s').stage ≠ .trimming := by
    intro s' hs'
    rcases eq_or_ne s' s with rfl | hne
    · simp [SharedReplay.release] at hs'
    · have hbefore : (r.pumps s').stage = .trimming := by
        simpa [SharedReplay.release, hne] using hs'
      exact hne (h.eq_of_trimming (h.owned s htrimming) hbefore)
  exact ⟨fun s' hs' => absurd hs' (hnone s'), fun _ => h.trimmed s htrimming,
    fun s' hs' => absurd hs' (hnone s')⟩

theorem Moves.holds (hm : r.Moves s r') (h : r.Holds capacity) : r'.Holds capacity := by
  cases hm with
  | waits => exact h
  | reads hs => exact h.read hs
  | takes _ ho => exact h.take ho
  | adds hs ho => exact h.add hs ho
  | releases hs => exact h.release hs

/-! ## Schedules -/

/-- How far both pumps are with the lines that come from their streams. -/
structure Follows (r : SharedReplay) (capacity : Nat) (received : OutputStream → List String) :
    Prop where
  holds : r.Holds capacity
  passed : ∀ s, textsOf s r.passed ++ (r.pumps s).coming = received s
  added : ∀ s, textsOf s r.added ++ ((r.pumps s).carried ++ (r.pumps s).coming) = received s

variable {received : OutputStream → List String}

theorem follows_start (capacity : Nat) (received : OutputStream → List String) :
    (start capacity received).Follows capacity received :=
  ⟨holds_start capacity received, fun _ => rfl, fun _ => rfl⟩

theorem Follows.turn (h : r.Follows capacity received) (s : OutputStream) :
    (r.turn s).Follows capacity received := by
  have hm := moves_turn r s
  exact ⟨hm.holds h.holds, fun s' => (hm.passed s').trans (h.passed s'),
    fun s' => (hm.added s').trans (h.added s')⟩

theorem Follows.run (h : r.Follows capacity received) (schedule : List OutputStream) :
    (r.run schedule).Follows capacity received := by
  induction schedule generalizing r with
  | nil => exact h
  | cons s schedule ih => exact ih (h.turn s)

theorem Follows.passed_extends_added (h : r.Follows capacity received) (s : OutputStream) :
    textsOf s r.added <+: textsOf s r.passed := by
  have hcoming : (textsOf s r.added ++ (r.pumps s).carried) ++ (r.pumps s).coming =
      textsOf s r.passed ++ (r.pumps s).coming := by
    rw [List.append_assoc, h.added s, h.passed s]
  exact ⟨_, List.append_cancel_right hcoming⟩

theorem Follows.textsOf_added_of_isDone (h : r.Follows capacity received) (hdone : r.IsDone)
    (s : OutputStream) : textsOf s r.added = received s := by
  simpa [hdone s, StreamPump.carried] using h.added s

theorem IsDone.not_trimming (h : r.IsDone) (s : OutputStream) :
    (r.pumps s).stage ≠ .trimming := by
  simp [h s]

/-- A pump that has four turns in a row takes up a whole line. -/
theorem run_line {line : String} {coming : List String} (ho : r.owner = none)
    (hs : r.pumps s = ⟨.reading, line :: coming⟩) :
    (r.run [s, s, s, s]).owner = none ∧
      (r.run [s, s, s, s]).pumps = Function.update r.pumps s ⟨.reading, coming⟩ ∧
        (r.run [s, s, s, s]).added = r.added ++ [⟨s, line⟩] := by
  simp [run, SharedReplay.turn, SharedReplay.read, SharedReplay.add, SharedReplay.release, hs, ho]

/-- The pumps may add their lines in any order that keeps the one of each stream. -/
theorem exists_run_added (lines : List OutputLine) (ho : r.owner = none)
    (hr : ∀ s, r.pumps s = ⟨.reading, textsOf s lines⟩) :
    ∃ schedule, (r.run schedule).IsDone ∧ (r.run schedule).added = r.added ++ lines := by
  induction lines generalizing r with
  | nil => exact ⟨[], hr, (List.append_nil _).symm⟩
  | cons line lines ih =>
    obtain ⟨s, text⟩ := line
    have hs : r.pumps s = ⟨.reading, text :: textsOf s lines⟩ := by simpa [textsOf] using hr s
    obtain ⟨howner, hpumps, hadd⟩ := run_line ho hs
    have hrest : ∀ s', (r.run [s, s, s, s]).pumps s' = ⟨.reading, textsOf s' lines⟩ := by
      intro s'
      rcases eq_or_ne s' s with rfl | hne
      · simp [hpumps]
      · simpa [hpumps, hne, hne.symm, textsOf] using hr s'
    obtain ⟨schedule, hdone, hadded⟩ := ih howner hrest
    have hrun : r.run ([s, s, s, s] ++ schedule) = (r.run [s, s, s, s]).run schedule :=
      List.foldl_append
    refine ⟨[s, s, s, s] ++ schedule, by rwa [hrun], ?_⟩
    rw [hrun, hadded, hadd, List.append_assoc, List.singleton_append]

theorem exists_run_start (capacity : Nat) {lines : List OutputLine}
    (h : ∀ s, textsOf s lines = received s) : ∃ schedule,
      ((start capacity received).run schedule).IsDone ∧
        ((start capacity received).run schedule).added = lines := by
  have hpumps : ∀ s, (start capacity received).pumps s = ⟨.reading, textsOf s lines⟩ := by
    intro s
    rw [h s]
    rfl
  exact exists_run_added lines rfl hpumps

/-- What is kept of the lines of both streams. -/
structure KeepsNewest (r : SharedReplay) (p : ToolProcess) (received : OutputStream → List String) :
    Prop where
  /-- Only the pump that has the buffer to itself may have yet to trim it. -/
  owned : ∀ s, (r.pumps s).stage = .trimming → r.owner = some s
  /-- But for that, the buffer holds the newest of the lines added so far. -/
  newest : (∀ s, (r.pumps s).stage ≠ .trimming) → r.buffer.lines =
    (r.added.map (·.text)).rtake (min r.added.length (max p.capacity 1))
  passed : ∀ s, textsOf s r.passed <+: received s
  added : ∀ s, textsOf s r.added <+: textsOf s r.passed
  /-- In the end nothing is missing. -/
  complete : r.IsDone → ∀ s, textsOf s r.added = received s
  /-- A failed run shows again what is in the buffer then: the newest lines in the order in which
  they were added, and so of each stream its newest in their order. -/
  replayed : r.IsDone → ∀ (ending : RunEnd) (files : FileTree), ending.isFailure = true →
    ∃ shown, shown <:+ r.added ∧ shown.length = min r.added.length (max p.capacity 1) ∧
      (∀ s, textsOf s shown <:+ received s) ∧ r.buffer.lines = shown.map (·.text) ∧
      (p.conclude r.added ending files).replay = some (shown.map (·.text))

theorem Follows.keepsNewest {p : ToolProcess} (h : r.Follows p.capacity received) :
    r.KeepsNewest p received where
  owned := h.holds.owned
  newest hnone := by rw [h.holds.whole hnone, lines_kept]
  passed s := ⟨_, h.passed s⟩
  added s := h.passed_extends_added s
  complete hdone s := h.textsOf_added_of_isDone hdone s
  replayed hdone ending files hfail := by
    have hbuffer : r.buffer = kept p.capacity r.added := h.holds.whole hdone.not_trimming
    have hlines : r.buffer.lines =
        (r.added.rtake (min r.added.length (max p.capacity 1))).map (·.text) := by
      rw [hbuffer, lines_kept]
      simp [List.rtake, List.map_drop]
    have hsuffix : r.added.rtake (min r.added.length (max p.capacity 1)) <:+ r.added :=
      List.drop_suffix _ _
    refine ⟨_, hsuffix, ?_, fun s => ?_, hlines, ?_⟩
    · rw [List.rtake, List.length_drop]
      omega
    · rw [← h.textsOf_added_of_isDone hdone s]
      exact textsOf_suffix hsuffix s
    · rw [← hlines, hbuffer, ToolProcess.conclude, if_pos hfail]
      rfl

end SharedReplay

/-- A run that takes up its lines as they end shows again what the pumps keep if they have their
turns in that order. -/
theorem ToolProcess.exists_schedule_of_conclude (p : ToolProcess) (writings : List Writing)
    {ending : RunEnd} (h : ending.isFailure = true) (files : FileTree) : ∃ schedule,
      let r := (SharedReplay.start p.capacity fun s =>
        Pump.lines (writtenTo s writings)).run schedule
      r.IsDone ∧ r.added = outputLines writings ∧
        (p.conclude (outputLines writings) ending files).replay = some r.buffer.lines := by
  have hlines : ∀ s, textsOf s (outputLines writings) = Pump.lines (writtenTo s writings) := by
    intro s
    have hsome : (textsOf s (outputLines writings)).map some =
        (Pump.lines (writtenTo s writings)).map some :=
      (textsOf_outputLines s writings).trans (Pump.lines_eq _).symm
    exact List.map_injective_iff.2 (fun _ _ => Option.some.inj) hsome
  obtain ⟨schedule, hdone, hadded⟩ := SharedReplay.exists_run_start p.capacity hlines
  have hfollows := (SharedReplay.follows_start p.capacity fun s =>
    Pump.lines (writtenTo s writings)).run schedule
  obtain ⟨shown, -, -, -, hbuffer, hreplay⟩ := hfollows.keepsNewest.replayed hdone ending files h
  refine ⟨schedule, hdone, hadded, ?_⟩
  rw [hbuffer, ← hreplay, hadded]

/-- However the pumps have their turns, the buffer holds the newest of the lines added so far, as
many as it has room for and always one at least, and shows them again when the run fails. There are
turns for every order in which the lines may be added. -/
theorem ToolProcess.keeps_newest (p : ToolProcess) (received : OutputStream → List String) :
    (∀ schedule, ((SharedReplay.start p.capacity received).run schedule).KeepsNewest p received) ∧
      ∀ lines, (∀ s, textsOf s lines = received s) → ∃ schedule,
        ((SharedReplay.start p.capacity received).run schedule).IsDone ∧
          ((SharedReplay.start p.capacity received).run schedule).added = lines := by
  refine ⟨fun schedule => ?_, fun lines hlines => ?_⟩
  · exact ((SharedReplay.follows_start p.capacity received).run schedule).keepsNewest
  · exact SharedReplay.exists_run_start p.capacity hlines

/-- A line that is passed on first and added last is the one that is kept. -/
theorem ToolProcess.keeps_newest_overtaken :
    let p : ToolProcess := { tool := "dc", program := "/bin/sh", capacity := 0 }
    let received : OutputStream → List String
      | .output => ["a"]
      | .errors => ["b"]
    let schedule : List OutputStream :=
      [.output, .errors, .errors, .output, .errors, .errors, .output, .output, .output]
    let r := (SharedReplay.start p.capacity received).run schedule
    r.IsDone ∧ r.passed = [⟨.output, "a"⟩, ⟨.errors, "b"⟩] ∧
      r.added = [⟨.errors, "b"⟩, ⟨.output, "a"⟩] ∧ r.buffer.lines = ["a"] ∧
        (p.conclude r.added .killed default).replay = some ["a"] := by
  intro p received schedule r
  have hdone : r.IsDone := fun s => by cases s <;> rfl
  have hadded : r.added = [⟨.errors, "b"⟩, ⟨.output, "a"⟩] := by rfl
  have hkeeps : r.KeepsNewest p received := (ToolProcess.keeps_newest p received).1 schedule
  have hnewest : r.buffer.lines = ["a"] := by
    rw [hkeeps.newest hdone.not_trimming, hadded]
    rfl
  obtain ⟨shown, -, -, -, hshown, hreplay⟩ := hkeeps.replayed hdone .killed default rfl
  refine ⟨hdone, by rfl, hadded, hnewest, ?_⟩
  rw [hreplay, ← hshown, hnewest]

end LocalTopology
