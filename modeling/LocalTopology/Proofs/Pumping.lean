import LocalTopology.Process.Run
import Mathlib.Data.List.DropRight

/-!
# Which lines of output are passed on

The lines of a stream are what its line feeds end, and what follows the last one (`rawLines`). The
pump holds the bytes of the line that has not ended: a byte that is no line feed adds to them, and a
line feed passes the line on and starts afresh (`Pump.linesFrom_eq`). A line that is no text closes
the pump for good, so that all lines behind it are lost (`ToolProcess.passesOn_conclude`).
-/

namespace LocalTopology

/-! ## Lines of bytes -/

/-- A line without the carriage return at its end. -/
def withoutReturn (line : List UInt8) : List UInt8 :=
  if line.getLast? = some 13 then line.dropLast else line

/-- The lines of a stream, as bytes: what each line feed ends, without the carriage return before
it, and what follows the last line feed, if anything does. -/
def rawLines (bytes : List UInt8) : List (List UInt8) :=
  (bytes.splitOn 10).dropLast.map withoutReturn ++
    ((bytes.splitOn 10).getLast?.filter fun last => last ≠ []).toList

/-- The text of a line, if its bytes are one. -/
def text? (line : List UInt8) : Option String :=
  String.fromUTF8? ⟨line.toArray⟩

theorem rawLines_of_not_mem {bytes : List UInt8} (h : 10 ∉ bytes) :
    rawLines bytes = if bytes = [] then [] else [bytes] := by
  rw [rawLines, List.splitOn_eq_singleton h]
  by_cases hb : bytes = [] <;> simp [hb]

theorem rawLines_append {line : List UInt8} (h : 10 ∉ line) (bytes : List UInt8) :
    rawLines (line ++ 10 :: bytes) = withoutReturn line :: rawLines bytes := by
  have hne : bytes.splitOn 10 ≠ [] := List.splitOn_ne_nil 10 bytes
  rw [rawLines, List.splitOn_append_cons_self_of_not_mem h, List.dropLast_cons_of_ne_nil hne,
    List.getLast?_cons_of_ne_nil hne, List.map_cons, List.cons_append, rawLines]

/-! ## One stream -/

namespace Pump

theorem reverse_dropReturn (newestFirst : List UInt8) :
    (dropReturn newestFirst).reverse = withoutReturn newestFirst.reverse := by
  unfold dropReturn withoutReturn
  split
  · simp
  · next hno =>
    rw [if_neg]
    intro hlast
    rw [List.getLast?_reverse] at hlast
    obtain ⟨rest, rfl⟩ := List.head?_eq_some_iff.1 hlast
    exact hno rest rfl

theorem pass_of_eq_some {newestFirst : List UInt8} {line : String}
    (h : text? newestFirst.reverse = some line) : pass newestFirst = (some line, {}) := by
  unfold text? at h
  simp only [pass, h]

theorem pass_of_eq_none {newestFirst : List UInt8} (h : text? newestFirst.reverse = none) :
    pass newestFirst = (none, { isOpen := false }) := by
  unfold text? at h
  simp only [pass, h]

theorem linesFrom_of_closed {p : Pump} (h : p.isOpen = false) (bytes : List UInt8) :
    p.linesFrom bytes = [] := by
  induction bytes with
  | nil => simp [linesFrom, finish, h]
  | cons byte bytes ih => simpa [linesFrom, feed, h] using ih

/-- What a pump passes on when the line that has not ended holds no line feed. -/
theorem linesFrom_eq {pending : List UInt8} (h : 10 ∉ pending) (bytes : List UInt8) :
    (linesFrom { pending } bytes).map some =
      ((rawLines (pending.reverse ++ bytes)).map text?).takeWhile Option.isSome := by
  induction bytes generalizing pending with
  | nil =>
    rw [List.append_nil, rawLines_of_not_mem (by simpa using h)]
    by_cases hp : pending = []
    · simp [linesFrom, finish, hp]
    · rcases ht : text? pending.reverse with _ | line
      · simp [linesFrom, finish, hp, pass_of_eq_none ht, ht]
      · simp [linesFrom, finish, hp, pass_of_eq_some ht, ht]
  | cons byte bytes ih =>
    by_cases hbyte : byte = 10
    · subst hbyte
      rw [rawLines_append (by simpa using h), ← reverse_dropReturn, List.map_cons]
      rcases ht : text? (dropReturn pending).reverse with _ | line
      · simp [linesFrom, feed, pass_of_eq_none ht, linesFrom_of_closed]
      · have hrest := @ih [] List.not_mem_nil
        simpa [linesFrom, feed, pass_of_eq_some ht] using hrest
    · have hmem : 10 ∉ byte :: pending := by simp [h, Ne.symm hbyte]
      have hrest := ih hmem
      simpa [linesFrom, feed, hbyte] using hrest

theorem lines_eq (bytes : List UInt8) :
    (lines bytes).map some = ((rawLines bytes).map text?).takeWhile Option.isSome :=
  linesFrom_eq List.not_mem_nil bytes

end Pump

/-! ## Both streams -/

/-- What was written to a stream. -/
def writtenTo (s : OutputStream) (writings : List Writing) : List UInt8 :=
  (writings.filter (·.stream = s)).flatMap (·.bytes)

namespace OutputLine

/-- The texts of the lines of a stream. -/
def textsOf (s : OutputStream) (lines : List OutputLine) : List String :=
  (lines.filter (·.stream = s)).map (·.text)

theorem textsOf_append (s : OutputStream) (lines lines' : List OutputLine) :
    textsOf s (lines ++ lines') = textsOf s lines ++ textsOf s lines' := by
  simp [textsOf]

theorem textsOf_toList (s s' : OutputStream) (line : Option String) :
    textsOf s (line.map (OutputLine.mk s')).toList = if s' = s then line.toList else [] := by
  cases line <;> by_cases h : s' = s <;> simp [textsOf, h]

end OutputLine

open OutputLine

namespace PumpPair

/-- The pump of a stream. -/
def pump (p : PumpPair) : OutputStream → Pump
  | .output => p.output
  | .errors => p.errors

theorem textsOf_pass (p : PumpPair) (s s' : OutputStream) (line : Option String) :
    textsOf s (p.pass s' line).passed.reverse =
      textsOf s p.passed.reverse ++ if s' = s then line.toList else [] := by
  have hpassed : (p.pass s' line).passed.reverse =
      p.passed.reverse ++ (line.map (OutputLine.mk s')).toList := by
    cases line <;> simp [pass]
  rw [hpassed, textsOf_append, textsOf_toList]

/-- A byte of one stream is taken up by its pump and leaves the other as it is. -/
theorem feed_eq (p : PumpPair) (s s' : OutputStream) (byte : UInt8) :
    (p.feed (s', byte)).pump s = (if s' = s then ((p.pump s).feed byte).2 else p.pump s) ∧
      textsOf s (p.feed (s', byte)).passed.reverse = textsOf s p.passed.reverse ++
        if s' = s then ((p.pump s).feed byte).1.toList else [] := by
  cases s' <;> simp only [feed, textsOf_pass] <;> cases s <;> exact ⟨rfl, rfl⟩

theorem textsOf_finish (p : PumpPair) (s : OutputStream) :
    textsOf s p.finish = textsOf s p.passed.reverse ++ (p.pump s).finish.toList := by
  rw [finish, textsOf_pass, textsOf_pass]
  cases s <;> simp [pump]

theorem textsOf_foldl (s : OutputStream) (xs : List (OutputStream × UInt8)) (p : PumpPair) :
    textsOf s (xs.foldl feed p).finish = textsOf s p.passed.reverse ++
      (p.pump s).linesFrom ((xs.filter (·.1 = s)).map (·.2)) := by
  induction xs generalizing p with
  | nil => simp [Pump.linesFrom, textsOf_finish]
  | cons x xs ih =>
    obtain ⟨s', byte⟩ := x
    obtain ⟨hpump, hpassed⟩ := p.feed_eq s s' byte
    rw [List.foldl_cons, ih, hpump, hpassed]
    by_cases hs : s' = s
    · simp [hs, Pump.linesFrom]
    · simp [hs]

end PumpPair

theorem writtenTo_eq (s : OutputStream) (writings : List Writing) :
    writtenTo s writings = ((writings.flatMap fun w =>
      w.bytes.map fun byte => (w.stream, byte)).filter (·.1 = s)).map (·.2) := by
  induction writings with
  | nil => rfl
  | cons w writings ih =>
    rw [List.flatMap_cons, List.filter_append, List.map_append, ← ih, writtenTo, List.filter_cons]
    by_cases hs : w.stream = s
    · simp [hs, writtenTo, List.filter_map, Function.comp_def]
    · simp [hs, writtenTo, List.filter_map, Function.comp_def]

/-- The lines of each stream are passed on up to the first that is no text. -/
theorem textsOf_outputLines (s : OutputStream) (writings : List Writing) :
    (textsOf s (outputLines writings)).map some =
      ((rawLines (writtenTo s writings)).map text?).takeWhile Option.isSome := by
  have hstart : PumpPair.pump {} s = {} := by cases s <;> rfl
  rw [outputLines, PumpPair.textsOf_foldl, ← writtenTo_eq, hstart, ← Pump.lines_eq]
  rfl

/-! ## The newest lines -/

namespace ReplayBuffer

theorem rtake_rtake_append {α : Type} (n : Nat) (xs ys : List α) :
    (xs.rtake n ++ ys).rtake n = (xs ++ ys).rtake n := by
  simp [List.rtake_eq_reverse_take_reverse, List.take_append, List.take_take]

@[simp]
theorem capacity_push (b : ReplayBuffer) (line : String) : (b.push line).capacity = b.capacity :=
  rfl

theorem lines_push {b : ReplayBuffer} (h : b.lines.length ≤ b.capacity) (line : String) :
    (b.push line).lines = (b.lines ++ [line]).rtake b.capacity := by
  have hlength : (b.lines ++ [line]).length = b.lines.length + 1 := by simp
  unfold push List.rtake
  by_cases hfull : b.capacity < (b.lines ++ [line]).length
  · have hdrop : (b.lines ++ [line]).length - b.capacity = 1 := by omega
    simp only [hfull, if_true, hdrop]
  · have hdrop : (b.lines ++ [line]).length - b.capacity = 0 := by omega
    simp only [hfull, if_false, hdrop, List.drop_zero]

/-- A buffer keeps the newest lines, as many as it can. -/
theorem lines_pushAll {b : ReplayBuffer} (h : b.lines.length ≤ b.capacity) (lines : List String) :
    (b.pushAll lines).lines = (b.lines ++ lines).rtake b.capacity := by
  induction lines generalizing b with
  | nil =>
    have hdrop : b.lines.length - b.capacity = 0 := by omega
    simp [pushAll, List.rtake, hdrop]
  | cons line lines ih =>
    have hpush := lines_push h line
    have hlength : (b.push line).lines.length ≤ (b.push line).capacity := by
      rw [hpush, List.rtake, List.length_drop, capacity_push]
      omega
    have hstep : b.pushAll (line :: lines) = (b.push line).pushAll lines := rfl
    rw [hstep, ih hlength, hpush, capacity_push, rtake_rtake_append, List.append_assoc,
      List.singleton_append]

end ReplayBuffer

/-- What is seen of a run: the lines of each stream up to the first that is no text, and of all
these the newest again if the run failed. -/
structure ToolRun.PassesOn (run : ToolRun) (writings : List Writing) (ending : RunEnd)
    (capacity : Nat) : Prop where
  passed : ∀ s, (textsOf s run.lines).map some =
    ((rawLines (writtenTo s writings)).map text?).takeWhile Option.isSome
  /-- Nothing is lost exactly if every line is a text. -/
  whole_iff : ∀ s, (textsOf s run.lines).map some = (rawLines (writtenTo s writings)).map text? ↔
    ∀ line ∈ rawLines (writtenTo s writings), (text? line).isSome = true
  replayed : run.replay =
    if ending.isFailure then some ((run.lines.map (·.text)).rtake capacity) else none

/-- Whatever a tool wrote and however it ended, what is seen of its streams are their lines before
the first that is no text. -/
theorem ToolProcess.passesOn_conclude (p : ToolProcess) (writings : List Writing) (ending : RunEnd)
    (files : FileTree) :
    (p.conclude (outputLines writings) ending files).PassesOn writings ending
      (max p.capacity 1) := by
  have hlines : (p.conclude (outputLines writings) ending files).lines = outputLines writings := by
    unfold conclude
    split <;> rfl
  refine ⟨fun s => ?_, fun s => ?_, ?_⟩
  · rw [hlines, textsOf_outputLines]
  · rw [hlines, textsOf_outputLines, List.takeWhile_eq_self_iff]
    simp
  · rw [hlines, conclude]
    have hstart : (ReplayBuffer.ofCapacity p.capacity).lines.length ≤
        (ReplayBuffer.ofCapacity p.capacity).capacity := Nat.zero_le _
    split
    · exact congrArg some (ReplayBuffer.lines_pushAll hstart _)
    · rfl

/-- A text behind a line that is none. -/
theorem Pump.exists_text_lost : ∃ bytes line text, line ∈ rawLines bytes ∧
    text? line = some text ∧ text ∉ Pump.lines bytes :=
  ⟨[97, 10, 255, 10, 98, 10], [98], "b", by decide +kernel, by decide +kernel, by decide +kernel⟩

end LocalTopology
