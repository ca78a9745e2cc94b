import ConsoleHost.Command.Session
import ConsoleHost.Proofs.Command.Arguments
import ConsoleHost.Proofs.Console.Streams
import ConsoleHost.Proofs.Guest.Runs
import ConsoleHost.Proofs.Guest.Stages

/-! Sessions: the run of a module on the streams of a process is its run on a script of lines. -/
namespace ConsoleHost.Command

open Guest Recorder

variable {decode : Decoder} {w : Surroundings} {path : String} {args : List String}
  {file : ModuleFile} {bytes : List UInt8} {outcome : Outcome} {events : List Event}
  {r : Recorder} {s : Streams} {lines : List String}

/-- The file is at the path, the standard input has these bytes, and texts can be written. -/
structure Surroundings.Offers (w : Surroundings) (path : String) (file : ModuleFile)
    (bytes : List UInt8) : Prop where
  file : w.read path = .ok file
  input : w.input = .ok bytes
  outputFault : w.outputFault = none

/-- The exit code says whether a run went well, and the output is what it wrote, in order. -/
structure Finished.Shows (f : Finished) (outcome : Outcome) (events : List Event) : Prop where
  succeeded : f.exitCode = 0 ↔ outcome = .ok
  failed : f.exitCode = 1 ↔ outcome ≠ .ok
  output : f.output = String.join (textsWritten events)

theorem Surroundings.Offers.streams_open (h : w.Offers path file bytes) (verbosity : Nat) :
    (w.streams verbosity).Open bytes := by
  refine ⟨?_, ?_⟩
  · rw [Surroundings.streams, h.input]
    rfl
  · rw [Surroundings.streams, h.outputFault]
    rfl

theorem shows_conclude (outcome : Outcome) (h : s.output = String.join (textsWritten events)) :
    (conclude s outcome).Shows outcome events := by
  cases outcome with
  | ok | unfinished => exact ⟨by simp [conclude], by simp [conclude], h⟩
  | failed e => exact ⟨by simp [conclude], by simp [conclude], Streams.output_note.trans h⟩

/-- A session is the dialogue of its module, on a script of the lines of the standard input. -/
theorem shows_runFile (hw : w.Offers path file bytes) (hargs : Names path args) (fuel : Nat) :
    (session decode fuel w args).Shows
      (valueOn (runFile decode fuel path (.ok file)) (Text.lines bytes))
      (eventsOn (runFile decode fuel path (.ok file)) (Text.lines bytes)) := by
  obtain ⟨verbosity, hrequest⟩ := hargs.ofArguments_eq
  obtain ⟨s, hrun, houtput⟩ := (hw.streams_open verbosity).run (runFile decode fuel path (.ok file))
  have hsession : session decode fuel w args =
      conclude s (valueOn (runFile decode fuel path (.ok file)) (Text.lines bytes)) := by
    simp only [session, hrequest, runPath, hw.file, hrun]
  rw [hsession]
  refine shows_conclude _ ?_
  rw [houtput]
  simp [Surroundings.streams]

/-- On a recorder that nothing fails on, a program comes to what its dialogue comes to. -/
theorem runOn_start (p : Program) (fuel : Nat) (lines : List String) :
    p.runOn fuel console (.start lines ⟨0, 0, ""⟩) =
      (valueOn (p.run fuel) lines,
        (start lines ⟨0, 0, ""⟩).afterAll (eventsOn (p.run fuel) lines)) := by
  have hrun : (p.run fuel).run console (start lines ⟨0, 0, ""⟩) =
      (.ok (valueOn (p.run fuel) lines), _) :=
    run_of_spares (spares_sound (r := start lines ⟨0, 0, ""⟩) _)
  rw [Program.runOn, hrun]
  rfl

/-- A module that is loaded and run comes to what the dialogue of its file comes to. -/
theorem runFile_of_ends (h : file.source.Ends decode {} (.start lines ⟨0, 0, ""⟩) (outcome, r)) :
    ∃ fuel, ∀ fuel', fuel ≤ fuel' → ∀ path : String,
      valueOn (runFile decode fuel' path (.ok file)) lines = outcome ∧
        eventsOn (runFile decode fuel' path (.ok file)) lines = r.events.toList := by
  rw [Source.Ends] at h
  cases hload : Program.load decode file.source {} with
  | error e =>
    rw [hload] at h
    cases h
    refine ⟨0, ?_⟩
    intro fuel' _ path
    simp only [runFile, hload]
    exact ⟨rfl, rfl⟩
  | ok p =>
    rw [hload] at h
    obtain ⟨fuel, hfuel⟩ := h.runOn_eq
    refine ⟨fuel, ?_⟩
    intro fuel' hle path
    have hrun := hfuel fuel' hle
    rw [runOn_start, Prod.mk.injEq] at hrun
    obtain ⟨hvalue, rfl⟩ := hrun
    rw [events_afterAll]
    simp only [runFile, hload]
    exact ⟨hvalue, rfl⟩

/-- A session of a module that ends on a script of the lines of the standard input ends in the same
way and with the same output, whatever the flags for more messages and whatever the log filter. -/
theorem session_shows (file : ModuleFile)
    (h : file.source.Ends decode {} (.start (Text.lines bytes) ⟨0, 0, ""⟩) (outcome, r)) :
    ∃ fuel, ∀ fuel', fuel ≤ fuel' → ∀ (w : Surroundings) (path : String) (args : List String),
      w.Offers path file bytes → Names path args →
        (session decode fuel' w args).Shows outcome r.events.toList := by
  obtain ⟨fuel, hfuel⟩ := runFile_of_ends h
  refine ⟨fuel, ?_⟩
  intro fuel' hle w path args hw hargs
  obtain ⟨rfl, hevents⟩ := hfuel fuel' hle path
  rw [← hevents]
  exact shows_runFile hw hargs fuel'

/-- A guest that reads a line, writes it with a newline, and traps. -/
def repeatThenTrap : Module :=
  { Module.empty with
    imports :=
      [⟨"std", "readln", .func ⟨[.i32, .i32], [.i32]⟩⟩,
       ⟨"std", "_println", .func ⟨[.i32, .i32], []⟩⟩]
    memories := [⟨1, none, false⟩]
    funcs :=
      [⟨⟨[], []⟩,
        [.set (.call (.imported "readln") [.int 0, .int 8]),
         .call (.imported "_println") [.int 0, .var], .unreachable]⟩]
    exports := [⟨"memory", .memory 0⟩, ⟨"main", .own 0⟩] }

/-- The same guest in the text format of modules. -/
def repeatText : String :=
  "(module (import \"std\" \"readln\" (func $readln (param i32 i32) (result i32)))" ++
  " (import \"std\" \"_println\" (func $println (param i32 i32)))" ++
  " (memory (export \"memory\") 1)" ++
  " (func (export \"main\") (local $n i32)" ++
  " (local.set $n (call $readln (i32.const 0) (i32.const 8)))" ++
  " (call $println (i32.const 0) (local.get $n)) unreachable))"

/-- A file in the directory for temporary files, and the working directory beside that. -/
def temporary (file : ModuleFile) : FileTree ModuleFile :=
  .directory [("tmp", .directory [("m.wat", .file file)]), ("work", .directory [])]

theorem read_temporary (file : ModuleFile) :
    (temporary file).read ["work"] "/tmp/m.wat" = .ok file := by
  cbv

/-- The guest ends in this way whatever the bytes are that it is decoded from. -/
theorem ends_repeatThenTrap (bytes : List UInt8) :
    (Source.bytes bytes).Ends (.ofTable [(bytes, repeatThenTrap)]) {}
      (.start ["a\uFFFD", "b"] ⟨0, 0, ""⟩)
      (.failed (.trap "wasm trap: wasm `unreachable` instruction executed"),
        ⟨⟨0, 0, ""⟩, ⟨["b"], "a\uFFFD\n"⟩, 1, 2,
          #[.read (some "a\uFFFD"), .wrote "a\uFFFD", .wrote "\n"]⟩) := by
  have hvalid : repeatThenTrap.validate = .ok repeatThenTrap := by cbv
  have hcompile : (Source.bytes bytes).compile (.ofTable [(bytes, repeatThenTrap)]) =
      .ok repeatThenTrap := by
    simp [Source.compile, Decoder.ofTable, hvalid]
  have hconforms : ∀ i ∈ repeatThenTrap.imports, i.Conforms := by
    intro i hi
    simp only [repeatThenTrap, List.mem_cons, List.not_mem_nil, or_false] at hi
    rcases hi with rfl | rfl
    · exact Import.conforms_iff.mpr ⟨.readln, rfl⟩
    · exact Import.conforms_iff.mpr ⟨.println, rfl⟩
  exact (ends_of_load (Program.load_of_conforms hcompile hconforms {})).mpr ⟨by simp, 40, by cbv⟩

theorem session_shows_repeatThenTrap :
    ∃ fuel, (session (.ofTable [(Text.encode repeatText, repeatThenTrap)]) fuel
        ⟨(temporary ⟨.bytes (Text.encode repeatText), none⟩).read ["work"],
          .ok [0x61, 0xFF, 0x0D, 0x0A, 0x62], none, some "trace"⟩
        ["-v", "/tmp/m.wat", "--verbose", "-vv"]).Shows
      (.failed (.trap "wasm trap: wasm `unreachable` instruction executed"))
      [.read (some "a\uFFFD"), .wrote "a\uFFFD", .wrote "\n"] := by
  have hlines : Text.lines [0x61, 0xFF, 0x0D, 0x0A, 0x62] = ["a\uFFFD", "b"] := by cbv
  generalize Text.encode repeatText = contents
  have hends := ends_repeatThenTrap contents
  rw [← hlines] at hends
  obtain ⟨fuel, hfuel⟩ := session_shows ⟨.bytes contents, none⟩ hends
  refine ⟨fuel, hfuel fuel (Nat.le_refl _) _ "/tmp/m.wat" _ ⟨read_temporary _, rfl, rfl⟩ ?_⟩
  refine .intro ["-v"] ["--verbose", "-vv"] (.plain (by decide) (by decide)) ?_ ?_
  · intro arg harg
    rw [List.mem_singleton.mp harg]
    exact .letters 0
  · intro arg harg
    simp only [List.mem_cons, List.not_mem_nil, or_false] at harg
    rcases harg with rfl | rfl
    · exact .name
    · exact .letters 1

end ConsoleHost.Command
