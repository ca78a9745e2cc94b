import ConsoleHost.Proofs.Host.Refinement
import ConsoleHost.Proofs.Text.Encoding

/-! Echoes: a line that is read into the published memory and printed from there. -/
namespace ConsoleHost.Bridge

variable {b : Bridge} {r : Recorder} {k : Nat} {m : Memory} {offset len maxLen : Int32} {s : String}
  {rest : List String}

theorem toNat_toUInt32_ofNat {n : Nat} (h : n < 2 ^ 32) : (Int32.ofNat n).toUInt32.toNat = n := by
  have heq : (Int32.ofNat n).toUInt32 = UInt32.ofNat n := rfl
  rw [heq, UInt32.toNat_ofNat', Nat.mod_eq_of_lt h]

/-- A line that is there and can be read is put at the start of the window, as far as it fits. -/
theorem step_readln (h : b.Registered) (hp : b.store.published = some k)
    (hm : b.store.memories[k]? = some m) (hw : (Window.ofGuest offset maxLen).Fits m.size)
    (hs : r.script.input = s :: rest) (hread : r.reads + 1 ≠ r.faults.read) :
    ∃ value b' m',
      b.step (.call "readln" (HostCall.readln offset maxLen).args) r =
        (.ok (.result (some value)), b', r.after (.read (some s))) ∧
      value.toInt = min (Text.encode s).length (2 ^ 31 - 1) ∧ b.DiffersAt b' k m' ∧
      m.Overwritten m' offset.toUInt32.toNat
        ((Text.encode s).take maxLen.toUInt32.toNat) := by
  have hspares : r.Spares [.read (some s)] := Recorder.spares_read.mpr hread
  have hline : Recorder.console.readLine r = (.ok (some s), r.after (.read (some s))) := by
    have hfirst : r.script.readLine.1 = some s := by
      rw [Script.readLine, hs]
      rfl
    rw [← hfirst]
    exact Recorder.readLine_of_spares hspares
  have hanswers := answers_of_fits h (c := .readln offset maxLen) rfl hp hm hw r
  simp only [HostCall.operation, Host.Operation.perform, Dialogue.run_bind, Host.run_readln,
    hline] at hanswers
  obtain ⟨line, value, b', m', hevents, -, hstep, hvalue, hdiffers, hover, -⟩ := hanswers
  cases (Array.push_eq_push.mp hevents).1
  exact ⟨value, b', m', hstep, hvalue, hdiffers, hover⟩

/-- Bytes of the memory are written as one text. -/
theorem step_print_text (h : b.Registered) (hp : b.store.published = some k)
    (hm : b.store.memories[k]? = some m) (hw : (Window.ofGuest offset len).Fits m.size) :
    b.step (.call "_print" (HostCall.print offset len).args) r =
      match r.write (Text.decode (m.read offset.toUInt32.toNat len.toUInt32.toNat)) with
      | (.ok _, r') => (.ok (.result none), b, r')
      | (.error e, r') => (.error (.host e), b, r') := by
  have hserve : (HostCall.print offset len).serve b.store =
      .note (.called (.print offset len)) fun _ =>
        HostCall.onBytes b.store (Window.ofGuest offset len) Host.print := rfl
  rw [HostCall.onBytes_of_fits (Store.memory_of_published hp hm) hw] at hserve
  refine (step_of_onConsole h hserve).trans ?_
  simp only [Dialogue.run_bind, Host.print, Dialogue.say, Dialogue.run, Recorder.console,
    Window.ofGuest]
  cases r.write (Text.decode (m.read offset.toUInt32.toNat len.toUInt32.toNat)) with
  | mk result r' => cases result <;> rfl

/-- If the text can be written, nothing is left of the call but the text. -/
theorem step_print (h : b.Registered) (hp : b.store.published = some k)
    (hm : b.store.memories[k]? = some m) (hw : (Window.ofGuest offset len).Fits m.size)
    (hwrite : r.writes + 1 ≠ r.faults.write) :
    b.step (.call "_print" (HostCall.print offset len).args) r =
      (.ok (.result none), b,
        r.after (.wrote (Text.decode (m.read offset.toUInt32.toNat len.toUInt32.toNat)))) := by
  have hspares :
      r.Spares [.wrote (Text.decode (m.read offset.toUInt32.toNat len.toUInt32.toNat))] :=
    Recorder.spares_wrote.mpr hwrite
  rw [step_print_text h hp hm hw, Recorder.write_of_spares hspares]

/-- A line that is read into a window of the memory and printed from there is written once, as far
as it fits in the window. -/
theorem readln_print (offset maxLen : Int32) (h : b.Registered) (hp : b.store.published = some k)
    (hm : b.store.memories[k]? = some m) (hw : (Window.ofGuest offset maxLen).Fits m.size)
    (hs : r.script.input = s :: rest) (hread : r.reads + 1 ≠ r.faults.read)
    (hwrite : r.writes + 1 ≠ r.faults.write) :
    ∃ value b' r' r'' text,
      b.step (.call "readln" (HostCall.readln offset maxLen).args) r =
        (.ok (.result (some value)), b', r') ∧
      b'.step (.call "_print" (HostCall.print offset
          (.ofNat (min (Text.encode s).length maxLen.toUInt32.toNat))).args) r' =
        (.ok (.result none), b', r'') ∧
      r'.events = r.events.push (.read (some s)) ∧ r''.events = r'.events.push (.wrote text) ∧
      Text.Clipped maxLen.toUInt32.toNat s text := by
  obtain ⟨value, b', m', hstep, -, hdiffers, hover⟩ := step_readln h hp hm hw hs hread
  have hlen : (Int32.ofNat (min (Text.encode s).length maxLen.toUInt32.toNat)).toUInt32.toNat =
      ((Text.encode s).take maxLen.toUInt32.toNat).length := by
    rw [List.length_take, Nat.min_comm]
    apply toNat_toUInt32_ofNat
    exact Nat.lt_of_le_of_lt (Nat.min_le_left _ _) (UInt32.toNat_lt _)
  have hfits : (Window.ofGuest offset
      (.ofNat (min (Text.encode s).length maxLen.toUInt32.toNat))).Fits m'.size := by
    rw [hover.size]
    refine Nat.le_trans (Nat.add_le_add_left ?_ _) hw
    exact Nat.le_trans (Nat.le_of_eq hlen) (List.length_take_le _ _)
  have hprint := step_print (r := r.after (.read (some s))) (hdiffers.registry.trans h)
    (hdiffers.published.trans hp) hdiffers.memory hfits hwrite
  refine ⟨value, b', _, _, _, hstep, hprint, rfl, rfl, ?_⟩
  rw [hlen, hover.read]
  exact Text.clipped_decode_take _ s

/-- A bridge with the functions registered and one page of memory published. -/
def onePage : Bridge := ⟨⟨HostFunction.all⟩, ⟨#[.ofPages 1 none], some 0⟩⟩

/-- Of a line of three bytes two are read. The second opens a character that is not whole. -/
theorem readln_print_split :
    ∃ value b r r',
      onePage.step (.call "readln" (HostCall.readln 5 2).args) (.start ["né"] ⟨0, 0, ""⟩) =
        (.ok (.result (some value)), b, r) ∧
      b.step (.call "_print" (HostCall.print 5 2).args) r = (.ok (.result none), b, r') ∧
      r'.events = r.events.push (.wrote "n\uFFFD") := by
  obtain ⟨value, b, r, r', text, hread, hprint, -, hwrote, hclipped⟩ :=
    readln_print (b := onePage) (r := .start ["né"] ⟨0, 0, ""⟩) 5 2 rfl rfl rfl (by decide) rfl
      (by decide) (by decide)
  obtain rfl : text = "n\uFFFD" := hclipped.unique (Text.clipped_decode_take 2 "né")
  exact ⟨value, b, r, r', hread, hprint, hwrote⟩

end ConsoleHost.Bridge
