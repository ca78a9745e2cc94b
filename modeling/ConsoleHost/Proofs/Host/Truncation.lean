import ConsoleHost.Proofs.Host.Composition
import ConsoleHost.Proofs.Host.Echo
import Mathlib

/-! Truncation: what the length that is answered for a line says of whether the whole line was
read. -/
namespace ConsoleHost

namespace HostCall

/-- The answered length, read without a sign. -/
theorem toNat_toUInt32_lineLength (n : Nat) :
    (lineLength n).toUInt32.toNat = min n (2 ^ 31 - 1) := by
  have hlt : min n maxLength < 2 ^ 32 := by
    unfold maxLength
    omega
  rw [lineLength, Bridge.toNat_toUInt32_ofNat hlt]
  unfold maxLength
  omega

/-- The answered length is greater than the room if the line is longer than that, but never if the
room is as much as the greatest length that is answered. -/
theorem lt_lineLength_iff (room : UInt32) (n : Nat) :
    room < (lineLength n).toUInt32 ↔ room.toNat < n ∧ room.toNat < 2 ^ 31 - 1 := by
  rw [UInt32.lt_iff_toNat_lt, toNat_toUInt32_lineLength, lt_min_iff]

end HostCall

namespace Bridge

open HostCall

variable {σ : Type} {c : Console HostError σ} {b : Bridge} {t u : σ} {k : Nat} {m : Memory}
  {offset maxLen : Int32} {line : Option String}

/-- A linked call that reads a line into a window of the published memory. -/
theorem stepOn_readln (h : b.Registered) (hp : b.store.published = some k)
    (hm : b.store.memories[k]? = some m) (hw : (Window.ofGuest offset maxLen).Fits m.size)
    (hread : c.readLine (c.note (.called (.readln offset maxLen)) t) = (.ok line, u)) :
    ∃ b' m', b.stepOn c (.call "readln" (HostCall.readln offset maxLen).args) t =
        (.ok (.result (some (lineLength (Text.encode (line.getD "")).length))), b', u) ∧
      b.DiffersAt b' k m' ∧
      m.Overwritten m' offset.toUInt32.toNat
        ((Text.encode (line.getD "")).take maxLen.toUInt32.toNat) := by
  have hfits : offset.toUInt32.toNat +
      ((Text.encode (line.getD "")).take maxLen.toUInt32.toNat).length ≤ m.size :=
    Nat.le_trans (Nat.add_le_add_left (List.length_take_le _ _) _) hw
  refine ⟨_, m.write offset.toUInt32.toNat _, ?_, differsAt_modify hm fun m => m.write _ _,
    Memory.overwritten_write hfits⟩
  refine (stepOn_call h (.readln offset maxLen) c t).trans ?_
  rw [serveOn_readln (Store.memory_of_published hp hm) hw, hread]
  rfl

/-- A line is read as far as there is room for it in the window, and its length is answered, but
never more than `2 ^ 31 - 1`. So the answer, read without a sign, is greater than the room exactly
if the line was cut and the room is less than that. -/
theorem readln_signals_cut (h : b.Registered) (hp : b.store.published = some k)
    (hm : b.store.memories[k]? = some m) (hw : (Window.ofGuest offset maxLen).Fits m.size)
    (hread : c.readLine (c.note (.called (.readln offset maxLen)) t) = (.ok line, u)) :
    ∃ value b' m', b.stepOn c (.call "readln" (HostCall.readln offset maxLen).args) t =
        (.ok (.result (some value)), b', u) ∧
      b.DiffersAt b' k m' ∧
      m.Overwritten m' offset.toUInt32.toNat
        ((Text.encode (line.getD "")).take maxLen.toUInt32.toNat) ∧
      ((Text.encode (line.getD "")).take maxLen.toUInt32.toNat ≠ Text.encode (line.getD "") ↔
        maxLen.toUInt32.toNat < (Text.encode (line.getD "")).length) ∧
      value.toUInt32.toNat = min (Text.encode (line.getD "")).length (2 ^ 31 - 1) ∧
      (maxLen.toUInt32 < value.toUInt32 ↔
        maxLen.toUInt32.toNat < (Text.encode (line.getD "")).length ∧
          maxLen.toUInt32.toNat < 2 ^ 31 - 1) := by
  obtain ⟨b', m', hstep, hdiffers, hover⟩ := stepOn_readln h hp hm hw hread
  refine ⟨_, b', m', hstep, hdiffers, hover, ?_, toNat_toUInt32_lineLength _,
    lt_lineLength_iff _ _⟩
  rw [ne_eq, List.take_eq_self_iff, Nat.not_le]

/-- Of a line of five bytes three are read, and five is answered. -/
theorem readln_signals_cut_hello : ∃ value b' r' m',
    onePage.stepOn Recorder.console (.call "readln" (HostCall.readln 2 3).args)
        (.start ["hello"] ⟨0, 0, ""⟩) = (.ok (.result (some value)), b', r') ∧
      onePage.DiffersAt b' 0 m' ∧ m'.read 2 3 = [0x68, 0x65, 0x6C] ∧
      value.toUInt32.toNat = 5 ∧ (3 : UInt32) < value.toUInt32 := by
  have hread : Recorder.console.readLine (Recorder.console.note (.called (.readln 2 3))
      (.start ["hello"] ⟨0, 0, ""⟩)) = (.ok (some "hello"), _) := rfl
  obtain ⟨value, b', m', hstep, hdiffers, hover, -, hvalue, hiff⟩ :=
    readln_signals_cut (b := onePage) rfl rfl rfl (by decide) hread
  exact ⟨value, b', _, m', hstep, hdiffers, hover.read, hvalue, hiff.mpr (by decide)⟩

/-- A line of so many bytes. -/
def lineOf (n : Nat) : String := String.ofList (List.replicate n 'a')

theorem length_encode_lineOf (n : Nat) : (Text.encode (lineOf n)).length = n := by
  have hsize : 'a'.utf8Size = 1 := rfl
  simp [lineOf, Text.encode, hsize]

/-- A bridge with the functions registered and a memory of some pages published. -/
def withPages (pages : Nat) : Bridge :=
  ⟨⟨HostFunction.all⟩, ⟨#[.ofPages pages none], some 0⟩⟩

theorem after_publish (r : Recorder) (pages : Nat) :
    empty.after r [.register, .newMemory pages none, .publish 0] = (withPages pages, r) := by
  have hregister :
      empty.step .register r = (.ok .done, ⟨⟨HostFunction.all⟩, .empty⟩, r) := by
    simp only [step, act, empty, Registry.register_empty, Dialogue.run]
  simp only [after, List.foldl_cons, List.foldl_nil, hregister]
  rfl

/-- In a memory of two gigabytes a line can be cut though the length that is answered for it is not
greater than the room. -/
theorem readln_hides_cut : ∃ b r m value b' r',
    empty.after (.start [lineOf (2 ^ 31)] ⟨0, 0, ""⟩)
        [.register, .newMemory 32768 none, .publish 0] = (b, r) ∧
      b.store.memories[0]? = some m ∧ (Window.ofGuest 0 0x7FFFFFFF).Fits m.size ∧
      b.step (.call "readln" (HostCall.readln 0 0x7FFFFFFF).args) r =
        (.ok (.result (some value)), b', r') ∧
      r'.events = r.events.push (.read (some (lineOf (2 ^ 31)))) ∧
      ¬ ((0x7FFFFFFF : Int32).toUInt32 < value.toUInt32 ↔
        (0x7FFFFFFF : Int32).toUInt32.toNat < (Text.encode (lineOf (2 ^ 31))).length) := by
  have hlength : (Text.encode (lineOf (2 ^ 31))).length = 2 ^ 31 := length_encode_lineOf _
  have hfits : (Window.ofGuest 0 0x7FFFFFFF).Fits (Memory.ofPages 32768 none).size := by decide
  have hread : Recorder.console.readLine (Recorder.console.note (.called (.readln 0 0x7FFFFFFF))
      (.start [lineOf (2 ^ 31)] ⟨0, 0, ""⟩)) = (.ok (some (lineOf (2 ^ 31))), _) := rfl
  obtain ⟨b', m', hstep, -, -⟩ :=
    stepOn_readln (b := withPages 32768) rfl rfl rfl hfits hread
  rw [stepOn_console] at hstep
  refine ⟨_, _, _, _, b', _, after_publish _ 32768, rfl, hfits, hstep, rfl, ?_⟩
  rw [lt_lineLength_iff, Option.getD_some, hlength]
  decide

end Bridge
end ConsoleHost
