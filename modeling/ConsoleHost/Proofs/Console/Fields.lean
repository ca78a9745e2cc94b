import Mathlib
import ConsoleHost.Console.Basic
import ConsoleHost.Field

/-! Fields on a console: the pieces that are written, one by one, up to the first that the console
refuses. -/
namespace ConsoleHost.Field

variable {ε σ : Type} {write : String → σ → Except ε Unit × σ} {texts before after : List String}
  {s t u : σ} {e : ε} {text : String}

/-- Gives texts to a sink, one by one up to the first that it refuses. -/
def feed (write : String → σ → Except ε Unit × σ) : List String → σ → Except ε Unit × σ
  | [], s => (.ok (), s)
  | text :: rest, s =>
    match write text s with
    | (.ok _, s) => feed write rest s
    | (.error e, s) => (.error e, s)

theorem feed_append (before after : List String) (s : σ) :
    feed write (before ++ after) s =
      match feed write before s with
      | (.ok _, s) => feed write after s
      | (.error e, s) => (.error e, s) := by
  induction before generalizing s with
  | nil => rfl
  | cons text rest ih =>
    simp only [List.cons_append, feed]
    split
    · exact ih _
    · rfl

/-- If the sink refuses a text, it has taken those before that one and is given none after it. -/
theorem refused_of_feed (h : feed write texts s = (.error e, u)) :
    ∃ before text after t, texts = before ++ text :: after ∧
      feed write before s = (.ok (), t) ∧ write text t = (.error e, u) := by
  induction texts generalizing s with
  | nil => cases h
  | cons text rest ih =>
    rw [feed] at h
    split at h
    · rename_i hw
      obtain ⟨before, refused, after, t, rfl, hbefore, hrefused⟩ := ih h
      refine ⟨text :: before, refused, after, t, rfl, ?_, hrefused⟩
      rw [feed, hw]
      exact hbefore
    · rename_i hw
      cases h
      exact ⟨[], text, rest, s, rfl, rfl, hw⟩

/-- Spaces in pieces of 4096, and one of what is left over. -/
def padding (n : Nat) : List String :=
  List.replicate (n / 4096) (spaces 4096) ++
    if n % 4096 = 0 then [] else [spaces (n % 4096)]

@[simp] theorem length_spaces (n : Nat) : (spaces n).length = n := by simp [spaces]

theorem length_of_mem_padding {n : Nat} {piece : String} (h : piece ∈ padding n) :
    0 < piece.length ∧ piece.length ≤ 4096 := by
  rcases List.mem_append.mp h with h | h
  · obtain ⟨-, rfl⟩ := List.mem_replicate.mp h
    simp
  · split at h
    · cases h
    · obtain rfl := List.mem_singleton.mp h
      rw [length_spaces]
      omega

theorem length_padding (n : Nat) : (String.join (padding n)).length = n := by
  have hsum : ((padding n).map String.length).sum = n / 4096 * 4096 + n % 4096 := by
    unfold padding
    split
    · simp
      omega
    · simp
  rw [String.length_join, hsum]
  omega

theorem padding_of_lt {n : Nat} (h0 : n ≠ 0) (h : n < chunk) : padding n = [spaces n] := by
  have hlt : n < 4096 := h
  simp [padding, Nat.div_eq_of_lt hlt, Nat.mod_eq_of_lt hlt, h0]

theorem padding_add_chunk (n : Nat) : padding (n + chunk) = fullChunk :: padding n := by
  have hdiv : (n + 4096) / 4096 = n / 4096 + 1 := by omega
  have hmod : (n + 4096) % 4096 = n % 4096 := by omega
  rw [padding, show n + chunk = n + 4096 from rfl, hdiv, hmod, List.replicate_succ]
  rfl

theorem run_write {next : Unit → Dialogue Unit} (c : Console ε σ)
    (hnext : ∀ s, (next ()).run c s = feed c.write texts s) (s : σ) :
    (Dialogue.write text next).run c s = feed c.write (text :: texts) s := by
  rw [Dialogue.run, feed]
  cases c.write text s with
  | mk result t =>
    cases result with
    | ok => exact hnext t
    | error e => rfl

theorem run_say (c : Console ε σ) (text : String) (s : σ) :
    (Dialogue.say text).run c s = feed c.write [text] s := run_write c (fun _ => rfl) s

theorem run_bind {d next : Dialogue Unit} (c : Console ε σ)
    (hd : d.run c s = feed c.write before s) (hnext : ∀ s, next.run c s = feed c.write after s) :
    (d.bind fun _ => next).run c s = feed c.write (before ++ after) s := by
  rw [Dialogue.run_bind, feed_append, hd]
  cases feed c.write before s with
  | mk result t =>
    cases result with
    | ok => exact hnext t
    | error e => rfl

/-- The loop writes the padding. -/
theorem fill_feeds (c : Console ε σ) (n : Nat) (s : σ) :
    (fill n).run c s = feed c.write (padding n) s := by
  induction n using fill_induction generalizing s with
  | zero => simp [padding, feed]
  | rest n h0 hlt =>
    rw [fill_of_lt h0 hlt, padding_of_lt h0 hlt]
    exact run_say c _ s
  | add n ih =>
    rw [fill_add_chunk, padding_add_chunk]
    exact run_write c ih s

/-- The text and the padding of a field, in the order in which they are written. -/
def pieces (text : String) (width : Int32) : List String :=
  let filling := padding (width.toInt.natAbs - text.length)
  if width < 0 then text :: filling else filling ++ [text]

theorem length_pieces (text : String) (width : Int32) :
    (String.join (pieces text width)).length = max text.length width.toInt.natAbs := by
  have hpadding := length_padding (width.toInt.natAbs - text.length)
  unfold pieces
  dsimp only
  split
  · rw [String.join_cons, String.length_append, hpadding]
    omega
  · rw [String.join_append, String.length_append, hpadding, String.join_cons]
    simp
    omega

/-- Writing a field gives its pieces to the console: the whole text once, and before or after it the
padding, of which no piece is empty. They make up as many columns as the width says, or as the text
has. The first error ends it and is the one that is returned. -/
theorem write_feeds (c : Console ε σ) (text : String) (width : Int32) (s : σ) :
    (Field.write text width).run c s = feed c.write (pieces text width) s ∧
    (∀ piece ∈ padding (width.toInt.natAbs - text.length), piece ≠ "") ∧
    (String.join (pieces text width)).length = max text.length width.toInt.natAbs ∧
    ((∃ t, (Field.write text width).run c s = (.ok (), t)) ∨
      ∃ before piece after t e u, pieces text width = before ++ piece :: after ∧
        feed c.write before s = (.ok (), t) ∧ c.write piece t = (.error e, u) ∧
        (Field.write text width).run c s = (.error e, u)) := by
  have hfeeds : (Field.write text width).run c s = feed c.write (pieces text width) s := by
    have hpadding := fill_feeds c (columns width - text.length)
    unfold Field.write pieces alignment
    dsimp only
    by_cases hw : width < 0
    · rw [if_pos hw, if_pos hw]
      exact run_write c hpadding s
    · rw [if_neg hw, if_neg hw]
      exact run_bind c (hpadding s) (run_say c text)
  refine ⟨hfeeds, ?_, length_pieces text width, ?_⟩
  · rintro piece hmem rfl
    exact absurd (length_of_mem_padding hmem).1 (by decide)
  · rw [hfeeds]
    cases hfeed : feed c.write (pieces text width) s with
    | mk result u =>
      cases result with
      | ok => exact .inl ⟨u, rfl⟩
      | error e =>
        obtain ⟨before, piece, after, t, hpieces, hbefore, hrefused⟩ := refused_of_feed hfeed
        exact .inr ⟨before, piece, after, t, e, u, hpieces, hbefore, hrefused, rfl⟩

/-- A text that fills its field is written alone. -/
theorem write_of_columns_le {width : Int32} (h : columns width ≤ text.length) :
    Field.write text width = .say text := by
  have hroom : columns width - text.length = 0 := Nat.sub_eq_zero_of_le h
  simp only [Field.write, hroom, fill_zero]
  split <;> rfl

example : pieces "wide" (-8200) = ["wide", spaces 4096, spaces 4096, spaces 4] := by rfl

example : pieces "wide" 3 = ["wide"] := by rfl

end ConsoleHost.Field
