import Mathlib
import ConsoleHost.Proofs.Text.Encoding

/-! Well-formed sequences: what they are by the bits they hold, and how the decoder goes on once one
has begun. -/
namespace ConsoleHost.Text

variable {b : UInt8} {bytes p q : List UInt8} {c : Char} {n v : Nat} {o : Opened}
  {text : String}

/-- A byte that is not the first of its sequence. -/
def IsTail (b : UInt8) : Prop := b.toNat / 64 = 2

instance (b : UInt8) : Decidable (IsTail b) := inferInstanceAs (Decidable (_ = _))

/-- The number that the bits of a sequence hold. The first byte says how many there are, and every
other one holds six bits. -/
def held? : List UInt8 → Option Nat
  | [a] => if a.toNat < 128 then some a.toNat else none
  | [a, b] =>
    if a.toNat / 32 = 6 ∧ IsTail b then some (a.toNat % 32 * 64 + b.toNat % 64) else none
  | [a, b, c] =>
    if a.toNat / 16 = 14 ∧ IsTail b ∧ IsTail c then
      some ((a.toNat % 16 * 64 + b.toNat % 64) * 64 + c.toNat % 64)
    else none
  | [a, b, c, d] =>
    if a.toNat / 8 = 30 ∧ IsTail b ∧ IsTail c ∧ IsTail d then
      some (((a.toNat % 8 * 64 + b.toNat % 64) * 64 + c.toNat % 64) * 64 + d.toNat % 64)
    else none
  | _ => none

/-- A sequence that holds a number as no shorter one does, and not that of a surrogate or one above
U+10FFFF. -/
structure WellFormed (bytes : List UInt8) (v : Nat) : Prop where
  holds : held? bytes = some v
  shortest : ∀ other, held? other = some v → bytes.length ≤ other.length
  scalar : v < 0xD800 ∨ 0xDFFF < v ∧ v < 0x110000

theorem held?_utf8EncodeChar (c : Char) : held? (String.utf8EncodeChar c) = some c.toNat := by
  have hvalid : c.toNat < 0xD800 ∨ 0xDFFF < c.toNat ∧ c.toNat < 0x110000 := c.valid
  rw [String.utf8EncodeChar.eq_1, show c.val.toNat = c.toNat from rfl]
  generalize c.toNat = v at hvalid ⊢
  repeat' split
  all_goals
    simp only [held?, IsTail, UInt8.toNat_ofNat']
    rw [if_pos (by omega)]
    congr 1
    omega

theorem held?_cases (h : held? bytes = some v) :
    (∃ a, bytes = [a] ∧ v = a.toNat ∧ a.toNat < 128) ∨
    (∃ a b, bytes = [a, b] ∧ v = a.toNat % 32 * 64 + b.toNat % 64 ∧ a.toNat / 32 = 6 ∧ IsTail b) ∨
    (∃ a b c, bytes = [a, b, c] ∧ v = (a.toNat % 16 * 64 + b.toNat % 64) * 64 + c.toNat % 64 ∧
      a.toNat / 16 = 14 ∧ IsTail b ∧ IsTail c) ∨
    ∃ a b c d, bytes = [a, b, c, d] ∧
      v = ((a.toNat % 8 * 64 + b.toNat % 64) * 64 + c.toNat % 64) * 64 + d.toNat % 64 ∧
      a.toNat / 8 = 30 ∧ IsTail b ∧ IsTail c ∧ IsTail d := by
  unfold held? at h
  split at h
  · split at h <;> simp_all
  · split at h <;> simp_all
  · split at h <;> simp_all
  · split at h <;> simp_all
  · cases h

/-- Shorter sequences do not hold as much. -/
theorem length_utf8EncodeChar_le (h : held? bytes = some c.toNat) :
    (String.utf8EncodeChar c).length ≤ bytes.length := by
  rw [String.utf8EncodeChar.eq_1, show c.val.toNat = c.toNat from rfl]
  rcases held?_cases h with ⟨a, rfl, hv, ha⟩ | ⟨a, b, rfl, hv, -⟩ | ⟨a, b, d, rfl, hv, -⟩ |
    ⟨a, b, d, e, rfl, -⟩
  · rw [if_pos (by omega)]
    simp
  · split
    · simp
    · rw [if_pos (by omega)]
      simp
  · split
    · simp
    · split
      · simp
      · rw [if_pos (by omega)]
        simp
  · split
    · simp
    · split
      · simp
      · split <;> simp

theorem eq_of_held? (hp : held? p = some v) (hq : held? q = some v) (hl : p.length = q.length) :
    p = q := by
  rcases held?_cases hp with ⟨a, rfl, ha⟩ | ⟨a, b, rfl, ha⟩ | ⟨a, b, c, rfl, ha⟩ |
    ⟨a, b, c, d, rfl, ha⟩ <;>
  rcases held?_cases hq with ⟨a', rfl, ha'⟩ | ⟨a', b', rfl, ha'⟩ | ⟨a', b', c', rfl, ha'⟩ |
    ⟨a', b', c', d', rfl, ha'⟩ <;>
  simp [IsTail, ← UInt8.toNat_inj] at hl ha ha' ⊢ <;>
  omega

/-- The well-formed sequences are the encodings of characters. -/
theorem wellFormed_iff :
    WellFormed bytes v ↔ ∃ c : Char, c.toNat = v ∧ bytes = String.utf8EncodeChar c := by
  constructor
  · rintro ⟨holds, shortest, scalar⟩
    have hvalid : v.isValidChar := scalar
    refine ⟨Char.ofNatAux v hvalid, Char.toNat_ofNatAux hvalid, ?_⟩
    have hchar := held?_utf8EncodeChar (Char.ofNatAux v hvalid)
    rw [Char.toNat_ofNatAux] at hchar
    have hheld : held? bytes = some (Char.ofNatAux v hvalid).toNat := by rwa [Char.toNat_ofNatAux]
    have hle := length_utf8EncodeChar_le hheld
    exact eq_of_held? holds hchar (Nat.le_antisymm (shortest _ hchar) hle)
  · rintro ⟨c, rfl, rfl⟩
    exact ⟨held?_utf8EncodeChar c, fun _ => length_utf8EncodeChar_le, c.valid⟩

theorem wellFormed_char (c : Char) : WellFormed (String.utf8EncodeChar c) c.toNat :=
  wellFormed_iff.mpr ⟨c, rfl, rfl⟩

theorem WellFormed.eq_char (h : WellFormed bytes c.toNat) : bytes = String.utf8EncodeChar c := by
  obtain ⟨c', hc, rfl⟩ := wellFormed_iff.mp h
  rw [Char.toNat_inj.mp hc]

theorem utf8EncodeChar_ne_nil (c : Char) : String.utf8EncodeChar c ≠ [] := by
  rcases utf8EncodeChar_cases c with ⟨-, hc⟩ | ⟨b, o, hc, -⟩ <;> simp [hc]

/-- No sequence is the beginning of another. -/
theorem eq_of_isPrefix_char {c' : Char} (h : String.utf8EncodeChar c <+: String.utf8EncodeChar c') :
    c = c' := by
  rcases Nat.lt_or_eq_of_le h.length_le with hlt | heq
  · obtain ⟨o, ho⟩ := Decoder.foldl_take_char c' ""
      (List.length_pos_iff.mpr (utf8EncodeChar_ne_nil c)) hlt
    rw [← List.prefix_iff_eq_take.mp h, Decoder.foldl_char] at ho
    simp at ho
  · have hheld := held?_utf8EncodeChar c
    rw [h.eq_of_length heq, held?_utf8EncodeChar, Option.some.injEq] at hheld
    exact Char.toNat_inj.mp hheld.symm

/-- A well-formed sequence starts with these bytes. -/
def Begins (p : List UInt8) : Prop := ∃ rest v, WellFormed (p ++ rest) v

theorem begins_iff : Begins p ↔ ∃ c, p <+: String.utf8EncodeChar c := by
  constructor
  · rintro ⟨rest, v, h⟩
    obtain ⟨c, -, hc⟩ := wellFormed_iff.mp h
    exact ⟨c, rest, hc⟩
  · rintro ⟨c, rest, hc⟩
    exact ⟨rest, c.toNat, hc ▸ wellFormed_char c⟩

theorem wellFormed_ascii (h : b.toNat < 128) : WellFormed [b] b.toNat := by
  refine ⟨by simp [held?, h], ?_, .inl (by omega)⟩
  intro other hother
  rcases held?_cases hother with ⟨a, rfl, -⟩ | ⟨a, b, rfl, -⟩ | ⟨a, b, c, rfl, -⟩ |
    ⟨a, b, c, d, rfl, -⟩ <;> simp

theorem begins_of_ascii (h : Start.of b = .ascii c) : Begins [b] := by
  refine ⟨[], b.toNat, wellFormed_ascii ?_⟩
  by_contra hb
  rw [Start.of_eq, if_neg hb] at h
  repeat' split at h
  all_goals cases h

/-! ### What has begun -/

/-- These bytes have opened a sequence: what it goes on with makes them a character's. -/
structure Opened.Follows (o : Opened) (p : List UInt8) : Prop where
  more : 0 < o.more
  low : 0x80 ≤ o.low.toNat
  high : o.high.toNat ≤ 0xBF
  range : o.low.toNat ≤ o.high.toNat
  whole : ∀ v, o.Awaits v →
    ∃ c : Char, c.toNat = v ∧ String.utf8EncodeChar c = p ++ continuation o.more v

theorem Opened.Follows.of_ranges {more : Nat} {low high : UInt8}
    (h : 0 < more ∧ 0x80 ≤ low.toNat ∧ high.toNat ≤ 0xBF ∧ low.toNat ≤ high.toNat)
    (whole : ∀ w, Opened.Awaits ⟨more, low, high, v⟩ w →
      ∃ c : Char, c.toNat = w ∧ String.utf8EncodeChar c = p ++ continuation more w) :
    Opened.Follows ⟨more, low, high, v⟩ p :=
  ⟨h.1, h.2.1, h.2.2.1, h.2.2.2, whole⟩

theorem Opened.Follows.exists_more (h : o.Follows p) : ∃ n, o.more = n + 1 :=
  Nat.exists_eq_succ_of_ne_zero h.more.ne'

theorem exists_char_two (h : 0x80 ≤ v) (h' : v < 0x800) (hb : b.toNat = v / 64 + 0xC0) :
    ∃ c : Char, c.toNat = v ∧ String.utf8EncodeChar c = b :: continuation 1 v := by
  refine ⟨Char.ofNatAux v (.inl (by omega)), Char.toNat_ofNatAux _, ?_⟩
  have hbyte : UInt8.ofNat (v / 64 % 32 + 0xC0) = b := by
    rw [← UInt8.toNat_inj, UInt8.toNat_ofNat']
    omega
  rw [String.utf8EncodeChar.eq_1, show (Char.ofNatAux v _).val.toNat = v from Char.toNat_ofNatAux _,
    if_neg (by omega), if_pos (by omega), hbyte]
  simp [continuation]

theorem exists_char_three (h : 0x800 ≤ v) (h' : v < 0x10000) (hs : v < 0xD800 ∨ 0xDFFF < v)
    (hb : b.toNat = v / 4096 + 0xE0) :
    ∃ c : Char, c.toNat = v ∧ String.utf8EncodeChar c = b :: continuation 2 v := by
  refine ⟨Char.ofNatAux v (hs.imp id fun hs => ⟨hs, by omega⟩), Char.toNat_ofNatAux _, ?_⟩
  have hbyte : UInt8.ofNat (v / 4096 % 16 + 0xE0) = b := by
    rw [← UInt8.toNat_inj, UInt8.toNat_ofNat']
    omega
  rw [String.utf8EncodeChar.eq_1, show (Char.ofNatAux v _).val.toNat = v from Char.toNat_ofNatAux _,
    if_neg (by omega), if_neg (by omega), if_pos (by omega), hbyte]
  simp [continuation]

theorem exists_char_four (h : 0x10000 ≤ v) (h' : v < 0x110000) (hb : b.toNat = v / 262144 + 0xF0) :
    ∃ c : Char, c.toNat = v ∧ String.utf8EncodeChar c = b :: continuation 3 v := by
  refine ⟨Char.ofNatAux v (.inr ⟨by omega, h'⟩), Char.toNat_ofNatAux _, ?_⟩
  have hbyte : UInt8.ofNat (v / 262144 % 8 + 0xF0) = b := by
    rw [← UInt8.toNat_inj, UInt8.toNat_ofNat']
    omega
  rw [String.utf8EncodeChar.eq_1, show (Char.ofNatAux v _).val.toNat = v from Char.toNat_ofNatAux _,
    if_neg (by omega), if_neg (by omega), if_neg (by omega), hbyte]
  simp [continuation]

/-- The ranges after the first byte leave out just what is no character's. -/
theorem follows_start (h : Start.of b = .opens o) : o.Follows [b] := by
  rw [Start.of_eq] at h
  split at h
  · cases h
  split at h
  · cases h
  split at h
  · cases h
    refine .of_ranges (by decide) fun v hv => ?_
    have hvalue : b.toNat - 0xC0 = v / 64 ^ 1 := hv.value
    exact exists_char_two (by omega) (by omega) (by omega)
  split at h
  · cases h
    refine .of_ranges (by decide) fun v hv => ?_
    have hvalue : 0 = v / 64 ^ 2 := hv.value
    have hlow : 0xA0 ≤ v / 64 ^ 1 % 64 + 0x80 := hv.low
    exact exists_char_three (by omega) (by omega) (by omega) (by omega)
  split at h
  · cases h
    refine .of_ranges (by decide) fun v hv => ?_
    have hvalue : 13 = v / 64 ^ 2 := hv.value
    have hhigh : v / 64 ^ 1 % 64 + 0x80 ≤ 0x9F := hv.high
    exact exists_char_three (by omega) (by omega) (by omega) (by omega)
  split at h
  · cases h
    refine .of_ranges (by decide) fun v hv => ?_
    have hvalue : b.toNat - 0xE0 = v / 64 ^ 2 := hv.value
    exact exists_char_three (by omega) (by omega) (by omega) (by omega)
  split at h
  · cases h
    refine .of_ranges (by decide) fun v hv => ?_
    have hvalue : 0 = v / 64 ^ 3 := hv.value
    have hlow : 0x90 ≤ v / 64 ^ 2 % 64 + 0x80 := hv.low
    exact exists_char_four (by omega) (by omega) (by omega)
  split at h
  · cases h
    refine .of_ranges (by decide) fun v hv => ?_
    have hvalue : b.toNat - 0xF0 = v / 64 ^ 3 := hv.value
    exact exists_char_four (by omega) (by omega) (by omega)
  split at h
  · cases h
    refine .of_ranges (by decide) fun v hv => ?_
    have hvalue : 4 = v / 64 ^ 3 := hv.value
    have hhigh : v / 64 ^ 2 % 64 + 0x80 ≤ 0x8F := hv.high
    exact exists_char_four (by omega) (by omega) (by omega)
  · cases h

/-- One more of the bytes that are awaited. -/
theorem Opened.Follows.next (h : o.Follows p) (hv : o.Awaits v) (hmore : 1 < o.more) :
    Opened.Follows ⟨o.more - 1, 0x80, 0xBF, v / 64 ^ (o.more - 1)⟩
      (p ++ [.ofNat (v / 64 ^ (o.more - 1) % 64 + 0x80)]) := by
  refine .of_ranges ⟨Nat.sub_pos_of_lt hmore, by decide⟩ ?_
  intro w hw
  have hsame : v / 64 ^ (o.more - 1) = w / 64 ^ (o.more - 1) := hw.value
  have hsplit (u : Nat) : u / 64 ^ o.more = u / 64 ^ (o.more - 1) / 64 := by
    rw [Nat.div_div_eq_div_mul, ← Nat.pow_succ, Nat.succ_eq_add_one, Nat.sub_add_cancel h.more]
  have hawaits : o.Awaits w := by
    refine ⟨h.more, ?_, hsame ▸ hv.low, hsame ▸ hv.high⟩
    rw [hv.value, hsplit, hsplit, hsame]
  obtain ⟨c, hc, hbytes⟩ := h.whole w hawaits
  refine ⟨c, hc, ?_⟩
  obtain ⟨n, hn⟩ := h.exists_more
  rw [hbytes, hsame, hn, continuation]
  simp

/-- A byte in the range is awaited. -/
theorem Opened.Follows.exists_awaits (h : o.Follows p) (hb : o.low ≤ b ∧ b ≤ o.high) :
    ∃ v, o.Awaits v ∧ b = .ofNat (v / 64 ^ (o.more - 1) % 64 + 0x80) := by
  obtain ⟨hlow, hhigh⟩ := hb
  rw [UInt8.le_iff_toNat_le] at hlow hhigh
  have hl := h.low
  have hh := h.high
  have hpow : 0 < 64 ^ (o.more - 1) := by positivity
  have hdiv : (o.value * 64 + b.toNat % 64) * 64 ^ (o.more - 1) / 64 ^ (o.more - 1) =
      o.value * 64 + b.toNat % 64 := Nat.mul_div_cancel _ hpow
  have hbyte : (o.value * 64 + b.toNat % 64) % 64 + 0x80 = b.toNat := by omega
  refine ⟨(o.value * 64 + b.toNat % 64) * 64 ^ (o.more - 1), ⟨h.more, ?_, ?_, ?_⟩, ?_⟩
  · have hpred : 64 ^ o.more = 64 ^ (o.more - 1) * 64 := by
      rw [← Nat.pow_succ, Nat.succ_eq_add_one, Nat.sub_add_cancel h.more]
    rw [hpred, ← Nat.div_div_eq_div_mul, hdiv]
    omega
  · rw [hdiv, hbyte]
    exact hlow
  · rw [hdiv, hbyte]
    exact hhigh
  · rw [hdiv, hbyte, UInt8.ofNat_toNat]

theorem Opened.Follows.begins (h : o.Follows p) : Begins p := by
  obtain ⟨v, hv, -⟩ := h.exists_awaits ⟨UInt8.le_refl _, UInt8.le_iff_toNat_le.mpr h.range⟩
  obtain ⟨c, -, hc⟩ := h.whole v hv
  exact begins_iff.mpr ⟨c, _, hc.symm⟩

/-- A byte in the range makes the beginning of a sequence longer. -/
theorem Opened.Follows.begins_concat (h : o.Follows p) (hb : o.low ≤ b ∧ b ≤ o.high) :
    Begins (p ++ [b]) := by
  obtain ⟨v, hv, rfl⟩ := h.exists_awaits hb
  obtain ⟨c, -, hc⟩ := h.whole v hv
  obtain ⟨n, hn⟩ := h.exists_more
  refine begins_iff.mpr ⟨c, continuation n v, ?_⟩
  rw [hc, hn, continuation]
  simp

theorem Opened.Follows.foldl_take (h : o.Follows p) (hv : o.Awaits v) (hn : n < o.more)
    (text : String) :
    ∃ o', ((continuation o.more v).take n).foldl Decoder.feed ⟨text, some o⟩ = ⟨text, some o'⟩ ∧
      o'.Follows (p ++ (continuation o.more v).take n) := by
  induction n generalizing o p with
  | zero => exact ⟨o, rfl, by simpa using h⟩
  | succ n ih =>
    obtain ⟨more, hmore⟩ := h.exists_more
    have hfeed := Decoder.feed_of_awaits hv text
    have hnext := h.next hv (by omega)
    rw [if_neg (by omega)] at hfeed
    simp only [hmore, Nat.add_sub_cancel] at hfeed hnext
    obtain ⟨o', hfold, hfollows⟩ := ih hnext (awaits_any (by omega) v) (by dsimp only; omega)
    refine ⟨o', ?_, ?_⟩
    · rw [hmore, continuation, List.take_succ_cons, List.foldl_cons, hfeed]
      exact hfold
    · rw [hmore, continuation, List.take_succ_cons]
      simpa using hfollows

theorem isTail_of_mem_continuation (h : b ∈ continuation n v) : IsTail b := by
  induction n with
  | zero => cases h
  | succ n ih =>
    rcases List.mem_cons.mp h with rfl | h
    · rw [IsTail, UInt8.toNat_ofNat']
      omega
    · exact ih h

/-- All bytes of a sequence but the first are tails. -/
theorem isTail_of_begins {a : UInt8} (h : Begins (a :: p)) : ∀ b ∈ p, IsTail b := by
  obtain ⟨c, hle⟩ := begins_iff.mp h
  intro b hb
  rcases utf8EncodeChar_cases c with ⟨-, hc⟩ | ⟨b', o, hc, -⟩
  · rw [hc, List.cons_prefix_cons] at hle
    rw [List.prefix_nil.mp hle.2] at hb
    cases hb
  · rw [hc, List.cons_prefix_cons] at hle
    exact isTail_of_mem_continuation (hle.2.subset hb)

/-- After the beginning of a sequence the decoder has a sequence open, and the text is as it was. -/
theorem foldl_of_begins (hp : p ≠ []) (hbegins : Begins p)
    (hpart : ∀ c, p ≠ String.utf8EncodeChar c) (text : String) :
    ∃ o, p.foldl Decoder.feed ⟨text, none⟩ = ⟨text, some o⟩ ∧ o.Follows p := by
  obtain ⟨c, hle⟩ := begins_iff.mp hbegins
  have hlt : p.length < (String.utf8EncodeChar c).length :=
    Nat.lt_of_le_of_ne hle.length_le fun heq => hpart c (hle.eq_of_length heq)
  obtain ⟨n, hn⟩ : ∃ n, p.length = n + 1 := Nat.exists_eq_succ_of_ne_zero (by simpa using hp)
  rw [List.prefix_iff_eq_take.mp hle, hn]
  rw [hn] at hlt
  rcases utf8EncodeChar_cases c with ⟨-, hc⟩ | ⟨b, o, hc, hstart, hawaits⟩
  · rw [hc, List.length_singleton] at hlt
    omega
  · rw [hc, List.length_cons, length_continuation] at hlt
    obtain ⟨o', hfold, hfollows⟩ :=
      (follows_start hstart).foldl_take hawaits (n := n) (by omega) text
    refine ⟨o', ?_, ?_⟩
    · rw [hc, List.take_succ_cons, List.foldl_cons, Decoder.feed, Decoder.start, hstart]
      exact hfold
    · rw [hc, List.take_succ_cons]
      exact hfollows

end ConsoleHost.Text
