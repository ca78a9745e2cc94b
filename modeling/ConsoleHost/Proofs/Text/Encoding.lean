import ConsoleHost.Text.Utf8
import Mathlib.Algebra.Group.Nat.Defs

/-! Encoded texts: they are decoded to themselves, and if they are cut off, to as much as is
whole. -/
namespace ConsoleHost.Text

variable {b : UInt8} {c : Char} {chars : List Char} {k n v : Nat} {o : Opened} {s text : String}

/-- What the first byte of a sequence says, by its number. -/
theorem Start.of_eq (b : UInt8) : Start.of b =
    if b.toNat < 0x80 then .ascii (Char.ofNat b.toNat)
    else if b.toNat < 0xC2 then .illFormed
    else if b.toNat < 0xE0 then .opens ⟨1, 0x80, 0xBF, b.toNat - 0xC0⟩
    else if b.toNat = 0xE0 then .opens ⟨2, 0xA0, 0xBF, 0⟩
    else if b.toNat = 0xED then .opens ⟨2, 0x80, 0x9F, 13⟩
    else if b.toNat < 0xF0 then .opens ⟨2, 0x80, 0xBF, b.toNat - 0xE0⟩
    else if b.toNat = 0xF0 then .opens ⟨3, 0x90, 0xBF, 0⟩
    else if b.toNat < 0xF4 then .opens ⟨3, 0x80, 0xBF, b.toNat - 0xF0⟩
    else if b.toNat = 0xF4 then .opens ⟨3, 0x80, 0x8F, 4⟩
    else .illFormed := by
  simp only [Start.of, UInt8.lt_iff_toNat_lt, ← UInt8.toNat_inj]
  rfl

/-- The last bytes of the sequence for `v`. Each holds six bits. -/
def continuation : Nat → Nat → List UInt8
  | 0, _ => []
  | n + 1, v => .ofNat (v / 64 ^ n % 64 + 0x80) :: continuation n v

/-- What has begun goes on with the last bytes of the sequence for `v`. -/
structure Opened.Awaits (o : Opened) (v : Nat) : Prop where
  more : 0 < o.more
  value : o.value = v / 64 ^ o.more
  low : o.low.toNat ≤ v / 64 ^ (o.more - 1) % 64 + 0x80
  high : v / 64 ^ (o.more - 1) % 64 + 0x80 ≤ o.high.toNat

theorem length_continuation (n v : Nat) : (continuation n v).length = n := by
  induction n with
  | zero => rfl
  | succ n ih => simp [continuation, ih]

/-- Any of the last bytes is in the range of a byte that goes on with a sequence. -/
theorem awaits_any (h : 0 < n) (v : Nat) : Opened.Awaits ⟨n, 0x80, 0xBF, v / 64 ^ n⟩ v := by
  have hlast : v / 64 ^ (n - 1) % 64 < 64 := Nat.mod_lt _ (by decide)
  refine ⟨h, rfl, Nat.le_add_left _ _, ?_⟩
  exact Nat.add_le_add_right (Nat.le_of_lt_succ hlast) _

theorem exists_start_two (h : 0x80 ≤ v) (h' : v < 0x800) :
    ∃ o, Start.of (.ofNat (v / 64 % 32 + 0xC0)) = .opens o ∧ o.more = 1 ∧ o.Awaits v := by
  have hb : (UInt8.ofNat (v / 64 % 32 + 0xC0)).toNat = v / 64 + 0xC0 := by
    rw [UInt8.toNat_ofNat']
    omega
  refine ⟨⟨1, 0x80, 0xBF, v / 64⟩, ?_, rfl, awaits_any Nat.one_pos v⟩
  rw [Start.of_eq, hb, if_neg (by omega), if_neg (by omega), if_pos (by omega),
    Nat.add_sub_cancel]

/-- The second byte leaves out what two bytes can hold, and the surrogates. -/
theorem exists_start_three (h : 0x800 ≤ v) (h' : v < 0x10000) (hs : v < 0xD800 ∨ 0xDFFF < v) :
    ∃ o, Start.of (.ofNat (v / 4096 % 16 + 0xE0)) = .opens o ∧ o.more = 2 ∧ o.Awaits v := by
  have hb : (UInt8.ofNat (v / 4096 % 16 + 0xE0)).toNat = v / 4096 + 0xE0 := by
    rw [UInt8.toNat_ofNat']
    omega
  have hany : Opened.Awaits ⟨2, 0x80, 0xBF, v / 4096⟩ v := awaits_any (by decide) v
  rw [Start.of_eq, hb, if_neg (by omega), if_neg (by omega), if_neg (by omega)]
  by_cases h0 : v / 4096 = 0
  · rw [if_pos (by omega)]
    refine ⟨_, rfl, rfl, ⟨hany.more, h0.symm, ?_, hany.high⟩⟩
    change 0xA0 ≤ v / 64 ^ 1 % 64 + 0x80
    omega
  · rw [if_neg (by omega)]
    by_cases hd : v / 4096 = 13
    · rw [if_pos (by omega)]
      refine ⟨_, rfl, rfl, ⟨hany.more, hd.symm, hany.low, ?_⟩⟩
      change v / 64 ^ 1 % 64 + 0x80 ≤ 0x9F
      omega
    · rw [if_neg (by omega), if_pos (by omega), Nat.add_sub_cancel]
      exact ⟨_, rfl, rfl, hany⟩

/-- The second byte leaves out what three bytes can hold, and what is no character. -/
theorem exists_start_four (h : 0x10000 ≤ v) (h' : v < 0x110000) :
    ∃ o, Start.of (.ofNat (v / 262144 % 8 + 0xF0)) = .opens o ∧ o.more = 3 ∧ o.Awaits v := by
  have hb : (UInt8.ofNat (v / 262144 % 8 + 0xF0)).toNat = v / 262144 + 0xF0 := by
    rw [UInt8.toNat_ofNat']
    omega
  have hany : Opened.Awaits ⟨3, 0x80, 0xBF, v / 262144⟩ v := awaits_any (by decide) v
  rw [Start.of_eq, hb, if_neg (by omega), if_neg (by omega), if_neg (by omega), if_neg (by omega),
    if_neg (by omega), if_neg (by omega)]
  by_cases h0 : v / 262144 = 0
  · rw [if_pos (by omega)]
    refine ⟨_, rfl, rfl, ⟨hany.more, h0.symm, ?_, hany.high⟩⟩
    change 0x90 ≤ v / 64 ^ 2 % 64 + 0x80
    omega
  · rw [if_neg (by omega)]
    by_cases h4 : v / 262144 = 4
    · rw [if_neg (by omega), if_pos (by omega)]
      refine ⟨_, rfl, rfl, ⟨hany.more, h4.symm, hany.low, ?_⟩⟩
      change v / 64 ^ 2 % 64 + 0x80 ≤ 0x8F
      omega
    · rw [if_pos (by omega), Nat.add_sub_cancel]
      exact ⟨_, rfl, rfl, hany⟩

/-- A character is one byte, or a first byte that opens what the others go on with. -/
theorem utf8EncodeChar_cases (c : Char) :
    (c.toNat < 0x80 ∧ String.utf8EncodeChar c = [.ofNat c.toNat]) ∨
      ∃ b o, String.utf8EncodeChar c = b :: continuation o.more c.toNat ∧
        Start.of b = .opens o ∧ o.Awaits c.toNat := by
  have hvalid : c.toNat < 0xD800 ∨ 0xDFFF < c.toNat ∧ c.toNat < 0x110000 := c.valid
  rw [String.utf8EncodeChar.eq_1, show c.val.toNat = c.toNat from rfl]
  split
  · exact .inl ⟨by omega, rfl⟩
  · right
    split
    · obtain ⟨o, hs, hm, ha⟩ := exists_start_two (v := c.toNat) (by omega) (by omega)
      exact ⟨_, o, by simp [hm, continuation], hs, ha⟩
    · split
      · obtain ⟨o, hs, hm, ha⟩ := exists_start_three (v := c.toNat) (by omega) (by omega) (by omega)
        exact ⟨_, o, by simp [hm, continuation], hs, ha⟩
      · obtain ⟨o, hs, hm, ha⟩ := exists_start_four (v := c.toNat) (by omega) (by omega)
        exact ⟨_, o, by simp [hm, continuation], hs, ha⟩

namespace Decoder

/-- A byte that goes on with what has begun. -/
theorem feed_of_awaits (h : o.Awaits v) (text : String) :
    feed ⟨text, some o⟩ (.ofNat (v / 64 ^ (o.more - 1) % 64 + 0x80)) =
      if o.more = 1 then ⟨text.push (Char.ofNat v), none⟩
      else ⟨text, some ⟨o.more - 1, 0x80, 0xBF, v / 64 ^ (o.more - 1)⟩⟩ := by
  obtain ⟨more, low, high, value⟩ := o
  obtain ⟨hmore, hvalue, hlow, hhigh⟩ := h
  obtain ⟨more, rfl⟩ : ∃ n, more = n + 1 := ⟨more - 1, by simp at hmore; omega⟩
  simp only [Nat.add_sub_cancel] at hvalue hlow hhigh ⊢
  have hb : (UInt8.ofNat (v / 64 ^ more % 64 + 0x80)).toNat = v / 64 ^ more % 64 + 0x80 := by
    rw [UInt8.toNat_ofNat']
    omega
  -- six more bits of the number
  have hnext : value * 64 + (v / 64 ^ more % 64 + 0x80) % 64 = v / 64 ^ more := by
    rw [hvalue, Nat.pow_succ, ← Nat.div_div_eq_div_mul]
    omega
  rw [feed]
  simp only [UInt8.le_iff_toNat_le, hb, hnext, if_pos (And.intro hlow hhigh)]
  cases more with
  | zero => simp
  | succ more => simp

/-- What the rest of a sequence does to the decoder: the whole of it gives the character, and less
of it gives nothing yet. -/
theorem foldl_continuation (h : o.Awaits v) (hn : o.more = n) (text : String) :
    (continuation n v).foldl feed ⟨text, some o⟩ = ⟨text.push (Char.ofNat v), none⟩ ∧
      ∀ k < n, ∃ o', ((continuation n v).take k).foldl feed ⟨text, some o⟩ = ⟨text, some o'⟩ := by
  induction n generalizing o with
  | zero => exact absurd h.more (by omega)
  | succ n ih =>
    have hfeed := feed_of_awaits h text
    rw [hn, Nat.add_sub_cancel] at hfeed
    simp only [continuation, List.foldl_cons, hfeed]
    by_cases hlast : n = 0
    · subst hlast
      refine ⟨rfl, ?_⟩
      intro k hk
      obtain rfl : k = 0 := by omega
      exact ⟨o, rfl⟩
    · rw [if_neg (by omega)]
      obtain ⟨hwhole, hpart⟩ := ih (awaits_any (Nat.pos_of_ne_zero hlast) v) rfl
      refine ⟨hwhole, ?_⟩
      intro k hk
      cases k with
      | zero => exact ⟨o, rfl⟩
      | succ k =>
        obtain ⟨o', ho⟩ := hpart k (by omega)
        refine ⟨o', ?_⟩
        rw [List.take_succ_cons, List.foldl_cons, hfeed, if_neg (by omega)]
        exact ho

/-- The bytes of a character give it. -/
theorem foldl_char (c : Char) (text : String) :
    (String.utf8EncodeChar c).foldl feed ⟨text, none⟩ = ⟨text.push c, none⟩ := by
  obtain ⟨hlt, hc⟩ | ⟨b, o, hc, hs, ha⟩ := utf8EncodeChar_cases c
  · have hb : (UInt8.ofNat c.toNat).toNat = c.toNat := by
      rw [UInt8.toNat_ofNat']
      omega
    simp [hc, feed, start, Start.of_eq, hb, hlt]
  · have hrest := (foldl_continuation ha rfl text).1
    rw [Char.ofNat_toNat] at hrest
    simpa [hc, feed, start, hs] using hrest

/-- Some of the bytes of a character, but not all, open a sequence. -/
theorem foldl_take_char (c : Char) (text : String) (hk : 0 < k)
    (hlt : k < (String.utf8EncodeChar c).length) :
    ∃ o, ((String.utf8EncodeChar c).take k).foldl feed ⟨text, none⟩ = ⟨text, some o⟩ := by
  obtain ⟨-, hc⟩ | ⟨b, o, hc, hs, ha⟩ := utf8EncodeChar_cases c
  · rw [hc, List.length_singleton] at hlt
    omega
  · rw [hc, List.length_cons, length_continuation] at hlt
    obtain ⟨k, rfl⟩ : ∃ n, k = n + 1 := ⟨k - 1, by omega⟩
    obtain ⟨o', ho⟩ := (foldl_continuation ha rfl text).2 k (by omega)
    exact ⟨o', by simpa [hc, feed, start, hs] using ho⟩

end Decoder

/-- The characters at the beginning whose bytes are at most `n` together. -/
def fitting : Nat → List Char → List Char
  | _, [] => []
  | n, c :: rest =>
    if (String.utf8EncodeChar c).length ≤ n then
      c :: fitting (n - (String.utf8EncodeChar c).length) rest
    else []

theorem fitting_le (n : Nat) (chars : List Char) : fitting n chars <+: chars := by
  induction chars generalizing n with
  | nil => exact List.nil_prefix
  | cons c rest ih =>
    rw [fitting]
    split
    · exact List.prefix_cons_inj c |>.mpr (ih _)
    · exact List.nil_prefix

theorem length_fitting_le (n : Nat) (chars : List Char) :
    ((fitting n chars).flatMap String.utf8EncodeChar).length ≤ n := by
  induction chars generalizing n with
  | nil => simp [fitting]
  | cons c rest ih =>
    rw [fitting]
    split
    · have hrest := ih (n - (String.utf8EncodeChar c).length)
      simp only [List.flatMap_cons, List.length_append]
      omega
    · simp

theorem le_fitting {part : List Char} (h : part <+: chars)
    (hn : (part.flatMap String.utf8EncodeChar).length ≤ n) : part <+: fitting n chars := by
  induction chars generalizing n part with
  | nil => simpa [fitting] using h
  | cons c rest ih =>
    cases part with
    | nil => exact List.nil_prefix
    | cons c' part =>
      obtain ⟨rfl, hrest⟩ := List.cons_prefix_cons.mp h
      simp only [List.flatMap_cons, List.length_append] at hn
      rw [fitting, if_pos (by omega)]
      exact (List.prefix_cons_inj c').mpr (ih hrest (by omega))

theorem fitting_eq_self (h : (chars.flatMap String.utf8EncodeChar).length ≤ n) :
    fitting n chars = chars :=
  (fitting_le n chars).eq_of_length_le (le_fitting List.prefix_rfl h).length_le

/-- Bytes that are cut off after `n` give the characters that fit in them, and where they have more
a sequence has begun. -/
theorem foldl_take (n : Nat) (chars : List Char) (text : String) :
    ∃ pending, ((chars.flatMap String.utf8EncodeChar).take n).foldl Decoder.feed ⟨text, none⟩ =
        ⟨text ++ String.ofList (fitting n chars), pending⟩ ∧
      (pending.isSome ↔ ((fitting n chars).flatMap String.utf8EncodeChar).length <
        min n (chars.flatMap String.utf8EncodeChar).length) := by
  induction chars generalizing n text with
  | nil => exact ⟨none, by simp [fitting]⟩
  | cons c rest ih =>
    rw [List.flatMap_cons, fitting]
    split
    · rename_i hfits
      obtain ⟨pending, hfold, hsome⟩ := ih (n - (String.utf8EncodeChar c).length) (text.push c)
      refine ⟨pending, ?_, ?_⟩
      · rw [List.take_append, List.take_of_length_le hfits, List.foldl_append, Decoder.foldl_char,
          hfold]
        congr 1
        apply String.toList_inj.mp
        simp
      · rw [hsome]
        simp only [List.flatMap_cons, List.length_append]
        omega
    · rename_i hcut
      by_cases h0 : n = 0
      · exact ⟨none, by simp [h0]⟩
      · obtain ⟨o, ho⟩ := Decoder.foldl_take_char c text (k := n) (by omega) (by omega)
        refine ⟨some o, ?_, ?_⟩
        · rw [List.take_append_of_le_length (by omega), ho]
          simp
        · simp only [Option.isSome_some, List.flatMap_nil, List.length_nil, List.length_append,
            true_iff]
          omega

/-- The longest beginning of a text that is at most so many bytes. -/
structure LongestWithin (n : Nat) (s p : String) : Prop where
  beginning : p.toList <+: s.toList
  within : (encode p).length ≤ n
  longest : ∀ q : String, q.toList <+: s.toList → (encode q).length ≤ n → q.toList <+: p.toList

theorem longestWithin_fitting (n : Nat) (s : String) :
    LongestWithin n s (String.ofList (fitting n s.toList)) := by
  refine ⟨?_, ?_, ?_⟩
  · simpa using fitting_le n s.toList
  · simpa [encode] using length_fitting_le n s.toList
  · intro q hq hn
    simpa using le_fitting hq hn

/-- The text of the first `n` bytes of a text: the characters that fit, and one replacement where a
character was cut. -/
theorem decode_take_encode (n : Nat) (s : String) :
    decode ((encode s).take n) = String.ofList (fitting n s.toList) ++
      if (encode (String.ofList (fitting n s.toList))).length < min n (encode s).length then
        "\uFFFD"
      else "" := by
  obtain ⟨pending, hfold, hsome⟩ := foldl_take n s.toList ""
  have hencode : encode (String.ofList (fitting n s.toList)) =
      (fitting n s.toList).flatMap String.utf8EncodeChar := by
    rw [encode, String.toList_ofList]
  rw [hencode]
  rw [decode, Decoder.empty, encode, hfold, Decoder.finish]
  by_cases hcut : pending.isSome = true
  · rw [if_pos hcut, if_pos (hsome.mp hcut)]
    apply String.toList_inj.mp
    simp [replacement]
  · rw [if_neg hcut, if_neg (mt hsome.mpr hcut)]
    simp

/-- Decoding gives back what was encoded. -/
theorem decode_encode (s : String) : decode (encode s) = s := by
  have h := decode_take_encode (encode s).length s
  rw [List.take_length, fitting_eq_self (by exact Nat.le_refl _)] at h
  rw [h]
  simp [encode]

/-- So many characters U+0000. -/
def nulls (n : Nat) : String := String.ofList (List.replicate n '\x00')

/-- Zero bytes are the text of characters U+0000. -/
theorem decode_zeros (n : Nat) : decode (List.replicate n 0) = nulls n := by
  have hchar : String.utf8EncodeChar '\x00' = [0] := by decide
  have hencode : encode (nulls n) = List.replicate n 0 := by
    induction n with
    | zero => rfl
    | succ n ih => simpa [encode, nulls, List.replicate_succ, hchar] using ih
  rw [← hencode, decode_encode]

/-- What can be told of a text from its first `n` bytes. A character of which only some bytes are
among them shows as one replacement. -/
structure Clipped (n : Nat) (s text : String) : Prop where
  whole : (encode s).length ≤ n → text = s
  cut : n < (encode s).length → ∃ p, LongestWithin n s p ∧
    text = p ++ if (encode p).length < n then "\uFFFD" else ""

theorem LongestWithin.unique {p q : String} (hp : LongestWithin n s p) (hq : LongestWithin n s q) :
    p = q := by
  have hpq := hq.longest p hp.beginning hp.within
  have hqp := hp.longest q hq.beginning hq.within
  exact String.toList_inj.mp (hpq.eq_of_length_le hqp.length_le)

/-- No more than one text can be told. -/
theorem Clipped.unique {text' : String} (h : Clipped n s text) (h' : Clipped n s text') :
    text = text' := by
  rcases Nat.lt_or_ge n (encode s).length with hn | hn
  · obtain ⟨p, hp, htext⟩ := h.cut hn
    obtain ⟨q, hq, htext'⟩ := h'.cut hn
    cases hp.unique hq
    exact htext.trans htext'.symm
  · exact (h.whole hn).trans (h'.whole hn).symm

theorem clipped_decode_take (n : Nat) (s : String) : Clipped n s (decode ((encode s).take n)) := by
  refine ⟨?_, ?_⟩
  · intro h
    rw [List.take_of_length_le h, decode_encode]
  · intro h
    refine ⟨_, longestWithin_fitting n s, ?_⟩
    rw [decode_take_encode, Nat.min_eq_left (Nat.le_of_lt h)]

end ConsoleHost.Text
