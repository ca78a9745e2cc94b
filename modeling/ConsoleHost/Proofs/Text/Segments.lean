import Mathlib
import ConsoleHost.Console.Script
import ConsoleHost.Host.Operation
import ConsoleHost.Proofs.Text.WellFormed

/-! Segments: any bytes are well-formed sequences and maximal ill-formed parts, in one way only, and
they are decoded one by one. -/
namespace ConsoleHost.Text

/-- A part of some bytes. -/
inductive Segment where
  /-- The well-formed sequence of a character. -/
  | sequence (bytes : List UInt8) (c : Char)
  /-- Bytes that belong to no well-formed sequence. -/
  | subpart (bytes : List UInt8)
  deriving DecidableEq, Repr

namespace Segment

def bytes : Segment → List UInt8
  | sequence bytes _ | subpart bytes => bytes

/-- What a part is decoded to. -/
def char : Segment → Char
  | sequence _ c => c
  | subpart _ => replacement

end Segment

/-- No well-formed sequence starts where the part does. The part is as much as there is of the
beginning of one, or a single byte if that begins none. -/
structure MaximalSubpart (part rest : List UInt8) : Prop where
  illFormed : ∀ bytes v, WellFormed bytes v → ¬ bytes <+: part ++ rest
  begins : part ≠ [] ∧ Begins part ∨ part.length = 1
  maximal : ∀ p, p <+: part ++ rest → Begins p → p.length ≤ part.length

/-- The parts of some bytes, from left to right. -/
inductive Segmentation : List UInt8 → List Segment → Prop where
  | nil : Segmentation [] []
  | sequence {bytes rest : List UInt8} {c : Char} {segments : List Segment}
      (h : WellFormed bytes c.toNat) (hrest : Segmentation rest segments) :
      Segmentation (bytes ++ rest) (.sequence bytes c :: segments)
  | subpart {part rest : List UInt8} {segments : List Segment} (h : MaximalSubpart part rest)
      (hrest : Segmentation rest segments) : Segmentation (part ++ rest) (.subpart part :: segments)

variable {b : UInt8} {bytes p q rest part : List UInt8} {c : Char} {segments others : List Segment}

theorem Segmentation.flatMap_bytes (h : Segmentation bytes segments) :
    segments.flatMap Segment.bytes = bytes := by
  induction h with
  | nil => rfl
  | sequence _ _ ih =>
    rw [List.flatMap_cons, ih]
    rfl
  | subpart _ _ ih =>
    rw [List.flatMap_cons, ih]
    rfl

/-! ### One segmentation -/

theorem MaximalSubpart.ne_nil (h : MaximalSubpart part rest) : part ≠ [] := by
  rcases h.begins with ⟨hne, -⟩ | hone
  · exact hne
  · rintro rfl
    cases hone

theorem MaximalSubpart.length_le (h : MaximalSubpart p q) (h' : MaximalSubpart part rest)
    (heq : p ++ q = part ++ rest) : p.length ≤ part.length := by
  rcases h.begins with ⟨-, hbegins⟩ | hone
  · exact h'.maximal p (heq ▸ List.prefix_append p q) hbegins
  · rw [hone]
    exact List.length_pos_iff.mpr h'.ne_nil

theorem MaximalSubpart.unique (h : MaximalSubpart p q) (h' : MaximalSubpart part rest)
    (heq : p ++ q = part ++ rest) : p = part ∧ q = rest :=
  List.append_inj heq (Nat.le_antisymm (h.length_le h' heq) (h'.length_le h heq.symm))

/-- Where no well-formed sequence starts there is a maximal subpart. -/
theorem exists_maximalSubpart (hne : bytes ≠ [])
    (h : ∀ c, ¬ String.utf8EncodeChar c <+: bytes) :
    ∃ part rest, bytes = part ++ rest ∧ MaximalSubpart part rest := by
  classical
  let longest := Nat.findGreatest (fun n => Begins (bytes.take n)) bytes.length
  have hpos : 0 < bytes.length := List.length_pos_iff.mpr hne
  have hle : longest ≤ bytes.length := Nat.findGreatest_le _
  have hlength : (bytes.take (max longest 1)).length = max longest 1 := by
    rw [List.length_take]
    omega
  have hsplit : bytes.take (max longest 1) ++ bytes.drop (max longest 1) = bytes :=
    List.take_append_drop _ _
  refine ⟨bytes.take (max longest 1), bytes.drop (max longest 1), hsplit.symm, ?_, ?_, ?_⟩
  · intro sequence v hw hle
    obtain ⟨c, -, rfl⟩ := wellFormed_iff.mp hw
    rw [hsplit] at hle
    exact h c hle
  · by_cases h0 : longest = 0
    · exact .inr (by omega)
    · rw [show max longest 1 = longest by omega]
      exact .inl ⟨by simp [h0, hne], Nat.findGreatest_of_ne_zero rfl h0⟩
  · intro p hp hbegins
    rw [hsplit] at hp
    rw [hlength]
    by_contra hlt
    refine Nat.findGreatest_is_greatest (P := fun n => Begins (bytes.take n)) (k := p.length) ?_
      hp.length_le ?_
    · omega
    · rwa [← List.prefix_iff_eq_take.mp hp]

theorem exists_segmentation (bytes : List UInt8) : ∃ segments, Segmentation bytes segments := by
  induction hn : bytes.length using Nat.strongRecOn generalizing bytes with
  | ind n ih =>
    by_cases hne : bytes = []
    · subst hne
      exact ⟨[], .nil⟩
    · by_cases hchar : ∃ c, String.utf8EncodeChar c <+: bytes
      · obtain ⟨c, rest, rfl⟩ := hchar
        have hpos := List.length_pos_iff.mpr (utf8EncodeChar_ne_nil c)
        obtain ⟨segments, hsegments⟩ := ih _ (by rw [← hn, List.length_append]; omega) rest rfl
        exact ⟨_, .sequence (wellFormed_char c) hsegments⟩
      · obtain ⟨part, rest, rfl, hpart⟩ := exists_maximalSubpart hne (not_exists.mp hchar)
        have hpos := List.length_pos_iff.mpr hpart.ne_nil
        obtain ⟨segments, hsegments⟩ := ih _ (by rw [← hn, List.length_append]; omega) rest rfl
        exact ⟨_, .subpart hpart hsegments⟩

theorem Segmentation.cases_of_bytes (h : Segmentation bytes segments) :
    (bytes = [] ∧ segments = []) ∨
    (∃ c rest more, bytes = String.utf8EncodeChar c ++ rest ∧
      segments = .sequence (String.utf8EncodeChar c) c :: more ∧ Segmentation rest more) ∨
    ∃ part rest more, bytes = part ++ rest ∧ segments = .subpart part :: more ∧
      MaximalSubpart part rest ∧ Segmentation rest more := by
  cases h with
  | nil => exact .inl ⟨rfl, rfl⟩
  | @sequence bytes rest c more hw hrest =>
    obtain rfl := hw.eq_char
    exact .inr (.inl ⟨c, rest, more, rfl, rfl, hrest⟩)
  | @subpart part rest more hpart hrest =>
    exact .inr (.inr ⟨part, rest, more, rfl, rfl, hpart, hrest⟩)

theorem MaximalSubpart.not_char (h : MaximalSubpart part rest) (c : Char) :
    ¬ String.utf8EncodeChar c <+: part ++ rest := h.illFormed _ _ (wellFormed_char c)

theorem Segmentation.of_nil (h : Segmentation [] segments) : segments = [] := by
  rcases h.cases_of_bytes with ⟨-, hnil⟩ | ⟨c, rest, -, hbytes, -⟩ |
    ⟨part, rest, -, hbytes, -, hpart, -⟩
  · exact hnil
  · exact absurd (List.append_eq_nil_iff.mp hbytes.symm).1 (utf8EncodeChar_ne_nil c)
  · exact absurd (List.append_eq_nil_iff.mp hbytes.symm).1 hpart.ne_nil

theorem Segmentation.of_char (h : Segmentation (String.utf8EncodeChar c ++ rest) segments) :
    ∃ more, segments = .sequence (String.utf8EncodeChar c) c :: more ∧ Segmentation rest more := by
  have hprefix := List.prefix_append (String.utf8EncodeChar c) rest
  rcases h.cases_of_bytes with ⟨hbytes, -⟩ | ⟨c', rest', more, hbytes, rfl, hrest⟩ |
    ⟨part, rest', -, hbytes, -, hpart, -⟩
  · exact absurd (List.append_eq_nil_iff.mp hbytes).1 (utf8EncodeChar_ne_nil c)
  · obtain rfl : c = c' := by
      rw [hbytes] at hprefix
      rcases List.prefix_or_prefix_of_prefix hprefix (List.prefix_append _ _) with hle | hle
      · exact eq_of_isPrefix_char hle
      · exact (eq_of_isPrefix_char hle).symm
    obtain rfl := List.append_cancel_left hbytes
    exact ⟨more, rfl, hrest⟩
  · exact absurd (hbytes ▸ hprefix) (hpart.not_char c)

theorem Segmentation.of_subpart (hpart : MaximalSubpart part rest)
    (h : Segmentation (part ++ rest) segments) :
    ∃ more, segments = .subpart part :: more ∧ Segmentation rest more := by
  rcases h.cases_of_bytes with ⟨hbytes, -⟩ | ⟨c, rest', -, hbytes, -⟩ |
    ⟨part', rest', more, hbytes, rfl, hpart', hrest⟩
  · exact absurd (List.append_eq_nil_iff.mp hbytes).1 hpart.ne_nil
  · exact absurd (hbytes ▸ List.prefix_append _ _) (hpart.not_char c)
  · obtain ⟨rfl, rfl⟩ := hpart.unique hpart' hbytes
    exact ⟨more, rfl, hrest⟩

/-- At each place there is just one part that can start there. -/
theorem Segmentation.unique (h : Segmentation bytes segments) (h' : Segmentation bytes others) :
    segments = others := by
  induction h generalizing others with
  | nil => exact h'.of_nil.symm
  | sequence hw _ ih =>
    obtain rfl := hw.eq_char
    obtain ⟨more, rfl, hrest⟩ := h'.of_char
    rw [ih hrest]
  | subpart hpart _ ih =>
    obtain ⟨more, rfl, hrest⟩ := h'.of_subpart hpart
    rw [ih hrest]

/-! ### Decoding -/

/-- A maximal subpart is decoded to one replacement. -/
theorem MaximalSubpart.finish_foldl (h : MaximalSubpart part rest) (text : String) :
    ((part ++ rest).foldl Decoder.feed ⟨text, none⟩).finish =
      (rest.foldl Decoder.feed ⟨text.push replacement, none⟩).finish := by
  rw [List.foldl_append]
  by_cases hbegins : Begins part
  · have hpart (c : Char) : part ≠ String.utf8EncodeChar c := fun hc =>
      h.not_char c (hc ▸ List.prefix_append part rest)
    obtain ⟨o, hfold, hfollows⟩ := foldl_of_begins h.ne_nil hbegins hpart text
    rw [hfold]
    cases rest with
    | nil => rfl
    | cons b rest =>
      -- a byte in the range would make the part longer
      have hout : ¬ (o.low ≤ b ∧ b ≤ o.high) := by
        intro hb
        have hlonger : part ++ [b] <+: part ++ b :: rest := ⟨rest, by simp⟩
        have hle := h.maximal _ hlonger (hfollows.begins_concat hb)
        rw [List.length_append, List.length_singleton] at hle
        omega
      rw [List.foldl_cons, List.foldl_cons, Decoder.feed, Decoder.feed]
      dsimp only
      rw [if_neg hout]
  · have hone : part.length = 1 := h.begins.resolve_left fun hp => hbegins hp.2
    obtain ⟨b, rfl⟩ := List.length_eq_one_iff.mp hone
    rw [List.foldl_cons, List.foldl_nil, Decoder.feed]
    dsimp only
    rw [Decoder.start]
    cases hstart : Start.of b with
    | ascii c => exact absurd (begins_of_ascii hstart) hbegins
    | opens o => exact absurd (follows_start hstart).begins hbegins
    | illFormed => rfl

theorem Segmentation.finish_foldl (h : Segmentation bytes segments) (text : String) :
    (bytes.foldl Decoder.feed ⟨text, none⟩).finish =
      text ++ String.ofList (segments.map Segment.char) := by
  induction h generalizing text with
  | nil => simp [Decoder.finish]
  | sequence hw _ ih =>
    obtain rfl := hw.eq_char
    rw [List.foldl_append, Decoder.foldl_char, ih]
    apply String.toList_inj.mp
    simp [Segment.char]
  | subpart hpart _ ih =>
    rw [hpart.finish_foldl, ih]
    apply String.toList_inj.mp
    simp [Segment.char]

theorem Segmentation.decode_eq (h : Segmentation bytes segments) :
    decode bytes = String.ofList (segments.map Segment.char) := by
  rw [decode, Decoder.empty, h.finish_foldl, String.empty_append]

/-! ### Parts of bytes -/

theorem segmentation_encode_append (s : String) (h : Segmentation rest segments) :
    Segmentation (encode s ++ rest)
      (s.toList.map (fun c => .sequence (String.utf8EncodeChar c) c) ++ segments) := by
  rw [encode]
  induction s.toList with
  | nil => exact h
  | cons c chars ih =>
    rw [List.flatMap_cons, List.append_assoc]
    exact .sequence (wellFormed_char c) ih

/-- Where a byte is no tail, what has begun before it ends. -/
theorem prefix_of_begins (hq : ∀ b ∈ q.head?, ¬ IsTail b) (hne : bytes ≠ []) (hp : Begins p)
    (h : p <+: bytes ++ q) : p <+: bytes := by
  obtain ⟨t, ht⟩ := h
  rcases List.append_eq_append_iff.mp ht with ⟨more, hbytes, -⟩ | ⟨more, rfl, hmore⟩
  · exact ⟨more, hbytes.symm⟩
  · cases more with
    | nil => simp
    | cons b more =>
      obtain ⟨a, bytes, rfl⟩ := List.exists_cons_of_ne_nil hne
      exact absurd (isTail_of_begins hp b (by simp)) (hq b (by simp [hmore]))

theorem MaximalSubpart.append (hq : ∀ b ∈ q.head?, ¬ IsTail b) (h : MaximalSubpart part rest) :
    MaximalSubpart part (rest ++ q) := by
  have hne : part ++ rest ≠ [] := by simp [h.ne_nil]
  refine ⟨?_, h.begins, ?_⟩
  · intro sequence v hw hle
    rw [← List.append_assoc] at hle
    have hbegins : Begins sequence := ⟨[], v, by rwa [List.append_nil]⟩
    exact h.illFormed sequence v hw (prefix_of_begins hq hne hbegins hle)
  · intro p hle hp
    rw [← List.append_assoc] at hle
    exact h.maximal p (prefix_of_begins hq hne hp hle) hp

theorem Segmentation.append (hq : ∀ b ∈ q.head?, ¬ IsTail b) (h : Segmentation bytes segments)
    (h' : Segmentation q others) : Segmentation (bytes ++ q) (segments ++ others) := by
  induction h with
  | nil => exact h'
  | sequence hw _ ih =>
    rw [List.append_assoc]
    exact .sequence hw ih
  | subpart hpart _ ih =>
    rw [List.append_assoc]
    exact .subpart (hpart.append hq) ih

theorem decode_encode_append (s : String) (rest : List UInt8) :
    decode (encode s ++ rest) = s ++ decode rest := by
  obtain ⟨segments, h⟩ := exists_segmentation rest
  rw [(segmentation_encode_append s h).decode_eq, h.decode_eq]
  apply String.toList_inj.mp
  simp [Function.comp_def, Segment.char]

theorem decode_append (hq : ∀ b ∈ q.head?, ¬ IsTail b) (bytes : List UInt8) :
    decode (bytes ++ q) = decode bytes ++ decode q := by
  obtain ⟨segments, h⟩ := exists_segmentation bytes
  obtain ⟨others, h'⟩ := exists_segmentation q
  rw [(h.append hq h').decode_eq, h.decode_eq, h'.decode_eq]
  apply String.toList_inj.mp
  simp

/-- A character that is no replacement comes of its own bytes. -/
theorem Segmentation.exists_of_char {before after : List Char} (h : Segmentation bytes segments)
    (hc : c ≠ replacement) (hmap : segments.map Segment.char = before ++ c :: after) :
    ∃ p q others, bytes = p ++ (String.utf8EncodeChar c ++ q) ∧ Segmentation q others ∧
      others.map Segment.char = after := by
  induction h generalizing before with
  | nil => simp at hmap
  | @sequence bytes rest c' more hw hrest ih =>
    cases before with
    | nil =>
      obtain ⟨rfl, hafter⟩ := List.cons.inj hmap
      obtain rfl := hw.eq_char
      exact ⟨[], rest, more, rfl, hrest, hafter⟩
    | cons x before =>
      obtain ⟨p, q, others, rfl, hq, hafter⟩ := ih (List.cons.inj hmap).2
      exact ⟨bytes ++ p, q, others, by simp, hq, hafter⟩
  | @subpart part rest more hpart hrest ih =>
    cases before with
    | nil => exact absurd (List.cons.inj hmap).1.symm hc
    | cons x before =>
      obtain ⟨p, q, others, rfl, hq, hafter⟩ := ih (List.cons.inj hmap).2
      exact ⟨part ++ p, q, others, by simp, hq, hafter⟩

theorem exists_of_decode_eq {before after : List Char} (hc : c ≠ replacement)
    (h : (decode bytes).toList = before ++ c :: after) :
    ∃ p q, bytes = p ++ (String.utf8EncodeChar c ++ q) ∧ (decode q).toList = after := by
  obtain ⟨segments, hsegments⟩ := exists_segmentation bytes
  rw [hsegments.decode_eq, String.toList_ofList] at h
  obtain ⟨p, q, others, hbytes, hq, hafter⟩ := hsegments.exists_of_char hc h
  exact ⟨p, q, hbytes, by rw [hq.decode_eq, String.toList_ofList, hafter]⟩

theorem decode_eq_nil_iff : (decode bytes).toList = [] ↔ bytes = [] := by
  constructor
  · intro h
    obtain ⟨segments, hsegments⟩ := exists_segmentation bytes
    rw [hsegments.decode_eq, String.toList_ofList, List.map_eq_nil_iff] at h
    rw [← hsegments.flatMap_bytes, h]
    rfl
  · rintro rfl
    rfl

theorem not_isTail_iff : ¬ IsTail b ↔ b < 0x80 ∨ 0xBF < b := by
  rw [IsTail, UInt8.lt_iff_toNat_lt, UInt8.lt_iff_toNat_lt]
  change _ ↔ b.toNat < 0x80 ∨ 0xBF < b.toNat
  omega

theorem run_print_append {ε : Type} {script : Script} (h : decode (p ++ q) = decode p ++ decode q) :
    ((Host.print p).bind fun _ => Host.print q).run (Script.console (ε := ε)) script =
      (Host.print (p ++ q)).run Script.console script := by
  simp [Host.print, Dialogue.say, Dialogue.bind, Dialogue.run, Script.console, Script.write, h,
    String.append_assoc]

/-- Any bytes are well-formed sequences and maximal subparts in one way only, and printing them
writes the characters of the sequences and one replacement for each subpart. So the bytes of a text
are printed as that text, and to print bytes in two parts comes to the same if the first part is the
bytes of a text, or the second starts with no byte that goes on with a sequence. -/
theorem print_segments :
    (∀ bytes, ∃ segments, (∀ others, Segmentation bytes others ↔ others = segments) ∧
      segments.flatMap Segment.bytes = bytes ∧
      Host.print bytes = .say (String.ofList (segments.map Segment.char))) ∧
    (∀ s, Host.print (encode s) = .say s) ∧
    ∀ p q, (∃ s, p = encode s) ∨ (∀ b ∈ q.head?, b < 0x80 ∨ 0xBF < b) →
      ∀ (ε : Type) (script : Script),
        ((Host.print p).bind fun _ => Host.print q).run (Script.console (ε := ε)) script =
          (Host.print (p ++ q)).run Script.console script := by
  refine ⟨fun bytes => ?_, fun s => ?_, fun p q h ε script => ?_⟩
  · obtain ⟨segments, h⟩ := exists_segmentation bytes
    refine ⟨segments, fun others => ⟨fun h' => h'.unique h, ?_⟩, h.flatMap_bytes, ?_⟩
    · rintro rfl
      exact h
    · rw [Host.print, h.decode_eq]
  · rw [Host.print, decode_encode]
  · rcases h with ⟨s, rfl⟩ | hq
    · exact run_print_append (by rw [decode_encode_append, decode_encode])
    · exact run_print_append (decode_append (fun b hb => not_isTail_iff.mpr (hq b hb)) p)

/-- Two bytes of a sequence of three, and a letter in place of the third. -/
theorem print_segments_cut : (∀ b ∈ [(0x41 : UInt8)].head?, b < 0x80 ∨ 0xBF < b) ∧
    ((Host.print [0xE2, 0x82]).bind fun _ => Host.print [0x41]).run
        (Script.console (ε := HostError)) (.ofLines []) =
      (Host.print [0xE2, 0x82, 0x41]).run Script.console (.ofLines []) := by
  have h : ∀ b ∈ [(0x41 : UInt8)].head?, b < 0x80 ∨ 0xBF < b := by simp
  exact ⟨h, print_segments.2.2 [0xE2, 0x82] [0x41] (.inr h) HostError (.ofLines [])⟩

example : decode [0xE2, 0x82, 0x41] = "\uFFFDA" := by rfl

example : decode [0xED, 0xA0, 0x80] = "\uFFFD\uFFFD\uFFFD" := by rfl

end ConsoleHost.Text
