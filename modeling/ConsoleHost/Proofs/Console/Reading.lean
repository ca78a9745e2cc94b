import Mathlib
import ConsoleHost.Proofs.Console.Streams
import ConsoleHost.Proofs.Text.Segments

/-! Reading lines: it makes no difference whether bytes are cut and stripped before they are decoded
or after. -/
namespace ConsoleHost

namespace Text

variable {α : Type} {carriage newline a : α} {l l' u v : List α} {ls ls' : List (List α)}
  {b : UInt8} {bytes : List UInt8} {c : Char}

/-! ### Cutting -/

/-- A list is cut after every newline. What follows the last one is a piece too, if there is
anything. -/
inductive CutAfter (newline : α) : List α → List (List α) → Prop where
  | nil : CutAfter newline [] []
  | rest {u : List α} (h : newline ∉ u) (hne : u ≠ []) : CutAfter newline u [u]
  | line {u rest : List α} {more : List (List α)} (h : newline ∉ u)
      (hrest : CutAfter newline rest more) :
      CutAfter newline (u ++ newline :: rest) ((u ++ [newline]) :: more)

theorem CutAfter.cases_of_list (h : CutAfter newline l ls) :
    (l = [] ∧ ls = []) ∨ (newline ∉ l ∧ l ≠ [] ∧ ls = [l]) ∨
      ∃ u rest more, newline ∉ u ∧ l = u ++ newline :: rest ∧ ls = (u ++ [newline]) :: more ∧
        CutAfter newline rest more := by
  cases h with
  | nil => exact .inl ⟨rfl, rfl⟩
  | rest h hne => exact .inr (.inl ⟨h, hne, rfl⟩)
  | line h hrest => exact .inr (.inr ⟨_, _, _, h, rfl, rfl, hrest⟩)

theorem eq_of_append_cons (hu : newline ∉ u) (hv : newline ∉ v)
    (h : u ++ newline :: l = v ++ newline :: l') : u = v ∧ l = l' := by
  induction u generalizing v with
  | nil =>
    cases v with
    | nil => exact ⟨rfl, (List.cons.inj h).2⟩
    | cons d v => exact absurd (List.cons.inj h).1 (List.ne_of_not_mem_cons hv)
  | cons d u ih =>
    cases v with
    | nil => exact absurd (List.cons.inj h).1.symm (List.ne_of_not_mem_cons hu)
    | cons e v =>
      obtain ⟨rfl, htail⟩ := List.cons.inj h
      obtain ⟨rfl, hl⟩ :=
        ih (List.not_mem_of_not_mem_cons hu) (List.not_mem_of_not_mem_cons hv) htail
      exact ⟨rfl, hl⟩

theorem CutAfter.unique (h : CutAfter newline l ls) (h' : CutAfter newline l ls') : ls = ls' := by
  induction h generalizing ls' with
  | nil =>
    rcases h'.cases_of_list with ⟨-, hnil⟩ | ⟨-, hne, -⟩ | ⟨u, rest, more, -, hl, -⟩
    · exact hnil.symm
    · exact absurd rfl hne
    · simp at hl
  | rest hu hne =>
    rcases h'.cases_of_list with ⟨hnil, -⟩ | ⟨-, -, hone⟩ | ⟨u, rest, more, -, rfl, -⟩
    · exact absurd hnil hne
    · exact hone.symm
    · exact absurd (by simp) hu
  | line hu _ ih =>
    rcases h'.cases_of_list with ⟨hnil, -⟩ | ⟨hnone, -⟩ | ⟨v, rest, more, hv, hl, rfl, hrest⟩
    · simp at hnil
    · exact absurd (by simp) hnone
    · obtain ⟨rfl, rfl⟩ := eq_of_append_cons hu hv hl
      rw [ih hrest]

theorem CutAfter.iff_eq (h : CutAfter newline l ls) : CutAfter newline l ls' ↔ ls' = ls :=
  ⟨fun h' => h'.unique h, fun hls => hls ▸ h⟩

/-- What is not a newline goes to the piece that follows. -/
theorem CutAfter.cons {piece : List α} {more : List (List α)} (ha : newline ≠ a)
    (h : CutAfter newline l (piece :: more)) :
    CutAfter newline (a :: l) ((a :: piece) :: more) := by
  cases h with
  | rest hu hne => exact .rest (by simp [ha, hu]) (by simp)
  | line hu hrest => exact .line (u := a :: _) (by simp [ha, hu]) hrest

theorem cutAfter_pieces (bytes : List UInt8) : CutAfter 0x0A bytes (pieces bytes) := by
  induction bytes with
  | nil => exact .nil
  | cons b rest ih =>
    rw [pieces]
    split
    · rename_i hb
      obtain rfl : b = 0x0A := by simpa [isNewline] using hb
      exact .line (u := []) (by simp) ih
    · rename_i hb
      have hne : 0x0A ≠ b := fun h => hb (by simp [isNewline, ← h])
      split <;> rename_i hpieces <;> rw [hpieces] at ih
      · cases ih
        exact .rest (by simpa using hne) (by simp)
      · exact ih.cons hne

/-- A byte that is a character by itself is decoded to it, whatever is around it. -/
theorem decode_around (hb : String.utf8EncodeChar c = [b]) (htail : ¬ IsTail b)
    (bytes rest : List UInt8) :
    (decode (bytes ++ b :: rest)).toList = (decode bytes).toList ++ c :: (decode rest).toList := by
  have hone : decode (b :: rest) = String.singleton c ++ decode rest := by
    have h := decode_encode_append (String.singleton c) rest
    rwa [encode, String.toList_singleton, List.flatMap_singleton, hb] at h
  rw [decode_append (by simpa using htail), hone]
  simp

theorem mem_of_mem_decode (hb : String.utf8EncodeChar c = [b]) (hc : c ≠ replacement)
    (h : c ∈ (decode bytes).toList) : b ∈ bytes := by
  obtain ⟨before, after, hsplit⟩ := List.append_of_mem h
  obtain ⟨p, q, rfl, -⟩ := exists_of_decode_eq hc hsplit
  simp [hb]

theorem getLast?_of_decode (hb : String.utf8EncodeChar c = [b]) (hc : c ≠ replacement)
    (h : (decode bytes).toList.getLast? = some c) : bytes.getLast? = some b := by
  obtain ⟨before, hsplit⟩ := List.getLast?_eq_some_iff.mp h
  obtain ⟨p, q, rfl, hq⟩ := exists_of_decode_eq hc hsplit
  rw [decode_eq_nil_iff.mp hq, hb]
  simp

theorem encode_newline : String.utf8EncodeChar '\n' = [0x0A] := by decide

theorem encode_carriage : String.utf8EncodeChar '\r' = [0x0D] := by decide

/-- Decoded pieces are what the decoded whole is cut into. -/
theorem CutAfter.decode {cut : List (List UInt8)} (h : CutAfter 0x0A bytes cut) :
    CutAfter '\n' (decode bytes).toList (cut.map fun piece => (decode piece).toList) := by
  induction h with
  | nil => exact .nil
  | rest hu hne =>
    exact .rest (mt (mem_of_mem_decode encode_newline (by decide)) hu) (mt decode_eq_nil_iff.mp hne)
  | @line u rest more hu _ ih =>
    have hline := decode_around encode_newline (by decide) u []
    rw [List.map_cons, hline, decode_around encode_newline (by decide) u rest]
    exact .line (mt (mem_of_mem_decode encode_newline (by decide)) hu) ih

/-! ### Stripping -/

/-- A list without one newline at its end, and without one carriage return right before it. -/
inductive Chomped (carriage newline : α) : List α → List α → Prop where
  | whole {l : List α} (h : l.getLast? ≠ some newline) : Chomped carriage newline l l
  | newline {l : List α} (h : l.getLast? ≠ some carriage) :
      Chomped carriage newline (l ++ [newline]) l
  | both {l : List α} : Chomped carriage newline (l ++ [carriage, newline]) l

theorem exists_chomped (carriage newline : α) (l : List α) : ∃ u, Chomped carriage newline l u := by
  by_cases hl : l.getLast? = some newline
  · obtain ⟨u, rfl⟩ := List.getLast?_eq_some_iff.mp hl
    by_cases hu : u.getLast? = some carriage
    · obtain ⟨v, rfl⟩ := List.getLast?_eq_some_iff.mp hu
      exact ⟨v, by simpa using Chomped.both⟩
    · exact ⟨u, .newline hu⟩
  · exact ⟨l, .whole hl⟩

theorem Chomped.unique (h : Chomped carriage newline l u) (h' : Chomped carriage newline l v) :
    u = v := by
  cases h with
  | whole h =>
    cases h' with
    | whole => rfl
    | newline | both => simp at h
  | newline h =>
    generalize hl : u ++ [newline] = l at h'
    cases h' with
    | whole h' => simp [← hl] at h'
    | newline => exact List.append_cancel_right hl
    | both =>
      obtain rfl : u = v ++ [carriage] := (List.append_left_inj [newline]).mp (by simpa using hl)
      simp at h
  | both =>
    generalize hl : u ++ [carriage, newline] = l at h'
    cases h' with
    | whole h' => simp [← hl] at h'
    | newline h' =>
      obtain rfl : u ++ [carriage] = v := (List.append_left_inj [newline]).mp (by simpa using hl)
      simp at h'
    | both => exact List.append_cancel_right hl

theorem Chomped.iff_eq (h : Chomped carriage newline l u) :
    Chomped carriage newline l v ↔ v = u :=
  ⟨fun h' => h'.unique h, fun hv => hv ▸ h⟩

theorem chomped_chomp (s : String) : Chomped '\r' '\n' s.toList (chomp s).toList := by
  unfold chomp
  split
  · rename_i r hr
    rw [List.reverse_eq_iff.mp hr, String.toList_ofList, List.reverse_cons, List.reverse_cons,
      List.append_assoc]
    exact .both
  · rename_i r hno hr
    rw [List.reverse_eq_iff.mp hr, String.toList_ofList, List.reverse_cons]
    refine .newline fun hlast => ?_
    obtain ⟨before, hbefore⟩ := List.getLast?_eq_some_iff.mp hlast
    exact hno before.reverse (by simpa using List.reverse_eq_iff.mp hbefore)
  · rename_i hno
    refine .whole fun hlast => ?_
    obtain ⟨before, hbefore⟩ := List.getLast?_eq_some_iff.mp hlast
    exact hno before.reverse (by simp [hbefore])

/-- Stripped bytes decode to the stripped text. -/
theorem Chomped.decode {stripped : List UInt8} (h : Chomped 0x0D 0x0A bytes stripped) :
    Chomped '\r' '\n' (decode bytes).toList (decode stripped).toList := by
  cases h with
  | whole h => exact .whole (mt (getLast?_of_decode encode_newline (by decide)) h)
  | newline h =>
    rw [decode_around encode_newline (by decide)]
    exact .newline (mt (getLast?_of_decode encode_carriage (by decide)) h)
  | both =>
    rw [decode_around encode_carriage (by decide), ← List.nil_append [0x0A],
      decode_around encode_newline (by decide)]
    exact .both

end Text

namespace Streams

open Text

variable {s : Streams} {bytes : List UInt8}

/-- What is left after some reads. -/
def afterReads : Nat → Streams → Streams
  | 0, s => s
  | k + 1, s => afterReads k s.readLine.2

theorem readLine_afterReads (h : s.input = .ok bytes) (k : Nat) :
    (s.afterReads k).readLine.1 = .ok (lines bytes)[k]? := by
  induction k generalizing s bytes with
  | zero =>
    obtain ⟨_, _, hread, -⟩ := exists_readLine_eq h
    rw [afterReads, hread, List.head?_eq_getElem?]
  | succ k ih =>
    obtain ⟨bytes', log, hread, hlines⟩ := exists_readLine_eq h
    rw [afterReads, hread, ih rfl, hlines, List.getElem?_tail]

/-- Reads give the lines of the bytes in order, and from then on the end of the input. The bytes are
cut after every newline, and it is one text to decode a piece and then strip it, and to strip it and
then decode it. The pieces of the decoded bytes are the decoded pieces. -/
theorem reads_lines (h : s.input = .ok bytes) :
    ∃ (pieces : List (List UInt8)) (texts : List String),
      (∀ k, (s.afterReads k).readLine.1 = .ok texts[k]?) ∧
      (∀ cut, CutAfter 0x0A bytes cut ↔ cut = pieces) ∧
      (∀ cut, CutAfter '\n' (decode bytes).toList cut ↔
        cut = pieces.map fun piece => (decode piece).toList) ∧
      List.Forall₂ (fun piece text =>
        (∀ cs, Chomped '\r' '\n' (decode piece).toList cs ↔ cs = text.toList) ∧
        ∃ stripped, (∀ bs, Chomped 0x0D 0x0A piece bs ↔ bs = stripped) ∧ decode stripped = text)
        pieces texts := by
  refine ⟨pieces bytes, lines bytes, readLine_afterReads h, fun cut => ?_, fun cut => ?_, ?_⟩
  · exact (cutAfter_pieces bytes).iff_eq
  · exact (cutAfter_pieces bytes).decode.iff_eq
  · rw [lines, List.forall₂_map_right_iff, List.forall₂_same]
    intro piece _
    obtain ⟨stripped, hstripped⟩ := exists_chomped 0x0D 0x0A piece
    have htext := chomped_chomp (decode piece)
    refine ⟨fun cs => htext.iff_eq, stripped, fun bs => hstripped.iff_eq, ?_⟩
    exact String.toList_inj.mp (hstripped.decode.unique htext)

/-- A sequence that the end of its line cuts short, and a carriage return without a newline. -/
theorem reads_lines_cut :
    let s : Streams := ⟨.ok [0x61, 0xE2, 0x0D, 0x0A, 0x0D], "", none, .upTo .error, ""⟩
    s.input = .ok [0x61, 0xE2, 0x0D, 0x0A, 0x0D] ∧
      ∀ k, (s.afterReads k).readLine.1 = .ok ["a\uFFFD", "\r"][k]? := by
  intro s
  obtain ⟨pieces, texts, hread, hcut, -, htexts⟩ := reads_lines (s := s) rfl
  have hpieces := (hcut [[0x61, 0xE2, 0x0D, 0x0A], [0x0D]]).mp
    (.line (u := [0x61, 0xE2, 0x0D]) (by decide) (.rest (by decide) (by decide)))
  subst hpieces
  rcases htexts with - | @⟨_, first, _, _, ⟨hfirst, -⟩, - | @⟨_, second, _, _, ⟨hsecond, -⟩, - | -⟩⟩
  have hdecode : (decode [0x61, 0xE2, 0x0D, 0x0A]).toList = ['a', replacement] ++ ['\r', '\n'] := by
    decide
  have hfirst : first = "a\uFFFD" :=
    String.toList_inj.mp ((hfirst ['a', replacement]).mp (hdecode ▸ .both)).symm
  have hsecond : second = "\r" :=
    String.toList_inj.mp ((hsecond ['\r']).mp (.whole (by decide))).symm
  rw [← hfirst, ← hsecond]
  exact ⟨rfl, hread⟩

end Streams
end ConsoleHost
