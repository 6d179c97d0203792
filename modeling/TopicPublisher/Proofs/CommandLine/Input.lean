import TopicPublisher.CommandLine.Input
import TopicPublisher.Proofs.Text.Utf8

/-!
# The messages of the standard input

The standard input is cut into lines as bytes, and each line is read as a text. This is as good as
reading the whole input as a text first: a line feed is one byte of its own, which no other character has
in it, so cutting bytes is cutting characters.

Results:
1. `splitAfter_encodeChars`: cutting the bytes of a text.
2. `exists_lines`, `lines_eq`: every text is made of lines, in one way.
3. `messagesOf_encode`: the messages are the lines of the text that are not empty.
4. `messagesOf_eq_ok_iff`: there are messages only where the input is a text.
-/

namespace TopicPublisher

namespace CommandLine

open Text Utf8

/-! ## Definitions -/

/-- `Lines cs ls`: text `cs` is made of lines `ls`. A line ends with a line feed, or with a carriage return
and a line feed, or with the text. -/
inductive Lines : List Char → List (List Char) → Prop
  | none : Lines [] []
  | last {l : List Char} : l ≠ [] → '\n' ∉ l → Lines l [l]
  | feed {l rest : List Char} {ls : List (List Char)} : '\n' ∉ l → l.getLast? ≠ some '\r' →
      Lines rest ls → Lines (l ++ '\n' :: rest) (l :: ls)
  | returned {l rest : List Char} {ls : List (List Char)} : '\n' ∉ l →
      Lines rest ls → Lines (l ++ '\r' :: '\n' :: rest) (l :: ls)

/-- The messages that lines hold. -/
def messagesIn (ls : List (List Char)) : List String := (ls.filter fun l => !l.isEmpty).map String.ofList

/-! ## 1. Cutting -/

theorem splitAfter_append {α : Type} {ends : α → Bool} {xs : List α} (hne : xs ≠ [])
    (h : ∀ x ∈ xs, ends x = false) (ys : List α) : splitAfter ends (xs ++ ys) =
      match splitAfter ends ys with
      | [] => [xs]
      | piece :: pieces => (xs ++ piece) :: pieces := by
  induction xs with
  | nil => exact (hne rfl).elim
  | cons x xs ih =>
    rw [List.cons_append, splitAfter, if_neg (by simp [h x])]
    cases xs with
    | nil => rfl
    | cons y xs =>
      rw [ih (List.cons_ne_nil _ _) fun z hz => h z (List.mem_cons_of_mem _ hz)]
      cases splitAfter ends ys <;> rfl

/-- Only the line feed has the byte of the line feed in it. -/
theorem lineFeed_of_mem {c : Char} {b : UInt8} (hm : b ∈ encodeChar c) (hb : b = 0x0A) : c = '\n' := by
  subst hb
  have hs := spells_encodeChar c
  generalize encodeChar c = bs at hm hs
  generalize hn : c.toNat = n at hs
  cases hs with
  | one =>
    cases List.mem_singleton.1 hm
    rw [← Char.ofNat_toNat c, hn]
    rfl
  | two ha _ hb =>
    have hb := (isTail_iff.1 hb).1
    simp only [List.mem_cons, List.not_mem_nil, or_false] at hm
    rcases hm with rfl | rfl <;> contradiction
  | three ha _ hb hc =>
    have hb := (isSecondOfThree_iff.1 hb).1
    have hc := (isTail_iff.1 hc).1
    simp only [List.mem_cons, List.not_mem_nil, or_false] at hm
    rcases hm with rfl | rfl | rfl <;> contradiction
  | four ha _ hb hc hd =>
    have hb := (isSecondOfFour_iff.1 hb).1
    have hc := (isTail_iff.1 hc).1
    have hd := (isTail_iff.1 hd).1
    simp only [List.mem_cons, List.not_mem_nil, or_false] at hm
    rcases hm with rfl | rfl | rfl | rfl <;> contradiction

/-- Cutting the bytes of a text at line feeds cuts the text there. -/
theorem splitAfter_encodeChars (cs : List Char) : byteLines (encodeChars cs) =
    (splitAfter (fun c => c == '\n') cs).map encodeChars := by
  unfold byteLines
  induction cs with
  | nil => rfl
  | cons c cs ih =>
    rw [encodeChars_cons, splitAfter]
    by_cases hc : c = '\n'
    · subst hc
      rw [if_pos (beq_self_eq_true '\n'), List.map_cons, ← ih]
      rfl
    · rw [if_neg (by simpa using hc), splitAfter_append (encodeChar_ne_nil c), ih]
      · cases splitAfter (fun c => c == '\n') cs with
        | nil => simp [encodeChars]
        | cons piece pieces => simp [encodeChars_cons]
      · intro b hb
        refine Bool.eq_false_iff.2 fun heq => hc (lineFeed_of_mem hb ?_)
        simpa using heq

/-! ## 2. Lines -/

theorem exists_lines (cs : List Char) : ∃ ls, Lines cs ls := by
  induction cs with
  | nil => exact ⟨[], .none⟩
  | cons c cs ih =>
    obtain ⟨ls, h⟩ := ih
    by_cases hc : c = '\n'
    · subst hc
      exact ⟨[] :: ls, .feed (l := []) nofun nofun h⟩
    · have hnot : ∀ {l : List Char}, '\n' ∉ l → '\n' ∉ c :: l := fun hl hm =>
        (List.mem_cons.1 hm).elim (fun he => hc he.symm) hl
      cases h with
      | none => exact ⟨[[c]], .last (List.cons_ne_nil _ _) (hnot nofun)⟩
      | last _ hl => exact ⟨[c :: cs], .last (List.cons_ne_nil _ _) (hnot hl)⟩
      | @feed l rest ls hl hend h =>
        -- A carriage return in front of an empty line belongs to the end of that line.
        by_cases hr : l = [] ∧ c = '\r'
        · obtain ⟨rfl, rfl⟩ := hr
          exact ⟨[] :: ls, .returned (l := []) nofun h⟩
        · refine ⟨(c :: l) :: ls, .feed (hnot hl) ?_ h⟩
          cases l with
          | nil => simpa using hr
          | cons d l => simpa [List.getLast?_cons_cons] using hend
      | @returned l rest ls hl h => exact ⟨(c :: l) :: ls, .returned (hnot hl) h⟩

theorem splitAfter_line {l : List Char} (hl : '\n' ∉ l) (rest : List Char) :
    splitAfter (fun c => c == '\n') (l ++ '\n' :: rest) =
      (l ++ ['\n']) :: splitAfter (fun c => c == '\n') rest := by
  have hrest : splitAfter (fun c => c == '\n') ('\n' :: rest) =
      ['\n'] :: splitAfter (fun c => c == '\n') rest := rfl
  by_cases hne : l = []
  · subst hne
    exact hrest
  · rw [splitAfter_append hne fun c hc => by simpa using ne_of_mem_of_not_mem hc hl, hrest]

theorem chomp_of_not_mem {l : List Char} (hl : '\n' ∉ l) : chomp l = l := by
  unfold chomp
  split
  · next h => exact (hl (List.mem_reverse.1 (h ▸ List.mem_cons_self))).elim
  · next h => exact (hl (List.mem_reverse.1 (h ▸ List.mem_cons_self))).elim
  · rfl

theorem chomp_feed {l : List Char} (hend : l.getLast? ≠ some '\r') : chomp (l ++ ['\n']) = l := by
  rw [chomp, List.reverse_append, List.reverse_singleton, List.singleton_append]
  cases hr : l.reverse with
  | nil => simpa using hr.symm
  | cons c cs =>
    have hc : c ≠ '\r' := by
      rintro rfl
      exact hend (by rw [List.getLast?_eq_head?_reverse, hr]; rfl)
    have hl : (c :: cs).reverse = l := by rw [← hr, List.reverse_reverse]
    split
    · next h => exact (hc (List.cons.inj (List.cons.inj h).2).1).elim
    · next h => rw [← (List.cons.inj h).2, hl]
    · next h => exact (h _ rfl).elim

theorem chomp_returned (l : List Char) : chomp (l ++ ['\r', '\n']) = l := by
  rw [chomp, List.reverse_append]
  exact List.reverse_reverse l

/-- There is one way in which a text is made of lines. -/
theorem Lines.eq {cs : List Char} {ls : List (List Char)} (h : Lines cs ls) :
    (splitAfter (fun c => c == '\n') cs).map chomp = ls := by
  induction h with
  | none => rfl
  | @last l hne hl =>
    have hsplit : splitAfter (fun c => c == '\n') (l ++ []) = _ :=
      splitAfter_append hne (fun c hc => by simpa using ne_of_mem_of_not_mem hc hl) []
    rw [List.append_nil] at hsplit
    rw [hsplit]
    simp [splitAfter, chomp_of_not_mem hl]
  | feed hl hend _ ih => rw [splitAfter_line hl, List.map_cons, chomp_feed hend, ih]
  | @returned l rest ls hl _ ih =>
    have hl' : '\n' ∉ l ++ ['\r'] := by simpa using hl
    rw [show l ++ '\r' :: '\n' :: rest = (l ++ ['\r']) ++ '\n' :: rest by simp, splitAfter_line hl',
      List.map_cons, List.append_assoc, ih]
    exact congrArg (· :: ls) (chomp_returned l)

theorem lines_eq {text : String} {ls : List (List Char)} (h : Lines text.toList ls) :
    lines text = ls.map String.ofList := by
  rw [← h.eq, List.map_map]
  rfl

/-! ## 3. Messages -/

theorem textsOf_map_encodeChars (css : List (List Char)) :
    textsOf (css.map encodeChars) = .ok (css.map fun cs => String.ofList (chomp cs)) := by
  induction css with
  | nil => rfl
  | cons cs css ih => simp only [List.map_cons, textsOf, decodeChars_encodeChars, ih]

/-- The messages of a text are its lines that are not empty. -/
theorem messagesOf_encode {text : String} {ls : List (List Char)} (h : Lines text.toList ls) :
    messagesOf (encode text) = .ok (messagesIn ls) := by
  unfold messagesOf encode
  rw [splitAfter_encodeChars, textsOf_map_encodeChars]
  have hlines := lines_eq h
  unfold lines at hlines
  have hempty : ∀ l : List Char, (String.ofList l).isEmpty = l.isEmpty := fun l => by
    rw [Bool.eq_iff_iff]
    simp
  rw [hlines]
  simp [messagesIn, Except.map, List.filter_map, Function.comp_def, hempty]

/-- Lines that are texts are the bytes of a text. -/
theorem eq_of_textsOf {pieces : List Bytes} {texts : List String} (h : textsOf pieces = .ok texts) :
    ∃ cs, pieces.flatten = encodeChars cs := by
  induction pieces generalizing texts with
  | nil => exact ⟨[], rfl⟩
  | cons piece pieces ih =>
    unfold textsOf at h
    split at h
    · cases h
    · next cs hcs =>
      split at h
      · cases h
      · next texts' htexts =>
        obtain ⟨ds, hds⟩ := ih htexts
        refine ⟨cs ++ ds, ?_⟩
        rw [List.flatten_cons, eq_of_decodeChars hcs, hds]
        exact List.flatMap_append.symm

theorem messagesOf_eq_ok_iff {input : Bytes} {messages : List String} :
    messagesOf input = .ok messages ↔ ∃ (text : String) (ls : List (List Char)),
      input = text.toUTF8.data.toList ∧ Lines text.toList ls ∧ messages = messagesIn ls := by
  simp only [← encode_eq_toUTF8]
  constructor
  · intro h
    have htext : ∃ text, input = encode text := by
      unfold messagesOf at h
      cases htexts : textsOf (byteLines input) with
      | error => simp [htexts, Except.map] at h
      | ok texts =>
        obtain ⟨cs, hcs⟩ := eq_of_textsOf htexts
        rw [byteLines, flatten_splitAfter] at hcs
        exact ⟨String.ofList cs, by rw [encode, String.toList_ofList, hcs]⟩
    obtain ⟨text, rfl⟩ := htext
    obtain ⟨ls, hls⟩ := exists_lines text.toList
    rw [messagesOf_encode hls] at h
    cases h
    exact ⟨text, ls, rfl, hls, rfl⟩
  · rintro ⟨text, ls, rfl, hls, rfl⟩
    exact messagesOf_encode hls

example : messagesOf [0x61, 0x0D, 0x0A, 0x0D, 0x0A, 0x20, 0x0D] = .ok ["a", " \r"] := by rfl
example : messagesOf [0x61, 0x0A, 0x62, 0xC3, 0x0A] = .error ⟨1, some 1⟩ := by rfl

end CommandLine

end TopicPublisher
