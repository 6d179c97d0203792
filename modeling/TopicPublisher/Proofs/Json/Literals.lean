import TopicPublisher.Json.Quoted
import TopicPublisher.Proofs.Text.Utf8

/-!
# Quoted strings

What stands between the quotes of a string is read in two steps. It is a row of pieces, each of which has
forms of its own (`Piece.Spells`); and the pieces are the characters of a text, two of them together where
they are the halves of a surrogate pair (`Denotes`). A row of pieces with a half that stands alone is still a
string, but it is no text.

Results:
1. `hexUnit_eq_some_iff`, `shortEscape_eq_some_iff`: the escapes.
2. `pieces_append`, `pieces_eq_some_iff`: the pieces up to the closing quote.
3. `join_eq_some_iff`: the text that pieces are, if they are one.
4. `readQuoted_eq_some_iff`: quoted strings.
-/

namespace TopicPublisher.Json

/-! ## Definitions -/

/-- `HexDigit c n`: the digit `c`, in either case, stands for `n`. -/
inductive HexDigit : Char → Nat → Prop
  | decimal {c : Char} {n : Nat} : n < 10 → c.toNat = 48 + n → HexDigit c n
  | lower {c : Char} {n : Nat} : n < 6 → c.toNat = 97 + n → HexDigit c (10 + n)
  | upper {c : Char} {n : Nat} : n < 6 → c.toNat = 65 + n → HexDigit c (10 + n)

/-- The letters that may stand behind a backslash, with the characters that they are for. -/
def shortEscapes : List (Char × Char) :=
  [('"', '"'), ('\\', '\\'), ('/', '/'), ('b', '\x08'), ('f', '\x0c'), ('n', '\n'), ('r', '\r'),
    ('t', '\t')]

/-- `p.Spells cs`: the piece `p` may be written `cs`. -/
inductive Piece.Spells : List Char → Piece → Prop
  | raw {c : Char} : c ≠ '"' → c ≠ '\\' → ¬ c.toNat < 32 → Spells [c] (.char c)
  | short {e c : Char} : (e, c) ∈ shortEscapes → Spells ['\\', e] (.char c)
  | unit {a b c d : Char} {i j k l : Nat} : HexDigit a i → HexDigit b j → HexDigit c k → HexDigit d l →
      Spells ['\\', 'u', a, b, c, d] (.unit (((i * 16 + j) * 16 + k) * 16 + l))

/-- The pieces stand one after the other. -/
inductive SpellsInside : List Char → List Piece → Prop
  | nil : SpellsInside [] []
  | cons {a cs : List Char} {p : Piece} {ps : List Piece} :
      p.Spells a → SpellsInside cs ps → SpellsInside (a ++ cs) (p :: ps)

/-- `Denotes ps cs`: the pieces are those of the text `cs`. A unit that is the number of a character is that
character, and a pair of halves is one character beyond `0xFFFF`. -/
inductive Denotes : List Piece → List Char → Prop
  | nil : Denotes [] []
  | char {c : Char} {ps : List Piece} {cs : List Char} : Denotes ps cs → Denotes (.char c :: ps) (c :: cs)
  | unit {c : Char} {ps : List Piece} {cs : List Char} :
      Denotes ps cs → Denotes (.unit c.toNat :: ps) (c :: cs)
  | pair {c : Char} {n m : Nat} {ps : List Piece} {cs : List Char} : n < 0x400 → m < 0x400 →
      c.toNat = 0x10000 + n * 0x400 + m → Denotes ps cs →
      Denotes (.unit (0xD800 + n) :: .unit (0xDC00 + m) :: ps) (c :: cs)

/-- `SpellsString cs s`: a string in quotes. It is the text `s`, or no text for `none`. -/
def SpellsString (cs : List Char) (s : Option String) : Prop :=
  ∃ inside ps, cs = '"' :: (inside ++ ['"']) ∧ SpellsInside inside ps ∧
    ∀ t, s = some t ↔ Denotes ps t.toList

/-! ## 1. Escapes -/

theorem hexValue_eq_some_iff {c : Char} {n : Nat} : hexValue c = some n ↔ HexDigit c n := by
  constructor
  · intro h
    unfold hexValue at h
    simp only at h
    split at h
    · cases h
      exact .decimal (by omega) (by omega)
    split at h
    · cases h
      rw [show c.toNat - 87 = 10 + (c.toNat - 97) by omega]
      exact .lower (by omega) (by omega)
    split at h
    · cases h
      rw [show c.toNat - 55 = 10 + (c.toNat - 65) by omega]
      exact .upper (by omega) (by omega)
    · cases h
  · unfold hexValue
    rintro (⟨hn, hc⟩ | ⟨hn, hc⟩ | ⟨hn, hc⟩) <;> simp only [hc] <;> grind

theorem hexUnit_eq_some_iff {a b c d : Char} {n : Nat} : hexUnit a b c d = some n ↔
    ∃ i j k l, HexDigit a i ∧ HexDigit b j ∧ HexDigit c k ∧ HexDigit d l ∧
      n = ((i * 16 + j) * 16 + k) * 16 + l := by
  simp only [hexUnit, Option.bind_eq_bind, Option.bind_eq_some_iff, hexValue_eq_some_iff,
    Option.pure_def, Option.some.injEq, eq_comm (b := n)]
  grind

theorem shortEscape_eq_some_iff {e c : Char} : shortEscape e = some c ↔ (e, c) ∈ shortEscapes := by
  constructor
  · intro h
    unfold shortEscape at h
    repeat' split at h
    all_goals cases h
    all_goals simp_all [shortEscapes]
  · have hread : ∀ p ∈ shortEscapes, shortEscape p.1 = some p.2 := by decide
    exact fun h => hread (e, c) h

/-! ## 2. Pieces -/

/-- A piece is read from each of its forms, and what follows is left. -/
theorem pieces_append {a : List Char} {p : Piece} (h : p.Spells a) (rest : List Char) :
    pieces (a ++ rest) = (pieces rest).map fun r => (p :: r.1, r.2) := by
  cases h with
  | @raw c hquote hbackslash hcontrol =>
    rw [List.singleton_append, pieces]
    · simp only [hcontrol, hbackslash, decide_false, Bool.or_self, Bool.false_eq_true, if_false]
      cases pieces rest <;> rfl
    · exact hquote
    · rintro _ _ _ _ _ rfl
      exact fun _ => hbackslash rfl
    · rintro _ _ rfl
      exact fun _ => hbackslash rfl
  | @short e c he =>
    have hu : ∀ p ∈ shortEscapes, p.1 ≠ 'u' := by decide
    rw [List.cons_append, List.singleton_append, pieces, shortEscape_eq_some_iff.2 he]
    · cases pieces rest <;> rfl
    · rintro _ _ _ _ _ rfl
      exact fun _ => hu _ he rfl
  | unit ha hb hc hd =>
    simp only [List.cons_append, List.nil_append]
    rw [pieces, hexUnit_eq_some_iff.2 ⟨_, _, _, _, ha, hb, hc, hd, rfl⟩]
    cases pieces rest <;> rfl

theorem pieces_eq_some_iff {cs rest : List Char} {ps : List Piece} : pieces cs = some (ps, rest) ↔
    ∃ inside, cs = inside ++ '"' :: rest ∧ SpellsInside inside ps := by
  constructor
  · intro h
    fun_induction pieces cs generalizing ps with
    | case1 => cases h
    | case2 =>
      cases h
      exact ⟨[], rfl, .nil⟩
    | case3 a b c d cs ih =>
      simp only [Option.bind_eq_bind, Option.bind_eq_some_iff, Option.pure_def, Option.some.injEq,
        Prod.mk.injEq, hexUnit_eq_some_iff] at h
      obtain ⟨n, ⟨i, j, k, l, ha, hb, hc, hd, rfl⟩, ⟨ps', rest'⟩, hps, rfl, rfl⟩ := h
      obtain ⟨inside, rfl, hinside⟩ := ih hps
      exact ⟨_, rfl, .cons (.unit ha hb hc hd) hinside⟩
    | case4 e cs hu ih =>
      simp only [Option.bind_eq_bind, Option.bind_eq_some_iff, Option.pure_def, Option.some.injEq,
        Prod.mk.injEq, shortEscape_eq_some_iff] at h
      obtain ⟨c, he, ⟨ps', rest'⟩, hps, rfl, rfl⟩ := h
      obtain ⟨inside, rfl, hinside⟩ := ih hps
      exact ⟨_, rfl, .cons (.short he) hinside⟩
    | case5 => cases h
    | case6 c cs hquote hu he hc ih =>
      simp only [Option.bind_eq_bind, Option.bind_eq_some_iff, Option.pure_def, Option.some.injEq,
        Prod.mk.injEq] at h
      obtain ⟨⟨ps', rest'⟩, hps, rfl, rfl⟩ := h
      obtain ⟨inside, rfl, hinside⟩ := ih hps
      simp only [Bool.or_eq_true, decide_eq_true_eq, not_or] at hc
      exact ⟨_, rfl, .cons (.raw hquote hc.2 hc.1) hinside⟩
  · rintro ⟨inside, rfl, h⟩
    induction h with
    | nil => rfl
    | cons hp _ ih =>
      rw [List.append_assoc, pieces_append hp, ih]
      rfl

/-! ## 3. Texts -/

theorem isHighSurrogate_iff {n : Nat} : isHighSurrogate n = true ↔ 0xD800 ≤ n ∧ n < 0xDC00 := by
  simp [isHighSurrogate]

theorem isLowSurrogate_iff {n : Nat} : isLowSurrogate n = true ↔ 0xDC00 ≤ n ∧ n < 0xE000 := by
  simp [isLowSurrogate]

/-- The number of a character is no half of another one. -/
theorem join_unit (c : Char) (ps : List Piece) : join (.unit c.toNat :: ps) = (join ps).map (c :: ·) := by
  have hvalid : c.toNat < 0xD800 ∨ 0xDFFF < c.toNat ∧ c.toNat < 0x110000 := c.valid
  have hhigh : ¬ isHighSurrogate c.toNat = true := by
    rw [isHighSurrogate_iff]
    omega
  have hlow : ¬ isLowSurrogate c.toNat = true := by
    rw [isLowSurrogate_iff]
    omega
  conv => lhs; unfold join
  simp only [hhigh, hlow, Char.ofNat_toNat, Bool.false_eq_true, if_false]

/-- Four digits write no number beyond `0xFFFF`. -/
theorem join_eq_some_iff {ps : List Piece} (hps : ∀ n, .unit n ∈ ps → n < 0x10000) {cs : List Char} :
    join ps = some cs ↔ Denotes ps cs := by
  constructor
  · intro h
    fun_induction join ps generalizing cs with
    | case1 =>
      cases h
      exact .nil
    | case2 c ps ih =>
      obtain ⟨cs, hcs, rfl⟩ := Option.map_eq_some_iff.1 h
      exact .char (ih (fun n hn => hps n (.tail _ hn)) hcs)
    | case3 n hn m ps hm ih =>
      obtain ⟨cs, hcs, rfl⟩ := Option.map_eq_some_iff.1 h
      rw [isHighSurrogate_iff] at hn
      rw [isLowSurrogate_iff] at hm
      have hvalid : Nat.isValidChar (0x10000 + (n - 0xD800) * 0x400 + (m - 0xDC00)) := by
        unfold Nat.isValidChar
        omega
      have hpair := Denotes.pair (by omega) (by omega) (Utf8.toNat_ofNat hvalid)
        (ih (fun k hk => hps k (.tail _ (.tail _ hk))) hcs)
      rwa [Nat.add_sub_cancel' hn.1, Nat.add_sub_cancel' hm.1] at hpair
    | case4 => cases h
    | case5 => cases h
    | case6 => cases h
    | case7 n ps hhigh hlow ih =>
      obtain ⟨cs, hcs, rfl⟩ := Option.map_eq_some_iff.1 h
      have hn := hps n (.head _)
      rw [isHighSurrogate_iff] at hhigh
      rw [isLowSurrogate_iff] at hlow
      have hvalid : n.isValidChar := by
        unfold Nat.isValidChar
        omega
      have hunit := Denotes.unit (c := Char.ofNat n) (ih (fun k hk => hps k (.tail _ hk)) hcs)
      rwa [Utf8.toNat_ofNat hvalid] at hunit
  · intro h
    induction h with
    | nil => rfl
    | char _ ih =>
      rw [join, ih (fun n hn => hps n (.tail _ hn))]
      rfl
    | unit _ ih =>
      rw [join_unit, ih (fun n hn => hps n (.tail _ hn))]
      rfl
    | @pair c n m ps cs hn hm hc _ ih =>
      have hhigh : isHighSurrogate (0xD800 + n) = true := isHighSurrogate_iff.2 (by omega)
      have hlow : isLowSurrogate (0xDC00 + m) = true := isLowSurrogate_iff.2 (by omega)
      rw [join, if_pos hhigh]
      simp only [hlow, if_true, Nat.add_sub_cancel_left, ← hc, Char.ofNat_toNat,
        ih (fun k hk => hps k (.tail _ (.tail _ hk)))]
      rfl

/-! ## 4. Strings -/

theorem HexDigit.lt {c : Char} {n : Nat} (h : HexDigit c n) : n < 16 := by
  cases h <;> omega

theorem SpellsInside.unit_lt {cs : List Char} {ps : List Piece} (h : SpellsInside cs ps) :
    ∀ n, .unit n ∈ ps → n < 0x10000 := by
  induction h with
  | nil => exact fun _ hn => nomatch hn
  | cons hp _ ih =>
    intro n hn
    rcases List.mem_cons.1 hn with rfl | hn
    · obtain - | - | ⟨ha, hb, hc, hd⟩ := hp
      have := ha.lt
      have := hb.lt
      have := hc.lt
      have := hd.lt
      omega
    · exact ih n hn

theorem eq_map_join_iff {inside : List Char} {ps : List Piece} {s : Option String}
    (h : SpellsInside inside ps) :
    s = (join ps).map String.ofList ↔ ∀ t, s = some t ↔ Denotes ps t.toList := by
  have hread : ∀ t, (join ps).map String.ofList = some t ↔ Denotes ps t.toList := by
    intro t
    rw [Option.map_eq_some_iff, ← join_eq_some_iff h.unit_lt]
    constructor
    · rintro ⟨cs, hcs, rfl⟩
      rwa [String.toList_ofList]
    · exact fun ht => ⟨_, ht, String.ofList_toList⟩
  constructor
  · rintro rfl
    exact hread
  · exact fun hs => Option.ext fun t => (hs t).trans (hread t).symm

/-- The reader takes a string up to its closing quote, and leaves what follows. -/
theorem readQuoted_eq_some_iff {cs rest : List Char} {s : Option String} :
    readQuoted cs = some (s, rest) ↔ ∃ quoted, '"' :: cs = quoted ++ rest ∧ SpellsString quoted s := by
  rw [readQuoted, Option.map_eq_some_iff]
  constructor
  · rintro ⟨⟨ps, rest'⟩, hps, h⟩
    cases h
    obtain ⟨inside, rfl, hinside⟩ := pieces_eq_some_iff.1 hps
    exact ⟨_, (List.append_assoc ('"' :: inside) ['"'] _).symm, inside, ps, rfl, hinside,
      (eq_map_join_iff hinside).1 rfl⟩
  · rintro ⟨_, hcs, inside, ps, rfl, hinside, hs⟩
    rw [List.cons_append, List.append_assoc] at hcs
    exact ⟨(ps, rest), pieces_eq_some_iff.2 ⟨inside, (List.cons.inj hcs).2, hinside⟩,
      congrArg (·, rest) ((eq_map_join_iff hinside).2 hs).symm⟩

example : readQuoted "a\\u00e9\\ud83e\\udd80\" rest".toList = some (some "aé🦀", " rest".toList) := by
  decide +kernel
example : (readQuoted "\\ud83e\"".toList).map Prod.fst = some none := by decide +kernel

theorem exists_cons_of_spellsString {quoted : List Char} {s : Option String} (h : SpellsString quoted s) :
    ∃ cs, quoted = '"' :: cs ∧ ∀ rest, readQuoted (cs ++ rest) = some (s, rest) := by
  have hread : ∀ {cs}, quoted = '"' :: cs → ∀ rest, readQuoted (cs ++ rest) = some (s, rest) :=
    fun hquoted _ => readQuoted_eq_some_iff.2 ⟨_, congrArg (· ++ _) hquoted.symm, h⟩
  obtain ⟨inside, _, hquoted, -⟩ := h
  exact ⟨_, hquoted, hread hquoted⟩

end TopicPublisher.Json
