import Mathlib.Data.List.TakeDrop
import Mathlib.Data.List.TakeWhile
import TopicPublisher.Json.Document

/-!
# Numerals

A number is written as a sign, digits without leading zeros, digits behind a point, and an exponent. All but
the first digits may be missing. `Numeral.Spells` has these parts side by side; the reader finds each of them
by taking as many digits as there are. The two agree as long as what follows a number cannot be taken for
more of it, and in a document nothing else follows one (`Ends`).

Results:
1. `digits?_eq_some_iff`: the longest run of digits.
2. `whole?_append`, `eq_of_whole?` and so on: the parts, each one read from what spells it and from nothing
   else.
3. `numeral?_append`, `eq_of_numeral?`: the number.
-/

namespace TopicPublisher.Json

/-! ## Definitions -/

/-- The first character, if there is one, is one of these. -/
def FirstIs (p : Char → Prop) : List Char → Prop
  | [] => True
  | c :: _ => p c

/-- What may follow a value: nothing, blank space, or the sign behind an item or an entry. -/
def Ends (rest : List Char) : Prop := FirstIs (· ∈ [' ', '\n', '\t', '\r', ',', ']', '}']) rest

/-- At least one digit. -/
def Digits (ds : List Char) : Prop := ds ≠ [] ∧ ∀ d ∈ ds, '0' ≤ d ∧ d ≤ '9'

namespace Numeral

/-- Digits without leading zeros. -/
def IsWhole (ds : List Char) : Prop := ds = ['0'] ∨ Digits ds ∧ ds.head? ≠ some '0'

/-- `SpellsSign cs negative`: the sign of a number, with nothing for the positive one. -/
inductive SpellsSign : List Char → Bool → Prop
  | positive : SpellsSign [] false
  | negative : SpellsSign ['-'] true

inductive SpellsFraction : List Char → Option (List Char) → Prop
  | absent : SpellsFraction [] none
  | present {ds : List Char} : Digits ds → SpellsFraction ('.' :: ds) (some ds)

inductive SpellsExponent : List Char → Option (Bool × List Char) → Prop
  | absent : SpellsExponent [] none
  | bare {e : Char} {ds : List Char} : e = 'e' ∨ e = 'E' → Digits ds →
      SpellsExponent (e :: ds) (some (false, ds))
  | positive {e : Char} {ds : List Char} : e = 'e' ∨ e = 'E' → Digits ds →
      SpellsExponent (e :: '+' :: ds) (some (false, ds))
  | negative {e : Char} {ds : List Char} : e = 'e' ∨ e = 'E' → Digits ds →
      SpellsExponent (e :: '-' :: ds) (some (true, ds))

/-- `Spells cs n`: the number `n` is written `cs`. -/
inductive Spells : List Char → Numeral → Prop
  | mk {sign whole point power : List Char} {negative : Bool} {fraction : Option (List Char)}
      {exponent : Option (Bool × List Char)} : SpellsSign sign negative → IsWhole whole →
      SpellsFraction point fraction → SpellsExponent power exponent →
      Spells (sign ++ (whole ++ (point ++ power))) ⟨negative, whole, fraction, exponent⟩

end Numeral

/-! ## 1. Digits -/

theorem FirstIs.mono {p q : Char → Prop} {cs : List Char} (h : FirstIs p cs) (hpq : ∀ c, p c → q c) :
    FirstIs q cs := by
  cases cs with
  | nil => trivial
  | cons c => exact hpq c h

open Document (isDigit) in
/-- What ends a value is no more of a number. -/
theorem Ends.stops {rest : List Char} (h : Ends rest) :
    FirstIs (fun c => isDigit c = false ∧ c ≠ '.' ∧ c ≠ 'e' ∧ c ≠ 'E') rest := by
  have hall : ∀ c ∈ [' ', '\n', '\t', '\r', ',', ']', '}'],
      isDigit c = false ∧ c ≠ '.' ∧ c ≠ 'e' ∧ c ≠ 'E' := by simp [isDigit]
  exact FirstIs.mono h hall

namespace Document

variable {cs rest : List Char}

theorem span_eq_iff {p : Char → Bool} {ds : List Char} : cs.span p = (ds, rest) ↔
    cs = ds ++ rest ∧ (∀ d ∈ ds, p d = true) ∧ FirstIs (p · = false) rest := by
  rw [List.span_eq_takeWhile_dropWhile]
  constructor
  · intro h
    cases h
    refine ⟨List.takeWhile_append_dropWhile.symm, fun d hd => List.mem_takeWhile_imp hd, ?_⟩
    have hhead := List.head?_dropWhile_not p cs
    cases hrest : cs.dropWhile p with
    | nil => trivial
    | cons c rest =>
      rw [hrest] at hhead
      exact hhead
  · rintro ⟨rfl, hds, hrest⟩
    rw [List.takeWhile_append_of_pos hds, List.dropWhile_append_of_pos hds]
    cases rest with
    | nil => simp
    | cons c rest =>
      have hc : p c = false := hrest
      simp [hc]

theorem isDigit_iff {c : Char} : isDigit c = true ↔ '0' ≤ c ∧ c ≤ '9' := by
  simp [isDigit]

theorem digits?_eq_some_iff {ds : List Char} : digits? cs = some (ds, rest) ↔
    cs = ds ++ rest ∧ Digits ds ∧ FirstIs (isDigit · = false) rest := by
  have hspan : cs.span isDigit = (ds, rest) ∧ ds ≠ [] ↔
      cs = ds ++ rest ∧ Digits ds ∧ FirstIs (isDigit · = false) rest := by
    simp only [span_eq_iff, Digits, isDigit_iff]
    tauto
  rw [← hspan]
  unfold digits?
  cases cs.span isDigit with
  | mk ds' rest' => cases ds' <;> grind

/-! ## 2. The parts of a number -/

theorem whole?_append {w : List Char} (hw : Numeral.IsWhole w) (hrest : FirstIs (isDigit · = false) rest) :
    whole? (w ++ rest) = some (w, rest) := by
  rcases hw with rfl | ⟨hds, hzero⟩
  · rfl
  · unfold whole?
    split
    · next heq =>
      obtain ⟨d, ds, rfl⟩ := List.exists_cons_of_ne_nil hds.1
      cases heq
      exact (hzero rfl).elim
    · exact digits?_eq_some_iff.2 ⟨rfl, hds, hrest⟩

theorem eq_of_whole? {w : List Char} (h : whole? cs = some (w, rest)) :
    cs = w ++ rest ∧ Numeral.IsWhole w := by
  unfold whole? at h
  split at h
  · cases h
    exact ⟨rfl, .inl rfl⟩
  · next hzero =>
    obtain ⟨rfl, hds, -⟩ := digits?_eq_some_iff.1 h
    refine ⟨rfl, .inr ⟨hds, fun hhead => ?_⟩⟩
    obtain ⟨ds, rfl⟩ := List.head?_eq_some_iff.1 hhead
    exact hzero _ rfl

theorem fraction?_append {point : List Char} {f : Option (List Char)}
    (hf : Numeral.SpellsFraction point f)
    (hrest : FirstIs (fun c => isDigit c = false ∧ c ≠ '.') rest) :
    fraction? (point ++ rest) = some (f, rest) := by
  cases hf with
  | absent =>
    cases rest with
    | nil => rfl
    | cons c rest =>
      rw [List.nil_append, fraction?]
      exact fun _ heq => hrest.2 (List.cons.inj heq).1
  | @present ds hds =>
    have hread : digits? (ds ++ rest) = some (ds, rest) :=
      digits?_eq_some_iff.2 ⟨rfl, hds, hrest.mono fun _ hc => hc.1⟩
    rw [List.cons_append, fraction?, hread]
    rfl

theorem eq_of_fraction? {f : Option (List Char)} (h : fraction? cs = some (f, rest)) :
    ∃ point, cs = point ++ rest ∧ Numeral.SpellsFraction point f := by
  unfold fraction? at h
  split at h
  · obtain ⟨⟨ds, rest'⟩, hds, heq⟩ := Option.map_eq_some_iff.1 h
    cases heq
    obtain ⟨rfl, hds, -⟩ := digits?_eq_some_iff.1 hds
    exact ⟨_, rfl, .present hds⟩
  · cases h
    exact ⟨[], rfl, .absent⟩

theorem exponent?_append {power : List Char} {e : Option (Bool × List Char)}
    (he : Numeral.SpellsExponent power e)
    (hrest : FirstIs (fun c => isDigit c = false ∧ c ≠ 'e' ∧ c ≠ 'E') rest) :
    exponent? (power ++ rest) = some (e, rest) := by
  have hread : ∀ {ds}, Digits ds → digits? (ds ++ rest) = some (ds, rest) := fun hds =>
    digits?_eq_some_iff.2 ⟨rfl, hds, hrest.mono fun _ hc => hc.1⟩
  cases he with
  | absent =>
    cases rest with
    | nil => rfl
    | cons c rest =>
      obtain ⟨-, he, hE⟩ := hrest
      simp [exponent?, he, hE]
  | @bare e ds he hds =>
    -- The first digit must not be taken for a sign.
    obtain ⟨d, ds', rfl⟩ := List.exists_cons_of_ne_nil hds.1
    have hd := hds.2 d (.head _)
    have hplus : d ≠ '+' := by
      rintro rfl
      exact absurd hd (by decide)
    have hminus : d ≠ '-' := by
      rintro rfl
      exact absurd hd (by decide)
    have hread := hread hds
    rw [List.cons_append] at hread
    simp only [List.cons_append, exponent?, Bool.or_eq_true, decide_eq_true_eq, he, if_true]
    split
    · next heq => exact (hminus (List.cons.inj heq).1).elim
    · next heq => exact (hplus (List.cons.inj heq).1).elim
    · rw [hread]
      rfl
  | positive he hds =>
    simp only [List.cons_append, exponent?, Bool.or_eq_true, decide_eq_true_eq, he, if_true, hread hds]
    rfl
  | negative he hds =>
    simp only [List.cons_append, exponent?, Bool.or_eq_true, decide_eq_true_eq, he, if_true, hread hds]
    rfl

theorem eq_of_exponent? {e : Option (Bool × List Char)} (h : exponent? cs = some (e, rest)) :
    ∃ power, cs = power ++ rest ∧ Numeral.SpellsExponent power e := by
  unfold exponent? at h
  split at h
  · next c rest' =>
    split at h
    · next hc =>
      simp only [Bool.or_eq_true, decide_eq_true_eq] at hc
      split at h <;>
        obtain ⟨⟨ds, rest''⟩, hds, heq⟩ := Option.map_eq_some_iff.1 h <;>
        cases heq <;>
        obtain ⟨rfl, hds, -⟩ := digits?_eq_some_iff.1 hds
      · exact ⟨_, rfl, .negative hc hds⟩
      · exact ⟨_, rfl, .positive hc hds⟩
      · exact ⟨_, rfl, .bare hc hds⟩
    · cases h
      exact ⟨[], rfl, .absent⟩
  · cases h
    exact ⟨[], rfl, .absent⟩

/-! ## 3. Numbers -/

theorem exists_cons_of_isWhole {w : List Char} (h : Numeral.IsWhole w) :
    ∃ d ds, w = d :: ds ∧ isDigit d = true := by
  rcases h with rfl | ⟨⟨hne, hds⟩, -⟩
  · exact ⟨'0', [], rfl, by decide⟩
  · obtain ⟨d, ds, rfl⟩ := List.exists_cons_of_ne_nil hne
    exact ⟨d, ds, rfl, isDigit_iff.2 (hds d (.head _))⟩

theorem firstIs_power {power : List Char} {e : Option (Bool × List Char)}
    (h : Numeral.SpellsExponent power e) (hrest : Ends rest) :
    FirstIs (fun c => isDigit c = false ∧ c ≠ '.') (power ++ rest) := by
  have hletter : ∀ e : Char, e = 'e' ∨ e = 'E' → isDigit e = false ∧ e ≠ '.' := by
    rintro _ (rfl | rfl) <;> decide
  cases h with
  | absent => exact hrest.stops.mono fun _ hc => ⟨hc.1, hc.2.1⟩
  | bare he => exact hletter _ he
  | positive he => exact hletter _ he
  | negative he => exact hletter _ he

theorem numeral?_append {n : Numeral} (h : n.Spells cs) (hrest : Ends rest) :
    numeral? (cs ++ rest) = some (n, rest) := by
  obtain @⟨sign, whole, point, power, negative, fraction, exponent, hsign, hwhole, hfraction, hexponent⟩ := h
  have hpower := firstIs_power hexponent hrest
  have hpoint : FirstIs (isDigit · = false) (point ++ (power ++ rest)) := by
    cases hfraction with
    | absent => exact hpower.mono fun _ hc => hc.1
    | present => exact (by decide : isDigit '.' = false)
  have hw := whole?_append hwhole hpoint
  have hf := fraction?_append hfraction hpower
  have he := exponent?_append hexponent (hrest.stops.mono fun _ hc => ⟨hc.1, hc.2.2⟩)
  have hassoc : whole ++ (point ++ power) ++ rest = whole ++ (point ++ (power ++ rest)) := by
    simp only [List.append_assoc]
  cases hsign with
  | negative =>
    unfold numeral?
    simp only [List.cons_append, List.nil_append, hassoc, Option.bind_eq_bind, hw, hf, he, Option.bind_some]
    rfl
  | positive =>
    obtain ⟨d, ds, rfl, hd⟩ := exists_cons_of_isWhole hwhole
    unfold numeral?
    simp only [List.nil_append, hassoc]
    split
    · next heq =>
      cases heq
      exact absurd hd (by decide)
    · simp only [Option.bind_eq_bind, hw, hf, he, Option.bind_some]
      rfl

/-- A number begins with a sign or a digit. -/
theorem exists_cons_of_spells {n : Numeral} (h : n.Spells cs) :
    ∃ c r, cs = c :: r ∧ (c = '-' ∨ isDigit c = true) := by
  obtain ⟨hsign, hwhole, -, -⟩ := h
  cases hsign with
  | negative => exact ⟨'-', _, rfl, .inl rfl⟩
  | positive =>
    obtain ⟨d, ds, rfl, hd⟩ := exists_cons_of_isWhole hwhole
    exact ⟨d, _, rfl, .inr hd⟩

theorem eq_of_numeral? {n : Numeral} (h : numeral? cs = some (n, rest)) :
    ∃ numeral, cs = numeral ++ rest ∧ n.Spells numeral := by
  unfold numeral? at h
  simp only [Option.bind_eq_bind, Option.bind_eq_some_iff, Option.pure_def] at h
  obtain ⟨⟨whole, r₁⟩, hw, ⟨fraction, r₂⟩, hf, ⟨exponent, r₃⟩, he, heq⟩ := h
  cases heq
  obtain ⟨hcs, hwhole⟩ := eq_of_whole? hw
  obtain ⟨point, rfl, hfraction⟩ := eq_of_fraction? hf
  obtain ⟨power, rfl, hexponent⟩ := eq_of_exponent? he
  have hassoc : whole ++ (point ++ (power ++ r₃)) = whole ++ (point ++ power) ++ r₃ := by
    simp only [List.append_assoc]
  split at hcs
  · subst hcs
    exact ⟨'-' :: (whole ++ (point ++ power)), congrArg (_ :: ·) hassoc,
      .mk .negative hwhole hfraction hexponent⟩
  · subst hcs
    exact ⟨whole ++ (point ++ power), hassoc, .mk .positive hwhole hfraction hexponent⟩

end Document

end TopicPublisher.Json
