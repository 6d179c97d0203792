import TopicPublisher.Proofs.Text.Utf8
import TopicPublisher.Text.LowerCase

/-!
# Lower case and ASCII

A lower-cased text has no capital letters of ASCII, and an ASCII text that it begins with was there before,
in some mixture of cases. The second needs care: outside ASCII there are two characters whose lower-case
form is or begins with an ASCII letter, the sign of the kelvin (`k`) and `İ` (`i` with a dot above). The
names that are looked for have no `k` and do not end in `i` (`Plain`), so that neither can pass for a part of
one.

Results:
1. `form_lowerChar`: the lower-case forms of characters.
2. `toLower_of_mem_lower`: there are no capital letters.
3. `prefix_of_prefix_lower`: what lower-cased texts begin with.
-/

namespace TopicPublisher.Text

/-! ## Definitions -/

/-- ASCII characters none of which comes from a character outside ASCII. -/
def Plain (cs : List Char) : Prop := (∀ c ∈ cs, c.toNat < 128 ∧ c ≠ 'k') ∧ cs.getLast? ≠ some 'i'

instance (cs : List Char) : Decidable (Plain cs) :=
  @instDecidableAnd _ _ (List.decidableBAll _ cs) inferInstance

/-- A character that cannot be taken for one of ASCII other than `k`. -/
def Foreign (c : Char) : Prop := c = 'k' ∨ 128 ≤ c.toNat

/-- What a character becomes in a lower-cased text. -/
inductive Form : Char → List Char → Prop
  | ascii {c : Char} : c.toNat < 128 → Form c [c.toLower]
  | foreign {c d : Char} : 128 ≤ c.toNat → Foreign d → Form c [d]
  | dotted {c : Char} : 128 ≤ c.toNat → Form c ['i', Char.ofNat 0x307]

/-! ## 1. Characters -/

variable {c d : Char} {cs ds : List Char}

/-- The forms of a run: beyond ASCII, and characters. The sign of the kelvin has a run of its own. -/
def CaseRun.Fits (r : CaseRun) : Prop :=
  (r.first = 8490 ∧ r.last = 8490 ∧ r.shift = -8383) ∨
    (128 ≤ r.first + r.shift ∧ (r.last + r.shift < 0xD800 ∨
      0xDFFF < r.first + r.shift ∧ r.last + r.shift < 0x110000))

instance (r : CaseRun) : Decidable r.Fits := inferInstanceAs (Decidable (_ ∨ _))

theorem fits_of_mem : ∀ r ∈ caseRunsLow ++ caseRunsHigh, r.Fits := by decide +kernel

theorem foreign_of_lower? {r : CaseRun} (hr : r.Fits) {n m : Nat} (h : r.lower? n = some m) :
    Foreign (Char.ofNat m) := by
  unfold CaseRun.lower? at h
  split at h
  · next hn =>
    simp only [Option.some.injEq] at h
    rcases hr with ⟨hfirst, hlast, hshift⟩ | ⟨hlow, hvalid⟩
    · have hm : m = 107 := by omega
      subst hm
      exact .inl rfl
    · have hmvalid : m.isValidChar := by
        unfold Nat.isValidChar
        omega
      refine .inr ?_
      rw [Utf8.toNat_ofNat hmvalid]
      omega
  · cases h

theorem foreign_of_lowerBeyondAscii? {n m : Nat} (h : lowerBeyondAscii? n = some m) :
    Foreign (Char.ofNat m) := by
  have hfind : ∀ rs : List CaseRun, (∀ r ∈ rs, r.Fits) → rs.findSome? (CaseRun.lower? n) = some m →
      Foreign (Char.ofNat m) := by
    intro rs hrs hm
    obtain ⟨r, hr, hm⟩ := List.exists_of_findSome?_eq_some hm
    exact foreign_of_lower? (hrs r hr) hm
  unfold lowerBeyondAscii? at h
  split at h
  · next m' hm =>
    cases h
    exact hfind _ (fun r hr => fits_of_mem r (List.mem_append_left _ hr)) hm
  · exact hfind _ (fun r hr => fits_of_mem r (List.mem_append_right _ hr)) h

theorem form_lowerChar (c : Char) : Form c (lowerChar c) := by
  unfold lowerChar
  split
  · next h => exact .ascii h
  · next h =>
    split
    · exact .dotted (Nat.le_of_not_lt h)
    · refine .foreign (Nat.le_of_not_lt h) ?_
      cases hm : lowerBeyondAscii? c.toNat with
      | none =>
        rw [Option.getD_none, Char.ofNat_toNat]
        exact .inr (Nat.le_of_not_lt h)
      | some m => exact foreign_of_lowerBeyondAscii? hm

/-! ## 2. Texts -/

/-- A text is lower-cased character by character. -/
theorem lowerFrom_cons (w : Bool) (c : Char) (cs : List Char) :
    ∃ form w', lowerFrom w (c :: cs) = form ++ lowerFrom w' cs ∧ Form c form := by
  rw [lowerFrom]
  split
  · next h =>
    subst h
    refine ⟨[_], true, rfl, .foreign (by decide) ?_⟩
    split <;> exact .inr (by decide)
  · exact ⟨_, _, rfl, form_lowerChar c⟩

theorem toLower_of_le (h : 128 ≤ c.toNat) : c.toLower = c := by
  refine dif_neg fun hc => ?_
  have hZ : c.toNat ≤ 90 := UInt32.le_iff_toNat_le.1 hc.2
  omega

/-- What holds of the 128 characters of ASCII. -/
theorem of_ascii {P : Char → Prop} (h : ∀ n, n < 128 → P (Char.ofNat n)) (hc : c.toNat < 128) :
    P c := by
  have hP := h c.toNat hc
  rwa [Char.ofNat_toNat] at hP

theorem toLower_toLower (c : Char) : c.toLower.toLower = c.toLower := by
  by_cases h : c.toNat < 128
  · exact of_ascii (P := fun c => c.toLower.toLower = c.toLower) (by decide +kernel) h
  · rw [toLower_of_le (Nat.le_of_not_lt h), toLower_of_le (Nat.le_of_not_lt h)]

theorem toLower_of_foreign (h : Foreign c) : c.toLower = c := by
  rcases h with rfl | h
  · rfl
  · exact toLower_of_le h

theorem Form.toLower {form : List Char} (h : Form c form) : ∀ d ∈ form, d.toLower = d := by
  cases h with
  | ascii =>
    intro d hd
    rw [List.mem_singleton.1 hd]
    exact toLower_toLower c
  | foreign _ hf =>
    intro d hd
    rw [List.mem_singleton.1 hd]
    exact toLower_of_foreign hf
  | dotted =>
    intro d hd
    rcases List.mem_cons.1 hd with rfl | hd
    · rfl
    · rw [List.mem_singleton.1 hd]
      exact toLower_of_le (by decide)

/-- There are no capital letters of ASCII in a lower-cased text. -/
theorem toLower_of_mem_lowerFrom {w : Bool} (h : d ∈ lowerFrom w cs) : d.toLower = d := by
  induction cs generalizing w with
  | nil => cases h
  | cons c cs ih =>
    obtain ⟨form, w', heq, hform⟩ := lowerFrom_cons w c cs
    rw [heq] at h
    rcases List.mem_append.1 h with h | h
    · exact hform.toLower d h
    · exact ih h

theorem toLower_of_mem_lower {s : String} (h : c ∈ (lower s).toList) : c.toLower = c := by
  rw [lower, String.toList_ofList] at h
  exact toLower_of_mem_lowerFrom h

example : lower "PULSAR_Template Été ΟΔΟΣ" = "pulsar_template été οδος" := by decide +kernel

theorem map_toLower_eq_self (h : ∀ c ∈ cs, c.toLower = c) : cs.map Char.toLower = cs :=
  (List.map_congr_left h).trans (List.map_id' cs)

/-! ## 3. What texts begin with -/

theorem Plain.tail (h : Plain (d :: ds)) : Plain ds := by
  refine ⟨fun c hc => h.1 c (List.mem_cons_of_mem _ hc), fun hlast => h.2 ?_⟩
  rw [List.getLast?_cons, hlast]
  rfl

theorem prefix_of_prefix_lowerFrom {w : Bool} (hp : Plain ds) (h : ds <+: lowerFrom w cs) :
    ds <+: cs.map Char.toLower := by
  induction cs generalizing ds w with
  | nil => exact h
  | cons c cs ih =>
    cases ds with
    | nil => exact List.nil_prefix
    | cons d ds =>
      have hd := hp.1 d List.mem_cons_self
      obtain ⟨form, w', heq, hform⟩ := lowerFrom_cons w c cs
      rw [heq] at h
      cases hform with
      | ascii =>
        obtain ⟨hc, hrest⟩ := List.cons_prefix_cons.1 h
        exact List.cons_prefix_cons.2 ⟨hc, ih hp.tail hrest⟩
      | foreign _ hf =>
        -- The text begins with no character of this kind.
        obtain ⟨hc, -⟩ := List.cons_prefix_cons.1 h
        rcases hf with hk | hf
        · exact absurd (hc.trans hk) hd.2
        · rw [← hc] at hf
          omega
      | dotted =>
        -- Behind this `i` stands a dot, and what is looked for goes on in ASCII or ends before it.
        obtain ⟨hi, hrest⟩ := List.cons_prefix_cons.1 h
        cases ds with
        | nil => exact absurd (congrArg some hi) hp.2
        | cons e ds =>
          obtain ⟨hdot, -⟩ := List.cons_prefix_cons.1 hrest
          have he := (hp.1 e (List.mem_cons_of_mem _ List.mem_cons_self)).1
          rw [hdot] at he
          exact absurd he (by decide)

theorem prefix_of_prefix_lower {s : String} (hp : Plain ds) (h : ds <+: (lower s).toList) :
    ds <+: s.toList.map Char.toLower := by
  rw [lower, String.toList_ofList] at h
  exact prefix_of_prefix_lowerFrom hp h

end TopicPublisher.Text
