import Mathlib.Data.List.Infix
import UiMarkup.Text.Lowercase

/-!
# What lowercasing does to the end of a text

Lowercasing looks at the neighbours of a capital sigma, so the end of a text in lowercase need not
be the lowercase of its end. It is where a slash stands before the end, and where the end is spelled
in ASCII.

* `lowerAfter_suffix`: the end of a text is lowered in the light of what stands before it.
* `lower_suffix_of_slash`: what follows a slash is lowered as if nothing stood before.
* `toNat_lt_of_lowerChar`: only ASCII characters become ASCII characters, with one exception.
* `suffix_lower_iff`: a text in lowercase ends with an ASCII word if the text does, in any case.
-/

namespace UiMarkup.Text

/-- The end of a text is lowered in the light of what stands before it. -/
theorem lowerAfter_suffix (before s t : List Char) :
    lowerAfter (s.reverse ++ before) t <:+ lowerAfter before (s ++ t) := by
  induction s generalizing before with
  | nil => exact List.suffix_rfl
  | cons c s ih =>
    have hrest := ih (c :: before)
    rw [List.reverse_cons, List.append_assoc, List.singleton_append, List.cons_append, lowerAfter]
    split
    · exact hrest.trans (List.suffix_cons _ _)
    · split
      · exact hrest.trans ((List.suffix_cons _ _).trans (List.suffix_cons _ _))
      · exact hrest.trans (List.suffix_cons _ _)

/-! ## Behind a slash -/

/-- A search for a character with case does not go beyond a slash. -/
theorem meetsCased_append_slash (s above : List Char) :
    meetsCased (s ++ '/' :: above) = meetsCased s := by
  have hslash : isCaseIgnorable '/' = false ∧ isCased '/' = false := by decide +kernel
  rw [meetsCased, meetsCased, List.dropWhile_append]
  cases hrest : s.dropWhile isCaseIgnorable with
  | nil => simp [hslash]
  | cons c rest => simp

theorem lowerAfter_append_slash (before above s : List Char) :
    lowerAfter (before ++ '/' :: above) s = lowerAfter before s := by
  induction s generalizing before with
  | nil => rfl
  | cons c s ih =>
    have hrest := ih (c :: before)
    rw [List.cons_append] at hrest
    rw [lowerAfter, lowerAfter, hrest, meetsCased_append_slash]

/-- What follows a slash is lowered as if nothing stood before. -/
theorem lower_suffix_of_slash (s t : String) :
    (lower t).toList <:+ (lower (s ++ "/" ++ t)).toList := by
  have hsuffix := lowerAfter_suffix [] (s ++ "/").toList t.toList
  have hslash : (s ++ "/").toList.reverse ++ [] = [] ++ '/' :: s.toList.reverse := by simp
  rw [hslash, lowerAfter_append_slash, ← String.toList_append] at hsuffix
  rwa [lower, lower, String.toList_ofList, String.toList_ofList]

/-! ## Ends in ASCII -/

/-- Lowercase partners are characters beyond ASCII, except that the sign of the kelvin becomes a
letter. -/
theorem caseRuns_beyond_ascii : ∀ r ∈ caseRuns.toList,
    r.last < 0x80 ∨ (r.first = 0x212a ∧ r.last = 0x212a ∧ r.shift = -8383) ∨
      (0x80 ≤ r.first + r.shift ∧ r.last + r.shift < 0xd800) ∨
      (0xe000 ≤ r.first + r.shift ∧ r.last + r.shift < 0x110000) := by
  decide +kernel

/-- A character of a run has a partner beyond ASCII, or is the sign of the kelvin. -/
theorem partner?_beyond_ascii {r : CaseRun} (hr : r ∈ caseRuns.toList) {c d : Char}
    (hc : 0x80 ≤ c.toNat) (hd : r.partner? c = some d) : 0x80 ≤ d.toNat ∨ d = 'k' := by
  rw [CaseRun.partner?, Option.ite_none_right_eq_some, Bool.and_eq_true, Bool.and_eq_true,
    decide_eq_true_eq, decide_eq_true_eq] at hd
  obtain ⟨⟨⟨hfirst, hlast⟩, -⟩, hd⟩ := hd
  obtain rfl := Option.some.inj hd
  obtain hascii | ⟨hkelvin, hkelvin', hshift⟩ | hrange := caseRuns_beyond_ascii r hr
  · omega
  · obtain hcode : ((c.toNat : Int) + r.shift).toNat = 0x6b := by omega
    exact .inr (by rw [hcode])
  · have hvalid : ((c.toNat : Int) + r.shift).toNat.isValidChar := by
      unfold Nat.isValidChar
      omega
    have hcode : (Char.ofNat ((c.toNat : Int) + r.shift).toNat).toNat =
        ((c.toNat : Int) + r.shift).toNat := by
      rw [Char.ofNat, dif_pos hvalid]
      rfl
    omega

/-- A character beyond ASCII is lowered by one of the runs, or stays as it is. -/
theorem lowerChar_eq_or_partner {c : Char} (hc : 0x80 ≤ c.toNat) :
    lowerChar c = c ∨ ∃ r ∈ caseRuns.toList, r.partner? c = some (lowerChar c) := by
  rw [lowerChar, if_neg (Nat.not_lt.mpr hc)]
  split
  · exact .inl rfl
  · rename_i i _
    cases hrun : caseRuns[i]? with
    | none => exact .inl rfl
    | some r =>
      cases hpartner : r.partner? c with
      | none => exact .inl (by simp [hpartner])
      | some d =>
        refine .inr ⟨r, Array.mem_toList_iff.mpr (Array.mem_of_getElem? hrun), ?_⟩
        simp [hpartner]

/-- Only ASCII characters become ASCII characters, except for the sign of the kelvin. -/
theorem toNat_lt_of_lowerChar {c : Char} (h : (lowerChar c).toNat < 0x80)
    (hk : lowerChar c ≠ 'k') : c.toNat < 0x80 := by
  by_contra hc
  rw [Nat.not_lt] at hc
  obtain heq | ⟨r, hr, hpartner⟩ := lowerChar_eq_or_partner hc
  · rw [heq] at h
    omega
  · obtain hbeyond | hkelvin := partner?_beyond_ascii hr hc hpartner
    · omega
    · exact hk hkelvin

/-- A character stands for what is put in its place, whose last character is not an ASCII one, or
for its lowercase partner. -/
theorem lowerAfter_cons_cases (before : List Char) (c : Char) (s : List Char) :
    (∃ block last, 0x80 ≤ last.toNat ∧
      lowerAfter before (c :: s) = block ++ last :: lowerAfter (c :: before) s) ∨
    lowerAfter before (c :: s) = lowerChar c :: lowerAfter (c :: before) s := by
  rw [lowerAfter]
  split
  · refine .inl ⟨[], _, ?_, rfl⟩
    split <;> decide
  · split
    · exact .inl ⟨['i'], _, by decide, rfl⟩
    · exact .inr rfl

/-- No character is lost. -/
theorem length_le_lowerAfter (before s : List Char) : s.length ≤ (lowerAfter before s).length := by
  induction s generalizing before with
  | nil => exact Nat.le_refl 0
  | cons c s ih =>
    have hrest := ih (c :: before)
    obtain ⟨block, last, -, heq⟩ | heq := lowerAfter_cons_cases before c s <;> rw [heq] <;>
      simp only [List.length_append, List.length_cons] <;> omega

theorem toNat_lt_of_toLower {c : Char} (h : c.toLower.toNat < 0x80) : c.toNat < 0x80 := by
  unfold Char.toLower at h
  split at h
  · rename_i hrange
    have := UInt32.le_iff_toNat_le.mp hrange.2
    exact Nat.lt_of_le_of_lt this (by decide)
  · exact h

/-- ASCII characters are lowered one by one. -/
theorem lowerAfter_of_ascii {s : List Char} (h : ∀ c ∈ s, c.toNat < 0x80) (before : List Char) :
    lowerAfter before s = s.map Char.toLower := by
  induction s generalizing before with
  | nil => rfl
  | cons c s ih =>
    obtain ⟨hc, hs⟩ := List.forall_mem_cons.mp h
    rw [List.map_cons, ← ih hs (c :: before)]
    grind [lowerAfter, lowerChar]

/-- The word is spelled in ASCII. A k does not count, for the sign of the kelvin becomes one. -/
def IsAscii (word : List Char) : Prop :=
  ∀ c ∈ word, c.toNat < 0x80 ∧ c ≠ 'k'

theorem exists_suffix_of_suffix_lowerAfter {word : List Char} (h : IsAscii word)
    (before s : List Char) (hsuffix : word <:+ lowerAfter before s) :
    ∃ ending, ending <:+ s ∧ ending.map Char.toLower = word := by
  induction s generalizing before word with
  | nil => exact ⟨[], List.suffix_rfl, (List.suffix_nil.mp hsuffix).symm⟩
  | cons c s ih =>
    have hfound (hsuffix : word <:+ lowerAfter (c :: before) s) :
        ∃ ending, ending <:+ c :: s ∧ ending.map Char.toLower = word := by
      obtain ⟨ending, hending, hword⟩ := ih h (c :: before) hsuffix
      exact ⟨ending, hending.trans (List.suffix_cons c s), hword⟩
    obtain ⟨block, last, hlast, heq⟩ | heq := lowerAfter_cons_cases before c s
    · have hmem : last ∉ word := fun hmem => by
        have := (h last hmem).1
        omega
      have htail : last :: lowerAfter (c :: before) s <:+ lowerAfter before (c :: s) :=
        ⟨block, heq.symm⟩
      obtain hle | hle := List.suffix_or_suffix_of_suffix hsuffix htail
      · obtain rfl | hle := List.suffix_cons_iff.mp hle
        · exact absurd List.mem_cons_self hmem
        · exact hfound hle
      · exact absurd (hle.subset List.mem_cons_self) hmem
    · rw [heq] at hsuffix
      obtain rfl | hle := List.suffix_cons_iff.mp hsuffix
      · have hc := h _ List.mem_cons_self
        obtain ⟨ending, hending, hword⟩ :=
          ih (fun d hd => h d (List.mem_cons_of_mem _ hd)) (c :: before) List.suffix_rfl
        -- nothing is lost by lowercasing, so the ending is all of the rest
        have hlength := length_le_lowerAfter (c :: before) s
        rw [← hword, List.length_map] at hlength
        obtain rfl := hending.eq_of_length_le hlength
        refine ⟨c :: ending, List.suffix_rfl, ?_⟩
        rw [List.map_cons, hword, lowerChar, if_pos (toNat_lt_of_lowerChar hc.1 hc.2)]
      · exact hfound hle

/-- A text in lowercase ends with a word in ASCII exactly if the text does, in whatever case. -/
theorem suffix_lower_iff {word : List Char} (h : IsAscii word) (s : String) :
    word <:+ (lower s).toList ↔ ∃ ending, ending <:+ s.toList ∧ ending.map Char.toLower = word := by
  rw [lower, String.toList_ofList]
  refine ⟨exists_suffix_of_suffix_lowerAfter h [] s.toList, ?_⟩
  rintro ⟨ending, ⟨stem, hstem⟩, rfl⟩
  have hascii : ∀ c ∈ ending, c.toNat < 0x80 := fun c hc =>
    toNat_lt_of_toLower (h _ (List.mem_map_of_mem hc)).1
  have hsuffix := lowerAfter_suffix [] stem ending
  rwa [hstem, lowerAfter_of_ascii hascii] at hsuffix

end UiMarkup.Text
