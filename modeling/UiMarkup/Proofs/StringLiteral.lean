import UiMarkup.Text.DoubleQuoted

/-!
# String literals of the script

The value of a double-quoted literal as the script reads it, apart from how such literals are
written. A literal is complete: the only quote that is not escaped ends it, and it holds no line
end.

Main statements: `literalValue?_doubleQuoted`, a text between double quotes is a literal of that
text, and `closed_of_literalValue?`, a literal is complete.
-/

namespace UiMarkup.Text

/-- The value of a hexadecimal digit. -/
def hexValue? (c : Char) : Option Nat :=
  if '0' ≤ c ∧ c ≤ '9' then some (c.toNat - '0'.toNat)
  else if 'a' ≤ c ∧ c ≤ 'f' then some (c.toNat - 'a'.toNat + 10)
  else if 'A' ≤ c ∧ c ≤ 'F' then some (c.toNat - 'A'.toNat + 10)
  else none

/-- The character with the code that four hexadecimal digits spell. -/
def codeChar? (a b c d : Char) : Option Char :=
  match hexValue? a, hexValue? b, hexValue? c, hexValue? d with
  | some a, some b, some c, some d =>
    let n := ((a * 16 + b) * 16 + c) * 16 + d
    if n.isValidChar then some (Char.ofNat n) else none
  | _, _, _, _ => none

/-- The character that stands after a backslash, other than a code, and what the two mean. Digits,
the letters of codes and line ends have no meaning there. -/
def escapeChar? (c : Char) : Option Char :=
  if c = 'b' then some '\x08'
  else if c = 't' then some '\t'
  else if c = 'n' then some '\n'
  else if c = 'v' then some '\x0b'
  else if c = 'f' then some '\x0c'
  else if c = 'r' then some '\r'
  else if c.isDigit || c == 'x' || c == 'u' || c == '\n' || c == '\r' then none
  else some c

/-- What follows the opening quote of a literal, decoded. -/
def literalBody? : List Char → Option (List Char)
  | [] => none
  | ['"'] => some []
  | '\\' :: 'u' :: a :: b :: c :: d :: s =>
    match codeChar? a b c d with
    | some x => (literalBody? s).map (x :: ·)
    | none => none
  | '\\' :: c :: s =>
    match escapeChar? c with
    | some x => (literalBody? s).map (x :: ·)
    | none => none
  | c :: s =>
    if c = '"' ∨ c = '\\' ∨ c = '\n' ∨ c = '\r' then none else (literalBody? s).map (c :: ·)

/-- The value of a double-quoted literal. -/
def literalValue? (script : String) : Option String :=
  match script.toList with
  | '"' :: s => (literalBody? s).map String.ofList
  | _ => none

/-- An escape other than a code stands for one character. -/
theorem literalBody?_escape {c x : Char} (hu : c ≠ 'u') (h : escapeChar? c = some x)
    (s : List Char) : literalBody? ('\\' :: c :: s) = (literalBody? s).map (x :: ·) := by
  rw [literalBody?]
  · simp [h]
  · rintro a b c' d s' rfl
    simp_all

/-- A character that needs no escape stands for itself. -/
theorem literalBody?_plain {c : Char} (hq : c ≠ '"') (hb : c ≠ '\\') (hn : c ≠ '\n')
    (hr : c ≠ '\r') (s : List Char) : literalBody? (c :: s) = (literalBody? s).map (c :: ·) := by
  rw [literalBody?]
  · simp [hq, hb, hn, hr]
  · simp [hq]
  · simp [hb]
  · simp [hb]

/-- The code of a control character: two zeros and two digits, which spell it. -/
theorem hexPadded_control : ∀ n < 32,
    hexPadded 4 n = ['0', '0', Nat.digitChar (n / 16), Nat.digitChar (n % 16)] ∧
      codeChar? '0' '0' (Nat.digitChar (n / 16)) (Nat.digitChar (n % 16)) =
        some (Char.ofNat n) := by
  decide

theorem literalBody?_doubleQuotedChar (c : Char) (s : List Char) :
    literalBody? (doubleQuotedChar c ++ s) = (literalBody? s).map (c :: ·) := by
  unfold doubleQuotedChar
  split
  · next h =>
    rcases h with rfl | rfl <;> exact literalBody?_escape (by decide) rfl s
  split
  · next h => subst h; exact literalBody?_escape (by decide) rfl s
  split
  · next h => subst h; exact literalBody?_escape (by decide) rfl s
  split
  · next h => subst h; exact literalBody?_escape (by decide) rfl s
  split
  · next h =>
    obtain rfl : c = '\x08' := Char.toNat_inj.mp h
    exact literalBody?_escape (by decide) rfl s
  split
  · next h =>
    obtain rfl : c = '\x0c' := Char.toNat_inj.mp h
    exact literalBody?_escape (by decide) rfl s
  split
  · next h =>
    obtain ⟨hcode, hvalue⟩ := hexPadded_control c.toNat h
    rw [hcode]
    simp [literalBody?, hvalue]
  · next h _ _ _ _ _ _ =>
    simp only [not_or] at h
    exact literalBody?_plain h.1 h.2 ‹_› ‹_› s

/-- A text between double quotes is a literal of that text. -/
theorem literalValue?_doubleQuoted (s : String) : literalValue? (doubleQuoted s) = some s := by
  have hbody (cs : List Char) :
      literalBody? (cs.flatMap doubleQuotedChar ++ ['"']) = some cs := by
    induction cs with
    | nil => rfl
    | cons c cs ih =>
      rw [List.flatMap_cons, List.append_assoc, literalBody?_doubleQuotedChar, ih]
      rfl
  simp [literalValue?, doubleQuoted, hbody]

/-! ## Complete literals -/

/-- The indices of the double quotes that no backslash escapes, counted from the given one. -/
def unescapedQuotes (index : Nat) : List Char → List Nat
  | [] => []
  | '\\' :: _ :: s => unescapedQuotes (index + 2) s
  | c :: s => if c = '"' then index :: unescapedQuotes (index + 1) s else unescapedQuotes (index + 1) s

/-- The only quote that no backslash escapes ends the text, which holds no line end. -/
structure Closed (s : List Char) : Prop where
  ne_nil : s ≠ []
  quotes (index : Nat) : unescapedQuotes index s = [index + (s.length - 1)]
  newline : '\n' ∉ s
  carriageReturn : '\r' ∉ s

theorem Closed.plain {c : Char} {s : List Char} (h : Closed s)
    (hc : c ∉ ['"', '\\', '\n', '\r']) : Closed (c :: s) := by
  simp only [List.mem_cons, not_or, List.not_mem_nil] at hc
  have hpos := List.length_pos_iff.mpr h.ne_nil
  refine ⟨List.cons_ne_nil c s, fun index => ?_, ?_, ?_⟩
  · rw [unescapedQuotes, if_neg hc.1, h.quotes, List.length_cons]
    · congr 1
      omega
    · exact fun _ _ hb => absurd hb hc.2.1
  · exact List.not_mem_cons_of_ne_of_not_mem (Ne.symm hc.2.2.1) h.newline
  · exact List.not_mem_cons_of_ne_of_not_mem (Ne.symm hc.2.2.2.1) h.carriageReturn

theorem Closed.escape {c : Char} {s : List Char} (h : Closed s) (hn : c ≠ '\n') (hr : c ≠ '\r') :
    Closed ('\\' :: c :: s) := by
  have hpos := List.length_pos_iff.mpr h.ne_nil
  refine ⟨List.cons_ne_nil _ _, fun index => ?_, ?_, ?_⟩
  · rw [unescapedQuotes, h.quotes, List.length_cons, List.length_cons]
    congr 1
    omega
  · simp [hn.symm, h.newline]
  · simp [hr.symm, h.carriageReturn]

/-- A hexadecimal digit has no other meaning between quotes. -/
theorem not_mem_of_hexValue? {c : Char} {n : Nat} (h : hexValue? c = some n) :
    c ∉ ['u', 'n', '"', '\\', '\n', '\r'] := by
  have hnone : ∀ d ∈ ['u', 'n', '"', '\\', '\n', '\r'], hexValue? d = none := by
    simp [hexValue?]
  intro hmem
  rw [hnone c hmem] at h
  cases h

/-- The digits of a code are hexadecimal digits. -/
theorem not_mem_of_codeChar? {a b c d x : Char} (h : codeChar? a b c d = some x) :
    ∀ e ∈ [a, b, c, d], e ∉ ['u', 'n', '"', '\\', '\n', '\r'] := by
  unfold codeChar? at h
  split at h
  · next ha hb hc hd =>
    simp only [List.forall_mem_cons]
    exact ⟨not_mem_of_hexValue? ha, not_mem_of_hexValue? hb, not_mem_of_hexValue? hc,
      not_mem_of_hexValue? hd, by simp⟩
  · cases h

/-- What follows the opening quote of a literal is closed. -/
theorem closed_of_literalBody? {s v : List Char} (h : literalBody? s = some v) : Closed s := by
  fun_induction literalBody? s generalizing v with
  | case1 | case4 | case6 | case7 => cases h
  | case2 => exact ⟨by decide, fun _ => rfl, by decide, by decide⟩
  | case3 a b c d s x hcode ih =>
    obtain ⟨w, hw, -⟩ := Option.map_eq_some_iff.mp h
    have hdigits := not_mem_of_codeChar? hcode
    have hplain (e : Char) (he : e ∈ [a, b, c, d]) : e ∉ ['"', '\\', '\n', '\r'] := by
      intro hmem
      exact hdigits e he (List.mem_cons_of_mem _ (List.mem_cons_of_mem _ hmem))
    have hd := (ih hw).plain (hplain d (by simp))
    have hc := hd.plain (hplain c (by simp))
    have hb := hc.plain (hplain b (by simp))
    exact (hb.plain (hplain a (by simp))).escape (by decide) (by decide)
  | case5 c s _ x hesc ih =>
    obtain ⟨w, hw, -⟩ := Option.map_eq_some_iff.mp h
    refine (ih hw).escape ?_ ?_
    · rintro rfl
      cases hesc
    · rintro rfl
      cases hesc
  | case8 c s _ _ _ hc ih =>
    obtain ⟨w, hw, -⟩ := Option.map_eq_some_iff.mp h
    exact (ih hw).plain (by simpa using hc)

/-- A literal is complete: its first and its last character are the only quotes that no backslash
escapes, and it holds no line end. -/
theorem closed_of_literalValue? {script value : String} (h : literalValue? script = some value) :
    unescapedQuotes 0 script.toList = [0, script.toList.length - 1] ∧
      '\n' ∉ script.toList ∧ '\r' ∉ script.toList := by
  unfold literalValue? at h
  split at h
  · next s hs =>
    obtain ⟨v, hv, -⟩ := Option.map_eq_some_iff.mp h
    have hclosed := closed_of_literalBody? hv
    have hpos := List.length_pos_iff.mpr hclosed.ne_nil
    rw [hs]
    refine ⟨?_, by simp [hclosed.newline], by simp [hclosed.carriageReturn]⟩
    rw [unescapedQuotes, if_pos rfl, hclosed.quotes, List.length_cons]
    · congr 2
      omega
    · simp
  · cases h

end UiMarkup.Text
